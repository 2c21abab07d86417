import SubmarineMonitor.Central.GetConfig
import SubmarineMonitor.Central.Grading
import SubmarineMonitor.Node.ConfigLife

/-!
# Commands and replies, end to end

A setter of `ManagementCommand` on one computer and `configuration_on_frame` on the other, with
everything between them: `Communication::send`, the bytes on the line in whatever chunks they arrive,
the receiver, and `comm_route_frame`. The payloads are declared on both sides, and the tags are listed
four times.

`SetterCall.Sets` says what a call is for, in numbers and without reference to any of this;
`command_fidelity` says that this is what happens. The way back is `reply_fidelity`: the reply narrows
each temperature to one byte, and loses nothing, because whatever frames a node was sent, what it holds
in RAM and in flash fits.

## What is compared with what

A command is a method call with two or one arguments on one side, and a changed field of a structure
on the other. `SetterCall.Sets` relates the two without bytes: the limits that the call names have
the values of its arguments. Everything in between is translated from the two computers separately,
so that a payload declared with its fields in another order, or a tag listed wrongly in one of the
places where the tags are listed, would make the theorem false and not merely look odd.

A call that a setter rejects sends nothing, and is not spoken of here; what is accepted is
`Central.Grading`. On the node's side the handler accepts every frame of the right length, whatever
it says.

## The reply

The way back needs an invariant and not a check. The node stores a temperature as an `int16_t` and
the reply carries it so, but the central computer keeps an `int8_t`. No temperature is outside that
range, because the setters send one byte for each, and because a page in flash is one that the node
has written (`ConfigLife.Narrow`, kept by every frame and every boot).

## What is left out

Losses on the line. A command that does not arrive changes nothing, and its caller is not told; that
is the design, as commands are not acknowledged. The order in which commands of several threads
arrive is the order of their `send` calls, which a mutex keeps apart.
-/

open Machine

namespace SubmarineMonitor

/-- `Communication::send`, the frame being its arguments: what is written to the transport, or the
error it throws for. -/
def communicationSend (f : TlvFrame) : Except TlvStatus (List UInt8) :=
  tlvEncode f.tag f.value f.len tlvMaxFrame

/-- What the frames of one call come to on the line. -/
def communicationSends (frames : List TlvFrame) : Except TlvStatus (List UInt8) :=
  (frames.mapM communicationSend).map List.flatten

namespace ManagementCommand

/-! ### What a call is for -/

/-- The limits named by the call have the values of its arguments, the other limits are as before. -/
def SetterCall.Sets (l l' : ConfigLimits) : SetterCall → Prop
  | .tempNormal min max => l'.tempNormalMin.toInt = min.toInt ∧ l'.tempNormalMax.toInt = max.toInt ∧
      l' = { l with tempNormalMin := l'.tempNormalMin, tempNormalMax := l'.tempNormalMax }
  | .tempWarning min max => l'.tempWarningMin.toInt = min.toInt ∧
      l'.tempWarningMax.toInt = max.toInt ∧
      l' = { l with tempWarningMin := l'.tempWarningMin, tempWarningMax := l'.tempWarningMax }
  | .humidityNormal min => l' = { l with humidityNormalMin := min }
  | .humidityWarning min => l' = { l with humidityWarningMin := min }
  | .lightNormal min => l' = { l with lightNormalMin := min }
  | .lightWarning min => l' = { l with lightWarningMin := min }
  | .batteryNormal min => l' = { l with batteryNormalMin := min }
  | .batteryWarning min => l' = { l with batteryWarningMin := min }

/-- The bytes of a temperature, widened by the node, are the temperature. -/
theorem SetterCall.sets_set (call : SetterCall) (l : ConfigLimits) : call.Sets l (call.set l) := by
  cases call with
  | tempNormal min max => exact ⟨Int8.toInt_toInt16 min, Int8.toInt_toInt16 max, rfl⟩
  | tempWarning min max => exact ⟨Int8.toInt_toInt16 min, Int8.toInt_toInt16 max, rfl⟩
  | humidityNormal | humidityWarning | lightNormal | lightWarning | batteryNormal
  | batteryWarning => rfl

/-! ### What is sent for it -/

/-- The message a call sends. -/
def SetterCall.outgoing : SetterCall → Outgoing
  | .tempNormal min max =>
    ⟨tlvTagSetTempNormal, [min.toUInt8, max.toUInt8], Nat.le_of_ble_eq_true rfl⟩
  | .tempWarning min max =>
    ⟨tlvTagSetTempWarning, [min.toUInt8, max.toUInt8], Nat.le_of_ble_eq_true rfl⟩
  | .humidityNormal min => ⟨tlvTagSetHumNormal, [min], Nat.le_of_ble_eq_true rfl⟩
  | .humidityWarning min => ⟨tlvTagSetHumWarning, [min], Nat.le_of_ble_eq_true rfl⟩
  | .lightNormal min => ⟨tlvTagSetLightNormal, [min], Nat.le_of_ble_eq_true rfl⟩
  | .lightWarning min => ⟨tlvTagSetLightWarning, [min], Nat.le_of_ble_eq_true rfl⟩
  | .batteryNormal min => ⟨tlvTagSetBattNormal, [min], Nat.le_of_ble_eq_true rfl⟩
  | .batteryWarning min => ⟨tlvTagSetBattWarning, [min], Nat.le_of_ble_eq_true rfl⟩

theorem sendTempRange_of_accepted {m : ManagementCommand} {tag : UInt8} {label : String}
    {min max : Int8} (h : (m.sendTempRange tag label min max).2.2 = true) :
    (m.sendTempRange tag label min max).2.1 = [linkFrame tag [min.toUInt8, max.toUInt8]] := by
  rw [sendTempRange] at h ⊢
  split at h
  · cases h
  · rename_i hle
    rw [if_neg hle]

theorem sendBound_of_accepted {m : ManagementCommand} {tag : UInt8} {label : String} {min : UInt8}
    (h : (m.sendBound tag label min).2.2 = true) :
    (m.sendBound tag label min).2.1 = [linkFrame tag [min]] := by
  rw [sendBound] at h ⊢
  split at h
  · cases h
  · rename_i hle
    rw [if_neg hle]

/-- An accepted call sends its message. -/
theorem runSetter_of_accepted {m : ManagementCommand} {call : SetterCall}
    (h : (m.runSetter call).2.2 = true) :
    (m.runSetter call).2.1 = [call.outgoing.message.frame] := by
  cases call with
  | tempNormal | tempWarning => exact sendTempRange_of_accepted h
  | humidityNormal | humidityWarning | lightNormal | lightWarning | batteryNormal
  | batteryWarning => exact sendBound_of_accepted h

/-- On the line it is the message's frame. -/
theorem communicationSends_outgoing (call : SetterCall) :
    communicationSends [call.outgoing.message.frame] = .ok call.outgoing.bytes := by
  have hsend : communicationSend call.outgoing.message.frame =
      tlvEncode call.outgoing.tag (some call.outgoing.value) call.outgoing.len tlvMaxFrame := by
    cases call <;> rfl
  have hcap : call.outgoing.value.length + 6 ≤ tlvMaxFrame :=
    Nat.add_le_add_right call.outgoing.value_le 6
  rw [communicationSends, List.mapM_cons, hsend, Outgoing.tlvEncode_eq _ hcap]
  show Except.ok ([call.outgoing.bytes].flatten) = _
  rw [List.flatten_singleton]

/-- The node handles it by committing the limits the call asks for. -/
theorem routeToConfig_outgoing (call : SetterCall) (c : Config) (eraseOk : Bool) (programs : ℕ) :
    ∃ description, routeToConfig eraseOk programs c call.outgoing.message.frame =
      (commit { c with limits := call.set c.limits } eraseOk programs description).1 := by
  cases call <;> exact ⟨_, rfl⟩

/-! ### From one end to the other -/

/-- **A command arrives.** An accepted call is encoded without an error, and however the bytes are cut
up on their way to a receiver that is hunting, the node then has the limits that the call is to set,
the others as they were, and all of them in flash. A `SET_*` frame whose length is not that of its
payload does nothing. -/
theorem command_fidelity (c : Config) {programs : ℕ} (hprograms : 3 ≤ programs) :
    (∀ (m : ManagementCommand) (call : SetterCall) (recv : TlvReceiver),
      (m.runSetter call).2.2 = true → recv.state = stSof0 →
        ∃ bytes, communicationSends (m.runSetter call).2.1 = .ok bytes ∧
          ∀ chunks : List (List UInt8), chunks.flatten = bytes →
            ∃ c', (chunks.foldl (feedTo (routeToConfig true programs)) ⟨recv, c⟩).done = c' ∧
              call.Sets c.limits c'.limits ∧ c'.Saved) ∧
      ∀ (f : TlvFrame) (len : UInt8) (eraseOk : Bool) (programs : ℕ),
        setPayloadLen f.tag = some len → f.len ≠ len →
          (configurationOnFrame c (some f) eraseOk programs).1 = c := by
  constructor
  · intro m call recv haccepted hrecv
    refine ⟨call.outgoing.bytes, ?_, fun chunks hchunks ↦ ⟨_, rfl, ?_⟩⟩
    · rw [runSetter_of_accepted haccepted, communicationSends_outgoing]
    · have hsent : chunks.flatten = [call.outgoing].flatMap Outgoing.bytes := by
        rw [hchunks, List.flatMap_singleton]
      have harrives := @feedTo_chunks Config _ (@readsMessage_routeToConfig true programs)
        ⟨recv, c⟩ hrecv [call.outgoing] chunks hsent
      obtain ⟨description, hcommit⟩ := routeToConfig_outgoing call c true programs
      rw [List.map_singleton, List.foldl_cons, List.foldl_nil, hcommit] at harrives
      rw [harrives]
      exact ⟨call.sets_set c.limits, saved_commit _ hprograms description⟩
  · intro f len eraseOk programs htag hlen
    rw [configurationOnFrame_of_len_ne htag hlen]

/-- The normal range becomes −5 to 26 °C. -/
theorem command_fidelity_subzero :
    ∃ bytes, communicationSends
        (managementCommandCreate.runSetter (.tempNormal (-5) 26)).2.1 = .ok bytes ∧
      ∀ chunks : List (List UInt8), chunks.flatten = bytes →
        ∃ c', (chunks.foldl (feedTo (routeToConfig true 3))
            ⟨tlvReceiverInit default, ⟨defaultLimits, .erased⟩⟩).done = c' ∧
          (SetterCall.tempNormal (-5) 26).Sets defaultLimits c'.limits ∧ c'.Saved :=
  (command_fidelity ⟨defaultLimits, .erased⟩ le_rfl).1 managementCommandCreate
    (.tempNormal (-5) 26) (tlvReceiverInit default) rfl rfl

/-! ### The way back -/

/-- `on_frame`, the `TLV_TAG_CONFIG_REPLY` case from beginning to end. -/
def onFrameConfigReply (m : ManagementCommand) (f : TlvFrame) : ManagementCommand :=
  match m.onConfigReply f with
  | none => m
  | some m => m.onConfigReplyDone

end ManagementCommand

/-- The temperatures fit in an `int8_t`, those in RAM and those a boot would load. -/
structure ConfigLife.Narrow (life : ConfigLife) : Prop where
  ram : ∀ session ∈ life.sessions.head?, session.limits.Narrow
  flash : ∀ eraseOk programs, (configFlashLoad life.page eraseOk programs).1.Narrow

theorem narrow_configUnbooted : configUnbooted.Narrow where
  ram := fun _ h ↦ by cases h
  flash := fun _ _ ↦ narrow_defaultLimits

/-- A save of narrow limits leaves narrow ones to be loaded, however it ends. -/
theorem narrow_load_save {page : FlashPage} {l : ConfigLimits}
    (hpage : ∀ eraseOk programs, (configFlashLoad page eraseOk programs).1.Narrow)
    (hl : l.Narrow) (eraseOk : Bool) (programs : ℕ) (eraseOk' : Bool) (programs' : ℕ) :
    (configFlashLoad (configFlashSave page eraseOk programs l).1 eraseOk' programs').1.Narrow := by
  cases eraseOk with
  | false => exact hpage eraseOk' programs'
  | true => exact narrow_configFlashLoad_save hl page eraseOk' programs programs'

theorem ConfigLife.Narrow.step {life life' : ConfigLife} (h : life.Narrow) {a : ConfigLifeAction}
    (hstep : configLifeStep life a = some life') : life'.Narrow := by
  obtain ⟨page, sessions⟩ := life
  cases a with
  | boot eraseOk programs =>
    cases hstep
    refine ⟨?_, ?_⟩
    · rintro _ ⟨⟩
      exact h.flash eraseOk programs
    · show ∀ eraseOk' programs', (configFlashLoad
        (configFlashLoad page eraseOk programs).2 eraseOk' programs').1.Narrow
      rw [configFlashLoad]
      split
      · exact h.flash
      · exact narrow_load_save h.flash narrow_defaultLimits eraseOk programs
  | frame f eraseOk programs =>
    cases sessions with
    | nil => cases hstep
    | cons session earlier =>
      cases hstep
      have hlimits := @narrow_configurationOnFrame ⟨session.limits, page⟩
        (h.ram session rfl) f eraseOk programs
      refine ⟨?_, ?_⟩
      · rintro _ ⟨⟩
        exact hlimits
      · rcases @leavesOrCommits_configurationOnFrame eraseOk programs ⟨session.limits, page⟩ f
          with hsame | ⟨limits, description, hcommit⟩
        · rw [hsame]
          exact h.flash
        · rw [hcommit] at hlimits ⊢
          exact narrow_load_save h.flash hlimits eraseOk programs

/-- **A reply shows the limits.** After any run of frames and boots from an erased page, however the
flash operations of it end, a request is answered with one frame, and the thresholds that `on_frame`
reads out of that frame are all there and equal to the node's limits. -/
theorem reply_fidelity {life : ConfigLife}
    (h : Reaches configLifeStep (fun _ _ ↦ True) configUnbooted life) {session : ConfigSession}
    (hsession : session ∈ life.sessions.head?) (m : ManagementCommand) {f : TlvFrame}
    (hf : f.tag = tlvTagGetConfig) (eraseOk : Bool) (programs : ℕ) :
    ∃ reply, configFrames
        (configurationOnFrame ⟨session.limits, life.page⟩ (some f) eraseOk programs).2 = [reply] ∧
      reply.tag = tlvTagConfigReply ∧
      (m.onFrameConfigReply reply).thresholds.Shows session.limits := by
  have hnarrow : life.Narrow :=
    h.invariant narrow_configUnbooted fun hlife _ hstep ↦ hlife.step hstep
  obtain ⟨t, ht, hshows⟩ := thresholdsOfReply_configReply (hnarrow.ram session hsession)
  refine ⟨configReply session.limits, ?_, rfl, ?_⟩
  · rw [configurationOnFrame_get hf, configFrames_reply]
  · rw [ManagementCommand.onFrameConfigReply, ManagementCommand.onConfigReply, ht]
    exact hshows

/-- A range from -10 to 30 degrees is set, and the node starts again. -/
def frostActions : List ConfigLifeAction :=
  [.boot true 3,
    .frame (some ⟨tlvTagSetTempNormal, 2, some [(-10 : Int8).toUInt8, (30 : Int8).toUInt8]⟩) true 3,
    .boot true 3]

/-- The limits it has then. -/
def frostLimits : ConfigLimits :=
  { defaultLimits with tempNormalMin := -10, tempNormalMax := 30 }

/-- After the restart the thresholds still are what was set. -/
theorem reply_fidelity_frost :
    ∃ life, exec (guarded configLifeStep fun _ _ ↦ True) configUnbooted frostActions = some life ∧
      ∃ reply, configFrames (configurationOnFrame ⟨frostLimits, life.page⟩
          (some ⟨tlvTagGetConfig, 0, none⟩) true 3).2 = [reply] ∧
        reply.tag = tlvTagConfigReply ∧
        (managementCommandCreate.onFrameConfigReply reply).thresholds.Shows frostLimits := by
  have hrun : ((exec (guarded configLifeStep fun _ _ ↦ True) configUnbooted frostActions).map
      fun life ↦ life.sessions.head?.map ConfigSession.limits) = some (some frostLimits) := by
    decide +kernel
  obtain ⟨life, hlife, hlimits⟩ := Option.map_eq_some_iff.1 hrun
  obtain ⟨session, hsession, hlimits⟩ := Option.map_eq_some_iff.1 hlimits
  have hreply := reply_fidelity (reaches_of_exec hlife) (Option.mem_def.2 hsession)
    managementCommandCreate (f := ⟨tlvTagGetConfig, 0, none⟩) rfl true 3
  rw [hlimits] at hreply
  exact ⟨life, hlife, hreply⟩

end SubmarineMonitor
