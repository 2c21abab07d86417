import SubmarineMonitor.Central.ManagementCommand
import SubmarineMonitor.Foundation.Machine

/-!
# Asking for the configuration

`get_config` calls on the central computer, setters called beside them, the node that answers, and a
link that is first in first out and loses nothing in either direction. Each call is three steps on
the caller's thread, the reply is two on the receiving thread, and the node handles a frame in one.

Requests and replies carry no identifier, so a reply satisfies whichever call is waiting.
`getConfig_fresh` is what holds when a call never starts while an earlier one, or the answer to an
earlier one, is still under way; `getConfig_stale` is the run in which the answer to a call that
timed out satisfies the next.

## What a promise can be about

The thresholds change with every reply, and the limits with every command, so *the current
configuration* means nothing by the time a call returns. `ConfigSystem.Fresh` says what the header
can mean: the limits shown were held by the node at some time since the call's own request was sent.
For that the system keeps the history of the limits, and a call remembers how long the history was
when it sent. No step of the code looks at either.

## The steps

The pending flag is set and cleared under a mutex, and the wait gives it up, so the call is cut
where the mutex is released. The handler stores the ten thresholds first and clears the flag later,
in a critical section of its own; that is two steps, between which a call may time out, or another
may begin. Setters are one step. They send under a mutex of `Communication`, and whether two of them
overlap makes no difference to the order of the frames.

The condition of the theorem is on the state before a step: `get_config` starts only when nothing of
an earlier call is on its way. The menu starts a call only when the last one has returned, so what
can be on its way is the request or the reply of a call that timed out.

## What is left out

Frames that get lost, other frames on the link, and a node that restarts. Reading the thresholds
while they are written is a race in the source; here they are read and written as a whole.
-/

open Machine

namespace SubmarineMonitor

open ManagementCommand (SetterCall runSetter_spec)

/-! ### The system -/

/-- Where a `get_config` call stands. -/
inductive GetConfigPc
  /-- Before it sends its request. -/
  | send
  /-- In `wait_for`. -/
  | wait
  /-- It has returned this, and `thresholds()` was this at that moment. -/
  | returned (ok : Bool) (seen : Thresholds)
  deriving DecidableEq

/-- A `get_config` call, and how many entries the history of limits had before the one that was
current when the request was sent. -/
structure GetConfigCall where
  pc : GetConfigPc
  sentAt : ℕ
  deriving DecidableEq

/-- Where the receiving thread stands. -/
inductive RxPc
  | idle
  /-- Thresholds written; before the critical section. -/
  | reply
  deriving DecidableEq

/-- Both computers and the link between them. -/
structure ConfigSystem where
  cc : ManagementCommand
  calls : List GetConfigCall
  rx : RxPc
  toLnc : List TlvFrame
  lnc : Config
  toCc : List TlvFrame
  /-- The limits the node has held, oldest first; no step of the code looks at it. -/
  history : List ConfigLimits

/-- Nothing called, nothing on the link. -/
def configStart (c : Config) : ConfigSystem :=
  ⟨managementCommandCreate, [], .idle, [], c, [], [c.limits]⟩

/-- The frames that the `comm_send` calls of `configuration_on_frame` put on the link. -/
def configFrames (calls : List ConfigCall) : List TlvFrame :=
  calls.filterMap fun
    | .eventConfigChanged _ => none
    | .commSend args => some (linkFrame args.tag ((args.value.getD []).take args.valueLen.toNat))

/-- Who moves next. -/
inductive ConfigAction
  /-- Some thread calls a setter. -/
  | set (call : SetterCall)
  /-- Some thread calls `get_config`. -/
  | getConfig
  /-- Call `id` sends its request. -/
  | send (id : ℕ)
  /-- Call `id` finds its predicate true. -/
  | wake (id : ℕ)
  /-- The timeout of call `id` expires, and it looks at its predicate a last time. -/
  | timeout (id : ℕ)
  /-- The node handles the next frame; its flash operations end this way. -/
  | lnc (eraseOk : Bool) (programs : ℕ)
  /-- The receiving thread takes the next reply. -/
  | deliver
  /-- And ends its critical section. -/
  | notify

/-- Move call `id` on. -/
def ConfigSystem.setCall (s : ConfigSystem) (id : ℕ) (call : GetConfigCall) : ConfigSystem :=
  { s with calls := s.calls.set id call }

/-- **The system**, under any interleaving and any delay. -/
def configStep (s : ConfigSystem) : ConfigAction → Option ConfigSystem
  | .set call =>
    some { s with cc := (s.cc.runSetter call).1, toLnc := s.toLnc ++ (s.cc.runSetter call).2.1 }
  | .getConfig => some { s with cc := s.cc.getConfigBegin, calls := s.calls ++ [⟨.send, 0⟩] }
  | .send id =>
    match s.calls[id]? with
    | some ⟨.send, _⟩ =>
      some ({ s with cc := s.cc.getConfigSend.1, toLnc := s.toLnc ++ s.cc.getConfigSend.2 }.setCall
        id ⟨.wait, s.history.length - 1⟩)
    | _ => none
  | .wake id =>
    match s.calls[id]? with
    | some ⟨.wait, sentAt⟩ =>
      if s.cc.configReplyPending then none
      else some (s.setCall id ⟨.returned true s.cc.thresholds, sentAt⟩)
    | _ => none
  | .timeout id =>
    match s.calls[id]? with
    | some ⟨.wait, sentAt⟩ =>
      some (s.setCall id ⟨.returned (!s.cc.configReplyPending) s.cc.thresholds, sentAt⟩)
    | _ => none
  | .lnc eraseOk programs =>
    match s.toLnc with
    | [] => none
    | f :: rest =>
      let r := configurationOnFrame s.lnc (some f) eraseOk programs
      some { s with
        toLnc := rest
        lnc := r.1
        toCc := s.toCc ++ configFrames r.2
        history := s.history ++ [r.1.limits] }
  | .deliver =>
    match s.rx, s.toCc with
    | .idle, f :: rest =>
      match s.cc.onConfigReply f with
      | some cc => some { s with cc := cc, rx := .reply, toCc := rest }
      | none => some { s with toCc := rest }
    | _, _ => none
  | .notify =>
    match s.rx with
    | .reply => some { s with cc := s.cc.onConfigReplyDone, rx := .idle }
    | .idle => none

/-- The call has returned. -/
def GetConfigCall.Returned (call : GetConfigCall) : Prop :=
  match call.pc with
  | .returned _ _ => True
  | _ => False

instance (call : GetConfigCall) : Decidable call.Returned :=
  match call with
  | ⟨.send, _⟩ => inferInstanceAs (Decidable False)
  | ⟨.wait, _⟩ => inferInstanceAs (Decidable False)
  | ⟨.returned _ _, _⟩ => inferInstanceAs (Decidable True)

/-- How many requests are on their way to the node. -/
def ConfigSystem.requests (s : ConfigSystem) : ℕ :=
  s.toLnc.countP fun f ↦ f.tag = tlvTagGetConfig

/-- No call is under way, and neither is the request or the reply of an earlier one. -/
def ConfigSystem.Idle (s : ConfigSystem) : Prop :=
  (∀ call ∈ s.calls, call.Returned) ∧ s.requests = 0 ∧ s.toCc = [] ∧ s.rx = .idle

instance (s : ConfigSystem) : Decidable s.Idle :=
  inferInstanceAs (Decidable (_ ∧ _ ∧ _ ∧ _))

/-- A `get_config` call starts only when nothing is left of the earlier ones. -/
def ConfigSystem.OneAtATime (s : ConfigSystem) : ConfigAction → Prop
  | .getConfig => s.Idle
  | _ => True

instance (s : ConfigSystem) (a : ConfigAction) : Decidable (s.OneAtATime a) :=
  match a with
  | .getConfig => inferInstanceAs (Decidable s.Idle)
  | .set _ | .send _ | .wake _ | .timeout _ | .lnc _ _ | .deliver | .notify =>
    inferInstanceAs (Decidable True)

/-- **What `get_config` promises**: where it returned true, `thresholds()` was equal to limits that
the node has held since the call's own request was sent. -/
def ConfigSystem.Fresh (s : ConfigSystem) : Prop :=
  ∀ call ∈ s.calls, ∀ seen, call.pc = .returned true seen →
    ∃ l ∈ s.history.drop call.sentAt, seen.Shows l

/-! ### What the node does -/

theorem configFrames_reply (l : ConfigLimits) :
    configFrames [.commSend ⟨false, tlvTagConfigReply, some (configReplyPayload l), 14⟩] =
      [configReply l] :=
  rfl

/-- The temperatures are in range, and nothing was answered. -/
def Unanswered (r : Config × List ConfigCall) : Prop :=
  r.1.limits.Narrow ∧ configFrames r.2 = []

/-- Temperatures that were set are in range. -/
theorem Edits.narrow {l l' : ConfigLimits} {description : String} (h : Edits l l' description)
    (hl : l.Narrow) : l'.Narrow := by
  cases h with
  | tempNormal min max =>
    exact ⟨congrArg Int8.toInt16 (Int8.toInt8_toInt16 min),
      congrArg Int8.toInt16 (Int8.toInt8_toInt16 max), hl.warningMin, hl.warningMax⟩
  | tempWarning min max =>
    exact ⟨hl.normalMin, hl.normalMax, congrArg Int8.toInt16 (Int8.toInt8_toInt16 min),
      congrArg Int8.toInt16 (Int8.toInt8_toInt16 max)⟩
  | humidityNormal | humidityWarning | lightNormal | lightWarning | batteryNormal | batteryWarning =>
    exact ⟨hl.1, hl.2, hl.3, hl.4⟩

/-- Any other frame leaves the temperatures in range and is not answered. -/
theorem configurationOnFrame_other {c : Config} {f : TlvFrame} (hf : f.tag ≠ tlvTagGetConfig)
    (h : c.limits.Narrow) (eraseOk : Bool) (programs : ℕ) :
    Unanswered (configurationOnFrame c (some f) eraseOk programs) := by
  rcases ignoredOrSet_configurationOnFrame c hf eraseOk programs with
    hignored | ⟨limits, description, hedit, hset⟩
  · rw [hignored]
    exact ⟨h, rfl⟩
  · rw [hset]
    exact ⟨hedit.narrow h, rfl⟩

/-- Narrow limits stay narrow, whatever frame comes. -/
theorem narrow_configurationOnFrame {c : Config} (h : c.limits.Narrow) (f : Option TlvFrame)
    (eraseOk : Bool) (programs : ℕ) :
    (configurationOnFrame c f eraseOk programs).1.limits.Narrow := by
  obtain _ | f := f
  · exact h
  · by_cases hf : f.tag = tlvTagGetConfig
    · rw [configurationOnFrame_get hf]
      exact h
    · exact (configurationOnFrame_other hf h eraseOk programs).1

/-! ### One call at a time -/

/-- How far the call under way has got, with everything of it that is on the link: one request, then
one reply, then one reply half processed, then its answer. -/
inductive ConfigSystem.Stage (s : ConfigSystem) (call : GetConfigCall) : Prop
  | begun (hpc : call.pc = .send) (hpending : s.cc.configReplyPending = true)
      (hrequests : s.requests = 0) (htoCc : s.toCc = []) (hrx : s.rx = .idle)
  | asked (hpc : call.pc = .wait) (hpending : s.cc.configReplyPending = true)
      (hrequests : s.requests = 1) (htoCc : s.toCc = []) (hrx : s.rx = .idle)
      (hsent : call.sentAt ≤ s.history.length)
  | replied {l : ConfigLimits} (hl : l ∈ s.history.drop call.sentAt) (hnarrow : l.Narrow)
      (hpc : call.pc = .wait) (hpending : s.cc.configReplyPending = true)
      (hrequests : s.requests = 0) (htoCc : s.toCc = [configReply l]) (hrx : s.rx = .idle)
  | received {l : ConfigLimits} (hl : l ∈ s.history.drop call.sentAt)
      (hshows : s.cc.thresholds.Shows l) (hpc : call.pc = .wait)
      (hpending : s.cc.configReplyPending = true) (hrequests : s.requests = 0)
      (htoCc : s.toCc = []) (hrx : s.rx = .reply)
  | answered {l : ConfigLimits} (hl : l ∈ s.history.drop call.sentAt)
      (hshows : s.cc.thresholds.Shows l) (hpc : call.pc = .wait)
      (hpending : s.cc.configReplyPending = false) (hrequests : s.requests = 0)
      (htoCc : s.toCc = []) (hrx : s.rx = .idle)

/-- All calls have returned, or all but the last. -/
inductive ConfigSystem.Progress (s : ConfigSystem) : Prop
  | quiet (hcalls : ∀ call ∈ s.calls, call.Returned)
  | busy {done : List GetConfigCall} {call : GetConfigCall} (hcalls : s.calls = done ++ [call])
      (hdone : ∀ call ∈ done, call.Returned) (hstage : Stage s call)

variable {s s' : ConfigSystem} {call : GetConfigCall}

/-- A call that can go on is the last one. -/
theorem ConfigSystem.Progress.last (h : Progress s) {id : ℕ} (hcall : s.calls[id]? = some call)
    (hpc : ¬call.Returned) :
    ∃ done, s.calls = done ++ [call] ∧ (∀ call ∈ done, call.Returned) ∧ Stage s call ∧
      ∀ call', s.calls.set id call' = done ++ [call'] := by
  cases h with
  | quiet hcalls => exact absurd (hcalls call (List.mem_of_getElem? hcall)) hpc
  | @busy done last hcalls hdone hstage =>
    obtain ⟨hlt, hget⟩ := List.getElem?_eq_some_iff.1 hcall
    -- the others have returned
    have hid : id = done.length := by
      by_contra hne
      have hlen := congrArg List.length hcalls
      rw [List.length_append, List.length_singleton] at hlen
      have hdone' : id < done.length := by omega
      rw [hcalls, List.getElem?_append_left hdone'] at hcall
      exact hpc (hdone call (List.mem_of_getElem? hcall))
    have hlast : last = call := by
      rw [hcalls, hid, List.getElem?_concat_length] at hcall
      exact Option.some.inj hcall
    subst hlast
    refine ⟨done, hcalls, hdone, hstage, fun call' ↦ ?_⟩
    rw [hcalls, hid]
    simp

/-- A step that leaves alone what the stage is about leaves the stage alone. The history may
grow. -/
theorem ConfigSystem.Stage.congr (h : Stage s call)
    (hpending : s'.cc.configReplyPending = s.cc.configReplyPending)
    (hthresholds : s'.cc.thresholds = s.cc.thresholds) (hrequests : s'.requests = s.requests)
    (htoCc : s'.toCc = s.toCc) (hrx : s'.rx = s.rx) (hhistory : s.history <+: s'.history) :
    Stage s' call := by
  obtain ⟨later, hlater⟩ := hhistory
  have hdrop : ∀ {l : ConfigLimits}, l ∈ s.history.drop call.sentAt →
      l ∈ s'.history.drop call.sentAt := by
    intro l hl
    rw [← hlater, List.drop_append]
    exact List.mem_append_left _ hl
  cases h with
  | begun hpc h₁ h₂ h₃ h₄ =>
    exact .begun hpc (hpending.trans h₁) (hrequests.trans h₂) (htoCc.trans h₃) (hrx.trans h₄)
  | asked hpc h₁ h₂ h₃ h₄ hsent =>
    refine .asked hpc (hpending.trans h₁) (hrequests.trans h₂) (htoCc.trans h₃) (hrx.trans h₄) ?_
    rw [← hlater, List.length_append]
    omega
  | replied hl hnarrow hpc h₁ h₂ h₃ h₄ =>
    exact .replied (hdrop hl) hnarrow hpc (hpending.trans h₁) (hrequests.trans h₂)
      (htoCc.trans h₃) (hrx.trans h₄)
  | received hl hshows hpc h₁ h₂ h₃ h₄ =>
    exact .received (hdrop hl) (hthresholds ▸ hshows) hpc (hpending.trans h₁)
      (hrequests.trans h₂) (htoCc.trans h₃) (hrx.trans h₄)
  | answered hl hshows hpc h₁ h₂ h₃ h₄ =>
    exact .answered (hdrop hl) (hthresholds ▸ hshows) hpc (hpending.trans h₁)
      (hrequests.trans h₂) (htoCc.trans h₃) (hrx.trans h₄)

/-- The invariant of runs with one call at a time. -/
structure ConfigSystem.OneCall (s : ConfigSystem) : Prop where
  narrow : s.lnc.limits.Narrow
  fresh : s.Fresh
  progress : Progress s

theorem oneCall_start {c : Config} (h : c.limits.Narrow) : ConfigSystem.OneCall (configStart c) :=
  ⟨h, fun _ hmem ↦ absurd hmem List.not_mem_nil, .quiet fun _ hmem ↦ absurd hmem List.not_mem_nil⟩

theorem ConfigSystem.Fresh.mono (h : s.Fresh) (hcalls : s'.calls = s.calls)
    (hhistory : s.history <+: s'.history) : s'.Fresh := by
  obtain ⟨later, hlater⟩ := hhistory
  intro call hmem seen hpc
  obtain ⟨l, hl, hshows⟩ := h call (hcalls ▸ hmem) seen hpc
  refine ⟨l, ?_, hshows⟩
  rw [← hlater, List.drop_append]
  exact List.mem_append_left _ hl

/-- A step that touches neither the calls nor the stage. -/
theorem ConfigSystem.OneCall.congr (h : OneCall s) (hnarrow : s'.lnc.limits.Narrow)
    (hcalls : s'.calls = s.calls)
    (hpending : s'.cc.configReplyPending = s.cc.configReplyPending)
    (hthresholds : s'.cc.thresholds = s.cc.thresholds) (hrequests : s'.requests = s.requests)
    (htoCc : s'.toCc = s.toCc) (hrx : s'.rx = s.rx) (hhistory : s.history <+: s'.history) :
    OneCall s' := by
  refine ⟨hnarrow, h.fresh.mono hcalls hhistory, ?_⟩
  cases h.progress with
  | quiet hquiet => exact .quiet (hcalls ▸ hquiet)
  | busy hbusy hdone hstage =>
    exact .busy (hcalls.trans hbusy) hdone
      (hstage.congr hpending hthresholds hrequests htoCc hrx hhistory)

/-! ### The steps -/

theorem ConfigSystem.OneCall.set (h : OneCall s) (setter : SetterCall) :
    OneCall { s with
      cc := (s.cc.runSetter setter).1, toLnc := s.toLnc ++ (s.cc.runSetter setter).2.1 } := by
  obtain ⟨hthresholds, hpending, hframes⟩ := runSetter_spec s.cc setter
  have hnone : ((s.cc.runSetter setter).2.1.countP fun f ↦ f.tag = tlvTagGetConfig) = 0 := by
    rw [List.countP_eq_zero]
    simpa using hframes
  refine h.congr h.narrow rfl hpending hthresholds ?_ rfl rfl List.prefix_rfl
  show List.countP _ (_ ++ _) = _
  rw [List.countP_append, hnone]
  rfl

theorem ConfigSystem.OneCall.getConfig (h : OneCall s) (hidle : s.Idle) :
    OneCall { s with cc := s.cc.getConfigBegin, calls := s.calls ++ [⟨.send, 0⟩] } := by
  obtain ⟨hcalls, hrequests, htoCc, hrx⟩ := hidle
  refine ⟨h.narrow, ?_, .busy rfl hcalls (.begun rfl rfl hrequests htoCc hrx)⟩
  intro call hmem seen hpc
  rcases List.mem_append.1 hmem with hmem | hmem
  · exact h.fresh call hmem seen hpc
  · rw [List.mem_singleton.1 hmem] at hpc
    cases hpc

/-- The last call moves on and has something to show for it if it has returned true. -/
theorem ConfigSystem.OneCall.of_last (h : OneCall s) {done : List GetConfigCall}
    {call' : GetConfigCall}
    (hcalls : s.calls = done ++ [call]) (hcalls' : s'.calls = done ++ [call'])
    (hlnc : s'.lnc = s.lnc) (hhistory : s'.history = s.history)
    (hfresh : ∀ seen, call'.pc = .returned true seen →
      ∃ l ∈ s.history.drop call'.sentAt, seen.Shows l)
    (hprogress : Progress s') : OneCall s' := by
  refine ⟨hlnc ▸ h.narrow, ?_, hprogress⟩
  intro call'' hmem seen hpc
  rw [hhistory]
  rw [hcalls'] at hmem
  rcases List.mem_append.1 hmem with hmem | hmem
  · exact h.fresh call'' (hcalls ▸ List.mem_append_left _ hmem) seen hpc
  · rw [List.mem_singleton.1 hmem] at hpc ⊢
    exact hfresh seen hpc

theorem ConfigSystem.OneCall.send (h : OneCall s) {id sentAt : ℕ}
    (hcall : s.calls[id]? = some ⟨.send, sentAt⟩) :
    OneCall ({ s with
      cc := s.cc.getConfigSend.1, toLnc := s.toLnc ++ s.cc.getConfigSend.2 }.setCall id
        ⟨.wait, s.history.length - 1⟩) := by
  obtain ⟨done, hcalls, hdone, hstage, hset⟩ := h.progress.last hcall (fun h ↦ h)
  refine h.of_last hcalls (hset _) rfl rfl (fun seen ↦ (nomatch ·)) (.busy (hset _) hdone ?_)
  cases hstage with
  | begun _ hpending hrequests htoCc hrx =>
    refine .asked rfl hpending ?_ htoCc hrx (Nat.sub_le _ _)
    show List.countP _ (s.toLnc ++ [linkFrame tlvTagGetConfig []]) = 1
    rw [List.countP_append, show List.countP _ s.toLnc = 0 from hrequests]
    rfl
  | asked hpc => cases hpc
  | replied _ _ hpc => cases hpc
  | received _ _ hpc => cases hpc
  | answered _ _ hpc => cases hpc

/-- A waiting call returns. -/
theorem ConfigSystem.OneCall.return (h : OneCall s) {id sentAt : ℕ}
    (hcall : s.calls[id]? = some ⟨.wait, sentAt⟩)
    {ok : Bool} (hok : ok = true → s.cc.configReplyPending = false) :
    OneCall (s.setCall id ⟨.returned ok s.cc.thresholds, sentAt⟩) := by
  obtain ⟨done, hcalls, hdone, hstage, hset⟩ := h.progress.last hcall (fun h ↦ h)
  refine h.of_last hcalls (hset _) rfl rfl ?_ (.quiet ?_)
  · intro seen hpc
    obtain ⟨rfl, rfl⟩ : ok = true ∧ s.cc.thresholds = seen := by simpa using hpc
    -- only an answered call finds the flag down
    cases hstage with
    | begun _ hpending => exact absurd (hpending.symm.trans (hok rfl)) (by decide)
    | asked _ hpending => exact absurd (hpending.symm.trans (hok rfl)) (by decide)
    | replied _ _ _ hpending => exact absurd (hpending.symm.trans (hok rfl)) (by decide)
    | received _ _ _ hpending => exact absurd (hpending.symm.trans (hok rfl)) (by decide)
    | answered hl hshows => exact ⟨_, hl, hshows⟩
  · intro call' hmem
    rw [show (s.setCall id _).calls = _ from hset _] at hmem
    rcases List.mem_append.1 hmem with hmem | hmem
    · exact hdone call' hmem
    · rw [List.mem_singleton.1 hmem]
      trivial

theorem ConfigSystem.OneCall.lnc (h : OneCall s) {f : TlvFrame} {rest : List TlvFrame}
    (htoLnc : s.toLnc = f :: rest) (eraseOk : Bool) (programs : ℕ) :
    OneCall { s with
      toLnc := rest
      lnc := (configurationOnFrame s.lnc (some f) eraseOk programs).1
      toCc := s.toCc ++ configFrames (configurationOnFrame s.lnc (some f) eraseOk programs).2
      history := s.history ++
        [(configurationOnFrame s.lnc (some f) eraseOk programs).1.limits] } := by
  have hrequests : s.requests = rest.countP (fun f ↦ f.tag = tlvTagGetConfig) +
      if f.tag = tlvTagGetConfig then 1 else 0 := by
    rw [ConfigSystem.requests, htoLnc, List.countP_cons]
    simp
  by_cases hf : f.tag = tlvTagGetConfig
  · -- the one request under way is that of the waiting call
    rw [configurationOnFrame_get hf, configFrames_reply]
    rw [if_pos hf] at hrequests
    refine ⟨h.narrow, h.fresh.mono rfl (List.prefix_append _ _), ?_⟩
    cases h.progress with
    | quiet hquiet => exact .quiet hquiet
    | busy hbusy hdone hstage =>
      refine .busy hbusy hdone ?_
      cases hstage with
      | begun _ _ hnone => omega
      | asked hpc hpending hone htoCc hrx hsent =>
        have hnone : rest.countP (fun f ↦ f.tag = tlvTagGetConfig) = 0 := by omega
        refine .replied (l := s.lnc.limits) ?_ h.narrow hpc hpending hnone (by simp [htoCc]) hrx
        rw [List.drop_append_of_le_length hsent]
        exact List.mem_append_right _ (List.mem_singleton_self _)
      | replied _ _ _ _ hnone => omega
      | received _ _ _ _ hnone => omega
      | answered _ _ _ _ hnone => omega
  · obtain ⟨hnarrow, hframes⟩ := configurationOnFrame_other hf h.narrow eraseOk programs
    rw [if_neg hf] at hrequests
    exact h.congr hnarrow rfl rfl rfl hrequests.symm (by simp [hframes]) rfl
      (List.prefix_append _ _)

/-- The receiving thread takes a frame: what it does with it, it does to a reply only. -/
theorem ConfigSystem.OneCall.deliver (h : OneCall s) {f : TlvFrame} {rest : List TlvFrame}
    (htoCc : s.toCc = f :: rest) :
    (∀ cc, s.cc.onConfigReply f = some cc →
        OneCall { s with cc := cc, rx := .reply, toCc := rest }) ∧
      (s.cc.onConfigReply f = none → OneCall { s with toCc := rest }) := by
  cases h.progress with
  | quiet hquiet =>
    exact ⟨fun cc _ ↦ ⟨h.narrow, h.fresh.mono rfl List.prefix_rfl, .quiet hquiet⟩,
      fun _ ↦ ⟨h.narrow, h.fresh.mono rfl List.prefix_rfl, .quiet hquiet⟩⟩
  | busy hbusy hdone hstage =>
    cases hstage with
    | begun _ _ _ hempty => exact absurd (htoCc.symm.trans hempty) (List.cons_ne_nil _ _)
    | asked _ _ _ hempty => exact absurd (htoCc.symm.trans hempty) (List.cons_ne_nil _ _)
    | received _ _ _ _ _ hempty => exact absurd (htoCc.symm.trans hempty) (List.cons_ne_nil _ _)
    | answered _ _ _ _ _ hempty => exact absurd (htoCc.symm.trans hempty) (List.cons_ne_nil _ _)
    | @replied l hl hnarrow hpc hpending hrequests hreply _ =>
      -- the one reply under way is that of the waiting call
      obtain ⟨rfl, rfl⟩ := List.cons.inj (htoCc.symm.trans hreply)
      obtain ⟨t, ht, hshows⟩ := thresholdsOfReply_configReply hnarrow
      have hsome : s.cc.onConfigReply (configReply l) = some (ManagementCommand.logWrite
          { s.cc with thresholds := t } "LNC reports current config (CONFIG_REPLY)") := by
        rw [ManagementCommand.onConfigReply, ht]
        rfl
      refine ⟨fun cc hcc ↦ ?_, fun hnone ↦ absurd (hsome.symm.trans hnone) (by simp)⟩
      obtain rfl := Option.some.inj (hsome.symm.trans hcc)
      exact ⟨h.narrow, h.fresh.mono rfl List.prefix_rfl,
        .busy hbusy hdone (.received hl hshows hpc hpending hrequests rfl rfl)⟩

theorem ConfigSystem.OneCall.notify (h : OneCall s) (hrx : s.rx = .reply) :
    OneCall { s with cc := s.cc.onConfigReplyDone, rx := .idle } := by
  refine ⟨h.narrow, h.fresh.mono rfl List.prefix_rfl, ?_⟩
  cases h.progress with
  | quiet hquiet => exact .quiet hquiet
  | busy hbusy hdone hstage =>
    refine .busy hbusy hdone ?_
    cases hstage with
    | begun _ _ _ _ hidle => exact absurd (hrx.symm.trans hidle) (by decide)
    | asked _ _ _ _ hidle => exact absurd (hrx.symm.trans hidle) (by decide)
    | replied _ _ _ _ _ _ hidle => exact absurd (hrx.symm.trans hidle) (by decide)
    | received hl hshows hpc _ hrequests htoCc _ =>
      exact .answered hl hshows hpc rfl hrequests htoCc rfl
    | answered _ _ _ _ _ _ hidle => exact absurd (hrx.symm.trans hidle) (by decide)

/-- **One call at a time stays one call at a time**: every step keeps the invariant. -/
theorem ConfigSystem.OneCall.step {a : ConfigAction} (h : OneCall s) (hok : s.OneAtATime a)
    (hstep : configStep s a = some s') : OneCall s' := by
  cases a with
  | set setter =>
    obtain rfl := Option.some.inj hstep
    exact h.set setter
  | getConfig =>
    obtain rfl := Option.some.inj hstep
    exact h.getConfig hok
  | send id =>
    rw [configStep] at hstep
    split at hstep
    · rename_i sentAt hcall
      obtain rfl := Option.some.inj hstep
      exact h.send hcall
    · cases hstep
  | wake id =>
    rw [configStep] at hstep
    split at hstep
    · rename_i sentAt hcall
      split at hstep
      · cases hstep
      · rename_i hpending
        obtain rfl := Option.some.inj hstep
        exact h.return hcall fun _ ↦ Bool.eq_false_iff.2 hpending
    · cases hstep
  | timeout id =>
    rw [configStep] at hstep
    split at hstep
    · rename_i sentAt hcall
      obtain rfl := Option.some.inj hstep
      exact h.return hcall fun hok ↦ by simpa using hok
    · cases hstep
  | lnc eraseOk programs =>
    rw [configStep] at hstep
    split at hstep
    · cases hstep
    · rename_i f rest htoLnc
      obtain rfl := Option.some.inj hstep
      exact h.lnc htoLnc eraseOk programs
  | deliver =>
    rw [configStep] at hstep
    split at hstep
    · rename_i f rest _ htoCc
      obtain ⟨hsome, hnone⟩ := h.deliver htoCc
      split at hstep
      · rename_i cc hcc
        obtain rfl := Option.some.inj hstep
        exact hsome cc hcc
      · rename_i hcc
        obtain rfl := Option.some.inj hstep
        exact hnone hcc
    · cases hstep
  | notify =>
    rw [configStep] at hstep
    split at hstep
    · rename_i hrx
      obtain rfl := Option.some.inj hstep
      exact h.notify hrx
    · cases hstep

/-- **A reply belongs to the call it wakes**, in every run in which no `get_config` call starts
while an earlier one, its request or its reply is under way. -/
theorem getConfig_fresh {c : Config} (hc : c.limits.Narrow)
    (h : Reaches configStep ConfigSystem.OneAtATime (configStart c) s) : s.Fresh := by
  have hone : ConfigSystem.OneCall s :=
    h.invariant (oneCall_start hc) fun h hok hstep ↦ h.step hok hstep
  exact hone.fresh

/-! ### Two runs -/

/-- A node that holds the defaults. -/
def defaultConfig : Config :=
  ⟨defaultLimits, .erased⟩

/-- A call that is answered in time returns true with the node's limits. -/
theorem getConfig_fresh_first :
    ∃ s, Reaches configStep ConfigSystem.OneAtATime (configStart defaultConfig) s ∧
      ∃ call ∈ s.calls, ∃ seen, call.pc = .returned true seen ∧
        ∃ l ∈ s.history.drop call.sentAt, seen.Shows l := by
  have hexec : exec (guarded configStep ConfigSystem.OneAtATime) (configStart defaultConfig)
      [.getConfig, .send 0, .lnc true 3, .deliver, .notify, .wake 0] = some _ := rfl
  have hreaches := reaches_of_exec hexec
  have hfresh := getConfig_fresh (s := _) narrow_defaultLimits hreaches
  exact ⟨_, hreaches, _, List.mem_singleton_self _, _, rfl,
    hfresh _ (List.mem_singleton_self _) _ rfl⟩

/-- The thresholds that show the defaults. -/
def defaultThresholds : Thresholds :=
  ⟨some 15, some 27, some 10, some 30, some 30, some 20, some 40, some 20, some 40, some 20⟩

/-- **A late reply satisfies the wrong call.** The first call times out before its request is
handled. Its reply, made before the node takes a new humidity limit, arrives after the second call
has started, and wakes it with the old limits. -/
theorem getConfig_stale :
    ∃ s, exec configStep (configStart defaultConfig)
        [.getConfig, .send 0, .timeout 0, .lnc true 3, .set (.humidityNormal 50), .lnc true 3,
          .getConfig, .send 1, .deliver, .notify, .wake 1] = some s ∧ ¬s.Fresh := by
  have hrun : ((exec configStep (configStart defaultConfig)
      [.getConfig, .send 0, .timeout 0, .lnc true 3, .set (.humidityNormal 50), .lnc true 3,
        .getConfig, .send 1, .deliver, .notify, .wake 1]).map fun s ↦ (s.calls[1]?, s.history)) =
      some (some ⟨.returned true defaultThresholds, 2⟩,
        [defaultLimits, defaultLimits, { defaultLimits with humidityNormalMin := 50 }]) := by
    decide +kernel
  obtain ⟨s, hexec, hs⟩ := Option.map_eq_some_iff.1 hrun
  obtain ⟨hcall, hhistory⟩ := Prod.mk.inj hs
  refine ⟨s, hexec, fun hfresh ↦ ?_⟩
  obtain ⟨l, hl, hshows⟩ := hfresh _ (List.mem_of_getElem? hcall) _ rfl
  rw [hhistory] at hl
  obtain rfl := List.mem_singleton.1 hl
  exact absurd hshows.humidityNormalMin (by decide)

end SubmarineMonitor
