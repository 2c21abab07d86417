import SubmarineMonitor.Central.ManagementCommand
import SubmarineMonitor.Node.Classification

/-!
# Setting limits one at a time

What the node's limits become under any sequence of setter calls. Each call is checked by itself: a
range has to have its ends in order, a bound has to be a percentage. That much, the limits keep
(`proper_runSetters`); how the two temperature ranges lie to each other, nobody checks, and the
classification is graded exactly when they happen to leave no gap (`graded_runSetters_iff`).

## Nobody compares the ranges

Each setter looks at its own arguments. The node looks at nothing but the length of the frame. So
the relation between the normal and the warning range is whatever the calls made of it, and there
are intermediate states that nobody wants: to move both ranges up, one has to be moved first. The
statement takes that as it is. It is about any sequence of calls, accepted or not, and says for the
limits at its end whether the classification is graded.

*Graded* is a property of the classification and not of the limits (`Node.Classification`): moving a
reading away from the normal range never makes the mode better. For the other readings that is
always so, whichever of their two bounds is the larger. For the temperature it is the gap that
counts, a value that belongs to neither range and has the ranges on both sides.

## The page

A call comes with how the save goes that the node makes for it. The limits in RAM do not depend on
that, and they are what the classification uses; the argument is there because the function that is
run has it.

## What is left out

The line between the two computers, which is `Central.CommandFidelity`, and the limits that a boot
finds in flash.
-/

namespace SubmarineMonitor

namespace ManagementCommand

/-- The check a call has to pass. -/
def SetterCall.Accepted : SetterCall → Prop
  | .tempNormal min max => min ≤ max
  | .tempWarning min max => min ≤ max
  | .humidityNormal min => min ≤ 100
  | .humidityWarning min => min ≤ 100
  | .lightNormal min => min ≤ 100
  | .lightWarning min => min ≤ 100
  | .batteryNormal min => min ≤ 100
  | .batteryWarning min => min ≤ 100

/-- The limits a call asks for. -/
def SetterCall.set (l : ConfigLimits) : SetterCall → ConfigLimits
  | .tempNormal min max => { l with tempNormalMin := min.toInt16, tempNormalMax := max.toInt16 }
  | .tempWarning min max => { l with tempWarningMin := min.toInt16, tempWarningMax := max.toInt16 }
  | .humidityNormal min => { l with humidityNormalMin := min }
  | .humidityWarning min => { l with humidityWarningMin := min }
  | .lightNormal min => { l with lightNormalMin := min }
  | .lightWarning min => { l with lightWarningMin := min }
  | .batteryNormal min => { l with batteryNormalMin := min }
  | .batteryWarning min => { l with batteryWarningMin := min }

/-- What a call leads to. If it is accepted, it sends one frame, which makes the node's limits what
the call asks for; if it is not, it sends none. -/
def SetterCall.Effect (call : SetterCall) (r : List TlvFrame × Bool) : Prop :=
  (call.Accepted ∧ r.2 = true ∧ ∃ f, r.1 = [f] ∧
      ∀ (c : Config) (eraseOk : Bool) (programs : ℕ),
        (configurationOnFrame c (some f) eraseOk programs).1.limits = call.set c.limits) ∨
    (¬call.Accepted ∧ r = ([], false))

theorem effect_sendTempRange (m : ManagementCommand) {call : SetterCall} {tag : UInt8}
    {label : String} {min max : Int8} (haccepted : call.Accepted ↔ min ≤ max)
    (hset : ∀ (c : Config) (eraseOk : Bool) (programs : ℕ),
      (configurationOnFrame c (some (linkFrame tag [min.toUInt8, max.toUInt8])) eraseOk
        programs).1.limits = call.set c.limits) :
    call.Effect (m.sendTempRange tag label min max).2 := by
  rw [sendTempRange]
  split
  · rename_i h
    exact .inr ⟨fun ha ↦ Int8.not_le.2 h (haccepted.1 ha), rfl⟩
  · rename_i h
    exact .inl ⟨haccepted.2 (Int8.not_lt.1 h), rfl, _, rfl, hset⟩

theorem effect_sendBound (m : ManagementCommand) {call : SetterCall} {tag : UInt8}
    {label : String} {min : UInt8} (haccepted : call.Accepted ↔ min ≤ 100)
    (hset : ∀ (c : Config) (eraseOk : Bool) (programs : ℕ),
      (configurationOnFrame c (some (linkFrame tag [min])) eraseOk programs).1.limits =
        call.set c.limits) :
    call.Effect (m.sendBound tag label min).2 := by
  rw [sendBound]
  split
  · rename_i h
    exact .inr ⟨fun ha ↦ UInt8.not_le.2 h (haccepted.1 ha), rfl⟩
  · rename_i h
    exact .inl ⟨haccepted.2 (UInt8.not_lt.1 h), rfl, _, rfl, hset⟩

/-- **Every setter does what it says, or nothing.** -/
theorem runSetter_effect (m : ManagementCommand) (call : SetterCall) :
    call.Effect (m.runSetter call).2 := by
  cases call with
  | tempNormal min max => exact effect_sendTempRange m .rfl fun _ _ _ ↦ rfl
  | tempWarning min max => exact effect_sendTempRange m .rfl fun _ _ _ ↦ rfl
  | humidityNormal min => exact effect_sendBound m .rfl fun _ _ _ ↦ rfl
  | humidityWarning min => exact effect_sendBound m .rfl fun _ _ _ ↦ rfl
  | lightNormal min => exact effect_sendBound m .rfl fun _ _ _ ↦ rfl
  | lightWarning min => exact effect_sendBound m .rfl fun _ _ _ ↦ rfl
  | batteryNormal min => exact effect_sendBound m .rfl fun _ _ _ ↦ rfl
  | batteryWarning min => exact effect_sendBound m .rfl fun _ _ _ ↦ rfl

/-! ### Sequences of calls -/

/-- A call, with how the save goes that the node makes for it. -/
structure SavedCall where
  call : SetterCall
  eraseOk : Bool
  programs : ℕ

/-- Make a call, and let the node handle what it sends. -/
def runSaved (m : ManagementCommand) (c : Config) (x : SavedCall) : ManagementCommand × Config :=
  let r := m.runSetter x.call
  (r.1, r.2.1.foldl (fun c f ↦ (configurationOnFrame c (some f) x.eraseOk x.programs).1) c)

/-- Make calls one after another. -/
def runSetters (m : ManagementCommand) (c : Config) (calls : List SavedCall) :
    ManagementCommand × Config :=
  calls.foldl (fun r x ↦ runSaved r.1 r.2 x) (m, c)

/-- The limits after a call are those it asks for, if it is accepted, and otherwise what they
were. -/
theorem limits_runSaved (m : ManagementCommand) (c : Config) (x : SavedCall) :
    (x.call.Accepted ∧ (runSaved m c x).2.limits = x.call.set c.limits) ∨
      (¬x.call.Accepted ∧ (runSaved m c x).2.limits = c.limits) := by
  rw [runSaved]
  rcases runSetter_effect m x.call with ⟨haccepted, -, f, hf, hset⟩ | ⟨hrejected, hnone⟩
  · refine .inl ⟨haccepted, ?_⟩
    simp only [hf, List.foldl_cons, List.foldl_nil, hset]
  · exact .inr ⟨hrejected, by simp only [hnone, List.foldl_nil]⟩

/-- An accepted call leaves no range empty. -/
theorem SetterCall.Accepted.proper {call : SetterCall} (h : call.Accepted) {l : ConfigLimits}
    (hl : l.Proper) : (call.set l).Proper := by
  have hle : ∀ {min max : Int8}, min ≤ max → min.toInt16.toInt ≤ max.toInt16.toInt := by
    intro min max h
    rw [Int8.toInt_toInt16, Int8.toInt_toInt16]
    exact Int8.le_iff_toInt_le.1 h
  cases call with
  | tempNormal min max => exact ⟨hle h, hl.warning⟩
  | tempWarning min max => exact ⟨hl.normal, hle h⟩
  | humidityNormal | humidityWarning | lightNormal | lightWarning | batteryNormal
  | batteryWarning => exact ⟨hl.normal, hl.warning⟩

/-- No sequence of calls leaves a range empty. -/
theorem proper_runSetters (m : ManagementCommand) {c : Config} (hc : c.limits.Proper)
    (calls : List SavedCall) : (runSetters m c calls).2.limits.Proper := by
  induction calls generalizing m c with
  | nil => exact hc
  | cons x calls ih =>
    have hstep : (runSaved m c x).2.limits.Proper := by
      rcases limits_runSaved m c x with ⟨haccepted, hset⟩ | ⟨-, hsame⟩
      · rw [hset]
        exact haccepted.proper hc
      · rwa [hsame]
    exact ih _ hstep

theorem proper_defaultLimits : defaultLimits.Proper :=
  ⟨by decide, by decide⟩

/-- **Graded, as long as there is no gap.** After any sequence of setter calls from the default
limits, the node's classification is graded in temperature exactly when the normal and the warning
range overlap or adjoin. -/
theorem graded_runSetters_iff (page : FlashPage) (calls : List SavedCall) :
    (runSetters managementCommandCreate ⟨defaultLimits, page⟩ calls).2.limits.Graded ↔
      (runSetters managementCommandCreate ⟨defaultLimits, page⟩ calls).2.limits.NoGap :=
  ConfigLimits.graded_iff_noGap (proper_runSetters _ proper_defaultLimits calls)

/-- A warning range above the normal one, with a gap at 28 and 29 degrees, is accepted. -/
theorem not_forall_accepted_graded :
    ¬∀ (page : FlashPage) (calls : List SavedCall),
      (∀ x ∈ calls, ∀ m : ManagementCommand, (m.runSetter x.call).2.2 = true) →
        (runSetters managementCommandCreate ⟨defaultLimits, page⟩ calls).2.limits.Graded := by
  intro h
  have haccepted : ∀ x ∈ [SavedCall.mk (.tempWarning 30 40) true 3], ∀ m : ManagementCommand,
      (m.runSetter x.call).2.2 = true := by
    intro x hx m
    obtain rfl := List.mem_singleton.1 hx
    rfl
  have hgraded := h .erased _ haccepted
  exact absurd (hgraded ⟨20, 50, 50, 50⟩ 35 28 (by decide) (by decide)) (by decide)

end ManagementCommand

end SubmarineMonitor
