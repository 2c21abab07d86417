import SubmarineMonitor.Foundation.Machine
import Mathlib.Algebra.Order.Ring.Nat
import Mathlib.Tactic.Ring

/-!
# The periodic tasks keep their schedule

`monitor_task`, `keepalive_task`, `sonarled_task` and `watchdog_task` have the same loop: do the
work, add the period to `tick`, and `osDelayUntil(tick)`. The tick count has 32 bits and starts over
after 49.7 days, and `osDelayUntil` and `vTaskDelayUntil` below it tell times ahead from times gone
by within half of that.

Time is counted in ticks since the scheduler has started and never starts over; what the code reads
is its remainder. How long a round works, how long the task is held up between the two readings of
the count, and how long after its wake-up it is let on, is left to the other tasks.

* `osDelayUntil_eq`: the task goes on when it wanted to, or at once if that time has gone by.
* `rounds_on_schedule`: no round begins early; a task that has fallen behind makes up for it, round
  by round, and then is never later than the scheduler is with it. Nothing adds up, however often
  the count starts over.

## What is left out

The work of a round: it is a duration. Delays shorter than a tick, and the time the kernel itself
needs. A round longer than half the range of the count, which is 24.8 days: then the comparison
takes a time gone by for one ahead, and the theorem does not apply.
-/

open Machine

namespace SubmarineMonitor

/-! ### Waiting -/

/-- `xTickCount` at a time. -/
def xTickCount (time : ℕ) : UInt32 :=
  time.toUInt32

/-- `vTaskDelayUntil`: for how many ticks the task is put on the list of delayed tasks, if it is. -/
def vTaskDelayUntil (previousWakeTime timeIncrement constTickCount : UInt32) : Option UInt32 :=
  let timeToWake := previousWakeTime + timeIncrement
  let shouldDelay : Bool :=
    if constTickCount < previousWakeTime then
      -- the count has started over since `previousWakeTime`
      timeToWake < previousWakeTime && timeToWake > constTickCount
    else timeToWake < previousWakeTime || timeToWake > constTickCount
  if shouldDelay then some (timeToWake - constTickCount) else none

/-- `osDelayUntil`: when the task can go on. It reads the count at `asked`, and `vTaskDelayUntil`
reads it at `held`, when the scheduler is suspended. -/
def osDelayUntil (ticks : UInt32) (asked held : ℕ) : ℕ :=
  let tcnt := xTickCount asked
  let delay := ticks - tcnt
  if delay ≠ 0 ∧ delay >>> 31 = 0 then
    match vTaskDelayUntil tcnt delay (xTickCount held) with
    | some wait => held + wait.toNat
    | none => held
  else asked

theorem toNat_xTickCount (time : ℕ) : (xTickCount time).toNat = time % 2 ^ 32 :=
  UInt32.toNat_ofNat'

/-- What is left until a time ahead. -/
theorem toNat_sub_xTickCount {asked due : ℕ} (h : asked ≤ due) (hdue : due < asked + 2 ^ 32) :
    (xTickCount due - xTickCount asked).toNat = due - asked := by
  rw [UInt32.toNat_sub, toNat_xTickCount, toNat_xTickCount]
  omega

theorem xTickCount_add_sub (asked due : ℕ) :
    xTickCount asked + (xTickCount due - xTickCount asked) = xTickCount due := by
  rw [UInt32.add_comm, UInt32.sub_add_cancel]

/-- **The comparisons come out right**, whichever of the three times the count has started over in
between. -/
theorem vTaskDelayUntil_eq {asked held due : ℕ} (hahead : asked < due) (hdue : due < asked + 2 ^ 31)
    (hheld : asked ≤ held) (hsoon : held < asked + 2 ^ 32) :
    vTaskDelayUntil (xTickCount asked) (xTickCount due - xTickCount asked) (xTickCount held) =
      if held < due then some (xTickCount due - xTickCount held) else none := by
  have hstarted : xTickCount held < xTickCount asked ↔ held % 2 ^ 32 < asked % 2 ^ 32 := by
    rw [UInt32.lt_iff_toNat_lt, toNat_xTickCount, toNat_xTickCount]
  have hwake : xTickCount due < xTickCount asked ↔ due % 2 ^ 32 < asked % 2 ^ 32 := by
    rw [UInt32.lt_iff_toNat_lt, toNat_xTickCount, toNat_xTickCount]
  have hlater : xTickCount due > xTickCount held ↔ held % 2 ^ 32 < due % 2 ^ 32 := by
    rw [gt_iff_lt, UInt32.lt_iff_toNat_lt, toNat_xTickCount, toNat_xTickCount]
  rw [vTaskDelayUntil, xTickCount_add_sub]
  simp only [hstarted, hwake, hlater]
  refine if_congr ?_ rfl rfl
  split_ifs with h
  · rw [Bool.and_eq_true, decide_eq_true_iff, decide_eq_true_iff]
    omega
  · rw [Bool.or_eq_true, decide_eq_true_iff, decide_eq_true_iff]
    omega

/-- The test of the top bit. -/
theorem shiftRight_eq_zero_iff (delay : UInt32) : delay >>> 31 = 0 ↔ delay.toNat < 2 ^ 31 := by
  rw [← UInt32.toNat_inj, UInt32.toNat_shiftRight]
  show delay.toNat >>> 31 = 0 ↔ _
  rw [Nat.shiftRight_eq_div_pow, Nat.div_eq_zero_iff]
  omega

/-- **A time ahead is told from one gone by**: what is left until that is nothing, or its top bit is
set. -/
theorem delay_iff {asked due : ℕ} (hdue : due < asked + 2 ^ 31) (hbehind : asked ≤ due + 2 ^ 31) :
    xTickCount due - xTickCount asked ≠ 0 ∧ (xTickCount due - xTickCount asked) >>> 31 = 0 ↔
      asked < due := by
  have hzero : (0 : UInt32).toNat = 0 := rfl
  rw [shiftRight_eq_zero_iff, Ne, ← UInt32.toNat_inj, UInt32.toNat_sub, toNat_xTickCount,
    toNat_xTickCount, hzero]
  omega

/-- **When a wait is over.** -/
theorem osDelayUntil_eq {asked held due : ℕ} (hdue : due < asked + 2 ^ 31)
    (hbehind : asked ≤ due + 2 ^ 31) (hheld : asked ≤ held) (hsoon : held < asked + 2 ^ 32) :
    osDelayUntil (xTickCount due) asked held = if asked < due then max due held else asked := by
  simp only [osDelayUntil, delay_iff hdue hbehind]
  split_ifs with hahead
  · rw [vTaskDelayUntil_eq hahead hdue hheld hsoon]
    split_ifs with hwaits
    · show held + (xTickCount due - xTickCount held).toNat = _
      rw [toNat_sub_xTickCount hwaits.le (by omega), max_eq_left hwaits.le]
      omega
    · exact (max_eq_right (Nat.le_of_not_lt hwaits)).symm
  · rfl

/-! ### The loop -/

/-- A task with a period. -/
inductive PeriodicTask
  | monitor
  | keepAlive
  | sonarLed
  | watchdog
  deriving DecidableEq

/-- What it adds to `tick`: 5000, `KEEPALIVE_PERIOD_MS`, `TICK_MS`, `WATCHDOG_REFRESH_MS`. -/
def PeriodicTask.period : PeriodicTask → UInt32
  | .monitor => 5000
  | .keepAlive => 6000
  | .sonarLed => 30
  | .watchdog => 1000

/-- What becomes of the processor in one round. -/
structure RoundTimes where
  /-- From the beginning of the round to `xTaskGetTickCount` in `osDelayUntil`. -/
  work : ℕ
  /-- From there to `vTaskSuspendAll` in `vTaskDelayUntil`. -/
  heldUp : ℕ
  /-- From the time when it can go on to the beginning of the next round. -/
  latency : ℕ
  deriving DecidableEq

/-- A task before a round. -/
structure PeriodicLoop where
  /-- The local `tick`. -/
  tick : UInt32
  /-- How many rounds are over. -/
  rounds : ℕ
  /-- When this one begins. -/
  began : ℕ
  deriving DecidableEq

/-- The count is read when the first round begins. -/
def periodicStart (start : ℕ) : PeriodicLoop :=
  ⟨xTickCount start, 0, start⟩

/-- One round. -/
def periodicStep (t : PeriodicTask) (s : PeriodicLoop) (a : RoundTimes) : Option PeriodicLoop :=
  let tick := s.tick + t.period
  let asked := s.began + a.work
  some ⟨tick, s.rounds + 1, osDelayUntil tick asked (asked + a.heldUp) + a.latency⟩

/-! ### The schedule -/

/-- When a round should begin. -/
def PeriodicTask.due (t : PeriodicTask) (start rounds : ℕ) : ℕ :=
  start + rounds * t.period.toNat

/-- The local `tick` tells when the round should begin, and it does not begin before. -/
structure PeriodicLoop.OnSchedule (t : PeriodicTask) (start : ℕ) (s : PeriodicLoop) : Prop where
  tick : s.tick = xTickCount (t.due start s.rounds)
  due_le : t.due start s.rounds ≤ s.began

/-- At the end of its work the task is not half the range of the count behind, and it is not held up
for the whole range. -/
def PeriodicLoop.KeepsUp (t : PeriodicTask) (start : ℕ) (s : PeriodicLoop) (a : RoundTimes) :
    Prop :=
  s.began + a.work ≤ t.due start (s.rounds + 1) + 2 ^ 31 ∧ a.heldUp < 2 ^ 32

instance (t : PeriodicTask) (start : ℕ) (s : PeriodicLoop) (a : RoundTimes) :
    Decidable (s.KeepsUp t start a) :=
  inferInstanceAs (Decidable (_ ∧ _))

/-- A round that does not take longer than it should. -/
def RoundTimes.Fits (a : RoundTimes) (work latency : ℕ) : Prop :=
  a.work + a.heldUp ≤ work ∧ a.latency ≤ latency

instance (a : RoundTimes) (work latency : ℕ) : Decidable (a.Fits work latency) :=
  inferInstanceAs (Decidable (_ ∧ _))

variable {t : PeriodicTask} {start : ℕ} {s s' : PeriodicLoop} {a : RoundTimes}

theorem PeriodicTask.due_succ (t : PeriodicTask) (start rounds : ℕ) :
    t.due start (rounds + 1) = t.due start rounds + t.period.toNat := by
  rw [due, due]
  ring

theorem PeriodicTask.period_lt (t : PeriodicTask) : t.period.toNat < 2 ^ 31 := by
  cases t <;> decide

theorem onSchedule_start (t : PeriodicTask) (start : ℕ) :
    (periodicStart start).OnSchedule t start := by
  have hdue : t.due start 0 = start := by
    rw [PeriodicTask.due]
    omega
  exact ⟨congrArg xTickCount hdue.symm, hdue.le⟩

/-- **A round** ends when the next is due or, if it is later, when it is done with its work. -/
theorem PeriodicLoop.OnSchedule.step (h : s.OnSchedule t start) (hrange : s.KeepsUp t start a)
    (hstep : periodicStep t s a = some s') :
    s'.OnSchedule t start ∧ s'.rounds = s.rounds + 1 ∧
      s'.began ≤ max (t.due start s'.rounds) (s.began + a.work + a.heldUp) + a.latency := by
  obtain ⟨htick, hle⟩ := h
  obtain ⟨hbehind, hheld⟩ := hrange
  obtain rfl := Option.some.inj hstep
  have hperiod := t.period_lt
  have hdue := t.due_succ start s.rounds
  have hnext : s.tick + t.period = xTickCount (t.due start (s.rounds + 1)) := by
    rw [htick, hdue, ← UInt32.toNat_inj, UInt32.toNat_add, toNat_xTickCount, toNat_xTickCount]
    omega
  have hwait := osDelayUntil_eq (by omega) hbehind (Nat.le_add_right _ a.heldUp)
    (Nat.add_lt_add_left hheld _)
  rw [← hnext] at hwait
  refine ⟨⟨hnext, ?_⟩, rfl, ?_⟩
  · show t.due start (s.rounds + 1) ≤ osDelayUntil _ _ _ + _
    rw [hwait]
    split_ifs <;> omega
  · show osDelayUntil _ _ _ + _ ≤ max (t.due start (s.rounds + 1)) _ + _
    rw [hwait]
    split_ifs <;> omega

theorem onSchedule_of_reaches
    (h : Reaches (periodicStep t) (PeriodicLoop.KeepsUp t start) (periodicStart start) s) :
    s.OnSchedule t start :=
  h.invariant (onSchedule_start t start) fun hs hrange hstep ↦ (hs.step hrange hstep).1

/-- A round with room in the period makes up for what it leaves of it. -/
theorem PeriodicLoop.OnSchedule.makes_up (h : s.OnSchedule t start) {work latency lag : ℕ}
    (hlag : s.began ≤ t.due start s.rounds + lag) (hrange : lag ≤ 2 ^ 31)
    (hroom : work + latency ≤ t.period.toNat) (ha : a.Fits work latency)
    (hstep : periodicStep t s a = some s') :
    s'.OnSchedule t start ∧ s'.rounds = s.rounds + 1 ∧
      s'.began ≤ t.due start s'.rounds +
        max latency (lag - (t.period.toNat - (work + latency))) := by
  obtain ⟨hwork, hlatency⟩ := ha
  have hperiod := t.period_lt
  have hdue := t.due_succ start s.rounds
  obtain ⟨hs', hrounds, hbegan⟩ := h.step ⟨by omega, by omega⟩ hstep
  refine ⟨hs', hrounds, ?_⟩
  rw [hrounds] at hbegan ⊢
  omega

/-- **The periodic tasks keep their schedule.** However long the rounds have taken, none has begun
early. From where a task is `lag` ticks behind, and work and latency have room in the period, every
round makes up for what is left of it, until the task is only as late as the scheduler is with
it. -/
theorem rounds_on_schedule {work latency lag : ℕ}
    (h : Reaches (periodicStep t) (PeriodicLoop.KeepsUp t start) (periodicStart start) s)
    (hlag : s.began ≤ t.due start s.rounds + lag) (hrange : lag ≤ 2 ^ 31)
    (hroom : work + latency ≤ t.period.toNat)
    (h' : Reaches (periodicStep t) (fun _ a ↦ a.Fits work latency) s s') :
    t.due start s'.rounds ≤ s'.began ∧
      s'.began ≤ t.due start s'.rounds +
        max latency (lag - (s'.rounds - s.rounds) * (t.period.toNat - (work + latency))) := by
  obtain ⟨hs', -, hlate⟩ := h'.invariant (I := fun u ↦ u.OnSchedule t start ∧
      s.rounds ≤ u.rounds ∧ u.began ≤ t.due start u.rounds +
        max latency (lag - (u.rounds - s.rounds) * (t.period.toNat - (work + latency))))
    ⟨onSchedule_of_reaches h, le_rfl, by rw [Nat.sub_self, Nat.zero_mul]; omega⟩ (by
      rintro u u' a ⟨hu, hle, hlate⟩ hwithin hstep
      have hperiod := t.period_lt
      obtain ⟨hu', hrounds, hlate'⟩ := hu.makes_up hlate (by omega) hroom hwithin hstep
      have hmore : u'.rounds - s.rounds = u.rounds - s.rounds + 1 := by omega
      refine ⟨hu', by omega, ?_⟩
      rw [hmore, Nat.succ_mul]
      omega)
  exact ⟨hs'.due_le, hlate⟩

/-- A round of the keep-alives has taken eight seconds too long, and meanwhile the count has started
over. Two rounds later they are on their schedule again. -/
theorem rounds_on_schedule_keepAlive :
    ∃ s s' : PeriodicLoop, s.rounds = 1 ∧ s.tick < (periodicStart (2 ^ 32 - 1024)).tick ∧
      s.began = PeriodicTask.keepAlive.due (2 ^ 32 - 1024) 1 + 8000 ∧ s'.rounds = 3 ∧
      s'.began ≤ PeriodicTask.keepAlive.due (2 ^ 32 - 1024) 3 + 2 := by
  have hslow : exec (guarded (periodicStep .keepAlive)
      (PeriodicLoop.KeepsUp .keepAlive (2 ^ 32 - 1024))) (periodicStart (2 ^ 32 - 1024))
      [⟨14000, 0, 0⟩] = some ⟨4976, 1, 4294980272⟩ := by
    decide +kernel
  have hquick : exec (guarded (periodicStep .keepAlive) fun _ a ↦ a.Fits 100 2)
      ⟨4976, 1, 4294980272⟩ [⟨90, 10, 1⟩, ⟨100, 0, 2⟩] = some ⟨16976, 3, 4294984274⟩ := by
    decide +kernel
  have hlag : 4294980272 ≤ PeriodicTask.keepAlive.due (2 ^ 32 - 1024) 1 + 8000 := by decide
  have hlate := (rounds_on_schedule (reaches_of_exec hslow) hlag (by decide) (by decide)
    (reaches_of_exec hquick)).2
  exact ⟨⟨4976, 1, 4294980272⟩, _, rfl, by decide, by decide, rfl, hlate.trans (by decide)⟩

end SubmarineMonitor
