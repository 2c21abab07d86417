import Mathlib.Algebra.NeZero
import Mathlib.Algebra.Order.Ring.Nat
import Mathlib.Tactic.ByContra

/-!
# Measuring a line by polling

A program waits for a line to change by reading it over and over, and looks at a counter in between
to give up in time. Both the line and the program live in one time, counted in cycles: the line is a
function of it, and an access that follows one at `t` takes place at `t + 1 + pace t`, whatever
keeps the program busy meanwhile.

Nothing is assumed of the pace but a bound `gap` on what lies between two accesses. A level that is
left for at least two gaps is noticed within these (`waitWhile_of_holds`), one that stays too long
is given up (`waitWhile_of_stuck`), and in any case the loop comes back (`waitWhile_le`).

## Time

All times are numbers of cycles from one beginning. The line is a function of time and the program
does not influence it, so a device that reacts to the program is described by a line that depends on
when the program did something. `pace` is a function of time as well: how long the program is kept
busy by interrupts after an access at that time. It is arbitrary but for the bound.

The counter is the quotient of time by its unit, minus what it was at the reset. A counter that is
reset by hardware counts from the next whole unit, and that is one unit of uncertainty, which the
bounds contain.

## Loops that look twice

`waitWhile` reads the line and then the counter, and these are two accesses with up to a gap between
them. So a level that is left must stay away for two gaps to be noticed for certain, and the loop
may end a little behind the limit. The recursions are well-founded by the time left until the limit;
a loop without a counter would need another argument, as nothing would end it.

Bounds are stated from both sides: when a loop ends at the latest, and that it has not ended before
the line left its level or the limit was passed.
-/

namespace Polling

/-! ### Accesses and the counter -/

/-- The time of the access that follows the one at `t`. -/
def next (pace : ℕ → ℕ) (t : ℕ) : ℕ :=
  t + 1 + pace t

/-- At most `gap` cycles lie between an access and the next. -/
def Prompt (pace : ℕ → ℕ) (gap : ℕ) : Prop :=
  ∀ t, next pace t ≤ t + gap

/-- A counter that counts every `unit` cycles and was set to zero at `reset`. What divides the
cycles goes on meanwhile. -/
def counter (unit reset t : ℕ) : ℕ :=
  t / unit - reset / unit

/-- The line has the level from `a` until just before `b`. -/
def Holds (line : ℕ → Bool) (level : Bool) (a b : ℕ) : Prop :=
  ∀ t, a ≤ t → t < b → line t = level

variable {line : ℕ → Bool} {pace : ℕ → ℕ} {unit : ℕ} [NeZero unit] {level : Bool}
  {limit reset t a b c gap : ℕ}

theorem Holds.mono (h : Holds line level a c) (hb : b ≤ c) : Holds line level a b :=
  fun t ha hlt ↦ h t ha (hlt.trans_le hb)

/-- Where the line still has the old level, it is not yet the time of the new one. -/
theorem Holds.lt_of_line_eq (h : Holds line (!level) b c) (ht : t < c) (hline : line t = level) :
    t < b := by
  by_contra hle
  have hnew := h t (Nat.le_of_not_lt hle) ht
  rw [hline] at hnew
  exact (Bool.eq_not_self level).1 hnew

theorem lt_next (pace : ℕ → ℕ) (t : ℕ) : t < next pace t :=
  Nat.lt_of_lt_of_le (Nat.lt_succ_self t) (Nat.le_add_right _ _)

/-- The counter cannot be past a limit that early. -/
theorem counter_le (h : t ≤ reset + limit * unit) : counter unit reset t ≤ limit := by
  have hdiv : t / unit ≤ reset / unit + limit := by
    rw [← Nat.add_mul_div_right _ _ (Nat.pos_of_neZero unit)]
    exact Nat.div_le_div_right h
  rw [counter]
  omega

/-- The counter is past a limit that late. -/
theorem lt_counter (h : reset + (limit + 1) * unit ≤ t) : limit < counter unit reset t := by
  have hdiv : reset / unit + (limit + 1) ≤ t / unit := by
    rw [← Nat.add_mul_div_right _ _ (Nat.pos_of_neZero unit)]
    exact Nat.div_le_div_right h
  rw [counter]
  omega

/-- As long as the counter is not past a limit, not much time has passed. -/
theorem lt_of_counter_le (h : counter unit reset t ≤ limit) : t < reset + (limit + 1) * unit := by
  by_contra hle
  exact absurd (lt_counter (Nat.le_of_not_lt hle)) (Nat.not_lt.2 h)

/-! ### The loops -/

/-- Wait until a counter that was set to zero at `reset` has come to `target`. -/
def waitCounter (pace : ℕ → ℕ) (unit : ℕ) [NeZero unit] (target reset t : ℕ) : ℕ :=
  let look := next pace t
  if counter unit reset look < target then waitCounter pace unit target reset look else look
termination_by reset + target * unit - t
decreasing_by
  rename_i h
  have hlate := lt_next pace t
  have hearly : next pace t < reset + target * unit := by
    obtain ⟨limit, rfl⟩ := Nat.exists_eq_succ_of_ne_zero (Nat.ne_zero_of_lt h)
    exact lt_of_counter_le (Nat.le_of_lt_succ h)
  omega

/-- Read the line as long as it has the level, and give up once the counter is past the limit:
whether the level has been left, and when the loop ends. -/
def waitWhile (line : ℕ → Bool) (pace : ℕ → ℕ) (unit : ℕ) [NeZero unit] (level : Bool)
    (limit reset t : ℕ) : Bool × ℕ :=
  let read := next pace t
  if line read = level then
    let look := next pace read
    if counter unit reset look > limit then (false, look)
    else waitWhile line pace unit level limit reset look
  else (true, read)
termination_by reset + (limit + 1) * unit - t
decreasing_by
  rename_i h
  have hread : t < read := lt_next pace t
  have hlook : read < look := lt_next pace read
  have hearly : look < reset + (limit + 1) * unit := lt_of_counter_le (Nat.not_lt.1 h)
  show reset + (limit + 1) * unit - look < _
  omega

/-- Waiting takes little longer than it should. -/
theorem waitCounter_le (hprompt : Prompt pace gap) (ht : t ≤ reset + target * unit) :
    waitCounter pace unit target reset t ≤ reset + target * unit + gap := by
  fun_induction waitCounter pace unit target reset t with
  | case1 t look hlt ih =>
    refine ih ?_
    obtain ⟨limit, rfl⟩ := Nat.exists_eq_succ_of_ne_zero (Nat.ne_zero_of_lt hlt)
    exact (lt_of_counter_le (Nat.le_of_lt_succ hlt)).le
  | case2 t look _ => exact (hprompt t).trans (Nat.add_le_add_right ht gap)

/-- And no shorter: of the last count a part may have been over at the reset. -/
theorem lt_waitCounter : reset + limit * unit < waitCounter pace unit (limit + 1) reset t := by
  fun_induction waitCounter pace unit (limit + 1) reset t with
  | case1 t look _ ih => exact ih
  | case2 t look hreached =>
    by_contra hle
    exact hreached (Nat.lt_succ_of_le (counter_le (Nat.le_of_not_lt hle)))

/-- A level that has been left already is noticed at once. -/
theorem waitWhile_of_left (hleft : line (next pace t) ≠ level) :
    waitWhile line pace unit level limit reset t = (true, next pace t) := by
  rw [waitWhile, if_neg hleft]

/-- **A level that is left is noticed** within two gaps, if it is left in time and for that long. -/
theorem waitWhile_of_holds (hprompt : Prompt pace gap) (hlevel : Holds line level a b)
    (hchange : Holds line (!level) b c) (hc : b + 2 * gap ≤ c) (ha : a ≤ t + 1) (ht : t < b + gap)
    (hlimit : b + gap ≤ reset + limit * unit) :
    ∃ r, waitWhile line pace unit level limit reset t = (true, r) ∧ b ≤ r ∧ r < b + 2 * gap ∧
      t < r := by
  fun_induction waitWhile line pace unit level limit reset t with
  | case1 t read hread look hlimit' =>
    -- the level was still there, so it is too early for the limit
    have hlook := hprompt t
    have hearly : read < b := hchange.lt_of_line_eq (by omega) hread
    have := hprompt read
    exact absurd (counter_le (by omega)) (Nat.not_le.2 hlimit')
  | case2 t read hread look _ ih =>
    have hlook := hprompt t
    have hearly : read < b := hchange.lt_of_line_eq (by omega) hread
    have := hprompt read
    have hlater := lt_next pace t
    have hlater' := lt_next pace read
    obtain ⟨r, hr, hb, hlt, htr⟩ := ih (by omega) (by omega)
    exact ⟨r, hr, hb, hlt, by omega⟩
  | case3 t read hread =>
    have hlater := lt_next pace t
    have := hprompt t
    refine ⟨read, rfl, ?_, by omega, hlater⟩
    by_contra hlt
    exact hread (hlevel read (by omega) (Nat.lt_of_not_le hlt))

/-- A level that stays is given up. -/
theorem waitWhile_of_stuck (hlevel : ∀ s, t < s → line s = level) :
    (waitWhile line pace unit level limit reset t).1 = false := by
  fun_induction waitWhile line pace unit level limit reset t with
  | case1 t read _ look _ => rfl
  | case2 t read _ look _ ih =>
    exact ih fun s hs ↦ hlevel s (((lt_next pace t).trans (lt_next pace read)).trans hs)
  | case3 t read hread => exact absurd (hlevel read (lt_next pace t)) hread

/-- What ends the loop is a reading of the other level. -/
theorem line_of_waitWhile {r : ℕ} (h : waitWhile line pace unit level limit reset t = (true, r)) :
    line r ≠ level := by
  fun_induction waitWhile line pace unit level limit reset t with
  | case1 t read _ look _ => cases h
  | case2 t read _ look _ ih => exact ih h
  | case3 t read hread =>
    obtain rfl : read = r := congrArg Prod.snd h
    exact hread

/-- If the line changes no more, a loop that is under way ends soon or not at all. -/
theorem waitWhile_of_dead (hprompt : Prompt pace gap) {s r : ℕ} {last : Bool}
    (hdead : ∀ u, s < u → line u = last) (ht : t ≤ s + gap)
    (h : waitWhile line pace unit level limit reset t = (true, r)) : r ≤ s + 2 * gap := by
  fun_induction waitWhile line pace unit level limit reset t with
  | case1 t read _ look _ => cases h
  | case2 t read hread look hlook ih =>
    by_cases hsoon : look ≤ s + gap
    · exact ih hsoon h
    · -- the level has been read after the last change
      have hlate := hprompt read
      have hlast : line read = last := hdead read (by omega)
      have hstuck : (waitWhile line pace unit level limit reset look).1 = false :=
        waitWhile_of_stuck fun u hu ↦ (hdead u (by omega)).trans (hlast.symm.trans hread)
      rw [h] at hstuck
      cases hstuck
  | case3 t read _ =>
    have hread := hprompt t
    have hr : read = r := congrArg Prod.snd h
    omega

/-- **The loop comes back** soon after the limit, whatever the line does. -/
theorem waitWhile_le (hprompt : Prompt pace gap) (ht : t < reset + (limit + 1) * unit) :
    (waitWhile line pace unit level limit reset t).2 ≤ reset + (limit + 1) * unit + 2 * gap := by
  fun_induction waitWhile line pace unit level limit reset t with
  | case1 t read _ look _ =>
    have hread := hprompt t
    have hlook := hprompt read
    show look ≤ _
    omega
  | case2 t read _ look hlook ih => exact ih (lt_of_counter_le (Nat.not_lt.1 hlook))
  | case3 t read _ =>
    have hread := hprompt t
    show read ≤ _
    omega

theorem lt_waitWhile (t : ℕ) : t < (waitWhile line pace unit level limit reset t).2 := by
  fun_induction waitWhile line pace unit level limit reset t with
  | case1 t read _ look _ => exact (lt_next pace t).trans (lt_next pace read)
  | case2 t read _ look _ ih => exact ((lt_next pace t).trans (lt_next pace read)).trans ih
  | case3 t read _ => exact lt_next pace t

end Polling
