import Mathlib.Data.List.Lex
import Mathlib.Tactic.Ring

/-!
# Positional values

A list of digits read as a number, most significant digit first. As long as every digit is below the
base, comparing the numbers is comparing the lists lexicographically: packing fields into one integer
loses nothing that a comparison could ask for.

## The one comparison

Programs pack fields into an integer in order to compare many fields at once. The packing is right
when each field is below the base, and the theorem has exactly that hypothesis, together with equal
lengths; lists of different lengths may be ordered one way as lists and another way as numbers.

The order on lists is the lexicographic one of Mathlib, over any linear order. `cons_le_cons_iff` is
the form in which an induction meets it: the leading entries decide unless they agree. It is stated
for any linear order because it is used for texts as well.

`value` folds from the left, as a program does that multiplies and adds. `value_cons` and `foldl_eq`
take out the leading digit with its power of the base, which is what inductions need.

Bases may vary from field to field in a program. Nothing is proved about mixed bases; a base that is
large enough for all fields serves, if the program uses one.
-/

namespace Positional

/-- The value of a list of digits, most significant first. -/
def value (b : ℕ) (ds : List ℕ) : ℕ :=
  ds.foldl (fun acc d ↦ acc * b + d) 0

theorem foldl_eq (b acc : ℕ) (ds : List ℕ) :
    ds.foldl (fun acc d ↦ acc * b + d) acc = acc * b ^ ds.length + value b ds := by
  induction ds generalizing acc with
  | nil => simp [value]
  | cons d ds ih =>
    rw [value, List.foldl_cons, List.foldl_cons, ih, ih (0 * b + d), List.length_cons]
    ring

theorem value_cons (b d : ℕ) (ds : List ℕ) : value b (d :: ds) = d * b ^ ds.length + value b ds := by
  rw [value, List.foldl_cons, foldl_eq, Nat.zero_mul, Nat.zero_add]

theorem value_lt {b : ℕ} {ds : List ℕ} (h : ∀ d ∈ ds, d < b) : value b ds < b ^ ds.length := by
  induction ds with
  | nil => simp [value]
  | cons d ds ih =>
    have hd : d + 1 ≤ b := h d List.mem_cons_self
    have htail := ih fun x hx ↦ h x (List.mem_cons_of_mem d hx)
    rw [value_cons, List.length_cons, Nat.pow_succ']
    calc d * b ^ ds.length + value b ds < d * b ^ ds.length + b ^ ds.length := by omega
      _ = (d + 1) * b ^ ds.length := by ring
      _ ≤ b * b ^ ds.length := Nat.mul_le_mul_right _ hd

/-- The lexicographic order looks past a leading entry only where the two agree. -/
theorem cons_le_cons_iff {α : Type*} [LinearOrder α] {x y : α} {xs ys : List α} :
    x :: xs ≤ y :: ys ↔ x < y ∨ x = y ∧ xs ≤ ys := by
  rw [← not_lt, List.cons_lt_cons_iff, ← not_lt]
  rcases lt_trichotomy x y with hlt | rfl | hgt
  · simp [hlt, hlt.not_gt, hlt.ne']
  · simp
  · simp [hgt.not_gt, hgt, hgt.ne']

/-- **Packed digits compare as the lists do.** -/
theorem value_le_value_iff {b : ℕ} {xs ys : List ℕ} (hlen : xs.length = ys.length)
    (hx : ∀ x ∈ xs, x < b) (hy : ∀ y ∈ ys, y < b) : value b xs ≤ value b ys ↔ xs ≤ ys := by
  induction xs generalizing ys with
  | nil =>
    obtain rfl : ys = [] := List.eq_nil_of_length_eq_zero hlen.symm
    exact iff_of_true le_rfl le_rfl
  | cons x xs ih =>
    obtain _ | ⟨y, ys⟩ := ys
    · cases hlen
    have hlen' : xs.length = ys.length := Nat.succ.inj hlen
    have ih' := ih hlen' (fun z hz ↦ hx z (List.mem_cons_of_mem x hz))
      fun z hz ↦ hy z (List.mem_cons_of_mem y hz)
    have hxs := value_lt fun z hz ↦ hx z (List.mem_cons_of_mem x hz)
    have hys := value_lt fun z hz ↦ hy z (List.mem_cons_of_mem y hz)
    rw [hlen'] at hxs
    rw [value_cons, value_cons, cons_le_cons_iff, ← ih', hlen']
    rcases lt_trichotomy x y with hlt | rfl | hgt
    · -- a smaller leading digit decides, whatever follows
      have hstep : (x + 1) * b ^ ys.length ≤ y * b ^ ys.length := Nat.mul_le_mul_right _ hlt
      rw [Nat.succ_mul] at hstep
      exact iff_of_true (by omega) (.inl hlt)
    · simp
    · have hstep : (y + 1) * b ^ ys.length ≤ x * b ^ ys.length := Nat.mul_le_mul_right _ hgt
      rw [Nat.succ_mul] at hstep
      refine iff_of_false (by omega) ?_
      rintro (h | ⟨h, -⟩) <;> omega

end Positional
