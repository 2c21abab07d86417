import SubmarineMonitor.Foundation.Positional
import SubmarineMonitor.Foundation.Text

/-!
# The order of texts

Texts compared byte by byte, a proper beginning being smaller than the whole. Texts made of blocks
of fixed width compare block by block (`append_le_append_iff`), and numbers printed with two digits
compare as the numbers do, so a record of such numbers compares as the list of them does.

## Whose order

The order is that of `memcmp` with the shorter text first among those that agree, which is the order
of the C++ string, of SQLite's default collation, and of Mathlib's lexicographic order on lists over
bytes as numbers. The instance on bytes is defined here because Lean has the comparisons and Mathlib
the order, and they have to be the same for both kinds of lemmas to apply.

The lemmas on blocks are for any linear order. A block is compared before what follows it, if the
two blocks have the same length; without that condition the comparison could be decided in the
middle of one of them.

`prefix_of_between` is about the middle. A text that lies between two others which begin alike has
no choice but to begin so too. It is how a text that was typed by hand is compared with printed
ones, field by field.

Comparing by a locale's rules, or ignoring case, is left out.
-/

/-- Bytes are ordered as numbers. -/
instance byteOrder : LinearOrder UInt8 where
  le_refl a := UInt8.le_refl a
  le_trans _ _ _ := UInt8.le_trans
  le_antisymm _ _ := UInt8.le_antisymm
  le_total := UInt8.le_total
  lt_iff_le_not_ge _ _ := by
    rw [UInt8.not_le]
    exact ⟨fun h ↦ ⟨UInt8.le_of_lt h, h⟩, fun h ↦ h.2⟩
  toDecidableLE := inferInstance

namespace Text

section Blocks

variable {α : Type*} [LinearOrder α]

/-- **Blocks of the same width** are compared first. -/
theorem append_le_append_iff {a b s t : List α} (h : a.length = b.length) :
    a ++ s ≤ b ++ t ↔ a < b ∨ a = b ∧ s ≤ t := by
  induction a generalizing b with
  | nil =>
    obtain rfl : b = [] := List.eq_nil_of_length_eq_zero h.symm
    simp
  | cons x a ih =>
    obtain _ | ⟨y, b⟩ := b
    · cases h
    rw [List.cons_append, List.cons_append, Positional.cons_le_cons_iff, ih (Nat.succ.inj h),
      List.cons_lt_cons_iff, List.cons.injEq]
    tauto

/-- What two texts begin with alike does not matter. -/
theorem append_left_le_iff {a s t : List α} : a ++ s ≤ a ++ t ↔ s ≤ t := by
  rw [append_le_append_iff rfl]
  simp

/-- A beginning is not greater than the whole. -/
theorem le_append (a s : List α) : a ≤ a ++ s := by
  have hnil : a ++ [] ≤ a ++ s := append_left_le_iff.2 (not_lt.1 (List.not_lt_nil s))
  rwa [List.append_nil] at hnil

theorem append_left_lt_iff {a s t : List α} : a ++ s < a ++ t ↔ s < t := by
  rw [← not_le, append_left_le_iff, not_le]

/-- **A text between two that begin alike** begins so too. -/
theorem prefix_of_between {a x y w : List α} (hlow : a ++ x ≤ w) (hhigh : w ≤ a ++ y) :
    ∃ u, w = a ++ u ∧ x ≤ u ∧ u ≤ y := by
  induction a generalizing w with
  | nil => exact ⟨w, rfl, hlow, hhigh⟩
  | cons c a ih =>
    cases w with
    | nil => exact absurd (List.nil_lt_cons c (a ++ x)) (not_lt.2 hlow)
    | cons d w =>
      rw [List.cons_append, Positional.cons_le_cons_iff] at hlow hhigh
      rcases hlow with hlt | ⟨rfl, hlow⟩
      · rcases hhigh with hlt' | ⟨rfl, -⟩
        · exact absurd hlt' hlt.not_gt
        · exact absurd hlt (lt_irrefl d)
      · rcases hhigh with hlt | ⟨-, hhigh⟩
        · exact absurd hlt (lt_irrefl c)
        · obtain ⟨u, rfl, hx, hy⟩ := ih hlow hhigh
          exact ⟨u, rfl, hx, hy⟩

end Blocks

/-- Two digits are ordered as the number they stand for. -/
theorem decimal2_lt_iff {m n : ℕ} (hm : m < 100) (hn : n < 100) :
    decimal2 m < decimal2 n ↔ m < n := by
  have hdigit : ∀ d < 10, (0x30 + d.toUInt8 : UInt8).toNat = 48 + d := by decide
  have hm₁ := hdigit (m / 10) (by omega)
  have hm₀ := hdigit (m % 10) (by omega)
  have hn₁ := hdigit (n / 10) (by omega)
  have hn₀ := hdigit (n % 10) (by omega)
  rw [decimal2_of_lt hm, decimal2_of_lt hn, List.cons_lt_cons_iff, List.cons_lt_cons_iff,
    UInt8.lt_iff_toNat_lt, UInt8.lt_iff_toNat_lt, ← UInt8.toNat_inj, hm₁, hm₀, hn₁, hn₀]
  simp only [List.not_lt_nil, and_false, or_false]
  omega

theorem length_decimal2 {n : ℕ} (h : n < 100) : (decimal2 n).length = 2 := by
  rw [decimal2_of_lt h]
  rfl

/-- A two-digit block in front of a text. -/
theorem decimal2_append_le_iff {m n : ℕ} (hm : m < 100) (hn : n < 100) {s t : List UInt8} :
    decimal2 m ++ s ≤ decimal2 n ++ t ↔ m < n ∨ m = n ∧ s ≤ t := by
  have hinj : decimal2 m = decimal2 n ↔ m = n := by
    refine ⟨fun h ↦ ?_, fun h ↦ by rw [h]⟩
    refine le_antisymm (not_lt.1 fun hgt ↦ ?_) (not_lt.1 fun hlt ↦ ?_)
    · exact ((decimal2_lt_iff hn hm).2 hgt).ne h.symm
    · exact ((decimal2_lt_iff hm hn).2 hlt).ne h
  rw [append_le_append_iff ((length_decimal2 hm).trans (length_decimal2 hn).symm),
    decimal2_lt_iff hm hn, hinj]

end Text
