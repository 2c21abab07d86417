import Mathlib.Data.List.DropRight

/-!
# Separated lists

Lists cut at a separator, with blanks around the pieces. `strip` takes the blanks off both ends;
what is left is `Trimmed`, and it is the only trimmed list that the blanks around it can be put
around (`strip_append`). The pieces between the separators are those of `List.splitOn`.

## Stripping twice

`strip` drops blanks in front and then behind. That the order makes no difference is not stated, as
nobody asks; what is used is that the result is trimmed, that it is a contiguous part with only
blanks around it, and that a trimmed list which is not empty is found again under any blanks.
Together these say that stripping is the only function of its kind.

A list of nothing but blanks is stripped to nothing, and nothing is trimmed. So a piece without
content and a piece of blanks are the same behind `strip`, and a user who wants to leave them out
has one case.

Entries are of any type, and `blank` is any predicate on them. The separator may be blank or not:
pieces are cut before they are stripped.

The pieces are those of Mathlib's `List.splitOn`, which has one more piece than the list has
separators. No piece has a separator in it (`notMem_of_mem_splitOn`).
-/

namespace Separated

variable {α : Type*} (blank : α → Bool)

/-- A list without the blanks at its two ends. -/
def strip (s : List α) : List α :=
  (s.dropWhile blank).rdropWhile blank

/-- Neither the first nor the last entry is blank. -/
structure Trimmed (s : List α) : Prop where
  head : ∀ c, s.head? = some c → blank c = false
  last : ∀ c, s.getLast? = some c → blank c = false

variable {blank}

/-! ### Taking off the blanks -/

theorem of_head?_dropWhile {s : List α} {c : α} (h : (s.dropWhile blank).head? = some c) :
    blank c = false := by
  have hnot := List.head?_dropWhile_not blank s
  rwa [h] at hnot

theorem dropWhile_of_head? {s : List α} (h : ∀ c, s.head? = some c → blank c = false) :
    s.dropWhile blank = s := by
  cases s with
  | nil => rfl
  | cons c s => rw [List.dropWhile_cons_of_neg (by rw [h c rfl]; exact Bool.false_ne_true)]

variable (blank) in
/-- What is left is what stands between blanks. -/
theorem exists_eq_append_strip (s : List α) :
    ∃ l r, s = l ++ (strip blank s ++ r) ∧ (∀ c ∈ l, blank c = true) ∧ ∀ c ∈ r, blank c = true := by
  refine ⟨s.takeWhile blank, (s.dropWhile blank).rtakeWhile blank, ?_, ?_, ?_⟩
  · rw [strip, List.rdropWhile_append_rtakeWhile, List.takeWhile_append_dropWhile]
  · exact fun c hc ↦ List.mem_takeWhile_imp hc
  · exact fun c hc ↦ List.mem_rtakeWhile_imp hc

theorem trimmed_strip (s : List α) : Trimmed blank (strip blank s) := by
  constructor
  · intro c hc
    -- the first entry is that of what is left when the blanks in front are gone
    obtain ⟨r, hr⟩ := List.rdropWhile_prefix blank (s.dropWhile blank)
    apply of_head?_dropWhile (s := s)
    rw [← hr, List.head?_append]
    exact congrArg (Option.or · _) hc
  · intro c hc
    rw [strip, List.rdropWhile, List.getLast?_reverse] at hc
    exact of_head?_dropWhile hc

/-- **Blanks around a trimmed list** are what is taken off. -/
theorem strip_append {l m r : List α} (hl : ∀ c ∈ l, blank c = true) (hr : ∀ c ∈ r, blank c = true)
    (hm : Trimmed blank m) (hne : m ≠ []) : strip blank (l ++ (m ++ r)) = m := by
  have hfront : ∀ c, (m ++ r).head? = some c → blank c = false := by
    intro c hc
    obtain ⟨d, m, rfl⟩ := List.exists_cons_of_ne_nil hne
    exact hm.head c hc
  have hback : ∀ c, m.reverse.head? = some c → blank c = false := by
    intro c hc
    rw [List.head?_reverse] at hc
    exact hm.last c hc
  have hr' : ∀ c ∈ r.reverse, blank c = true := fun c hc ↦ hr c (List.mem_reverse.1 hc)
  rw [strip, List.dropWhile_append_of_pos hl, dropWhile_of_head? hfront, List.rdropWhile,
    List.reverse_append, List.dropWhile_append_of_pos hr', dropWhile_of_head? hback,
    List.reverse_reverse]

theorem strip_eq_nil_iff (s : List α) : strip blank s = [] ↔ ∀ c ∈ s, blank c = true := by
  rw [strip, List.rdropWhile_eq_nil_iff]
  constructor
  · intro h c hc
    rw [← List.takeWhile_append_dropWhile (p := blank) (l := s)] at hc
    rcases List.mem_append.1 hc with hc | hc
    · exact List.mem_takeWhile_imp hc
    · exact h c hc
  · exact fun h c hc ↦ h c ((List.dropWhile_sublist blank).subset hc)

/-! ### The pieces -/

/-- No piece has a separator in it. -/
theorem notMem_of_mem_splitOn [BEq α] [LawfulBEq α] {a : α} {s piece : List α}
    (h : piece ∈ s.splitOn a) : a ∉ piece := by
  induction s generalizing piece with
  | nil =>
    obtain rfl := List.mem_singleton.1 h
    exact List.not_mem_nil
  | cons c s ih =>
    rw [List.splitOn_cons_eq_if_modifyHead] at h
    split at h
    · rcases List.mem_cons.1 h with rfl | h
      · exact List.not_mem_nil
      · exact ih h
    · rename_i hc
      obtain ⟨first, rest, hsplit⟩ := List.exists_cons_of_ne_nil (List.splitOn_ne_nil a s)
      rw [hsplit, List.modifyHead_cons] at h
      rw [hsplit] at ih
      rcases List.mem_cons.1 h with rfl | h
      · rw [List.mem_cons, not_or]
        exact ⟨fun hac ↦ hc (beq_iff_eq.2 hac.symm), ih List.mem_cons_self⟩
      · exact ih (List.mem_cons_of_mem first h)

end Separated
