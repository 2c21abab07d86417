import Mathlib.Data.List.Sort
import Mathlib.Order.Bounds.Basic

/-!
# Selecting a range

What a query by a range of keys returns: the rows whose key lies in the range, each as often as the
table has it, in the order of the keys. Rows with the same key may come in any order, so this is a
relation between a table and a result and not a function.

Nothing but the order of the keys matters: keys that are ordered alike select alike
(`Selects.congr`), and two ranges select alike when they hold the same keys
(`selects_iff_of_range_iff`).

## Why a relation

A sorted result is unique only up to the order of rows with equal keys, and a store does not promise
one. As a function the selection would promise more than the store, and a theorem about it could
rest on that by accident. As a relation it is a permutation and an order, and both are what the user
of a query relies on.

The table is a list, since the same row may be there twice. `mem_iff` is for those who ask only
which rows there are.

## Changing the range

Most questions are about two ranges or two kinds of keys, texts and the times they stand for.
`congr` and `range_congr` carry a result over when the rows of one table are compared alike; the
converse needs tables to try, and is `selects_iff_of_range_iff`, for all tables with keys in a set.
`range_iff_iff_isLeast` turns that into the ends of the range: the first key is the least one that
the start lets in, the last one the greatest that the end lets in.

That the second range is not empty is a hypothesis there. An empty range holds nothing, whatever its
ends.

`mergeSort` shows that there is always a result, and is how one is computed.
-/

variable {α κ κ' : Type*}

/-- `result` is what the table has from `start` to `stop`, in ascending order. -/
structure Selects [LE κ] [DecidableLE κ] (key : α → κ) (start stop : κ) (table result : List α) :
    Prop where
  perm : result.Perm (table.filter fun r ↦ start ≤ key r ∧ key r ≤ stop)
  sorted : result.Pairwise fun r r' ↦ key r ≤ key r'

namespace Selects

section LE

variable [LE κ] [DecidableLE κ] [LE κ'] [DecidableLE κ'] {key : α → κ} {key' : α → κ'}
  {start stop : κ} {start' stop' : κ'} {table result : List α}

/-- What is selected is in the table and in the range. -/
theorem mem_iff (h : Selects key start stop table result) {r : α} :
    r ∈ result ↔ r ∈ table ∧ start ≤ key r ∧ key r ≤ stop := by
  rw [h.perm.mem_iff, List.mem_filter, decide_eq_true_iff]

/-- **Keys that are ordered alike select alike.** -/
theorem congr (h : Selects key start stop table result)
    (hstart : ∀ r ∈ table, start ≤ key r ↔ start' ≤ key' r)
    (hstop : ∀ r ∈ table, key r ≤ stop ↔ key' r ≤ stop')
    (hkey : ∀ r ∈ table, ∀ r' ∈ table, key r ≤ key r' ↔ key' r ≤ key' r') :
    Selects key' start' stop' table result where
  perm := by
    have hfilter : (table.filter fun r ↦ start ≤ key r ∧ key r ≤ stop) =
        table.filter fun r ↦ start' ≤ key' r ∧ key' r ≤ stop' :=
      List.filter_congr fun r hr ↦ decide_eq_decide.2 (and_congr (hstart r hr) (hstop r hr))
    rw [← hfilter]
    exact h.perm
  sorted := by
    refine h.sorted.imp_of_mem fun {r r'} hr hr' hle ↦ ?_
    exact (hkey r (h.mem_iff.1 hr).1 r' (h.mem_iff.1 hr').1).1 hle

/-- **Ranges that hold the same keys** of a table select the same. -/
theorem range_congr {start₁ stop₁ : κ} (h : Selects key start stop table result)
    (hrange : ∀ r ∈ table, start ≤ key r ∧ key r ≤ stop ↔ start₁ ≤ key r ∧ key r ≤ stop₁) :
    Selects key start₁ stop₁ table result where
  perm := by
    have hfilter : (table.filter fun r ↦ start ≤ key r ∧ key r ≤ stop) =
        table.filter fun r ↦ start₁ ≤ key r ∧ key r ≤ stop₁ :=
      List.filter_congr fun r hr ↦ decide_eq_decide.2 (hrange r hr)
    rw [← hfilter]
    exact h.perm
  sorted := h.sorted

/-- The rows may be seen in another way. -/
theorem map {β : Type*} (f : α → β) {key : β → κ}
    (h : Selects (fun r ↦ key (f r)) start stop table result) :
    Selects key start stop (table.map f) (result.map f) where
  perm := by
    rw [List.filter_map]
    exact h.perm.map f
  sorted := List.pairwise_map.2 h.sorted

end LE

/-- Sorting what lies in the range is a way of selecting it. -/
theorem mergeSort [LinearOrder κ] (key : α → κ) (start stop : κ) (table : List α) :
    Selects key start stop table
      ((table.filter fun r ↦ start ≤ key r ∧ key r ≤ stop).mergeSort
        fun r r' ↦ key r ≤ key r') where
  perm := List.mergeSort_perm _ _
  sorted := by
    have hsorted := @List.pairwise_mergeSort _ (fun r r' ↦ decide (key r ≤ key r'))
      (fun a b c hab hbc ↦ by
        rw [decide_eq_true_iff] at hab hbc ⊢
        exact hab.trans hbc)
      (fun a b ↦ by
        rw [Bool.or_eq_true, decide_eq_true_iff, decide_eq_true_iff]
        exact le_total _ _)
      (table.filter fun r ↦ start ≤ key r ∧ key r ≤ stop)
    exact hsorted.imp fun h ↦ of_decide_eq_true h

end Selects

section Ranges

variable [LinearOrder κ] {K : Set κ} {start stop first last : κ}

/-- **Two ranges select the same from every table** whose keys are in `K` just when they hold the
same keys of `K`. -/
theorem selects_iff_of_range_iff {key : α → κ} (hkey : ∀ k ∈ K, ∃ r, key r = k) :
    (∀ table, (∀ r ∈ table, key r ∈ K) →
        ∀ result, Selects key start stop table result ↔ Selects key first last table result) ↔
      ∀ k ∈ K, start ≤ k ∧ k ≤ stop ↔ first ≤ k ∧ k ≤ last := by
  constructor
  · intro hsame k hk
    obtain ⟨r, rfl⟩ := hkey k hk
    have hone := hsame [r] fun x hx ↦ by rwa [List.mem_singleton.1 hx]
    constructor
    · intro hin
      have hsel := (hone _).1 (.mergeSort key start stop [r])
      have hmem := (Selects.mergeSort key start stop [r]).mem_iff.2 ⟨List.mem_cons_self, hin⟩
      exact (hsel.mem_iff.1 hmem).2
    · intro hin
      have hsel := (hone _).2 (.mergeSort key first last [r])
      have hmem := (Selects.mergeSort key first last [r]).mem_iff.2 ⟨List.mem_cons_self, hin⟩
      exact (hsel.mem_iff.1 hmem).2
  · intro hrange table htable result
    exact ⟨fun h ↦ h.range_congr fun r hr ↦ hrange _ (htable r hr),
      fun h ↦ h.range_congr fun r hr ↦ (hrange _ (htable r hr)).symm⟩

/-- **A range that holds what another one holds**, from its first key to its last, starts where
nothing comes before the first, and stops where nothing comes after the last. -/
theorem range_iff_iff_isLeast (hfirst : first ∈ K) (hlast : last ∈ K) (hle : first ≤ last) :
    (∀ k ∈ K, start ≤ k ∧ k ≤ stop ↔ first ≤ k ∧ k ≤ last) ↔
      IsLeast {k ∈ K | start ≤ k} first ∧ IsGreatest {k ∈ K | k ≤ stop} last := by
  constructor
  · intro hrange
    obtain ⟨hstart, hstop⟩ := (hrange first hfirst).2 ⟨le_rfl, hle⟩
    obtain ⟨hstart', hstop'⟩ := (hrange last hlast).2 ⟨hle, le_rfl⟩
    refine ⟨⟨⟨hfirst, hstart⟩, ?_⟩, ⟨⟨hlast, hstop'⟩, ?_⟩⟩
    · rintro k ⟨hk, hge⟩
      by_contra hlt
      exact hlt ((hrange k hk).1 ⟨hge, (not_le.1 hlt).le.trans hstop⟩).1
    · rintro k ⟨hk, hle'⟩
      by_contra hlt
      exact hlt ((hrange k hk).1 ⟨hstart'.trans (not_le.1 hlt).le, hle'⟩).2
  · rintro ⟨hleast, hgreatest⟩ k hk
    constructor
    · rintro ⟨hge, hle'⟩
      exact ⟨hleast.2 ⟨hk, hge⟩, hgreatest.2 ⟨hk, hle'⟩⟩
    · rintro ⟨hge, hle'⟩
      exact ⟨hleast.1.2.trans hge, hle'.trans hgreatest.1.2⟩

end Ranges
