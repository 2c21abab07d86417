import Mathlib.Algebra.Order.Group.Nat

/-!
# A region of memory

The cells a pointer may be used for, as the list of their contents: a load or a store at an index
outside the region has no result. A run of a program over its regions that has a result has
therefore stayed inside them.

## Undefined, not wrong

A store outside the region is no store that does nothing. It has no result, so a program that makes
one has none, and a theorem that says what a program's result is says by that alone that it stayed
inside. The price is that every definition is in `Option`, and that the first thing proved about a
loop is how far it gets.

`overlay` is the shape that a loop from the beginning of a region leaves behind: what was written,
and then what was there. It is a function of the two lists and not of the number of turns, and
`store_overlay` is the step that makes it an invariant. What is written beyond the end of the region
has no shape, as it has no result.

Two regions do not overlap. A program that is given two pointers into one array is not described by
two regions, and has to be excluded where the pointers come from.

`foldlM_range_load` turns a loop over indices into a fold over the contents, so that no index is
left in what has to be proved of the loop.
-/

namespace Region

variable {α : Type*}

/-- Store a value in a cell of the region. -/
def store (mem : List α) (i : ℕ) (x : α) : Option (List α) :=
  if i < mem.length then some (mem.set i x) else none

/-- The region with its first cells overwritten. -/
def overlay (xs mem : List α) : List α :=
  xs ++ mem.drop xs.length

@[simp]
theorem overlay_nil (mem : List α) : overlay [] mem = mem :=
  rfl

theorem length_overlay {xs mem : List α} (h : xs.length ≤ mem.length) :
    (overlay xs mem).length = mem.length := by
  rw [overlay, List.length_append, List.length_drop]
  omega

/-- Overwriting all of a region leaves nothing of what it held. -/
theorem overlay_of_length_le {xs mem : List α} (h : mem.length ≤ xs.length) :
    overlay xs mem = xs := by
  rw [overlay, List.drop_eq_nil_of_le h, List.append_nil]

theorem take_overlay (xs mem : List α) : (overlay xs mem).take xs.length = xs :=
  List.take_left' rfl

/-- Nothing behind the overwritten cells has changed. -/
theorem drop_overlay {xs mem : List α} {n : ℕ} (h : xs.length ≤ n) :
    (overlay xs mem).drop n = mem.drop n := by
  rw [overlay, List.drop_append, List.drop_eq_nil_of_le h, List.nil_append, List.drop_drop,
    Nat.add_sub_cancel' h]

/-- **Filling a region from its beginning**: the next cell takes the next value. -/
theorem store_overlay {xs mem : List α} (x : α) (h : xs.length < mem.length) :
    store (overlay xs mem) xs.length x = some (overlay (xs ++ [x]) mem) := by
  have hlen : xs.length < (overlay xs mem).length := by rwa [length_overlay h.le]
  have hset : (overlay xs mem).set xs.length x = overlay (xs ++ [x]) mem := by
    rw [overlay, List.set_append_right _ _ le_rfl, Nat.sub_self, List.drop_eq_getElem_cons h,
      List.set_cons_zero, overlay, List.length_append, List.length_singleton, List.append_assoc,
      List.singleton_append]
  rw [store, if_pos hlen, hset]

/-- A loop that loads the cells of a region in their order is a fold over what they hold. -/
theorem foldlM_range_load {σ : Type*} (f : σ → α → Option σ) (s : σ) (mem : List α) :
    (List.range mem.length).foldlM (fun s i ↦ mem[i]?.bind (f s)) s = mem.foldlM f s := by
  induction mem generalizing s with
  | nil => rfl
  | cons x mem ih =>
    rw [List.length_cons, List.range_succ_eq_map, List.foldlM_cons, List.foldlM_cons,
      List.getElem?_cons_zero, Option.bind_some]
    congr 1
    funext s'
    rw [List.foldlM_map]
    exact ih s'

end Region
