import Mathlib.Data.List.Nodup
import Mathlib.Logic.Function.Basic

/-!
# Mirrored lists

A relation between parties, kept at both ends: each party has a list of its peers, and whoever is in
the list of another has that one in its own. Making a link writes two lists, and leaving writes the
list of every peer, so neither is one assignment; what they have in common is that the lists stay
`Mirrored`.

## Lists and not sets

The peers are kept in lists because the order may matter to a user, who sees them in the order in
which they were linked. What the relation needs is symmetry, that nobody is its own peer, and that
no list repeats itself; the last is what makes removing a peer once the same as removing it
altogether.

The operations are functions on the whole family of lists. A program writes one list after another,
and between two writes the family is not mirrored; the two functions say what it is behind the last
one, and a program is compared with them as a whole.

`link` asks that the two are different and not yet linked, and these are the conditions that a
program has to check. `leave` asks nothing. It is written with a filter over every list, while a
program as a rule visits only the lists of the peers it knows; that the others need no visit is the
symmetry.

Membership in the linked family is described by `mem_link` and `mem_leave`, and everything about
sets of peers goes through these.
-/

variable {α : Type*}

/-- Each party's list of peers is the mirror of the others', without itself or repetition. -/
structure Mirrored (peers : α → List α) : Prop where
  symm {a b : α} : b ∈ peers a → a ∈ peers b
  irrefl (a : α) : a ∉ peers a
  nodup (a : α) : (peers a).Nodup

namespace Mirrored

variable {peers : α → List α}

/-- Nobody has a peer. -/
theorem empty : Mirrored fun _ : α ↦ [] :=
  ⟨fun h ↦ absurd h List.not_mem_nil, fun _ ↦ List.not_mem_nil, fun _ ↦ List.nodup_nil⟩

variable [DecidableEq α]

/-! ### Linking -/

/-- Each is put at the end of the other's list. -/
def link (peers : α → List α) (a b : α) : α → List α :=
  Function.update (Function.update peers a (peers a ++ [b])) b (peers b ++ [a])

theorem link_left {a b : α} (hab : a ≠ b) : link peers a b a = peers a ++ [b] := by
  rw [link, Function.update_of_ne hab, Function.update_self]

theorem link_right (a b : α) : link peers a b b = peers b ++ [a] :=
  Function.update_self ..

theorem link_of_ne {a b c : α} (ha : c ≠ a) (hb : c ≠ b) : link peers a b c = peers c := by
  rw [link, Function.update_of_ne hb, Function.update_of_ne ha]

/-- Who is a peer after a link. -/
theorem mem_link {a b : α} (hab : a ≠ b) (c d : α) :
    d ∈ link peers a b c ↔ d ∈ peers c ∨ c = a ∧ d = b ∨ c = b ∧ d = a := by
  rcases eq_or_ne c b with rfl | hb
  · simp [link_right, hab.symm]
  · rcases eq_or_ne c a with rfl | ha
    · simp [link_left hab, hab]
    · simp [link_of_ne ha hb, ha, hb]

/-- **Two parties that were not linked can be.** -/
theorem linked (h : Mirrored peers) {a b : α} (hab : a ≠ b) (hnew : b ∉ peers a) :
    Mirrored (link peers a b) where
  symm {c d} hd := by
    rw [mem_link hab] at hd ⊢
    rcases hd with hd | ⟨rfl, rfl⟩ | ⟨rfl, rfl⟩
    · exact .inl (h.symm hd)
    · exact .inr (.inr ⟨rfl, rfl⟩)
    · exact .inr (.inl ⟨rfl, rfl⟩)
  irrefl c hc := by
    rw [mem_link hab] at hc
    rcases hc with hc | ⟨rfl, rfl⟩ | ⟨rfl, rfl⟩
    · exact h.irrefl c hc
    · exact hab rfl
    · exact hab rfl
  nodup c := by
    have hpush : ∀ {x y : α}, y ∉ peers x → (peers x ++ [y]).Nodup := by
      intro x y hy
      exact (h.nodup x).append (List.nodup_singleton y) (List.disjoint_singleton.2 hy)
    rcases eq_or_ne c b with rfl | hb
    · rw [link_right]
      exact hpush fun ha ↦ hnew (h.symm ha)
    · rcases eq_or_ne c a with rfl | ha
      · rw [link_left hab]
        exact hpush hnew
      · rw [link_of_ne ha hb]
        exact h.nodup c

/-! ### Leaving -/

/-- One party has no peers any more, and is nobody's peer. -/
def leave (peers : α → List α) (a : α) : α → List α := fun c ↦
  if c = a then [] else (peers c).filter (· ≠ a)

theorem leave_self (a : α) : leave peers a a = [] :=
  if_pos rfl

theorem leave_of_ne {a c : α} (h : c ≠ a) : leave peers a c = (peers c).filter (· ≠ a) :=
  if_neg h

theorem mem_leave (a c d : α) : d ∈ leave peers a c ↔ c ≠ a ∧ d ≠ a ∧ d ∈ peers c := by
  rcases eq_or_ne c a with rfl | h
  · simp [leave_self]
  · simp [leave_of_ne h, h, and_comm]

/-- **Whoever leaves leaves the rest mirrored.** -/
theorem left (h : Mirrored peers) (a : α) : Mirrored (leave peers a) where
  symm {c d} hd := by
    rw [mem_leave] at hd ⊢
    exact ⟨hd.2.1, hd.1, h.symm hd.2.2⟩
  irrefl c hc := h.irrefl c ((mem_leave ..).1 hc).2.2
  nodup c := by
    rcases eq_or_ne c a with rfl | hca
    · rw [leave_self]
      exact List.nodup_nil
    · rw [leave_of_ne hca]
      exact (h.nodup c).filter _

/-- Only the peers of the one who leaves have anything to remove. -/
theorem filter_eq_self (h : Mirrored peers) {a c : α} (hc : c ∉ peers a) :
    (peers c).filter (· ≠ a) = peers c := by
  rw [List.filter_eq_self]
  intro d hd
  refine decide_eq_true fun hda ↦ hc (h.symm ?_)
  rwa [hda] at hd

end Mirrored
