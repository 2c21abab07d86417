import Mathlib.Data.List.Basic
import Mathlib.Order.Basic

/-!
# Counting in anchored windows

A counter of events that starts again with the first event later than `w` after the event it last
started with. It is not a sliding window. What it counts did happen within `w`
(`exists_suffix_run`), but events within `w` of each other are counted together only if the window
does not end among them: the count is exact as long as the window is open (`run_of_open`), and
behind its end only what came later can have been counted (`count_run_le_later`).

## Anchored and sliding

A sliding window would keep the times of all recent events, or as many as the threshold. An anchored
one keeps one time and one number, which is why programs use it, and it misses groups of events that
straddle its end. The three statements say what it is good for in spite of that: everything it
counts is close together; while it is open it counts everything; and behind its end it counts no
more than what came later.

Events are of any type, with a time that is a natural number. They have to be given in the order of
time for the statements about what came later; the counter itself does not look at the order, and
its own time may go back.

## From the counter to a detector

A detector compares the count with a threshold and starts again when it is reached. That is not part
of the library, as what happens at the threshold differs. What is part of it is the count after any
list of events from any counter, so a detector is followed from one firing to the next.

Times that wrap are left out; who has them must show that they do not wrap within a window.
-/

/-- The time of the event that the window starts with, and the events counted in it. -/
structure WindowCounter where
  first : ℕ
  count : ℕ

namespace WindowCounter

variable {β : Type*} (w : ℕ) (time : β → ℕ)

/-- Count an event. -/
def next (c : WindowCounter) (b : β) : WindowCounter :=
  if c.first + w < time b then ⟨time b, 1⟩ else ⟨c.first, c.count + 1⟩

/-- Count a list of events. -/
def run (c : WindowCounter) (bs : List β) : WindowCounter :=
  bs.foldl (next w time) c

variable {w time} {c : WindowCounter} {bs : List β}

theorem next_of_lt {b : β} (h : c.first + w < time b) : next w time c b = ⟨time b, 1⟩ :=
  if_pos h

theorem next_of_le {b : β} (h : time b ≤ c.first + w) :
    next w time c b = ⟨c.first, c.count + 1⟩ :=
  if_neg (Nat.not_lt.2 h)

@[simp]
theorem run_nil (c : WindowCounter) : run w time c [] = c :=
  rfl

theorem run_cons (c : WindowCounter) (b : β) (bs : List β) :
    run w time c (b :: bs) = run w time (next w time c b) bs :=
  rfl

theorem run_append (c : WindowCounter) (bs cs : List β) :
    run w time c (bs ++ cs) = run w time (run w time c bs) cs :=
  List.foldl_append ..

/-- No event is counted twice. -/
theorem count_run_le (c : WindowCounter) (bs : List β) :
    (run w time c bs).count ≤ c.count + bs.length := by
  induction bs generalizing c with
  | nil => exact Nat.le_refl _
  | cons b bs ih =>
    have hnext : (next w time c b).count ≤ c.count + 1 := by
      rw [next]
      split
      · exact Nat.le_add_left 1 c.count
      · exact Nat.le_refl _
    have hrun := ih (next w time c b)
    rw [run_cons, List.length_cons]
    omega

/-- The window starts with one of the events, or where it was. -/
theorem first_run_le {t : ℕ} (hc : c.first ≤ t) (h : ∀ b ∈ bs, time b ≤ t) :
    (run w time c bs).first ≤ t := by
  induction bs generalizing c with
  | nil => exact hc
  | cons b bs ih =>
    refine ih ?_ fun d hd ↦ h d (List.mem_cons_of_mem b hd)
    rw [next]
    split
    · exact h b List.mem_cons_self
    · exact hc

/-- **An open window counts every event.** -/
theorem run_of_open (h : ∀ b ∈ bs, time b ≤ c.first + w) :
    run w time c bs = ⟨c.first, c.count + bs.length⟩ := by
  induction bs generalizing c with
  | nil => rfl
  | cons b bs ih =>
    rw [run_cons, next_of_le (h b List.mem_cons_self),
      ih (c := ⟨c.first, c.count + 1⟩) fun d hd ↦ h d (List.mem_cons_of_mem b hd),
      List.length_cons, Nat.add_assoc, Nat.add_comm 1]

/-- **Behind the end of a window** only the later events are counted. -/
theorem count_run_le_later (hsorted : (bs.map time).Pairwise (· ≤ ·))
    (h : ∃ b ∈ bs, c.first + w < time b) :
    (run w time c bs).count ≤ (bs.filter fun b ↦ c.first + w < time b).length := by
  induction bs generalizing c with
  | nil =>
    obtain ⟨b, hb, -⟩ := h
    cases hb
  | cons b bs ih =>
    rw [List.map_cons, List.pairwise_cons] at hsorted
    rw [run_cons]
    rcases Nat.lt_or_ge (c.first + w) (time b) with hlt | hle
    · -- the window ends with `b`, and all that follows is later
      have hall : (b :: bs).filter (fun d ↦ c.first + w < time d) = b :: bs := by
        rw [List.filter_eq_self]
        intro d hd
        rcases List.mem_cons.1 hd with rfl | hd
        · exact decide_eq_true hlt
        · exact decide_eq_true
            (Nat.lt_of_lt_of_le hlt (hsorted.1 _ (List.mem_map_of_mem hd)))
      rw [hall, next_of_lt hlt, List.length_cons, Nat.add_comm]
      exact count_run_le _ bs
    · rw [next_of_le hle, List.filter_cons_of_neg (by simpa using hle)]
      refine ih hsorted.2 ?_
      obtain ⟨d, hd, hlt⟩ := h
      rcases List.mem_cons.1 hd with rfl | hd
      · exact absurd hlt (Nat.not_lt.2 hle)
      · exact ⟨d, hd, hlt⟩

/-- An event that falls in the window is not counted any more behind its end. -/
theorem count_run_cons_le {b : β} (hb : time b ≤ c.first + w)
    (hsorted : ((b :: bs).map time).Pairwise (· ≤ ·)) (h : ∃ d ∈ bs, c.first + w < time d) :
    (run w time c (b :: bs)).count ≤ bs.length := by
  obtain ⟨d, hd, hlt⟩ := h
  have hlater := count_run_le_later (w := w) (c := c) hsorted
    ⟨d, List.mem_cons_of_mem b hd, hlt⟩
  rw [List.filter_cons_of_neg (by simpa using hb)] at hlater
  exact Nat.le_trans hlater (List.length_filter_le _ bs)

/-- Events in order are those up to a time, and then the later ones. -/
theorem filter_append_filter (t : ℕ) (hsorted : (bs.map time).Pairwise (· ≤ ·)) :
    bs.filter (fun b ↦ time b ≤ t) ++ bs.filter (fun b ↦ t < time b) = bs := by
  induction bs with
  | nil => rfl
  | cons b bs ih =>
    rw [List.map_cons, List.pairwise_cons] at hsorted
    rcases Nat.lt_or_ge t (time b) with hlt | hle
    · have hall : ∀ d ∈ b :: bs, t < time d := by
        intro d hd
        rcases List.mem_cons.1 hd with rfl | hd
        · exact hlt
        · exact Nat.lt_of_lt_of_le hlt (hsorted.1 _ (List.mem_map_of_mem hd))
      rw [List.filter_eq_nil_iff.2 fun d hd ↦ by simpa using hall d hd,
        List.filter_eq_self.2 fun d hd ↦ decide_eq_true (hall d hd), List.nil_append]
    · rw [List.filter_cons_of_pos (by simpa using hle),
        List.filter_cons_of_neg (by simpa using hle), List.cons_append, ih hsorted.2]

/-- **What is counted happened in one window**: it is the last events, all within `w` of the one the
window starts with. -/
theorem exists_suffix_run (counted : List β) (hcount : counted.length = c.count)
    (hcounted : ∀ b ∈ counted, c.first ≤ time b ∧ time b ≤ c.first + w)
    (hsorted : (c.first :: bs.map time).Pairwise (· ≤ ·)) :
    ∃ s, s <:+ counted ++ bs ∧ s.length = (run w time c bs).count ∧
      ∀ b ∈ s, (run w time c bs).first ≤ time b ∧
        time b ≤ (run w time c bs).first + w := by
  induction bs generalizing c counted with
  | nil =>
    rw [List.append_nil, run_nil]
    exact ⟨counted, List.suffix_refl counted, hcount, hcounted⟩
  | cons b bs ih =>
    rw [List.map_cons, List.pairwise_cons, List.pairwise_cons] at hsorted
    obtain ⟨hfirst, hb, hbs⟩ := hsorted
    rw [run_cons]
    rcases Nat.lt_or_ge (c.first + w) (time b) with hlt | hle
    · obtain ⟨s, hsuffix, hs⟩ := ih (c := ⟨time b, 1⟩) [b] rfl
        (fun d hd ↦ by
          obtain rfl := List.mem_singleton.1 hd
          exact ⟨Nat.le_refl _, Nat.le_add_right _ w⟩)
        (List.pairwise_cons.2 ⟨hb, hbs⟩)
      rw [next_of_lt hlt]
      exact ⟨s, hsuffix.trans (List.suffix_append counted (b :: bs)), hs⟩
    · obtain ⟨s, hsuffix, hs⟩ := ih (c := ⟨c.first, c.count + 1⟩) (counted ++ [b])
        (by rw [List.length_append, hcount, List.length_singleton])
        (fun d hd ↦ by
          rcases List.mem_append.1 hd with hd | hd
          · exact hcounted d hd
          · obtain rfl := List.mem_singleton.1 hd
            exact ⟨hfirst _ List.mem_cons_self, hle⟩)
        (List.pairwise_cons.2 ⟨fun t ht ↦ hfirst t (List.mem_cons_of_mem _ ht), hbs⟩)
      rw [next_of_le hle]
      rw [List.append_assoc, List.singleton_append] at hsuffix
      exact ⟨s, hsuffix, hs⟩

end WindowCounter
