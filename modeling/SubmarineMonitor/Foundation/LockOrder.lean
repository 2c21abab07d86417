import Mathlib.Algebra.BigOperators.Group.Finset.Basic
import Mathlib.Data.Fintype.Basic
import Mathlib.Data.List.Nodup
import Mathlib.Order.WellFounded
import SubmarineMonitor.Foundation.Machine

/-!
# Locks taken in order

Threads do rounds of work, and of a round only the locks it takes and releases are kept. A thread
that takes a lock waits for as long as somebody has it, itself included.

If every round takes a lock only while all the locks it has come before it in some order, then
nobody waits forever: whoever waits for a lock waits for a thread that moves on, or for one that
waits for a later lock (`exists_next`). Each step of a round is one step less to do, so the rounds
under way are over after so many steps, in whatever order the threads take them, and all locks are
free (`work_of_exec`, `free_of_work_eq_zero`).

## What is kept of a program

Everything but the locks is gone: a round is a list of operations on locks, in the order in which a
thread does them. A thread may hold a lock as long as it likes between two steps, so the work that a
program does there takes time and nothing else. Branches are several rounds, and a loop is a round
for each number of turns; what has to be shown is that each of them is ordered, for which lists of
operations are put together by `Ordered.append`.

Locks are not recursive. A thread that takes one it has already would wait for itself, and the order
excludes it, as a lock does not come before itself.

## Progress without fairness

No scheduler is assumed. `exists_next` says that some thread can go on, in every state in which
there is work left; since each step takes from a finite amount of work, any sequence of steps,
chosen in any way, comes to its end. A thread that is never chosen delays the end and does not
prevent it, because the others run out of work. That holds for rounds that are under way; rounds
that are begun again and again by others may keep a thread waiting.

Time-outs are left out. A lock that is given up after a while is a round without it.
-/

open Machine

namespace LockOrder

/-! ### Rounds -/

/-- What a thread does with a lock. -/
inductive Op (L : Type*)
  | acquire (l : L)
  | release (l : L)
  deriving DecidableEq

/-- Who has which lock, and what is left of each thread's round. -/
structure State (T L : Type*) where
  owner : L → Option T
  rest : T → List (Op L)

/-- Who moves next. -/
inductive Action (T L : Type*)
  /-- A thread that has nothing to do begins a round. -/
  | begin (t : T) (round : List (Op L))
  /-- A thread goes on. -/
  | next (t : T)

variable {T L : Type*}

/-- All locks are free, and nobody has anything to do. -/
def start : State T L :=
  ⟨fun _ ↦ none, fun _ ↦ []⟩

/-- **The threads.** A lock that is taken keeps everybody waiting who wants it, and only its owner
releases it. -/
def step [DecidableEq T] [DecidableEq L] (s : State T L) : Action T L → Option (State T L)
  | .begin t round =>
    match s.rest t with
    | [] => some { s with rest := Function.update s.rest t round }
    | _ => none
  | .next t =>
    match s.rest t with
    | [] => none
    | .acquire l :: ops =>
      match s.owner l with
      | none =>
        some ⟨Function.update s.owner l (some t), Function.update s.rest t ops⟩
      | some _ => none
    | .release l :: ops =>
      if s.owner l = some t then
        some ⟨Function.update s.owner l none, Function.update s.rest t ops⟩
      else some { s with rest := Function.update s.rest t ops }

/-! ### The order -/

section Ordered

variable [PartialOrder L] [DecidableEq L]

/-- What is left of a round, whose thread has the locks `held`, takes a lock only behind all the
locks that it has then, releases none that it does not have, and ends with none. -/
def Ordered : List L → List (Op L) → Prop
  | held, [] => held = []
  | held, .acquire l :: ops => (∀ k ∈ held, k < l) ∧ Ordered (l :: held) ops
  | held, .release l :: ops => l ∈ held ∧ Ordered (held.erase l) ops

/-- A round may be done while other locks are held, if all of them come before those it takes. -/
theorem Ordered.append {inner outer : List L} {ops rest : List (Op L)} (h : Ordered inner ops)
    (hbefore : ∀ l, Op.acquire l ∈ ops → ∀ k ∈ outer, k < l) (hrest : Ordered outer rest) :
    Ordered (inner ++ outer) (ops ++ rest) := by
  induction ops generalizing inner with
  | nil =>
    obtain rfl : inner = [] := h
    exact hrest
  | cons op ops ih =>
    have hbefore' : ∀ l, Op.acquire l ∈ ops → ∀ k ∈ outer, k < l :=
      fun l hl ↦ hbefore l (List.mem_cons_of_mem op hl)
    cases op with
    | acquire l =>
      obtain ⟨hinner, h⟩ := h
      refine ⟨fun k hk ↦ ?_, ih h hbefore'⟩
      rcases List.mem_append.1 hk with hk | hk
      · exact hinner k hk
      · exact hbefore l List.mem_cons_self k hk
    | release l =>
      obtain ⟨hl, h⟩ := h
      refine ⟨List.mem_append_left outer hl, ?_⟩
      rw [List.erase_append_left outer hl]
      exact ih h hbefore'

/-- Two rounds, one after the other. -/
theorem Ordered.trans {ops rest : List (Op L)} (h : Ordered [] ops) (hrest : Ordered [] rest) :
    Ordered [] (ops ++ rest) :=
  h.append (fun _ _ _ hk ↦ absurd hk List.not_mem_nil) hrest

/-- Any number of rounds. -/
theorem Ordered.flatMap {α : Type*} {f : α → List (Op L)} (h : ∀ a, Ordered [] (f a))
    (as : List α) : Ordered [] (as.flatMap f) := by
  induction as with
  | nil => rfl
  | cons a as ih => exact (h a).trans ih

/-- A round under a lock that comes before all that it takes. -/
theorem Ordered.under {ops : List (Op L)} (h : Ordered [] ops) {l : L}
    (hbefore : ∀ k, Op.acquire k ∈ ops → l < k) :
    Ordered [] (.acquire l :: ops ++ [.release l]) := by
  refine ⟨fun k hk ↦ absurd hk List.not_mem_nil, ?_⟩
  have hrelease : Ordered [l] [.release l] := by
    refine ⟨List.mem_singleton_self l, ?_⟩
    rw [List.erase_cons_head]
    rfl
  refine h.append (fun k hk j hj ↦ ?_) hrelease
  rw [List.mem_singleton.1 hj]
  exact hbefore k hk

end Ordered

/-! ### Every run -/

section Run

variable [DecidableEq T] [DecidableEq L] {s s' : State T L}

/-- What a thread does when it goes on. -/
theorem step_next {t : T} (h : step s (.next t) = some s') :
    ∃ op ops, s.rest t = op :: ops ∧ s'.rest = Function.update s.rest t ops ∧
      ((∃ l, op = .acquire l ∧ s.owner l = none ∧
          s'.owner = Function.update s.owner l (some t)) ∨
        ∃ l, op = .release l ∧
          (s.owner l = some t → s'.owner = Function.update s.owner l none)) := by
  dsimp only [step] at h
  rcases hrest : s.rest t with _ | ⟨l | l, ops⟩
  all_goals
    rw [hrest] at h
    dsimp only at h
  · cases h
  · rcases howner : s.owner l with _ | u
    all_goals
      rw [howner] at h
      cases h
    exact ⟨_, ops, rfl, rfl, .inl ⟨l, rfl, howner, rfl⟩⟩
  · refine ⟨_, ops, rfl, ?_⟩
    split_ifs at h with howner
    all_goals
      obtain rfl := Option.some.inj h
    · exact ⟨rfl, .inr ⟨l, rfl, fun _ ↦ rfl⟩⟩
    · exact ⟨rfl, .inr ⟨l, rfl, fun hl ↦ absurd hl howner⟩⟩

variable [PartialOrder L]

/-- Every thread has locks that agree with what is left of its round. -/
def InOrder (s : State T L) : Prop :=
  ∀ t, ∃ held : List L, held.Nodup ∧ (∀ l, l ∈ held ↔ s.owner l = some t) ∧ Ordered held (s.rest t)

/-- The rounds that are begun are ordered. -/
def Admits (_ : State T L) : Action T L → Prop
  | .begin _ round => Ordered [] round
  | .next _ => True

omit [DecidableEq T] in
theorem inOrder_start : InOrder (start : State T L) :=
  fun _ ↦ ⟨[], List.nodup_nil, fun l ↦ ⟨fun h ↦ absurd h List.not_mem_nil, fun h ↦ by cases h⟩, rfl⟩

theorem InOrder.next (hs : InOrder s) {t : T} (h : step s (.next t) = some s') : InOrder s' := by
  obtain ⟨op, ops, hrest, hrest', howner⟩ := step_next h
  intro u
  obtain ⟨held, hnodup, hheld, hordered⟩ := hs u
  by_cases hu : u = t
  · subst hu
    rw [hrest] at hordered
    rw [hrest', Function.update_self]
    rcases howner with ⟨l, rfl, hfree, howner⟩ | ⟨l, rfl, howner⟩
    · have hl : l ∉ held := fun hl ↦ by
        rw [(hheld l).1 hl] at hfree
        cases hfree
      refine ⟨l :: held, List.nodup_cons.2 ⟨hl, hnodup⟩, fun k ↦ ?_, hordered.2⟩
      rw [List.mem_cons, howner, Function.update_apply, hheld k]
      split_ifs with hk
      · simp [hk]
      · simp [hk]
    · obtain ⟨hl, hordered⟩ := hordered
      refine ⟨held.erase l, hnodup.erase l, fun k ↦ ?_, hordered⟩
      rw [hnodup.mem_erase_iff, howner ((hheld l).1 hl), Function.update_apply, hheld k]
      split_ifs with hk
      · simp [hk]
      · simp [hk]
  · rw [hrest', Function.update_of_ne hu]
    refine ⟨held, hnodup, fun k ↦ (hheld k).trans ?_, hordered⟩
    rcases howner with ⟨l, rfl, hfree, howner⟩ | ⟨l, rfl, howner⟩
    · rw [howner, Function.update_apply]
      split_ifs with hk
      · rw [hk, hfree]
        simp [Ne.symm hu]
      · rfl
    · obtain ⟨held', -, hheld', hordered'⟩ := hs t
      rw [hrest] at hordered'
      have hl := (hheld' l).1 hordered'.1
      rw [howner hl, Function.update_apply]
      split_ifs with hk
      · rw [hk, hl]
        simp [Ne.symm hu]
      · rfl

theorem InOrder.step (hs : InOrder s) {a : Action T L} (ha : Admits s a) (h : step s a = some s') :
    InOrder s' := by
  cases a with
  | next t => exact hs.next h
  | begin t round =>
    intro u
    obtain ⟨held, hnodup, hheld, hordered⟩ := hs u
    dsimp only [LockOrder.step] at h
    rcases hrest : s.rest t with _ | ⟨op, ops⟩
    all_goals
      rw [hrest] at h
      cases h
    refine ⟨held, hnodup, hheld, ?_⟩
    by_cases hu : u = t
    · subst hu
      rw [hrest] at hordered
      obtain rfl : held = [] := hordered
      show Ordered [] (Function.update s.rest u round u)
      rwa [Function.update_self]
    · show Ordered held (Function.update s.rest t round u)
      rwa [Function.update_of_ne hu]

theorem inOrder_of_reaches (h : Reaches step Admits start s) : InOrder s :=
  h.invariant inOrder_start fun hs ha h ↦ hs.step ha h

theorem InOrder.exec (hs : InOrder s) {ts : List T}
    (h : exec LockOrder.step s (ts.map .next) = some s') : InOrder s' := by
  induction ts generalizing s with
  | nil =>
    obtain rfl : s = s' := Option.some.inj h
    exact hs
  | cons t ts ih =>
    rw [List.map_cons, exec_cons, Option.bind_eq_some_iff] at h
    obtain ⟨u, hu, hrest⟩ := h
    exact ih (hs.next hu) hrest

/-- **Nobody waits forever.** As long as there is something left to do, somebody can go on. The
induction is on the lock that a thread waits for, the last ones first. -/
theorem InOrder.exists_next [WellFoundedGT L] (hs : InOrder s) (h : ∃ t, s.rest t ≠ []) :
    ∃ t s', LockOrder.step s (.next t) = some s' := by
  obtain ⟨t, ht⟩ := h
  have key : ∀ l t ops, s.rest t = .acquire l :: ops →
      ∃ t s', LockOrder.step s (.next t) = some s' := by
    intro l
    induction l using WellFoundedGT.induction with
    | ind l ih =>
      intro t ops hrest
      rcases howner : s.owner l with _ | u
      · exact ⟨t, _, by simp only [LockOrder.step, hrest, howner]; rfl⟩
      -- the owner goes on, or it waits for a later lock
      obtain ⟨held, -, hheld, hordered⟩ := hs u
      have hl := (hheld l).2 howner
      rcases hrest' : s.rest u with _ | ⟨k | k, ops'⟩
      · rw [hrest'] at hordered
        obtain rfl : held = [] := hordered
        exact absurd hl List.not_mem_nil
      · rw [hrest'] at hordered
        exact ih k (hordered.1 l hl) u ops' hrest'
      · refine ⟨u, ?_⟩
        simp only [LockOrder.step, hrest']
        split_ifs
        · exact ⟨_, rfl⟩
        · exact ⟨_, rfl⟩
  rcases hrest : s.rest t with _ | ⟨l | l, ops⟩
  · exact absurd hrest ht
  · exact key l t ops hrest
  · refine ⟨t, ?_⟩
    simp only [LockOrder.step, hrest]
    split_ifs
    · exact ⟨_, rfl⟩
    · exact ⟨_, rfl⟩

/-! ### Every round ends -/

variable [Fintype T]

/-- How many steps are left to do. -/
def work (s : State T L) : ℕ :=
  ∑ t, (s.rest t).length

omit [PartialOrder L] in
theorem work_next {t : T} (h : LockOrder.step s (.next t) = some s') : work s' + 1 = work s := by
  obtain ⟨op, ops, hrest, hrest', -⟩ := step_next h
  rw [work, work, hrest', ← Finset.add_sum_erase Finset.univ _ (Finset.mem_univ t),
    ← Finset.add_sum_erase Finset.univ (fun t ↦ (s.rest t).length) (Finset.mem_univ t),
    Function.update_self, hrest, List.length_cons]
  rw [Finset.sum_congr rfl fun u hu ↦ by rw [Function.update_of_ne (Finset.ne_of_mem_erase hu)]]
  omega

omit [PartialOrder L] in
/-- Each step is one less to do. -/
theorem work_of_exec {ts : List T} (h : exec LockOrder.step s (ts.map .next) = some s') :
    work s' + ts.length = work s := by
  induction ts generalizing s with
  | nil =>
    obtain rfl : s = s' := Option.some.inj h
    rfl
  | cons t ts ih =>
    rw [List.map_cons, exec_cons, Option.bind_eq_some_iff] at h
    obtain ⟨u, hu, hrest⟩ := h
    rw [List.length_cons, ← work_next hu, ← ih hrest]
    omega

omit [DecidableEq T] in
/-- With nothing left to do, every lock is free. -/
theorem InOrder.free_of_work_eq_zero (hs : InOrder s) (h : work s = 0) :
    (∀ t, s.rest t = []) ∧ ∀ l, s.owner l = none := by
  have hrest : ∀ t, s.rest t = [] := fun t ↦
    List.length_eq_zero_iff.1 (Finset.sum_eq_zero_iff.1 h t (Finset.mem_univ t))
  refine ⟨hrest, fun l ↦ ?_⟩
  rcases howner : s.owner l with _ | t
  · rfl
  · obtain ⟨held, -, hheld, hordered⟩ := hs t
    rw [hrest t] at hordered
    obtain rfl : held = [] := hordered
    exact absurd ((hheld l).2 howner) List.not_mem_nil

/-- **Every order of steps comes to the end**: after as many steps as there are left to do, no
sooner and no later, all rounds are over and all locks are free; and until then somebody can go on.
-/
theorem InOrder.completes [WellFoundedGT L] (hs : InOrder s) {ts : List T}
    (h : Machine.exec LockOrder.step s (ts.map .next) = some s') :
    (ts.length < work s → ∃ t s'', LockOrder.step s' (.next t) = some s'') ∧
      (ts.length = work s → (∀ t, s'.rest t = []) ∧ ∀ l, s'.owner l = none) := by
  have hwork := work_of_exec h
  have hs' := hs.exec h
  refine ⟨fun hlt ↦ hs'.exists_next ?_, fun heq ↦ hs'.free_of_work_eq_zero (by omega)⟩
  by_contra hnone
  push Not at hnone
  have hzero : work s' = 0 := Finset.sum_eq_zero fun t _ ↦ List.length_eq_zero_iff.2 (hnone t)
  omega

end Run

end LockOrder
