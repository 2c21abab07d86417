import Mathlib.Logic.Function.Basic
import SubmarineMonitor.Foundation.Machine

/-!
# Operations under one lock

Any number of threads share a state, and each of them works on it only between taking a lock and
releasing it, in as many small steps as it likes. A small step may depend on something from outside,
such as what a device answers. Nothing hinders a thread from touching the state but the lock, so
that two of them are never at work together is a theorem and not part of the definition.

`serializable` is what the lock is for: in every interleaving, what the threads make of the state is
what their operations make of it one after another, in the order in which they release the lock. So
an invariant of whole operations holds whenever the lock is free (`Serial.refine`), and whoever
knows what a whole operation does may take it for one step.

## What an operation is

The work of an operation is a step function on its locals and the shared state, which ends with a
result. It is nondeterministic through the answers it gets from outside. `Completes` is what such a
work can do when nobody interferes, as a relation between the state before, the state behind and the
result. It need not be determined, and it need not be possible in every state.

## What is proved of whom

The lock is part of the threads' machine, and the work is not: `body` may be anything. That no two
threads work at once is the invariant's business (`Consistent`), which says that the state is what
the owner has made so far of what the completed operations left. A step of work changes the state
and the owner's locals together, and a release makes the owner's work the next completed operation.

The order of the serial execution is that of the releases. It agrees with the order in which the
lock was taken, as only one thread has it. Threads may wait in any order and for ever; the lock is
not fair.

## What is left out

Operations that take the lock twice, or other locks as well, for which there is `LockOrder`. Reads
without the lock are another operation that is not under it, and the theorem does not speak of them.
-/

open Machine

namespace Mutex

/-- Where a thread stands. -/
inductive Pc (ο κ ρ : Type*)
  | outside
  /-- Before it takes the lock. -/
  | waiting (op : ο)
  /-- At work, with its locals. -/
  | inside (op : ο) (locals : κ)
  /-- Before it releases the lock. -/
  | leaving (op : ο) (result : ρ)

/-- The state, the lock and the threads. -/
structure State (ι σ ο κ ρ : Type*) where
  shared : σ
  owner : Option ι
  pc : ι → Pc ο κ ρ

/-- An operation that has released the lock. -/
structure Done (ι ο ρ : Type*) where
  thread : ι
  op : ο
  result : ρ

/-- Who moves next. -/
inductive Action (ι ο ε : Type*)
  | call (t : ι) (op : ο)
  | acquire (t : ι)
  /-- A small step of the work. -/
  | work (t : ι) (answer : ε)
  | release (t : ι)

variable {ι σ ο κ ρ ε : Type*}

/-- What one operation can do to the state, with its result. -/
abbrev Effect (σ ο ρ : Type*) := ο → σ → σ → ρ → Prop

/-! ### One operation by itself -/

section Body

variable (body : κ → σ → ε → (κ ⊕ ρ) × σ)

/-- `Within body s k s' k'`: small steps lead from the state `s` and the locals `k` to `s'`, `k'`.
-/
inductive Within (s : σ) (k : κ) : σ → κ → Prop
  | start : Within s k s k
  | step {t t' : σ} {j j' : κ} (answer : ε) (h : Within s k t j)
      (hstep : body j t answer = (.inl j', t')) : Within s k t' j'

/-- Alone, the work that begins with the locals `start op` leads from `s` to `s'` and the result. -/
def Completes (start : ο → κ) : Effect σ ο ρ := fun op s s' r ↦
  ∃ t j answer, Within body s (start op) t j ∧ body j t answer = (.inr r, s')

end Body

/-! ### Operations one after another -/

/-- The operations were done one after another, from `s₀`, with these results. -/
inductive Serial (effect : Effect σ ο ρ) (s₀ : σ) : List (Done ι ο ρ) → σ → Prop
  | nil : Serial effect s₀ [] s₀
  | snoc {log : List (Done ι ο ρ)} {s s' : σ} (d : Done ι ο ρ) (h : Serial effect s₀ log s)
      (hd : effect d.op s s' d.result) : Serial effect s₀ (log ++ [d]) s'

/-- An invariant of whole operations holds after each of them, and may be used to say more about
what they do. -/
theorem Serial.refine {effect effect' : Effect σ ο ρ} {I : σ → Prop} {s₀ s : σ}
    {log : List (Done ι ο ρ)} (h : Serial effect s₀ log s) (start : I s₀)
    (keep : ∀ {op s s' r}, I s → effect op s s' r → I s' ∧ effect' op s s' r) :
    I s ∧ Serial effect' s₀ log s := by
  induction h with
  | nil => exact ⟨start, .nil⟩
  | snoc d _ hd ih =>
    obtain ⟨hI, hserial⟩ := ih
    obtain ⟨hI', heffect⟩ := keep hI hd
    exact ⟨hI', .snoc d hserial heffect⟩

/-! ### The threads -/

/-- **The threads**, under any interleaving. -/
def step [DecidableEq ι] (body : κ → σ → ε → (κ ⊕ ρ) × σ) (start : ο → κ) (c : State ι σ ο κ ρ) :
    Action ι ο ε → Option (State ι σ ο κ ρ)
  | .call t op =>
    match c.pc t with
    | .outside => some { c with pc := Function.update c.pc t (.waiting op) }
    | _ => none
  | .acquire t =>
    match c.owner, c.pc t with
    | none, .waiting op =>
      some { c with owner := some t, pc := Function.update c.pc t (.inside op (start op)) }
    | _, _ => none
  | .work t answer =>
    match c.pc t with
    | .inside op k =>
      match body k c.shared answer with
      | (.inl k', s) => some { c with shared := s, pc := Function.update c.pc t (.inside op k') }
      | (.inr r, s) => some { c with shared := s, pc := Function.update c.pc t (.leaving op r) }
    | _ => none
  | .release t =>
    match c.pc t with
    | .leaving _ _ => some { c with owner := none, pc := Function.update c.pc t .outside }
    | _ => none

/-- What a step completes. -/
def completed (c : State ι σ ο κ ρ) : Action ι ο ε → List (Done ι ο ρ)
  | .release t =>
    match c.pc t with
    | .leaving op r => [⟨t, op, r⟩]
    | _ => []
  | _ => []

/-- Nobody is doing anything. -/
def idle (s : σ) : State ι σ ο κ ρ :=
  ⟨s, none, fun _ ↦ .outside⟩

/-- The thread is between taking and releasing the lock. -/
def Pc.Holds : Pc ο κ ρ → Prop
  | .inside _ _ | .leaving _ _ => True
  | _ => False

/-- **The invariant.** `s` is what the completed operations have made of the state: it is the state
while the lock is free, and otherwise the state is what its owner has made of it so far. -/
structure Consistent (body : κ → σ → ε → (κ ⊕ ρ) × σ) (start : ο → κ) (c : State ι σ ο κ ρ)
    (s : σ) : Prop where
  free : c.owner = none → c.shared = s
  exclusive : ∀ t, (c.pc t).Holds → c.owner = some t
  inside : ∀ t op k, c.pc t = .inside op k → Within body s (start op) c.shared k
  leaving : ∀ t op r, c.pc t = .leaving op r → Completes body start op s c.shared r
  held : ∀ t, c.owner = some t → (c.pc t).Holds

variable {body : κ → σ → ε → (κ ⊕ ρ) × σ} {start : ο → κ} {c c' : State ι σ ο κ ρ} {s s₀ : σ}
  {log : List (Done ι ο ρ)}

theorem consistent_idle (s : σ) : Consistent body start (idle s : State ι σ ο κ ρ) s :=
  ⟨fun _ ↦ rfl, fun _ h ↦ h.elim, nofun, nofun, nofun⟩

/-- Whoever holds the lock is the only one who does. -/
theorem Consistent.eq_of_holds (h : Consistent body start c s) {t t' : ι} (ht : (c.pc t).Holds)
    (ht' : (c.pc t').Holds) : t = t' :=
  Option.some.inj ((h.exclusive t ht).symm.trans (h.exclusive t' ht'))

variable [DecidableEq ι]

/-- A thread that does not hold the lock moves, and does not hold it afterwards either. -/
theorem Consistent.of_outside (h : Consistent body start c s) {t : ι} {pc : Pc ο κ ρ}
    (ht : ¬(c.pc t).Holds) (hpc : ¬pc.Holds) :
    Consistent body start { c with pc := Function.update c.pc t pc } s := by
  have hold : ∀ t', (Function.update c.pc t pc t').Holds → t' ≠ t := by
    rintro t' hholds rfl
    rw [Function.update_self] at hholds
    exact hpc hholds
  have hsame : ∀ t' ≠ t, Function.update c.pc t pc t' = c.pc t' :=
    fun t' hne ↦ Function.update_of_ne hne _ _
  refine ⟨h.free, fun t' hholds ↦ ?_, fun t' op k hk ↦ ?_, fun t' op r hr ↦ ?_, fun t' howner ↦ ?_⟩
  · have hne := hold t' hholds
    rw [show ({ c with pc := Function.update c.pc t pc } : State ι σ ο κ ρ).pc t' = c.pc t' from
      hsame t' hne] at hholds
    exact h.exclusive t' hholds
  · have hne := hold t' (by rw [show Function.update c.pc t pc t' = _ from hk]; trivial)
    exact h.inside t' op k ((hsame t' hne).symm.trans hk)
  · have hne := hold t' (by rw [show Function.update c.pc t pc t' = _ from hr]; trivial)
    exact h.leaving t' op r ((hsame t' hne).symm.trans hr)
  · have hholds := h.held t' howner
    have hne : t' ≠ t := by
      rintro rfl
      exact ht hholds
    rw [show ({ c with pc := Function.update c.pc t pc } : State ι σ ο κ ρ).pc t' = c.pc t' from
      hsame t' hne]
    exact hholds

/-- The owner is somewhere else in its operation, and nobody else has moved. -/
theorem Consistent.of_owner {t : ι} {pc : Pc ο κ ρ} {s' : σ} (hpc : pc.Holds)
    (hothers : ∀ t' ≠ t, ¬(c.pc t').Holds)
    (hinside : ∀ op k, pc = .inside op k → Within body s (start op) s' k)
    (hleaving : ∀ op r, pc = .leaving op r → Completes body start op s s' r) :
    Consistent body start ⟨s', some t, Function.update c.pc t pc⟩ s := by
  have hself : Function.update c.pc t pc t = pc := Function.update_self ..
  have hthread : ∀ t', (Function.update c.pc t pc t').Holds → t' = t := by
    intro t' hholds
    by_contra hne
    rw [Function.update_of_ne hne] at hholds
    exact hothers t' hne hholds
  refine ⟨nofun, fun t' hholds ↦ congrArg some (hthread t' hholds).symm, fun t' op k hk ↦ ?_,
    fun t' op r hr ↦ ?_, fun t' howner ↦ ?_⟩
  · obtain rfl := hthread t' (by rw [show Function.update c.pc t pc t' = _ from hk]; trivial)
    exact hinside op k (hself.symm.trans hk)
  · obtain rfl := hthread t' (by rw [show Function.update c.pc t pc t' = _ from hr]; trivial)
    exact hleaving op r (hself.symm.trans hr)
  · obtain rfl := Option.some.inj howner
    show (Function.update c.pc t pc t).Holds
    rwa [hself]

/-- **One step.** Nothing is completed and the operations completed before account for the state as
they did, or an operation is completed and accounts for what is new in it. -/
theorem Consistent.step {a : Action ι ο ε} (h : Consistent body start c s)
    (hstep : Mutex.step body start c a = some c') :
    (completed c a = [] ∧ Consistent body start c' s) ∨
      ∃ d, completed c a = [d] ∧ Completes body start d.op s c'.shared d.result ∧
        Consistent body start c' c'.shared := by
  match a with
  | .call t op =>
    rw [Mutex.step] at hstep
    split at hstep
    · rename_i hpc
      cases hstep
      exact .inl ⟨rfl, h.of_outside (by rw [hpc]; exact id) id⟩
    · cases hstep
  | .acquire t =>
    rw [Mutex.step] at hstep
    split at hstep
    · rename_i op howner hpc
      cases hstep
      have hothers : ∀ t' ≠ t, ¬(c.pc t').Holds := fun t' _ hholds ↦ by
        rw [h.exclusive t' hholds] at howner
        cases howner
      refine .inl ⟨rfl, .of_owner trivial hothers (fun op' k hk ↦ ?_) nofun⟩
      cases hk
      rw [h.free howner]
      exact .start
    · cases hstep
  | .work t answer =>
    rw [Mutex.step] at hstep
    split at hstep
    · rename_i op k hpc
      have hholds : (c.pc t).Holds := by rw [hpc]; trivial
      have howner := h.exclusive t hholds
      have hothers : ∀ t' ≠ t, ¬(c.pc t').Holds := fun t' hne hother ↦
        hne (h.eq_of_holds hother hholds)
      have hwithin := h.inside t op k hpc
      split at hstep
      · rename_i k' s' hbody
        cases hstep
        rw [howner]
        refine .inl ⟨rfl, .of_owner trivial hothers (fun op' j hj ↦ ?_) nofun⟩
        cases hj
        exact .step answer hwithin hbody
      · rename_i r s' hbody
        cases hstep
        rw [howner]
        refine .inl ⟨rfl, .of_owner trivial hothers nofun fun op' r' hr ↦ ?_⟩
        cases hr
        exact ⟨_, _, answer, hwithin, hbody⟩
    · cases hstep
  | .release t =>
    rw [Mutex.step] at hstep
    split at hstep
    · rename_i op r hpc
      cases hstep
      have hholds : (c.pc t).Holds := by rw [hpc]; trivial
      refine .inr ⟨⟨t, op, r⟩, by rw [completed, hpc], h.leaving t op r hpc, ?_⟩
      have hnone : ∀ t', ¬(Function.update c.pc t .outside t').Holds := by
        intro t' hother
        rcases eq_or_ne t' t with rfl | hne
        · rw [Function.update_self] at hother
          exact hother
        · rw [Function.update_of_ne hne] at hother
          exact hne (h.eq_of_holds hother hholds)
      refine ⟨fun _ ↦ rfl, fun t' hother ↦ absurd hother (hnone t'), fun t' op' k hk ↦ ?_,
        fun t' op' r' hr ↦ ?_, nofun⟩
      · exact absurd (show (Function.update c.pc t .outside t').Holds by
          rw [show Function.update c.pc t .outside t' = _ from hk]; trivial) (hnone t')
      · exact absurd (show (Function.update c.pc t .outside t').Holds by
          rw [show Function.update c.pc t .outside t' = _ from hr]; trivial) (hnone t')
    · cases hstep

/-- **What the lock is for.** In every interleaving the completed operations, in the order in which
they released the lock, have done to the state what they would have done one after another, and at
most one thread is at work on what they left. -/
theorem serializable {ok : State ι σ ο κ ρ × List (Done ι ο ρ) → Action ι ο ε → Prop}
    (h : Reaches (logged (step body start) completed) ok (idle s₀, []) (c, log)) :
    ∃ s, Serial (Completes body start) s₀ log s ∧ Consistent body start c s := by
  refine h.invariant (I := fun c ↦ ∃ s, Serial (Completes body start) s₀ c.2 s ∧
    Consistent body start c.1 s) ⟨s₀, .nil, consistent_idle s₀⟩ ?_
  rintro ⟨c, log⟩ ⟨c', log'⟩ a ⟨s, hserial, hc⟩ - hstep
  obtain ⟨hmove, hlog⟩ := logged_eq_some hstep
  obtain rfl : log' = log ++ completed c a := hlog
  rcases hc.step hmove with ⟨hnone, hc'⟩ | ⟨d, hone, hd, hc'⟩
  · rw [hnone, List.append_nil]
    exact ⟨s, hserial, hc'⟩
  · rw [hone]
    exact ⟨c'.shared, .snoc d hserial hd, hc'⟩

end Mutex
