import Mathlib.Data.List.Basic

/-!
# Machines with disabled steps

A machine is a partial step `σ → α → Option σ`: an action either happens or is not enabled. Tasks
that may be interleaved in any order are one machine, whose actions say who moves next, so a
statement about every run is a statement about every interleaving.

`Reaches` is reachability by a run whose every step meets a condition on the action and on the state
before it. With the condition that is always true it is plain reachability; with another it is what
"as long as this never happens" means. `exec` runs a given list of actions, and is how a particular
run is exhibited.

## Partial steps

A step that cannot be taken is `none`. So a guard is part of the step and not a hypothesis of every
theorem about it, and a run that is written down as a list of actions is checked by evaluating it.
Nondeterminism is in the action: where a program's environment decides something, the action says
what it decided.

## Conditions on steps

*As long as this never happens* is about runs, and a run that meets it once and violates it later is
outside the statement from there on. `Reaches` has the condition as an argument, so a guarantee and
what it rests on are stated in one formula, and the unconditional form is the same predicate with a
condition that is always true. The condition may look at the state before the step and at the
action, and not at the state behind it; a condition on what a step brings about would be a way of
assuming the conclusion.

## What is not here

Fairness and infinite runs. Liveness is put in finite terms: a quantity that every step makes
smaller, or a state in which nothing is enabled (`Quiescent`) and what is true there.

`logged` keeps what the steps give out beside the state, for statements on histories that the state
has forgotten.
-/

namespace Machine

variable {σ α : Type*}

/-- Run a list of actions, if each is enabled in its turn. -/
def exec (step : σ → α → Option σ) (s : σ) : List α → Option σ
  | [] => some s
  | a :: as => (step s a).bind fun s' ↦ exec step s' as

/-- `Reaches step ok s₀ s`: some run from `s₀` whose every step meets `ok` ends in `s`. -/
inductive Reaches (step : σ → α → Option σ) (ok : σ → α → Prop) (s₀ : σ) : σ → Prop
  | start : Reaches step ok s₀ s₀
  | step {s s' : σ} {a : α} (hs : Reaches step ok s₀ s) (hok : ok s a)
      (ha : step s a = some s') : Reaches step ok s₀ s'

/-- Nothing is enabled. -/
def Quiescent (step : σ → α → Option σ) (s : σ) : Prop :=
  ∀ a, step s a = none

variable {step : σ → α → Option σ} {ok : σ → α → Prop} {s₀ s : σ}

theorem exec_cons (s : σ) (a : α) (as : List α) :
    exec step s (a :: as) = (step s a).bind fun s' ↦ exec step s' as :=
  rfl

/-- **The induction every run theorem uses.** What holds at the start and is kept by every step that
meets the condition holds in every state reached. -/
theorem Reaches.invariant {I : σ → Prop} (h : Reaches step ok s₀ s) (start : I s₀)
    (keep : ∀ {s s' : σ} {a : α}, I s → ok s a → step s a = some s' → I s') : I s := by
  induction h with
  | start => exact start
  | step _ hok ha ih => exact keep ih hok ha

/-- A run is no longer than a quantity that every step makes smaller. -/
theorem length_le_of_exec {μ : σ → ℕ} (hμ : ∀ {s s' : σ} {a : α}, step s a = some s' → μ s' < μ s)
    {as : List α} (h : exec step s₀ as = some s) : as.length ≤ μ s₀ := by
  induction as generalizing s₀ with
  | nil => exact Nat.zero_le _
  | cons a as ih =>
    rw [exec_cons, Option.bind_eq_some_iff] at h
    obtain ⟨t, ha, hrest⟩ := h
    exact Nat.lt_of_le_of_lt (ih hrest) (hμ ha)

/-- Two runs one after the other. -/
theorem Reaches.trans {t : σ} (h : Reaches step ok s₀ s) (h' : Reaches step ok s t) :
    Reaches step ok s₀ t :=
  h'.invariant h fun ih hok ha ↦ .step ih hok ha

/-- A run meets every condition that its steps' condition implies. -/
theorem Reaches.mono {ok' : σ → α → Prop} (h : Reaches step ok s₀ s)
    (hok : ∀ s a, ok s a → ok' s a) : Reaches step ok' s₀ s :=
  h.invariant .start fun ih hstep ha ↦ .step ih (hok _ _ hstep) ha

section Logged

variable {ο : Type*}

/-- The machine that also keeps what its steps give out. -/
def logged (step : σ → α → Option σ) (out : σ → α → List ο) (s : σ × List ο) (a : α) :
    Option (σ × List ο) :=
  (step s.1 a).map fun s' ↦ (s', s.2 ++ out s.1 a)

variable {out : σ → α → List ο}

theorem logged_eq_some {s s' : σ × List ο} {a : α} (h : logged step out s a = some s') :
    step s.1 a = some s'.1 ∧ s'.2 = s.2 ++ out s.1 a := by
  obtain ⟨t, ha, rfl⟩ := Option.map_eq_some_iff.1 h
  exact ⟨ha, rfl⟩

end Logged

section Guarded

variable [∀ s a, Decidable (ok s a)]

/-- The machine whose steps are also disabled where the condition fails. -/
def guarded (step : σ → α → Option σ) (ok : σ → α → Prop) [∀ s a, Decidable (ok s a)] (s : σ)
    (a : α) : Option σ :=
  if ok s a then step s a else none

/-- A run exhibited with its condition checked at every step. -/
theorem reaches_of_exec {as : List α} (h : exec (guarded step ok) s₀ as = some s) :
    Reaches step ok s₀ s := by
  have key : ∀ (as : List α) {t : σ}, Reaches step ok s₀ t →
      exec (guarded step ok) t as = some s → Reaches step ok s₀ s := by
    intro as
    induction as with
    | nil =>
      intro t ht h
      obtain rfl : t = s := Option.some.inj h
      exact ht
    | cons a as ih =>
      intro t ht h
      rw [exec_cons, Option.bind_eq_some_iff] at h
      obtain ⟨t', hstep, hrest⟩ := h
      rw [guarded] at hstep
      split at hstep
      · rename_i hok
        exact ih (.step ht hok hstep) hrest
      · cases hstep
  exact key as .start h

end Guarded

end Machine
