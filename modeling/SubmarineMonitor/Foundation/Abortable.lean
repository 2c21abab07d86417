import Mathlib.Data.List.Basic

/-!
# Work that may be cut short

A list of jobs is done in order, and any of them may abort the whole: an exception leaves the jobs
behind it undone. A job is a step `σ → α → σ × Bool`, whose flag says whether it aborted.

Aborting composes. A job that is itself such a list aborts when one of its own jobs does, so the
exceptions of a whole program are followed level by level with the same few lemmas.

## The state behind an abort

Aborting is not failing. What was done before the abort, and what the aborting job itself did to the
state, is done; the result of `run` is that state together with the flag. An `Except` would throw
the state away, and an `Except` over a state monad keeps it but hides where the list was left, which
is what most questions are about.

The two equations for a list with a head are the way to open `run`, one for each value of the flag.
The lemmas on concatenations say what chunking means: a first part that aborts is the whole story,
and one that does not hands its state to the second. `run_flatMap` goes one level down. The
projection in it is there because an outer job as a rule keeps more than the inner ones see, such as
a list of what it was given, and the outer state is not determined by the inner one.

Which jobs abort is arbitrary, and may depend on the state. If the state counts the jobs done so
far, any pattern of aborts is a step, so statements about all patterns are statements about all
steps.
-/

namespace Abortable

variable {σ α : Type*}

/-- Do the jobs in order, up to the first that aborts. -/
def run (step : σ → α → σ × Bool) (s : σ) : List α → σ × Bool
  | [] => (s, false)
  | a :: as => if (step s a).2 then ((step s a).1, true) else run step (step s a).1 as

variable {step : σ → α → σ × Bool} {s : σ} {a : α}

@[simp]
theorem run_nil (s : σ) : run step s [] = (s, false) :=
  rfl

theorem run_cons_of_abort {as : List α} (h : (step s a).2 = true) :
    run step s (a :: as) = ((step s a).1, true) :=
  if_pos h

theorem run_cons_of_not_abort {as : List α} (h : (step s a).2 = false) :
    run step s (a :: as) = run step (step s a).1 as :=
  if_neg (by simp [h])

/-- What follows an abort is not done. -/
theorem run_append_of_abort {as : List α} (h : (run step s as).2 = true) (bs : List α) :
    run step s (as ++ bs) = run step s as := by
  induction as generalizing s with
  | nil => cases h
  | cons a as ih =>
    by_cases ha : (step s a).2 = true
    · rw [List.cons_append, run_cons_of_abort ha, run_cons_of_abort ha]
    · rw [Bool.not_eq_true] at ha
      rw [run_cons_of_not_abort ha] at h
      rw [List.cons_append, run_cons_of_not_abort ha, run_cons_of_not_abort ha, ih h]

theorem not_abort_of_append {as bs : List α} (h : (run step s (as ++ bs)).2 = false) :
    (run step s as).2 = false := by
  by_contra habort
  rw [Bool.not_eq_false] at habort
  rw [run_append_of_abort habort, habort] at h
  cases h

/-- Otherwise the rest is done from where the first part ended. -/
theorem run_append_of_not_abort {as : List α} (h : (run step s as).2 = false) (bs : List α) :
    run step s (as ++ bs) = run step (run step s as).1 bs := by
  induction as generalizing s with
  | nil => rfl
  | cons a as ih =>
    by_cases ha : (step s a).2 = true
    · rw [run_cons_of_abort ha] at h
      cases h
    · rw [Bool.not_eq_true] at ha
      rw [run_cons_of_not_abort ha] at h
      rw [List.cons_append, run_cons_of_not_abort ha, run_cons_of_not_abort ha, ih h]

/-- **Aborting composes.** Jobs that are themselves lists of smaller jobs, over what `proj` shows of
the state, are together the one list of the smaller jobs. -/
theorem run_flatMap {τ β : Type*} {outer : τ → β → τ × Bool} {proj : τ → σ} {parts : β → List α}
    (h : ∀ t b, (proj (outer t b).1, (outer t b).2) = run step (proj t) (parts b)) (t : τ)
    (bs : List β) :
    (proj (run outer t bs).1, (run outer t bs).2) = run step (proj t) (bs.flatMap parts) := by
  induction bs generalizing t with
  | nil => rfl
  | cons b bs ih =>
    have hb := h t b
    have hstate := congrArg Prod.fst hb
    have hflag := congrArg Prod.snd hb
    rw [List.flatMap_cons]
    by_cases habort : (outer t b).2 = true
    · rw [run_cons_of_abort habort, run_append_of_abort (hflag.symm.trans habort), ← hb, habort]
    · rw [Bool.not_eq_true] at habort
      rw [run_cons_of_not_abort habort, run_append_of_not_abort (hflag.symm.trans habort), ← hstate]
      exact ih _

end Abortable
