import Mathlib.Data.List.Basic

/-!
# Byte-at-a-time machines

The running lemmas for a machine that consumes one input at a time and may emit any number of
outputs for it. A machine is just its step `σ → ι → σ × List ο`; `run` threads the state and
concatenates the outputs.

The point of the library is `run_run`: running the *run* itself over a list of chunks is running
over the concatenation. So a driver that hands a machine whatever each `read` returned is
insensitive to where the reads were cut, and no property of a stream has to be proved twice, once
for bytes and once for chunks.

## The shape of a driver

A driver calls a machine for each input and does something with what comes out. If it does that
chunk by chunk, the machine it sees is `run` of the small one, and the driver's own loop is `run` of
that. So the two levels are the same function, and `run_run` is an equation between its instances;
it is proved from `run_append` by an induction over the chunks.

The outputs are lists, since an input may complete nothing, one thing or several. A machine with one
output for each input is the special case of singletons, and filtering the outputs commutes with
running (`run_filterMap`), so that a trace of all results and a list of the interesting ones come
from one definition.

Simulation between two machines is not set up here as a notion. Where one machine follows another, a
relation between the states is kept by each input, and a short induction over the inputs does the
rest; what the relation is, and which outputs correspond, is different every time.

Machines that can stop early are `Abortable`, and machines whose steps may be disabled are
`Machine`.
-/

namespace Mealy

variable {σ ι ο : Type*}

/-- Run a machine over a list of inputs, concatenating what it emits. -/
def run (step : σ → ι → σ × List ο) (s : σ) : List ι → σ × List ο
  | [] => (s, [])
  | i :: is =>
    let (s', o) := step s i
    let (s'', os) := run step s' is
    (s'', o ++ os)

variable {step : σ → ι → σ × List ο}

@[simp]
theorem run_nil (s : σ) : run step s [] = (s, []) :=
  rfl

theorem run_cons (s : σ) (i : ι) (is : List ι) :
    run step s (i :: is) =
      ((run step (step s i).1 is).1, (step s i).2 ++ (run step (step s i).1 is).2) :=
  rfl

/-- Running over a concatenation is running twice. -/
theorem run_append (s : σ) (is js : List ι) :
    run step s (is ++ js) =
      ((run step (run step s is).1 js).1,
        (run step s is).2 ++ (run step (run step s is).1 js).2) := by
  induction is generalizing s with
  | nil => rfl
  | cons i is ih => rw [List.cons_append, run_cons, ih, run_cons, List.append_assoc]

/-- **Chunking does not matter.** Feeding the chunks one after another is feeding their
concatenation: the state reached and the outputs are the same. -/
theorem run_run (s : σ) (chunks : List (List ι)) :
    run (run step) s chunks = run step s chunks.flatten := by
  induction chunks generalizing s with
  | nil => rfl
  | cons c cs ih => rw [run_cons, ih, List.flatten_cons, run_append]

/-- Filtering what each step emits is filtering what the run emits. -/
theorem run_filterMap {ο' : Type*} (f : ο → Option ο') (s : σ) (is : List ι) :
    run (fun s i ↦ ((step s i).1, (step s i).2.filterMap f)) s is =
      ((run step s is).1, (run step s is).2.filterMap f) := by
  induction is generalizing s with
  | nil => rfl
  | cons i is ih => rw [run_cons, ih, run_cons, List.filterMap_append]

end Mealy
