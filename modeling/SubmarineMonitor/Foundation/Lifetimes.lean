import Mathlib.Logic.Function.Basic
import SubmarineMonitor.Foundation.Machine

/-!
# Objects that threads use

One thread makes and destroys objects, and starts, stops and joins other threads, which touch the
objects that were handed to them at any time until they end. What it does is a list of operations, a
**script**.

An operation is in order (`Op.Ok`) when it touches what is there, makes what is not, and destroys
nothing that a thread may still touch. That is a condition on the script alone, checked operation by
operation with what is to be true behind it (`Safe`), so scripts are put together like programs in a
calculus of preconditions (`safe_append`). `sound_of_reaches` is what it is good for: in every
interleaving nobody touches an object that is not there.

## What the threads may do

A thread that was started and has not ended touches whatever it may, as often as it likes: nothing
is asked about what it does, so the guarantee holds for any code behind it. What a thread may touch
is settled by the script (`Op.spawn`, `Op.grant`), never by the thread itself, and it only grows
until the thread is joined.

This is about safety alone. A thread that was told to end may do so at any time (`Action.exit`), but
nothing says that it does: it may be held up for ever in a call that blocks, and a script that joins
it then never goes on. Whether it goes on has to be argued from what the threads do.
-/

open Machine

namespace Lifetimes

/-! ### Scripts -/

/-- What the thread that owns the objects does. -/
inductive Op (O T : Type*)
  | make (o : O)
  | touch (o : O)
  | destroy (o : O)
  /-- A thread is started that may touch these. -/
  | spawn (t : T) (objects : List O)
  /-- It may touch one more. -/
  | grant (t : T) (o : O)
  /-- It is told to end. -/
  | stop (t : T)
  /-- Wait until it has ended. -/
  | join (t : T)

/-- What there is. -/
structure World (O T : Type*) where
  alive : O → Bool
  /-- The threads that were started and are not joined. -/
  started : T → Bool
  stopped : T → Bool
  /-- What a thread may touch. -/
  uses : T → O → Bool

variable {O T : Type*}

/-- There is nothing. -/
def World.empty : World O T :=
  ⟨fun _ ↦ false, fun _ ↦ false, fun _ ↦ false, fun _ _ ↦ false⟩

/-- It is in order to do this. -/
def Op.Ok (w : World O T) : Op O T → Prop
  | .make o => w.alive o = false
  | .touch o => w.alive o = true
  | .destroy o => w.alive o = true ∧ ∀ t, w.started t = true → w.uses t o = false
  | .spawn t objects => w.started t = false ∧ ∀ o ∈ objects, w.alive o = true
  | .grant t o => w.started t = true ∧ w.alive o = true
  | .stop t => w.started t = true
  | .join t => w.started t = true ∧ w.stopped t = true

section

variable [DecidableEq O] [DecidableEq T]

/-- What it does. -/
def Op.effect (w : World O T) : Op O T → World O T
  | .make o => { w with alive := Function.update w.alive o true }
  | .touch _ => w
  | .destroy o => { w with alive := Function.update w.alive o false }
  | .spawn t objects =>
    { w with
      started := Function.update w.started t true
      stopped := Function.update w.stopped t false
      uses := Function.update w.uses t fun o ↦ decide (o ∈ objects) }
  | .grant t o => { w with uses := Function.update w.uses t (Function.update (w.uses t) o true) }
  | .stop t => { w with stopped := Function.update w.stopped t true }
  | .join t => { w with started := Function.update w.started t false }

/-- All operations are in order, and `Q` is true behind the last. -/
def Safe (Q : World O T → Prop) : List (Op O T) → World O T → Prop
  | [], w => Q w
  | op :: ops, w => op.Ok w ∧ Safe Q ops (op.effect w)

variable {Q Q' : World O T → Prop} {w : World O T}

@[simp]
theorem safe_nil : Safe Q [] w ↔ Q w :=
  Iff.rfl

@[simp]
theorem safe_cons (op : Op O T) (ops : List (Op O T)) :
    Safe Q (op :: ops) w ↔ op.Ok w ∧ Safe Q ops (op.effect w) :=
  Iff.rfl

/-- One script behind the other. -/
theorem safe_append (ops ops' : List (Op O T)) :
    Safe Q (ops ++ ops') w ↔ Safe (Safe Q ops') ops w := by
  induction ops generalizing w with
  | nil => rfl
  | cons op ops ih => exact and_congr_right fun _ ↦ ih

/-- Whether the operations are in order, and what there is behind them, apart. -/
theorem safe_iff (ops : List (Op O T)) :
    Safe Q ops w ↔ Safe (fun _ ↦ True) ops w ∧ Q (ops.foldl Op.effect w) := by
  induction ops generalizing w with
  | nil => exact (true_and _).symm.to_iff
  | cons op ops ih => exact (and_congr_right fun _ ↦ ih).trans and_assoc.symm

theorem Safe.mono {ops : List (Op O T)} (h : Safe Q ops w) (hQ : ∀ w, Q w → Q' w) :
    Safe Q' ops w := by
  rw [safe_iff] at h ⊢
  exact ⟨h.1, hQ _ h.2⟩

/-! ### The threads -/

/-- What there is, which threads have ended, and what is left of the script. -/
structure State (O T : Type*) where
  world : World O T
  ended : T → Bool
  rest : List (Op O T)

/-- Who moves next. -/
inductive Action (O T : Type*)
  /-- The script goes on. -/
  | main
  /-- A thread touches an object. -/
  | touch (t : T) (o : O)
  /-- A thread that was told to end does so, if it ever does. -/
  | exit (t : T)

/-- Before the script. -/
def start (script : List (Op O T)) : State O T :=
  ⟨.empty, fun _ ↦ false, script⟩

/-- **The threads**, under any interleaving. -/
def step (s : State O T) : Action O T → Option (State O T)
  | .main =>
    match s.rest with
    | [] => none
    | .join t :: ops =>
      if s.ended t then some { s with world := (Op.join t).effect s.world, rest := ops } else none
    | .spawn t objects :: ops =>
      some ⟨(Op.spawn t objects).effect s.world, Function.update s.ended t false, ops⟩
    | op :: ops => some { s with world := op.effect s.world, rest := ops }
  | .touch t o =>
    if s.world.started t && !s.ended t && s.world.uses t o then some s else none
  | .exit t =>
    if s.world.started t && s.world.stopped t && !s.ended t then
      some { s with ended := Function.update s.ended t true }
    else none

variable {s s' : State O T}

/-- The script goes on by its next operation, which waits if it is a `join`. -/
theorem step_main (h : step s .main = some s') :
    ∃ op ops, s.rest = op :: ops ∧ s'.world = op.effect s.world ∧ s'.rest = ops := by
  dsimp only [step] at h
  split at h
  · cases h
  · split_ifs at h
    obtain rfl := Option.some.inj h
    exact ⟨_, _, ‹_›, rfl, rfl⟩
  · obtain rfl := Option.some.inj h
    exact ⟨_, _, ‹_›, rfl, rfl⟩
  · obtain rfl := Option.some.inj h
    exact ⟨_, _, ‹_›, rfl, rfl⟩

/-- What is left of the script is in order, and what a thread may touch is there. -/
structure Sheltered (Q : World O T → Prop) (s : State O T) : Prop where
  safe : Safe Q s.rest s.world
  alive : ∀ t o, s.world.started t = true → s.world.uses t o = true → s.world.alive o = true

/-- An operation that is in order leaves nobody with an object that is not there. -/
theorem alive_effect {op : Op O T} (hok : op.Ok w)
    (halive : ∀ t o, w.started t = true → w.uses t o = true → w.alive o = true) (t : T) (o : O)
    (hstarted : (op.effect w).started t = true) (huses : (op.effect w).uses t o = true) :
    (op.effect w).alive o = true := by
  cases op with
  | make o' =>
    have h := halive t o hstarted huses
    show Function.update w.alive o' true o = true
    rw [Function.update_apply]
    split_ifs
    · rfl
    · exact h
  | touch o' => exact halive t o hstarted huses
  | destroy o' =>
    have h := halive t o hstarted huses
    have hne : o ≠ o' := by
      rintro rfl
      have hnone := hok.2 t hstarted
      exact absurd (huses.symm.trans hnone) (by decide)
    show Function.update w.alive o' false o = true
    rwa [Function.update_of_ne hne]
  | spawn t' objects =>
    change Function.update w.started t' true t = true at hstarted
    change Function.update w.uses t' _ t o = true at huses
    by_cases ht : t = t'
    · subst ht
      rw [Function.update_self] at huses
      exact hok.2 o (of_decide_eq_true huses)
    · rw [Function.update_of_ne ht] at hstarted huses
      exact halive t o hstarted huses
  | grant t' o' =>
    change Function.update w.uses t' _ t o = true at huses
    by_cases ht : t = t'
    · subst ht
      rw [Function.update_self, Function.update_apply] at huses
      split_ifs at huses with ho
      · rw [ho]
        exact hok.2
      · exact halive t o hstarted huses
    · rw [Function.update_of_ne ht] at huses
      exact halive t o hstarted huses
  | stop t' => exact halive t o hstarted huses
  | join t' =>
    change Function.update w.started t' false t = true at hstarted
    rw [Function.update_apply] at hstarted
    split_ifs at hstarted
    exact halive t o hstarted huses

theorem Sheltered.step (hs : Sheltered Q s) {a : Action O T} (h : step s a = some s') :
    Sheltered Q s' := by
  cases a with
  | main =>
    obtain ⟨op, ops, hrest, hworld, rfl⟩ := step_main h
    have hsafe := hs.safe
    rw [hrest] at hsafe
    refine ⟨hworld ▸ hsafe.2, fun t o hstarted huses ↦ ?_⟩
    rw [hworld] at hstarted huses ⊢
    exact alive_effect hsafe.1 hs.alive t o hstarted huses
  | touch t o =>
    dsimp only [Lifetimes.step] at h
    split_ifs at h
    obtain rfl := Option.some.inj h
    exact hs
  | exit t =>
    dsimp only [Lifetimes.step] at h
    split_ifs at h
    obtain rfl := Option.some.inj h
    exact ⟨hs.safe, hs.alive⟩

/-- Everybody touches only what is there. -/
structure Sound (s : State O T) : Prop where
  /-- The threads do. -/
  threads : ∀ t o s', Lifetimes.step s (.touch t o) = some s' → s.world.alive o = true
  /-- The script's next operation is in order. -/
  main : ∀ op ∈ s.rest.head?, op.Ok s.world

theorem Sheltered.sound (hs : Sheltered Q s) : Sound s where
  threads := by
    intro t o s' h
    dsimp only [Lifetimes.step] at h
    split_ifs at h with hif
    simp only [Bool.and_eq_true] at hif
    exact hs.alive t o hif.1.1 hif.2
  main := by
    intro op hop
    have hsafe := hs.safe
    rcases hrest : s.rest with _ | ⟨op', ops⟩
    all_goals
      rw [hrest] at hop hsafe
    · cases hop
    · obtain rfl := Option.some.inj hop
      exact hsafe.1

/-- **Nobody touches what is not there**, in any interleaving of a script that is in order, and
behind the last operation all is as it should be. -/
theorem sound_of_reaches {script : List (Op O T)} (hscript : Safe Q script .empty)
    (h : Reaches Lifetimes.step (fun _ _ ↦ True) (start script) s) :
    Sound s ∧ (s.rest = [] → Q s.world) := by
  have hs : Sheltered Q s := by
    refine h.invariant ⟨hscript, fun t o hstarted _ ↦ ?_⟩ fun hs _ ha ↦ hs.step ha
    exact absurd hstarted Bool.false_ne_true
  refine ⟨hs.sound, fun hrest ↦ ?_⟩
  have hsafe := hs.safe
  rwa [hrest] at hsafe

end

end Lifetimes
