import Mathlib.Data.List.Basic
import Mathlib.Tactic.Common

/-!
# Queues and semaphores of a small real-time kernel

The usual semantics of three kernel objects, when every operation is tried without waiting: a
message queue of fixed capacity, first in first out; a counting semaphore that saturates at its
maximum. Capacity and maximum are part of the type and the bound is part of the value, so a queue
that holds too much or a count past its maximum cannot be built.

An operation that would have to wait is an operation that fails: `none` is any status other than
`osOK`.

## Which kernel

The names and the results follow the common interface of small kernels for microcontrollers. What is
described are the objects and not the scheduler: which task runs, who is woken and in what order, is
left to the machine in which the operations are steps. Each operation is atomic there, as a kernel
makes it by its own means.

The bounds are fields. An operation has to prove them for its result, and no invariant says that a
queue is not too long. Each operation is used through two lemmas, one for success and one for
failure.

A release at the maximum fails and changes nothing. A program that ignores the result cannot tell
that from a release that added a token, and the count then says less than the number of releases.
`release_le` is the bound that holds in either case.

Waiting with a time-out is left out: a task that waits is one whose operation is not enabled, and a
time-out is another action. Mutexes, which have owners, are elsewhere.
-/

/-- A message queue of capacity `cap`, oldest message first. -/
@[ext]
structure MessageQueue (α : Type*) (cap : ℕ) where
  /-- The messages in the queue. -/
  items : List α
  /-- There are no more of them than fit. -/
  bounded : items.length ≤ cap
  deriving DecidableEq

namespace MessageQueue

variable {α : Type*} {cap : ℕ}

/-- A new queue. -/
def new (cap : ℕ) : MessageQueue α cap :=
  ⟨[], Nat.zero_le cap⟩

/-- Append a message, if there is room. -/
def put (q : MessageQueue α cap) (a : α) : Option (MessageQueue α cap) :=
  if h : q.items.length < cap then some ⟨q.items ++ [a], List.length_append ▸ h⟩ else none

/-- Take the oldest message, if there is one. -/
def get (q : MessageQueue α cap) : Option (α × MessageQueue α cap) :=
  match q with
  | ⟨[], _⟩ => none
  | ⟨a :: rest, h⟩ => some (a, ⟨rest, Nat.le_of_succ_le h⟩)

@[simp] theorem items_new : (new cap : MessageQueue α cap).items = [] := rfl

variable {q q' : MessageQueue α cap} {a : α}

theorem put_eq_some (h : q.put a = some q') :
    q'.items = q.items ++ [a] ∧ q.items.length < cap := by
  rw [put] at h
  split at h
  · rename_i hlt
    cases h
    exact ⟨rfl, hlt⟩
  · cases h

theorem put_eq_none : q.put a = none ↔ q.items.length = cap := by
  have hle := q.bounded
  rw [put, dite_eq_right_iff]
  constructor
  · intro h
    by_contra hne
    exact absurd (h (by omega)) (by simp)
  · intro h hlt
    omega

theorem get_eq_some (h : q.get = some (a, q')) : q.items = a :: q'.items := by
  obtain ⟨_ | ⟨b, rest⟩, hle⟩ := q
  · cases h
  · cases h
    rfl

theorem get_eq_none : q.get = none ↔ q.items = [] := by
  obtain ⟨_ | ⟨b, rest⟩, hle⟩ := q
  · exact ⟨fun _ ↦ rfl, fun _ ↦ rfl⟩
  · exact ⟨(nomatch ·), (nomatch ·)⟩

end MessageQueue

/-- A counting semaphore that counts up to `max`. -/
@[ext]
structure Semaphore (max : ℕ) where
  /-- The tokens available. -/
  count : ℕ
  /-- There are never more than `max`. -/
  bounded : count ≤ max
  deriving DecidableEq

namespace Semaphore

variable {max : ℕ}

/-- A new semaphore with no token. -/
def new (max : ℕ) : Semaphore max :=
  ⟨0, Nat.zero_le max⟩

/-- Give a token back; at the maximum the release fails and nothing changes. -/
def release (s : Semaphore max) : Semaphore max :=
  if h : s.count < max then ⟨s.count + 1, h⟩ else s

/-- Take a token, if there is one. -/
def acquire (s : Semaphore max) : Option (Semaphore max) :=
  match s with
  | ⟨0, _⟩ => none
  | ⟨n + 1, h⟩ => some ⟨n, Nat.le_of_succ_le h⟩

variable {s s' : Semaphore max}

theorem count_release_of_lt (h : s.count < max) : s.release.count = s.count + 1 := by
  rw [release, dif_pos h]

/-- A release adds a token or none. -/
theorem release_le (s : Semaphore max) : s.release.count ≤ s.count + 1 := by
  rw [release]
  split_ifs
  · exact Nat.le_refl _
  · exact Nat.le_succ _

theorem acquire_eq_some (h : s.acquire = some s') : s.count = s'.count + 1 := by
  obtain ⟨_ | n, hle⟩ := s
  · cases h
  · cases h
    rfl

theorem acquire_eq_none : s.acquire = none ↔ s.count = 0 := by
  obtain ⟨_ | n, hle⟩ := s
  · exact ⟨fun _ ↦ rfl, fun _ ↦ rfl⟩
  · exact ⟨(nomatch ·), (nomatch ·)⟩

end Semaphore
