import SubmarineMonitor.Node.TxAccounting

/-!
# Nothing is left behind

Tokens may outnumber items (`Comm.transmitted_unfilled`), but items never outnumber tokens, whatever
the order of steps. So when no call is under way and the task is asleep with no token to wake it,
there is nothing in the queues.

The scan of the three queues is not one step, and an item may be put into a queue the task has just
found empty. `Covered` says what such an item brings with it: a token of its own, which the task
cannot take before it is back at the semaphore. The semaphore saturates at ten, but that loses a
token only where ten are left, and the queues hold nine.

## Why the scan is the hard part

The task looks into the three queues one after another. An item put into the first queue after the
task has looked there is not seen in this scan, and if the scan then ends with an item from a lower
queue, the token that woke the task was in a sense the wrong one. It does not matter, since every
put is followed by a release of its own; the invariant says so for each place the task can be in
(`Covered.passed`).

## What is left out

That the task goes on: nothing is said about when it runs. The statement is about the states in
which it waits and no call is under way, in any order of steps and with keep-alives replaced. The
capacity of the semaphore matters, and that of the queues, four and four and one: with more places
in the queues than the semaphore counts tokens, a lost token could leave an item behind.
-/

open Machine

namespace SubmarineMonitor

namespace Comm

/-- The tokens in the semaphore or about to be released. -/
def rung (c : Comm) : ℕ :=
  c.semTxReady.count + c.releasing

/-- The items in the queues that the scan looks at before this one. -/
def passed (c : Comm) : CommPrio → ℕ
  | .high => 0
  | .med => (c.txq .high).items.length
  | .low => (c.txq .high).items.length + (c.txq .med).items.length

/-- **No item is without a token.** -/
structure Covered (c : Comm) : Prop where
  queued : c.queued ≤ c.rung + c.holding
  /-- An item that the scan has missed has a token besides the one in the task's hand. -/
  passed : ∀ prio, c.task = .get prio → c.passed prio ≤ c.rung

variable {c c' : Comm} {prio : CommPrio} {slot : TxSlot}
  {q : MessageQueue TxSlot (txqCapacity prio)}

theorem passed_le_queued (c : Comm) (prio : CommPrio) : c.passed prio ≤ c.queued := by
  cases prio <;> simp only [Comm.passed, Comm.queued] <;> omega

theorem passed_put (hq : q.items = (c.txq prio).items ++ [slot]) (prio' : CommPrio) :
    (c.setTxq prio q).passed prio' ≤ c.passed prio' + 1 := by
  cases prio <;> cases prio' <;> simp [Comm.passed, setTxq, hq] <;> omega

theorem passed_get (hq : (c.txq prio).items = slot :: q.items) (prio' : CommPrio) :
    (c.setTxq prio q).passed prio' ≤ c.passed prio' := by
  cases prio <;> cases prio' <;> simp [Comm.passed, setTxq, hq]

/-- A call's step keeps every item covered if it adds no item without a token, or if more tokens
than there can be items are left. -/
theorem Covered.of_send (h : Covered c) (htask : c'.task = c.task)
    (hrung : (c'.queued + c.rung ≤ c.queued + c'.rung ∧
      ∀ prio, c'.passed prio + c.rung ≤ c.passed prio + c'.rung) ∨ 9 ≤ c'.rung) : Covered c' := by
  have hholding : c'.holding = c.holding := by rw [holding, holding, htask]
  rcases hrung with ⟨hqueued, hpassed⟩ | hfull
  · refine ⟨?_, fun prio ht ↦ ?_⟩
    · have hle := h.queued
      omega
    · have hle := h.passed prio (htask ▸ ht)
      have hmore := hpassed prio
      omega
  · refine ⟨c'.queued_le.trans (hfull.trans (Nat.le_add_right _ _)), fun prio _ ↦ ?_⟩
    exact (c'.passed_le_queued prio).trans (c'.queued_le.trans hfull)

/-- **Every step keeps every item covered.** -/
theorem Covered.step {a : CommAction} (h : Covered c) (hstep : commStep c a = some c') :
    Covered c' := by
  have hqueued := h.queued
  cases commStep_effect hstep with
  | call args =>
    have hrung : Comm.rung { c with calls := c.calls ++ [⟨args, commSendEnter args⟩] } = c.rung :=
      congrArg (c.semTxReady.count + ·) (releasing_call c args)
    refine h.of_send rfl (.inl ⟨?_, fun prio ↦ ?_⟩) <;> rw [hrung] <;> exact le_rfl
  | @put id call q hcall hpc hput =>
    have hitems := (MessageQueue.put_eq_some hput).1
    have hreleasing : ((c.setTxq call.args.prio q).setPc id call .release).releasing =
        c.releasing + 1 := releasing_begin hcall hpc
    have hrung : ((c.setTxq call.args.prio q).setPc id call .release).rung = c.rung + 1 :=
      congrArg (c.semTxReady.count + ·) hreleasing
    refine h.of_send rfl (.inl ⟨?_, fun prio ↦ ?_⟩)
    · show (c.setTxq call.args.prio q).queued + c.rung ≤ _
      rw [queued_put hitems, hrung]
      omega
    · have hpassed := passed_put hitems prio
      show (c.setTxq call.args.prio q).passed prio + c.rung ≤ _
      omega
  | @full id call pc hcall hpc _ hnext =>
    have hrung : (c.setPc id call pc).rung = c.rung :=
      congrArg (c.semTxReady.count + ·) (releasing_full hcall hpc hnext)
    refine h.of_send rfl (.inl ⟨?_, fun prio ↦ ?_⟩) <;> rw [hrung] <;> exact le_rfl
  | @takeStale id call slot q hcall hpc hget =>
    -- an item goes, its token stays
    have hitems := MessageQueue.get_eq_some hget
    have hreleasing : ((c.setTxq .high q).setPc id call .putAgain).releasing = c.releasing :=
      releasing_same hcall (by simp [hpc]) (by simp)
    have hrung : ((c.setTxq .high q).setPc id call .putAgain).rung = c.rung :=
      congrArg (c.semTxReady.count + ·) hreleasing
    refine h.of_send rfl (.inl ⟨?_, fun prio ↦ ?_⟩)
    · have hless := queued_get hitems
      show (c.setTxq .high q).queued + c.rung ≤ _
      omega
    · have hless := passed_get hitems prio
      show (c.setTxq .high q).passed prio + c.rung ≤ _
      omega
  | @noStale id call hcall hpc _ =>
    have hrung : (c.setPc id call .putAgain).rung = c.rung :=
      congrArg (c.semTxReady.count + ·) (releasing_same hcall (by simp [hpc]) (by simp))
    refine h.of_send rfl (.inl ⟨?_, fun prio ↦ ?_⟩) <;> rw [hrung] <;> exact le_rfl
  | @release id call hcall hpc =>
    have hreleasing : ({ c with semTxReady := c.semTxReady.release }.setPc id call
        (.returned 0)).releasing + 1 = c.releasing := releasing_end hcall hpc 0
    by_cases hroom : c.semTxReady.count < 10
    · have hrung : ({ c with semTxReady := c.semTxReady.release }.setPc id call
          (.returned 0)).rung = c.rung := by
        show c.semTxReady.release.count + _ = c.semTxReady.count + c.releasing
        rw [Semaphore.count_release_of_lt hroom]
        omega
      refine h.of_send rfl (.inl ⟨?_, fun prio ↦ ?_⟩) <;> rw [hrung] <;> exact le_rfl
    · -- saturated: the token is lost, and ten are left
      refine h.of_send rfl (.inr ?_)
      show 9 ≤ c.semTxReady.release.count + _
      rw [Semaphore.release, dif_neg hroom]
      omega
  | @acquire junk sem htask hsem =>
    have htoken := Semaphore.acquire_eq_some hsem
    rw [holding_acquire htask, Comm.rung] at hqueued
    refine ⟨?_, fun prio ht ↦ ?_⟩
    · show c.queued ≤ sem.count + c.releasing + 1
      omega
    · cases ht
      exact Nat.zero_le _
  | @get junk prio slot q htask hget =>
    have hless := queued_get (MessageQueue.get_eq_some hget)
    rw [holding_get htask] at hqueued
    refine ⟨?_, fun _ ht ↦ by cases ht⟩
    show (c.setTxq prio q).queued ≤ c.rung + 0
    omega
  | @scan junk prio prio' htask hempty hnext =>
    rw [holding_get htask] at hqueued
    refine ⟨hqueued, fun prio'' ht ↦ ?_⟩
    have hpassed := h.passed prio htask
    obtain rfl : prio' = prio'' := by simpa using ht
    -- the queue just found empty joins those that the scan has passed
    have hlen : (c.txq prio).items.length = 0 := by rw [hempty, List.length_nil]
    show c.passed prio' ≤ c.rung
    rcases hnext with ⟨rfl, rfl⟩ | ⟨rfl, rfl⟩ <;> simp only [Comm.passed] at hpassed ⊢ <;> omega
  | unfilled htask hempty =>
    have hpassed := h.passed .low htask
    refine ⟨?_, fun _ ht ↦ by cases ht⟩
    show c.queued ≤ c.rung + 0
    simp only [Comm.passed] at hpassed
    rw [Comm.queued, hempty, List.length_nil]
    omega
  | @transmit junk item src frame htask _ =>
    rw [holding_encode htask] at hqueued
    exact ⟨hqueued, fun _ ht ↦ by cases ht⟩

theorem covered_create : Covered communicationCreate :=
  ⟨le_rfl, fun _ ht ↦ by cases ht⟩

/-- No call is between its first queue operation and its return. -/
def Uninvolved (c : Comm) : Prop :=
  ∀ call ∈ c.calls, call.pc = .put ∨ ∃ rc, call.pc = .returned rc

/-- Then nobody is about to release a token. -/
theorem Uninvolved.releasing {c : Comm} (h : c.Uninvolved) : c.releasing = 0 := by
  refine List.countP_eq_zero.2 fun call hcall ↦ ?_
  rcases h call hcall with hpc | ⟨rc, hpc⟩ <;> simp [hpc]

/-- **No accepted message is stranded.** Whatever the order of steps, when no call is under way and
the task waits for a semaphore that has no token, all three queues are empty. -/
theorem drained {c : Comm} (h : Reaches commStep (fun _ _ ↦ True) communicationCreate c)
    (hcalls : c.Uninvolved) (htask : c.task = .acquire) (hsem : c.semTxReady.count = 0)
    (prio : CommPrio) : (c.txq prio).items = [] := by
  have hcovered : Covered c := h.invariant covered_create fun hc _ hstep ↦ hc.step hstep
  have hqueued := hcovered.queued
  rw [rung, hsem, hcalls.releasing, holding_acquire htask, Comm.queued] at hqueued
  refine List.length_eq_zero_iff.1 ?_
  cases prio <;> omega

/-- A keep-alive replaces another in the mailbox, and the task takes both tokens. -/
theorem drained_replaced :
    ∃ c, Reaches commStep (fun _ _ ↦ True) communicationCreate c ∧ c.sent.length = 2 ∧
      ∀ prio, (c.txq prio).items = [] := by
  have hrun : ∃ c, exec (guarded commStep fun _ _ ↦ True) communicationCreate
      ([.call keepAliveArgs, .send 0, .send 0, .call keepAliveArgs] ++ List.replicate 4 (.send 1) ++
        List.replicate 8 (.task stackJunk)) = some c ∧ c.sent.length = 2 ∧
      c.calls.map CommSend.pc = [.returned 0, .returned 0] ∧ c.task = .acquire ∧
      c.semTxReady.count = 0 := ⟨_, rfl, rfl, rfl, rfl, rfl⟩
  obtain ⟨c, hexec, hsent, hcalls, htask, hsem⟩ := hrun
  have hreaches := reaches_of_exec hexec
  refine ⟨c, hreaches, hsent, drained hreaches (fun call hcall ↦ .inr ⟨0, ?_⟩) htask hsem⟩
  have hpc := List.mem_map_of_mem (f := CommSend.pc) hcall
  simpa [hcalls] using hpc

end Comm

end SubmarineMonitor
