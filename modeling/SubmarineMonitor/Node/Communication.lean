import SubmarineMonitor.Foundation.Machine
import SubmarineMonitor.Foundation.Rtos
import SubmarineMonitor.Protocol.Frame
import SubmarineMonitor.Protocol.Tags

/-!
# The transmit side of the LNC's communication module

`comm_send`, called from any number of tasks, and `comm_tx_task`, the only transmitter. Every queue
operation and every semaphore operation is a step of its own, so a call that is between two of them
is part of the state: `calls` holds every `comm_send` ever entered, with the place it has reached,
and a call's index is its identity. Queued items carry the identity of the call that put them; this
is bookkeeping, and no step of the code looks at it.

`commStep_effect` opens the two functions once and says everything a step can do. It is what the
invariants are proved from.

## The grain of the steps

`osMessageQueuePut`, `osMessageQueueGet`, `osSemaphoreAcquire` and `osSemaphoreRelease` are atomic
for the tasks that call them, so each is one step, and everything a function does between two of
them is private to its task and goes with the step before. That is the finest interleaving that
matters, and none is excluded: a low task may stay between its put and its release for ever. The
order among waiting callers and the priorities of the scheduler are left open.

Nothing blocks but the task at its semaphore. All queue operations have a time-out of zero, which is
why a put that finds no room, and a get that finds nothing, are results and not waits.

## Where the source reads what nobody wrote

The last `osMessageQueueGet` of `comm_tx_task` is not checked. When it fails, `item` holds whatever
is on the stack; this is an argument of the step (`junk`), arbitrary each time, and the transmission
is marked as one that came from no queue.

## What is left out

`HAL_UART_Transmit` has a time-out of 50 ms and its result is ignored. The longest frame of the node
has 102 bytes and takes 9 ms at 115200 baud, so the time-out ends one only if the task is kept from
the processor for several times that. Here a frame counts as transmitted, as a whole, when it is
handed over; what is lost behind that is modelled where the line is. NULL handles of the queues, and
`communication_destroy`, which nobody calls.
-/

open Machine

namespace SubmarineMonitor

/-! ### The data -/

/-- `COMM_MAX_VALUE`. -/
def commMaxValue : ℕ := 96

/-- One slot of a transmit queue, `comm_tx_item_t`. -/
structure CommTxItem where
  tag : UInt8
  len : UInt8
  value : Vector UInt8 96
  deriving DecidableEq

/-- Send priority, `comm_prio_t`. -/
inductive CommPrio
  | high
  | med
  | low
  deriving DecidableEq, Repr

/-- `comm_priority_for_tag`. -/
def commPriorityForTag (tag : UInt8) : CommPrio :=
  if tag = tlvTagKeepAlive then .high
  else if tag = tlvTagModeChange ∨ tag = tlvTagObjectDetected ∨ tag = tlvTagObjectCleared ∨
      tag = tlvTagStartup ∨ tag = tlvTagTimeSyncRequest ∨ tag = tlvTagTimeReply ∨
      tag = tlvTagAck ∨ tag = tlvTagNack then .med
  else .low

/-- The arguments of a `comm_send` call. `value` is the memory from the pointer on. -/
structure SendArgs where
  /-- `comm` is NULL. -/
  commNull : Bool
  tag : UInt8
  value : Option (List UInt8)
  valueLen : UInt8
  deriving DecidableEq

/-- The item a call fills in. What `memcpy` leaves untouched is never read, and is zero here. -/
def SendArgs.item (args : SendArgs) : CommTxItem where
  tag := args.tag
  len := args.valueLen
  value := Vector.ofFn fun i ↦
    if i < args.valueLen.toNat then (args.value.getD []).getD i 0 else 0

def SendArgs.prio (args : SendArgs) : CommPrio :=
  commPriorityForTag args.tag

/-- Where a `comm_send` call stands. -/
inductive SendPc
  /-- Before the first `osMessageQueuePut`. -/
  | put
  /-- The mailbox was full; before the `osMessageQueueGet` of the stale item. -/
  | getStale
  /-- Before the second `osMessageQueuePut`. -/
  | putAgain
  /-- Before `osSemaphoreRelease`. -/
  | release
  | returned (rc : Int)
  deriving DecidableEq

/-- The argument checks of `comm_send`. -/
def commSendEnter (args : SendArgs) : SendPc :=
  if args.commNull then .returned (-1)
  else if args.value = none ∧ args.valueLen > 0 then .returned (-1)
  else if args.valueLen.toNat > commMaxValue then .returned (-1)
  else .put

/-- A `comm_send` call. -/
structure CommSend where
  args : SendArgs
  pc : SendPc
  deriving DecidableEq

/-- The call was accepted: it has queued its item, and returns 0 if it has returned. -/
def CommSend.Accepted (call : CommSend) : Prop :=
  call.pc = .release ∨ call.pc = .returned 0

instance (call : CommSend) : Decidable call.Accepted :=
  inferInstanceAs (Decidable (_ ∨ _))

/-- A queued item, and the call that put it. -/
structure TxSlot where
  item : CommTxItem
  src : ℕ
  deriving DecidableEq

/-- Where `comm_tx_task` stands. -/
inductive TxPc
  /-- Before `osSemaphoreAcquire`. -/
  | acquire
  /-- Before the `osMessageQueueGet` on this queue. -/
  | get (prio : CommPrio)
  /-- Before `tlv_encode` and `HAL_UART_Transmit`, with the local `item`, and the call it came from
  if some queue filled it in. -/
  | encode (item : CommTxItem) (src : Option ℕ)
  deriving DecidableEq

/-- A frame handed to `HAL_UART_Transmit`, and what it was encoded from. -/
structure Transmission where
  frame : List UInt8
  item : CommTxItem
  src : Option ℕ
  deriving DecidableEq

/-- The capacities given to `osMessageQueueNew`. -/
def txqCapacity : CommPrio → ℕ
  | .high => 1
  | .med => 4
  | .low => 4

/-- The transmit side of `struct Communication`, its callers and its task. -/
structure Comm where
  /-- `txq_high`, `txq_med` and `txq_low`. -/
  txq : (prio : CommPrio) → MessageQueue TxSlot (txqCapacity prio)
  semTxReady : Semaphore 10
  calls : List CommSend
  task : TxPc
  /-- What has been transmitted. -/
  sent : List Transmission

/-- `communication_create`. -/
def communicationCreate : Comm where
  txq prio := .new (txqCapacity prio)
  semTxReady := .new 10
  calls := []
  task := .acquire
  sent := []

namespace Comm

/-- Move call `id` to another place. -/
def setPc (c : Comm) (id : ℕ) (call : CommSend) (pc : SendPc) : Comm :=
  { c with calls := c.calls.set id { call with pc := pc } }

def setTxq (c : Comm) (prio : CommPrio) (q : MessageQueue TxSlot (txqCapacity prio)) : Comm :=
  { c with txq := Function.update c.txq prio q }

end Comm

/-! ### The steps -/

/-- The next step of call `id` of `comm_send`. -/
def commSendStep (c : Comm) (id : ℕ) (call : CommSend) : Option Comm :=
  let prio := call.args.prio
  match call.pc with
  | .put =>
    match (c.txq prio).put ⟨call.args.item, id⟩ with
    | some q => some ((c.setTxq prio q).setPc id call .release)
    | none => some (c.setPc id call (if prio = .high then .getStale else .returned (-1)))
  | .getStale =>
    match (c.txq .high).get with
    | some (_, q) => some ((c.setTxq .high q).setPc id call .putAgain)
    | none => some (c.setPc id call .putAgain)
  | .putAgain =>
    match (c.txq prio).put ⟨call.args.item, id⟩ with
    | some q => some ((c.setTxq prio q).setPc id call .release)
    | none => some (c.setPc id call (.returned (-1)))
  | .release => some ({ c with semTxReady := c.semTxReady.release }.setPc id call (.returned 0))
  | .returned _ => none

/-- The next step of `comm_tx_task`. `junk` is whatever the uninitialised local `item` holds. -/
def commTxTaskStep (c : Comm) (junk : CommTxItem) : Option Comm :=
  match c.task with
  | .acquire => c.semTxReady.acquire.map fun sem ↦ { c with semTxReady := sem, task := .get .high }
  | .get prio =>
    match (c.txq prio).get with
    | some (slot, q) => some { c.setTxq prio q with task := .encode slot.item (some slot.src) }
    | none =>
      match prio with
      | .high => some { c with task := .get .med }
      | .med => some { c with task := .get .low }
      -- the last `osMessageQueueGet` is not checked
      | .low => some { c with task := .encode junk none }
  | .encode item src =>
    match tlvEncode item.tag (some item.value.toList) item.len tlvMaxFrame with
    | .ok frame => some { c with task := .acquire, sent := c.sent ++ [⟨frame, item, src⟩] }
    | .error _ => some { c with task := .acquire }

/-- Who moves next. -/
inductive CommAction
  /-- Some task calls `comm_send`. -/
  | call (args : SendArgs)
  /-- Call `id` takes its next step. -/
  | send (id : ℕ)
  /-- `comm_tx_task` takes its next step. -/
  | task (junk : CommTxItem)

/-- **The transmit side**, under any interleaving. -/
def commStep (c : Comm) : CommAction → Option Comm
  | .call args => some { c with calls := c.calls ++ [⟨args, commSendEnter args⟩] }
  | .send id => (c.calls[id]?).bind (commSendStep c id)
  | .task junk => commTxTaskStep c junk

/-! ### What a step can do -/

/-- **Everything a step can do**, with what it found before. -/
inductive CommEffect (c : Comm) : CommAction → Comm → Prop
  | call (args : SendArgs) :
      CommEffect c (.call args) { c with calls := c.calls ++ [⟨args, commSendEnter args⟩] }
  | put {id : ℕ} {call : CommSend} {q : MessageQueue TxSlot (txqCapacity call.args.prio)}
      (hcall : c.calls[id]? = some call) (hpc : call.pc = .put ∨ call.pc = .putAgain)
      (hput : (c.txq call.args.prio).put ⟨call.args.item, id⟩ = some q) :
      CommEffect c (.send id) ((c.setTxq call.args.prio q).setPc id call .release)
  | full {id : ℕ} {call : CommSend} {pc : SendPc} (hcall : c.calls[id]? = some call)
      (hpc : call.pc = .put ∨ call.pc = .putAgain)
      (hfull : (c.txq call.args.prio).items.length = txqCapacity call.args.prio)
      (hnext : pc = .getStale ∧ call.args.prio = .high ∧ call.pc = .put ∨ pc = .returned (-1)) :
      CommEffect c (.send id) (c.setPc id call pc)
  | takeStale {id : ℕ} {call : CommSend} {slot : TxSlot}
      {q : MessageQueue TxSlot (txqCapacity .high)} (hcall : c.calls[id]? = some call)
      (hpc : call.pc = .getStale) (hget : (c.txq .high).get = some (slot, q)) :
      CommEffect c (.send id) ((c.setTxq .high q).setPc id call .putAgain)
  | noStale {id : ℕ} {call : CommSend} (hcall : c.calls[id]? = some call)
      (hpc : call.pc = .getStale) (hempty : (c.txq .high).items = []) :
      CommEffect c (.send id) (c.setPc id call .putAgain)
  | release {id : ℕ} {call : CommSend} (hcall : c.calls[id]? = some call)
      (hpc : call.pc = .release) :
      CommEffect c (.send id)
        ({ c with semTxReady := c.semTxReady.release }.setPc id call (.returned 0))
  | acquire {junk : CommTxItem} {sem : Semaphore 10} (htask : c.task = .acquire)
      (hsem : c.semTxReady.acquire = some sem) :
      CommEffect c (.task junk) { c with semTxReady := sem, task := .get .high }
  | get {junk : CommTxItem} {prio : CommPrio} {slot : TxSlot}
      {q : MessageQueue TxSlot (txqCapacity prio)} (htask : c.task = .get prio)
      (hget : (c.txq prio).get = some (slot, q)) :
      CommEffect c (.task junk)
        { c.setTxq prio q with task := .encode slot.item (some slot.src) }
  | scan {junk : CommTxItem} {prio prio' : CommPrio} (htask : c.task = .get prio)
      (hempty : (c.txq prio).items = [])
      (hnext : prio = .high ∧ prio' = .med ∨ prio = .med ∧ prio' = .low) :
      CommEffect c (.task junk) { c with task := .get prio' }
  | unfilled {junk : CommTxItem} (htask : c.task = .get .low)
      (hempty : (c.txq .low).items = []) :
      CommEffect c (.task junk) { c with task := .encode junk none }
  | transmit {junk item : CommTxItem} {src : Option ℕ} {frame : List UInt8}
      (htask : c.task = .encode item src)
      (hframe : tlvEncode item.tag (some item.value.toList) item.len tlvMaxFrame = .ok frame) :
      CommEffect c (.task junk) { c with task := .acquire, sent := c.sent ++ [⟨frame, item, src⟩] }

theorem commSendStep_effect {c c' : Comm} {id : ℕ} {call : CommSend}
    (hcall : c.calls[id]? = some call) (h : commSendStep c id call = some c') :
    CommEffect c (.send id) c' := by
  rw [commSendStep] at h
  split at h
  · rename_i hpc
    split at h
    · rename_i q hput
      cases h
      exact .put hcall (.inl hpc) hput
    · rename_i hput
      cases h
      refine .full hcall (.inl hpc) (MessageQueue.put_eq_none.1 hput) ?_
      split
      · rename_i hhigh
        exact .inl ⟨rfl, hhigh, hpc⟩
      · exact .inr rfl
  · rename_i hpc
    split at h
    · rename_i hget
      cases h
      exact .takeStale hcall hpc hget
    · rename_i hget
      cases h
      exact .noStale hcall hpc (MessageQueue.get_eq_none.1 hget)
  · rename_i hpc
    split at h
    · rename_i q hput
      cases h
      exact .put hcall (.inr hpc) hput
    · rename_i hput
      cases h
      exact .full hcall (.inr hpc) (MessageQueue.put_eq_none.1 hput) (.inr rfl)
  · rename_i hpc
    cases h
    exact .release hcall hpc
  · cases h

theorem commTxTaskStep_effect {c c' : Comm} {junk : CommTxItem}
    (h : commTxTaskStep c junk = some c') : CommEffect c (.task junk) c' := by
  rw [commTxTaskStep] at h
  split at h
  · rename_i htask
    obtain ⟨sem, hsem, rfl⟩ := Option.map_eq_some_iff.1 h
    exact .acquire htask hsem
  · rename_i prio htask
    split at h
    · rename_i hget
      cases h
      exact .get htask hget
    · rename_i hget
      have hempty := MessageQueue.get_eq_none.1 hget
      cases prio with
      | high => cases h; exact .scan htask hempty (.inl ⟨rfl, rfl⟩)
      | med => cases h; exact .scan htask hempty (.inr ⟨rfl, rfl⟩)
      | low => cases h; exact .unfilled htask hempty
  · rename_i item src htask
    obtain ⟨frame, hframe⟩ := tlvEncode_maxFrame item.tag item.value.toList item.len
    rw [hframe] at h
    cases h
    exact .transmit htask hframe

/-- The step function does nothing that `CommEffect` does not list. -/
theorem commStep_effect {c c' : Comm} {a : CommAction} (h : commStep c a = some c') :
    CommEffect c a c' := by
  cases a with
  | call args => cases h; exact .call args
  | send id =>
    obtain ⟨call, hcall, hstep⟩ := Option.bind_eq_some_iff.1 h
    exact commSendStep_effect hcall hstep
  | task junk => exact commTxTaskStep_effect h

/-! ### What an item encodes to -/

/-- The item that an accepted call fills in encodes to the frame of the call's arguments. -/
theorem tlvEncode_item_of_enters {args : SendArgs} (henters : commSendEnter args = .put)
    (hreadable : args.valueLen.toNat ≤ (args.value.getD []).length) :
    tlvEncode args.item.tag (some args.item.value.toList) args.item.len tlvMaxFrame =
      tlvEncode args.tag args.value args.valueLen tlvMaxFrame := by
  have hchecks : ¬(args.value = none ∧ args.valueLen > 0) ∧ args.valueLen.toNat ≤ 96 := by
    rw [commSendEnter] at henters
    split_ifs at henters with _ hvalue hlen
    exact ⟨hvalue, by simpa [commMaxValue] using hlen⟩
  have htake : args.item.value.toList.take args.valueLen.toNat =
      (args.value.getD []).take args.valueLen.toNat := by
    refine List.ext_getElem (by simp; omega) fun i hi₁ hi₂ ↦ ?_
    have hi : i < args.valueLen.toNat := by
      rw [List.length_take] at hi₂
      omega
    rw [List.getElem_take, List.getElem_take, Vector.getElem_toList]
    simp [SendArgs.item, hi, List.getD_eq_getElem?_getD,
      List.getElem?_eq_getElem (hi.trans_le hreadable)]
  rw [tlvEncode, tlvEncode, if_neg hchecks.1, if_neg (by simp)]
  show (if tlvMaxFrame < _ then _ else _) = _
  simp only [Option.getD_some, show args.item.len = args.valueLen from rfl,
    show args.item.tag = args.tag from rfl, htake]

end SubmarineMonitor
