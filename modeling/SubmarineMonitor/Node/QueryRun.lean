import SubmarineMonitor.Node.Query
import SubmarineMonitor.Node.TxAccounting

/-!
# The answer to a query on the wire

The task that answers a query makes its `comm_send` calls one after another, while `comm_tx_task`
takes the items out at the other end of a queue of four. Nothing makes the first wait for the
second: `comm_send` drops an item that finds the queue full, and the two modules ignore its result.

`query_transmitted` is what holds as long as every call finds a free slot: the frames transmitted
are at any moment a prefix of the answer, every run ends, and a run that cannot go on has
transmitted the whole answer. `query_end_lost` is what happens to four matching records when the
transmitter is late.

## Two tasks and nobody else

The machine has the answering task and the transmitting task, and no third caller of `comm_send`.
The condition of the theorem is about each step (`Roomy`): the call that is about to put its item
finds room. That is a condition on the state before the step, and it says nothing of how the room
comes about; with it an answer may be as long as the card is full.

## Three statements in one

*Only the answer, in order* is safety, and holds at every moment. *The whole answer* is about the
states in which no step that meets the condition is possible. That such a state comes is a measure
that goes down (`QuerySystem.stepsLeft`); without it the second statement could be empty. The
measure counts what is left of each call and of the task, so it does not depend on the contents of
the card.

## What is left out

Time. The code makes all its calls as fast as the card can be read, and the transmitter needs
milliseconds for a frame, so in practice the queue fills up; `query_end_lost` shows the smallest
such run.
-/

open Machine Text

namespace SubmarineMonitor

open Comm (slots_setPc slots_moveTask slots_transmit)

/-! ### The two tasks -/

/-- The transmit side, and the `comm_send` calls the answering task has still to make. -/
structure QuerySystem where
  comm : Comm
  todo : List SendArgs

/-- Which of the two tasks moves next. -/
inductive QueryAction
  | sender
  | task (junk : CommTxItem)

/-- A step: the answering task goes on with its current call, or starts the next one when that call
has returned. Whatever the call returned is ignored. -/
def queryStep (q : QuerySystem) : QueryAction → Option QuerySystem
  | .sender =>
    match commStep q.comm (.send (q.comm.calls.length - 1)) with
    | some c => some { q with comm := c }
    | none =>
      match q.todo with
      | [] => none
      | args :: rest => (commStep q.comm (.call args)).map fun c ↦ ⟨c, rest⟩
  | .task junk => (commStep q.comm (.task junk)).map fun c ↦ { q with comm := c }

/-- `comm_route_frame` for the two queries. -/
def routeQuery (card : SdCard) (f : TlvFrame) : List SendArgs :=
  if f.tag = tlvTagQueryData then logOnFrame card (some f)
  else if f.tag = tlvTagQueryEvents then eventOnFrame card (some f)
  else []

/-- Nothing sent and nothing queued; a query has just been received. -/
def queryStart (todo : List SendArgs) : QuerySystem :=
  ⟨communicationCreate, todo⟩

/-- The call that is about to queue its item finds a free slot. -/
def QuerySystem.Roomy (q : QuerySystem) : QueryAction → Prop
  | .sender => ∀ call ∈ q.comm.calls.getLast?, call.pc = .put →
      (q.comm.txq .low).items.length < txqCapacity .low
  | .task _ => True

instance (q : QuerySystem) (a : QueryAction) : Decidable (QuerySystem.Roomy q a) :=
  match a with
  | .sender => inferInstanceAs (Decidable (∀ _ ∈ _, _ → _))
  | .task _ => inferInstanceAs (Decidable True)

/-- The frame `comm_tx_task` makes of a call's arguments. -/
def SendArgs.frame (args : SendArgs) : Except TlvStatus (List UInt8) :=
  tlvEncode args.tag args.value args.valueLen tlvMaxFrame

/-- What has been transmitted. -/
def QuerySystem.frames (q : QuerySystem) : List (Except TlvStatus (List UInt8)) :=
  q.comm.sent.map fun t ↦ .ok t.frame

/-- The call passes the argument checks, goes to the low-priority queue, and its pointer has that
many bytes behind it. -/
structure SendArgs.Ready (args : SendArgs) : Prop where
  low : args.prio = .low
  enters : commSendEnter args = .put
  readable : args.valueLen.toNat ≤ (args.value.getD []).length

variable {q q' : QuerySystem} {a : QueryAction} {args : SendArgs} {A : List SendArgs}

/-! ### What a step can do -/

/-- A step of the two tasks is a step of the transmit side, and says which. -/
theorem queryStep_cases (h : queryStep q a = some q') :
    (a = .sender ∧ q'.todo = q.todo ∧
      commStep q.comm (.send (q.comm.calls.length - 1)) = some q'.comm) ∨
    (a = .sender ∧ commStep q.comm (.send (q.comm.calls.length - 1)) = none ∧
      ∃ args, q.todo = args :: q'.todo ∧ commStep q.comm (.call args) = some q'.comm) ∨
    (∃ junk, a = .task junk ∧ q'.todo = q.todo ∧ commStep q.comm (.task junk) = some q'.comm) := by
  cases a with
  | sender =>
    rw [queryStep] at h
    split at h
    · rename_i c hc
      cases h
      exact .inl ⟨rfl, rfl, hc⟩
    · rename_i hnone
      split at h
      · cases h
      · rename_i args rest htodo
        obtain ⟨c, hc, rfl⟩ := Option.map_eq_some_iff.1 h
        exact .inr (.inl ⟨rfl, hnone, args, htodo, hc⟩)
  | task junk =>
    obtain ⟨c, hc, rfl⟩ := Option.map_eq_some_iff.1 h
    exact .inr (.inr ⟨junk, rfl, rfl, hc⟩)

/-- A call that has not returned can go on. -/
theorem commSendStep_ne_none {c : Comm} {id : ℕ} {call : CommSend}
    (h : ∀ rc, call.pc ≠ .returned rc) : commSendStep c id call ≠ none := by
  rw [commSendStep]
  split
  · split <;> exact Option.some_ne_none _
  · split <;> exact Option.some_ne_none _
  · split <;> exact Option.some_ne_none _
  · exact Option.some_ne_none _
  · rename_i rc hrc
    exact absurd hrc (h rc)

/-! ### The answer in order -/

/-- The calls are made in order, each returns 0, and their items go through the low-priority queue in
that order. -/
structure QuerySystem.InOrder (A : List SendArgs) (q : QuerySystem) : Prop where
  /-- Nothing is skipped. -/
  calls : q.comm.calls.map CommSend.args ++ q.todo = A
  /-- Only the last call may not have returned, and then it is before its first put or after it. -/
  current : ∃ (done : List CommSend) (cur : Option CommSend),
    q.comm.calls = done ++ cur.toList ∧ (∀ call ∈ done, call.pc = .returned 0) ∧
      ∀ call ∈ cur, call.pc = .put ∨ call.pc = .release
  high : (q.comm.txq .high).items = []
  med : (q.comm.txq .med).items = []
  /-- Every accepted item is transmitted, in the task's hand or queued, in the order of the calls. -/
  items : q.comm.slots.map TxSlot.item =
    (q.comm.calls.filter fun call ↦ call.Accepted).map fun call ↦ call.args.item

theorem inOrder_start (A : List SendArgs) : QuerySystem.InOrder A (queryStart A) :=
  ⟨rfl, ⟨[], none, rfl, nofun, nofun⟩, rfl, rfl, rfl⟩

/-- A call that is about to do something is the current one. -/
theorem QuerySystem.InOrder.last (h : InOrder A q) {call : CommSend}
    (hcall : q.comm.calls[q.comm.calls.length - 1]? = some call)
    (hpc : ∀ rc, call.pc ≠ .returned rc) :
    ∃ done, q.comm.calls = done ++ [call] ∧ (∀ call ∈ done, call.pc = .returned 0) ∧
      (call.pc = .put ∨ call.pc = .release) := by
  obtain ⟨done, cur, hcalls, hdone, hcur⟩ := h.current
  rw [← List.getLast?_eq_getElem?] at hcall
  obtain _ | last := cur
  · rw [hcalls, Option.toList_none, List.append_nil] at hcall
    exact absurd (hdone call (List.mem_of_getLast? hcall)) (hpc 0)
  · rw [hcalls, Option.toList_some, List.getLast?_concat] at hcall
    obtain rfl := Option.some.inj hcall
    exact ⟨done, hcalls, hdone, hcur _ rfl⟩

/-- Where every call has returned, the next one can only start. -/
theorem QuerySystem.InOrder.returned (h : InOrder A q)
    (hnone : commStep q.comm (.send (q.comm.calls.length - 1)) = none) :
    ∀ call ∈ q.comm.calls, call.pc = .returned 0 := by
  obtain ⟨done, cur, hcalls, hdone, hcur⟩ := h.current
  obtain _ | last := cur
  · rw [hcalls]
    simpa using hdone
  · refine absurd hnone ?_
    have hlast : q.comm.calls[q.comm.calls.length - 1]? = some last := by
      rw [← List.getLast?_eq_getElem?, hcalls, Option.toList_some, List.getLast?_concat]
    show (q.comm.calls[q.comm.calls.length - 1]?).bind _ ≠ none
    rw [hlast, Option.bind_some]
    refine commSendStep_ne_none fun rc hrc ↦ ?_
    rcases hcur last rfl with hpc | hpc <;> rw [hpc] at hrc <;> cases hrc

theorem QuerySystem.InOrder.mem_of_calls (h : InOrder A q) {call : CommSend}
    (hmem : call ∈ q.comm.calls) : call.args ∈ A := by
  rw [← h.calls]
  exact List.mem_append_left _ (List.mem_map_of_mem hmem)

theorem slots_put_low {c : Comm} {prio : CommPrio} {slot : TxSlot}
    {queue : MessageQueue TxSlot (txqCapacity prio)} (hprio : prio = .low)
    (hq : queue.items = (c.txq prio).items ++ [slot]) :
    (c.setTxq prio queue).slots = c.slots ++ [slot] := by
  subst hprio
  simp [Comm.slots, Comm.setTxq, hq]

theorem items_setTxq_of_ne {c : Comm} {prio prio' : CommPrio}
    {queue : MessageQueue TxSlot (txqCapacity prio)} (hne : prio' ≠ prio) :
    ((c.setTxq prio queue).txq prio').items = (c.txq prio').items := by
  show (Function.update c.txq prio queue prio').items = _
  rw [Function.update_of_ne hne]

/-- The current call moves on. -/
theorem QuerySystem.InOrder.of_last (h : InOrder A q) {done : List CommSend} {call : CommSend}
    {pc : SendPc} {c : Comm} (hcalls : q.comm.calls = done ++ [call])
    (hdone : ∀ call ∈ done, call.pc = .returned 0)
    (hpc : pc = .release ∨ pc = .returned 0)
    (hcalls' : c.calls = q.comm.calls.set (q.comm.calls.length - 1) { call with pc := pc })
    (hhigh : (c.txq .high).items = []) (hmed : (c.txq .med).items = [])
    (hslots : c.slots.map TxSlot.item = q.comm.slots.map TxSlot.item ++
      if call.Accepted then [] else [call.args.item]) : InOrder A ⟨c, q.todo⟩ := by
  have hset : c.calls = done ++ [{ call with pc := pc }] := by
    rw [hcalls', hcalls]
    simp
  have hacc : CommSend.Accepted { call with pc := pc } := hpc
  constructor
  · rw [← h.calls, hcalls]
    simp [hset]
  · rcases hpc with rfl | rfl
    · refine ⟨done, some { call with pc := .release }, hset, hdone, ?_⟩
      rintro _ ⟨⟩
      exact .inr rfl
    · refine ⟨done ++ [{ call with pc := .returned 0 }], none, by simp [hset], ?_, nofun⟩
      intro call' hmem
      rcases List.mem_append.1 hmem with hmem | hmem
      · exact hdone call' hmem
      · rw [List.mem_singleton.1 hmem]
  · exact hhigh
  · exact hmed
  · -- an accepted call has its item in circulation already, and puts none a second time
    show c.slots.map TxSlot.item = _
    rw [hslots, h.items, hcalls]
    show _ = ((c.calls.filter _).map _)
    rw [hset]
    by_cases hcall : call.Accepted <;> simp [hcall, hacc]

/-- A step of the current call. -/
theorem QuerySystem.InOrder.send (h : InOrder A q) (hA : ∀ args ∈ A, args.Ready)
    (hroom : Roomy q .sender) {c : Comm}
    (hstep : commStep q.comm (.send (q.comm.calls.length - 1)) = some c) :
    InOrder A ⟨c, q.todo⟩ := by
  generalize hid : q.comm.calls.length - 1 = id at hstep
  cases commStep_effect hstep with
  | @put id call queue hcall hpc hput =>
    obtain ⟨done, hcalls, hdone, hcur⟩ := h.last (hid ▸ hcall) (by rcases hpc with e | e <;> simp [e])
    have hlow : call.args.prio = .low := (hA _ (h.mem_of_calls (by simp [hcalls]))).low
    refine h.of_last hcalls hdone (.inl rfl) (hid ▸ rfl) ?_ ?_ ?_
    · rw [← h.high]
      exact items_setTxq_of_ne (by simp [hlow])
    · rw [← h.med]
      exact items_setTxq_of_ne (by simp [hlow])
    · have hacc : ¬call.Accepted := by rcases hpc with e | e <;> simp [CommSend.Accepted, e]
      rw [slots_setPc, slots_put_low hlow (MessageQueue.put_eq_some hput).1, List.map_append,
        if_neg hacc]
      rfl
  | @full id call pc hcall hpc hfull _ =>
    -- the guard excludes a full queue
    obtain ⟨done, hcalls, -, hcur⟩ := h.last (hid ▸ hcall) (by rcases hpc with e | e <;> simp [e])
    have hlow : call.args.prio = .low := (hA _ (h.mem_of_calls (by simp [hcalls]))).low
    have hput : call.pc = .put := by
      rcases hcur with hcur | hcur
      · exact hcur
      · rcases hpc with e | e <;> rw [e] at hcur <;> cases hcur
    have hlt := hroom call (by simp [hcalls]) hput
    rw [hlow] at hfull
    omega
  | takeStale hcall hpc _ =>
    obtain ⟨-, -, -, hcur⟩ := h.last (hid ▸ hcall) (by simp [hpc])
    simp [hpc] at hcur
  | noStale hcall hpc _ =>
    obtain ⟨-, -, -, hcur⟩ := h.last (hid ▸ hcall) (by simp [hpc])
    simp [hpc] at hcur
  | @release id call hcall hpc =>
    obtain ⟨done, hcalls, hdone, -⟩ := h.last (hid ▸ hcall) (by simp [hpc])
    refine h.of_last hcalls hdone (.inr rfl) (hid ▸ rfl) h.high h.med ?_
    rw [if_pos (show call.Accepted from .inl hpc), List.append_nil]
    rfl

/-- The next call starts. -/
theorem QuerySystem.InOrder.start (h : InOrder A q) (hA : ∀ args ∈ A, args.Ready)
    {rest : List SendArgs}
    (htodo : q.todo = args :: rest) (hdone : ∀ call ∈ q.comm.calls, call.pc = .returned 0) :
    InOrder A ⟨{ q.comm with calls := q.comm.calls ++ [⟨args, commSendEnter args⟩] }, rest⟩ := by
  have hready : args.Ready := by
    refine hA args ?_
    rw [← h.calls, htodo]
    simp
  -- a call that has just been entered is not accepted yet
  rw [hready.enters]
  refine ⟨?_, ⟨q.comm.calls, some ⟨args, .put⟩, rfl, hdone, ?_⟩, h.high, h.med, ?_⟩
  · rw [← h.calls, htodo]
    simp
  · rintro _ ⟨⟩
    exact .inl rfl
  · show q.comm.slots.map TxSlot.item = _
    rw [h.items]
    simp [CommSend.Accepted]

/-- A step of the transmitter moves an item on and leaves the order alone. -/
theorem QuerySystem.InOrder.task (h : InOrder A q) {junk : CommTxItem} {c : Comm}
    (hstep : commStep q.comm (.task junk) = some c) : InOrder A ⟨c, q.todo⟩ := by
  obtain ⟨hcalls, hhigh, hmed, hslots⟩ : c.calls = q.comm.calls ∧
      (c.txq .high).items = [] ∧ (c.txq .med).items = [] ∧ c.slots = q.comm.slots := by
    cases commStep_effect hstep with
    | acquire htask _ => exact ⟨rfl, h.high, h.med, slots_moveTask (by simp [htask])⟩
    | @get junk prio slot queue htask hget =>
      have hitems := MessageQueue.get_eq_some hget
      have hlow : prio = .low := by
        cases prio
        · exact absurd (hitems.symm.trans h.high) (List.cons_ne_nil _ _)
        · exact absurd (hitems.symm.trans h.med) (List.cons_ne_nil _ _)
        · rfl
      subst hlow
      refine ⟨rfl, h.high, h.med, ?_⟩
      simp [Comm.slots, Comm.setTxq, htask, hitems, h.high, h.med]
    | scan htask _ _ => exact ⟨rfl, h.high, h.med, slots_moveTask (by simp [htask])⟩
    | unfilled htask _ => exact ⟨rfl, h.high, h.med, slots_moveTask (by simp [htask])⟩
    | transmit htask _ => exact ⟨rfl, h.high, h.med, slots_transmit htask⟩
  refine ⟨?_, ?_, hhigh, hmed, ?_⟩
  · rw [← h.calls, ← hcalls]
  · rw [hcalls]
    exact h.current
  · rw [hslots, hcalls]
    exact h.items

/-- **The order is kept** by every step at which the queue has room. -/
theorem QuerySystem.InOrder.step (h : InOrder A q) (hA : ∀ args ∈ A, args.Ready) (hroom : Roomy q a)
    (hstep : queryStep q a = some q') : InOrder A q' := by
  obtain ⟨c, todo⟩ := q'
  rcases queryStep_cases hstep with ⟨rfl, rfl, hc⟩ | ⟨-, hnone, args, htodo, hc⟩ | ⟨junk, -, rfl, hc⟩
  · exact h.send hA hroom hc
  · obtain rfl := Option.some.inj hc
    exact h.start hA htodo (h.returned hnone)
  · exact h.task hc

/-! ### From items to frames -/

/-- The item a call fills in encodes to the call's frame. -/
theorem tlvEncode_item (h : args.Ready) :
    tlvEncode args.item.tag (some args.item.value.toList) args.item.len tlvMaxFrame = args.frame :=
  tlvEncode_item_of_enters h.enters h.readable

/-- The invariant of a query's run. -/
structure QuerySystem.Answering (A : List SendArgs) (q : QuerySystem) : Prop where
  order : InOrder A q
  provenance : Comm.Provenance q.comm
  matched : Comm.Matched q.comm

theorem answering_start (A : List SendArgs) : QuerySystem.Answering A (queryStart A) :=
  ⟨inOrder_start A, Comm.provenance_create, Comm.matched_create⟩

theorem QuerySystem.Answering.step (h : Answering A q) (hA : ∀ args ∈ A, args.Ready)
    (hroom : Roomy q a)
    (hstep : queryStep q a = some q') : Answering A q' := by
  refine ⟨h.order.step hA hroom hstep, ?_, ?_⟩
  all_goals rcases queryStep_cases hstep with ⟨-, -, hc⟩ | ⟨-, -, args, -, hc⟩ | ⟨junk, -, -, hc⟩
  · exact h.provenance.step hc
  · exact h.provenance.step hc
  · exact h.provenance.step hc
  · refine h.matched.step ?_ hc
    -- the low queue has no mailbox replacement
    rintro ⟨hpc, -⟩
    obtain ⟨call, hcall, hpc⟩ := Option.map_eq_some_iff.1 hpc
    obtain ⟨-, -, -, hcur⟩ := h.order.last hcall (by simp [hpc])
    simp [hpc] at hcur
  · exact h.matched.step (a := .call args) not_false hc
  · exact h.matched.step (a := .task junk) not_false hc

/-- Everything transmitted came out of a queue. -/
theorem QuerySystem.Answering.sent_items (h : Answering A q) :
    q.comm.sent.map Transmission.item =
      (q.comm.sent.filterMap Transmission.slot?).map TxSlot.item := by
  rw [List.map_filterMap, ← List.filterMap_eq_map]
  refine List.filterMap_congr fun t ht ↦ ?_
  obtain ⟨id, hid⟩ := Option.ne_none_iff_exists'.1 (h.matched.sent t ht)
  simp [Transmission.slot?, hid]

/-- What has been transmitted is the beginning of what has been accepted. -/
theorem QuerySystem.Answering.sent_prefix (h : Answering A q) :
    q.comm.sent.map Transmission.item <+:
      (q.comm.calls.filter fun call ↦ call.Accepted).map fun call ↦ call.args.item := by
  rw [h.sent_items, ← h.order.items]
  refine List.IsPrefix.map _ ?_
  simp only [Comm.slots, List.append_assoc]
  exact List.prefix_append _ _

/-- The frames transmitted are those of the items transmitted. -/
theorem QuerySystem.Answering.frames_eq (h : Answering A q) :
    q.frames = (q.comm.sent.map Transmission.item).map fun item ↦
      tlvEncode item.tag (some item.value.toList) item.len tlvMaxFrame := by
  rw [QuerySystem.frames, List.map_map]
  exact List.map_congr_left fun t ht ↦ (h.provenance.frames t ht).symm

theorem map_frame (hA : ∀ args ∈ A, args.Ready) :
    A.map SendArgs.frame = (A.map SendArgs.item).map fun item ↦
      tlvEncode item.tag (some item.value.toList) item.len tlvMaxFrame := by
  rw [List.map_map]
  exact List.map_congr_left fun args hargs ↦ (tlvEncode_item (hA args hargs)).symm

/-- **Only the answer, and in order.** -/
theorem QuerySystem.Answering.frames_prefix (h : Answering A q) (hA : ∀ args ∈ A, args.Ready) :
    q.frames <+: A.map SendArgs.frame := by
  -- only the last call may be missing from the accepted ones
  have hcalls : (q.comm.calls.filter fun call ↦ call.Accepted) <+: q.comm.calls := by
    obtain ⟨done, cur, hcalls, hdone, -⟩ := h.order.current
    rw [hcalls, List.filter_append, List.filter_eq_self.2 fun call hcall ↦ ?_,
      List.prefix_append_right_inj]
    · obtain _ | call := cur
      · exact List.prefix_rfl
      · rw [Option.toList_some, List.filter_singleton]
        cases decide call.Accepted
        · exact List.nil_prefix
        · exact List.prefix_rfl
    · simp [CommSend.Accepted, hdone call hcall]
  rw [h.frames_eq, map_frame hA]
  refine List.IsPrefix.map _ (h.sent_prefix.trans ?_)
  rw [← h.order.calls, List.map_append, List.map_map]
  exact (hcalls.map _).trans (List.prefix_append _ _)

/-- Where the transmitter cannot move, it waits for a token and there is none. -/
theorem task_waits (hend : ∀ a, QuerySystem.Roomy q a → queryStep q a = none) :
    q.comm.task = .acquire ∧ q.comm.semTxReady.count = 0 := by
  have hnone : commTxTaskStep q.comm queryEndArgs.item = none :=
    Option.map_eq_none_iff.1 (hend (.task queryEndArgs.item) trivial)
  rw [commTxTaskStep] at hnone
  split at hnone
  · rename_i htask
    exact ⟨htask, Semaphore.acquire_eq_none.1 (Option.map_eq_none_iff.1 hnone)⟩
  · split at hnone
    · cases hnone
    · split at hnone <;> cases hnone
  · split at hnone <;> cases hnone

/-- With no token anywhere, nothing is queued. -/
theorem Comm.Matched.low_empty {c : Comm} (h : c.Matched) (htask : c.task = .acquire)
    (hsem : c.semTxReady.count = 0) (hreleasing : c.releasing = 0) : (c.txq .low).items = [] := by
  have hholding : c.holding = 0 := Comm.holding_acquire htask
  have hcount := h.count
  rw [Comm.queued] at hcount
  exact List.length_eq_zero_iff.1 (by omega)

theorem queryStep_sender_ne_none
    (h : commStep q.comm (.send (q.comm.calls.length - 1)) ≠ none) : queryStep q .sender ≠ none := by
  rw [queryStep]
  split
  · exact Option.some_ne_none _
  · rename_i hnone
    exact absurd hnone h

/-- Where neither task can move, or only by putting into a full queue, every call has been made and
has returned 0. -/
theorem QuerySystem.Answering.all_returned (h : Answering A q)
    (hend : ∀ a, Roomy q a → queryStep q a = none) :
    (∀ call ∈ q.comm.calls, call.pc = .returned 0) ∧ q.todo = [] := by
  obtain ⟨htask, hsem⟩ := task_waits hend
  -- is there a call that could go on?
  by_cases hnone : commStep q.comm (.send (q.comm.calls.length - 1)) = none
  · have hreturned := h.order.returned hnone
    have hroom : Roomy q .sender := by
      intro call hcall hput
      rw [hreturned call (List.mem_of_getLast? hcall)] at hput
      cases hput
    have hstep := hend .sender hroom
    rw [queryStep, hnone] at hstep
    refine ⟨hreturned, ?_⟩
    rcases htodo : q.todo with _ | ⟨args, rest⟩
    · rfl
    · rw [htodo] at hstep
      cases hstep
  · -- the current call could go on, and with no token left the queue is empty
    refine absurd (hend .sender ?_) (queryStep_sender_ne_none hnone)
    intro call hcall hput
    have hlast : q.comm.calls[q.comm.calls.length - 1]? = some call := by
      rw [← List.getLast?_eq_getElem?, hcall]
    obtain ⟨done, hcalls, hdone, -⟩ := h.order.last hlast (by simp [hput])
    have hreleasing : q.comm.releasing = 0 := by
      rw [Comm.releasing, hcalls, List.countP_eq_zero]
      intro call' hmem
      rcases List.mem_append.1 hmem with hmem | hmem
      · simp [hdone call' hmem]
      · simp [List.mem_singleton.1 hmem, hput]
    rw [h.matched.low_empty htask hsem hreleasing]
    decide

/-- **The whole answer**, where neither task can move or only by putting into a full queue. -/
theorem QuerySystem.Answering.frames_complete (h : Answering A q) (hA : ∀ args ∈ A, args.Ready)
    (hend : ∀ a, Roomy q a → queryStep q a = none) : q.frames = A.map SendArgs.frame := by
  obtain ⟨htask, hsem⟩ := task_waits hend
  obtain ⟨hreturned, htodo⟩ := h.all_returned hend
  have hreleasing : q.comm.releasing = 0 := by
    rw [Comm.releasing, List.countP_eq_zero]
    intro call hcall
    simp [hreturned call hcall]
  have hlow := h.matched.low_empty htask hsem hreleasing
  have hslots : q.comm.slots = q.comm.sent.filterMap Transmission.slot? := by
    simp [Comm.slots, htask, h.order.high, h.order.med, hlow]
  have hall : (q.comm.calls.filter fun call ↦ call.Accepted) = q.comm.calls :=
    List.filter_eq_self.2 fun call hcall ↦ by simp [CommSend.Accepted, hreturned call hcall]
  have hcalls := h.order.calls
  rw [htodo, List.append_nil] at hcalls
  rw [h.frames_eq, map_frame hA, h.sent_items, ← hslots, h.order.items, hall, ← hcalls, List.map_map,
    List.map_map, List.map_map]
  rfl

/-! ### Every run ends -/

/-- No more than this many steps are left to a call and to the token it rings the doorbell with. -/
def SendPc.stepsLeft : SendPc → ℕ
  | .put => 9
  | .getStale => 8
  | .putAgain => 7
  | .release => 6
  | .returned _ => 0

/-- No more than this many steps until the task waits again. -/
def TxPc.stepsLeft : TxPc → ℕ
  | .get .high => 4
  | .get .med => 3
  | .get .low => 2
  | .encode _ _ => 1
  | .acquire => 0

/-- A bound on the steps left to the transmit side if no further call is made. -/
def Comm.stepsLeft (c : Comm) : ℕ :=
  (c.calls.map fun call ↦ call.pc.stepsLeft).sum + 5 * c.semTxReady.count + c.task.stepsLeft

/-- A bound on the steps left to the two tasks. -/
def QuerySystem.stepsLeft (q : QuerySystem) : ℕ :=
  10 * q.todo.length + q.comm.stepsLeft

theorem sum_map_set {α : Type} (f : α → ℕ) {l : List α} {i : ℕ} {x : α} (h : l[i]? = some x) (y : α) :
    ((l.set i y).map f).sum + f x = (l.map f).sum + f y := by
  induction l generalizing i with
  | nil => cases h
  | cons z l ih =>
    obtain _ | i := i
    · obtain rfl : z = x := Option.some.inj h
      simp only [List.set_cons_zero, List.map_cons, List.sum_cons]
      omega
    · have := ih h
      simp only [List.set_cons_succ, List.map_cons, List.sum_cons]
      omega

theorem stepsLeft_setPc {c : Comm} {id : ℕ} {call : CommSend} (hcall : c.calls[id]? = some call)
    (pc : SendPc) :
    (c.setPc id call pc).stepsLeft + call.pc.stepsLeft = c.stepsLeft + pc.stepsLeft := by
  have hsum := sum_map_set (fun call ↦ call.pc.stepsLeft) hcall { call with pc := pc }
  simp only [Comm.stepsLeft, Comm.setPc] at hsum ⊢
  omega

theorem stepsLeft_release (sem : Semaphore 10) : sem.release.count ≤ sem.count + 1 := by
  rw [Semaphore.release]
  split
  · exact le_rfl
  · exact Nat.le_succ _

/-- Moving a call or the task on leaves fewer steps. -/
theorem stepsLeft_lt {c c' : Comm} {a : CommAction} (h : commStep c a = some c')
    (ha : ∀ args, a ≠ .call args) : c'.stepsLeft < c.stepsLeft := by
  cases commStep_effect h with
  | call args => exact absurd rfl (ha args)
  | @put id call queue hcall hpc _ =>
    have hleft := stepsLeft_setPc (c := c.setTxq call.args.prio queue) hcall .release
    have hsame : (c.setTxq call.args.prio queue).stepsLeft = c.stepsLeft := rfl
    rcases hpc with hpc | hpc
    all_goals
      rw [hpc] at hleft
      simp only [SendPc.stepsLeft] at hleft
      omega
  | @full id call pc hcall hpc _ hnext =>
    have hleft := stepsLeft_setPc hcall pc
    rcases hnext with ⟨rfl, -, hput⟩ | rfl
    · rw [hput] at hleft
      simp only [SendPc.stepsLeft] at hleft
      omega
    · rcases hpc with hpc | hpc
      all_goals
        rw [hpc] at hleft
        simp only [SendPc.stepsLeft] at hleft
        omega
  | @takeStale id call slot queue hcall hpc _ =>
    have hleft := stepsLeft_setPc (c := c.setTxq .high queue) hcall .putAgain
    have hsame : (c.setTxq .high queue).stepsLeft = c.stepsLeft := rfl
    rw [hpc] at hleft
    simp only [SendPc.stepsLeft] at hleft
    omega
  | @noStale id call hcall hpc _ =>
    have hleft := stepsLeft_setPc hcall .putAgain
    rw [hpc] at hleft
    simp only [SendPc.stepsLeft] at hleft
    omega
  | @release id call hcall hpc =>
    -- six steps of the call become five of its token
    have hleft := stepsLeft_setPc (c := { c with semTxReady := c.semTxReady.release }) hcall
      (.returned 0)
    have hsem := stepsLeft_release c.semTxReady
    rw [hpc] at hleft
    simp only [SendPc.stepsLeft, Comm.stepsLeft] at hleft ⊢
    omega
  | acquire htask hsem =>
    have htoken := Semaphore.acquire_eq_some hsem
    simp only [Comm.stepsLeft, htask, TxPc.stepsLeft, htoken]
    omega
  | @get junk prio slot queue htask _ =>
    show (c.calls.map _).sum + 5 * c.semTxReady.count + 1 < _
    rw [Comm.stepsLeft, htask]
    cases prio <;> simp [TxPc.stepsLeft]
  | scan htask _ hnext =>
    rw [Comm.stepsLeft, Comm.stepsLeft, htask]
    rcases hnext with ⟨rfl, rfl⟩ | ⟨rfl, rfl⟩ <;> simp [TxPc.stepsLeft]
  | unfilled htask _ =>
    rw [Comm.stepsLeft, Comm.stepsLeft, htask]
    simp [TxPc.stepsLeft]
  | transmit htask _ =>
    rw [Comm.stepsLeft, Comm.stepsLeft, htask]
    simp [TxPc.stepsLeft]

theorem queryStep_stepsLeft (h : queryStep q a = some q') : q'.stepsLeft < q.stepsLeft := by
  simp only [QuerySystem.stepsLeft]
  rcases queryStep_cases h with ⟨-, htodo, hc⟩ | ⟨-, -, args, htodo, hc⟩ | ⟨junk, -, htodo, hc⟩
  · rw [htodo]
    exact Nat.add_lt_add_left (stepsLeft_lt hc fun _ ↦ CommAction.noConfusion) _
  · -- a call starts with at most nine steps left, one less than while it was still to come
    have hcalls := Option.some.inj hc
    have henter : (commSendEnter args).stepsLeft ≤ 9 := by
      rw [commSendEnter]
      split_ifs <;> simp [SendPc.stepsLeft]
    have hleft : q'.comm.stepsLeft = q.comm.stepsLeft + (commSendEnter args).stepsLeft := by
      rw [← hcalls]
      simp only [Comm.stepsLeft, List.map_append, List.map_cons, List.map_nil, List.sum_append,
        List.sum_cons, List.sum_nil]
      omega
    rw [htodo, List.length_cons, hleft]
    omega
  · rw [htodo]
    exact Nat.add_lt_add_left (stepsLeft_lt hc fun _ ↦ CommAction.noConfusion) _

/-! ### The answer of a query -/

/-- The card holds these measurement lines, slot by slot, and these event lines. -/
structure CardHolds (card : SdCard) (logs : UInt8 → List StoredLine) (events : List StoredLine) :
    Prop where
  logs : ∀ slot ∈ logSlots, Stores (card (logFilename slot)) (logs slot)
  events : Stores (card eventsFilename) events

/-- The lines a query searches, in file order. -/
def searchedLines (tag : UInt8) (logs : UInt8 → List StoredLine) (events : List StoredLine) :
    List StoredLine :=
  if tag = tlvTagQueryData then logSlots.flatMap logs else events

theorem routeQuery_eq {card : SdCard} {logs : UInt8 → List StoredLine} {events : List StoredLine}
    {r : QueryRange} {f : TlvFrame} (hcard : CardHolds card logs events) (hf : r.CarriedBy f)
    (htag : f.tag = tlvTagQueryData ∨ f.tag = tlvTagQueryEvents) :
    routeQuery card f = queryAnswer (searchedLines f.tag logs events) r := by
  rw [routeQuery, searchedLines]
  split_ifs with hdata hevents
  · exact logOnFrame_eq hcard.logs hf
  · exact eventOnFrame_eq hcard.events hf
  · exact absurd htag (not_or.2 ⟨hdata, hevents⟩)

/-- The calls of an answer pass the argument checks if no record is too long for a frame. -/
theorem ready_queryAnswer {lines : List StoredLine} {r : QueryRange}
    (hshort : ∀ l ∈ lines, l.InRange r → l.text.length ≤ commMaxValue) :
    ∀ args ∈ queryAnswer lines r, args.Ready := by
  intro args hargs
  rcases List.mem_append.1 hargs with hargs | hargs
  · obtain ⟨l, hl, rfl⟩ := List.mem_map.1 hargs
    have hlen := hshort l (List.mem_of_mem_filter hl) (by simpa using (List.mem_filter.1 hl).2)
    have htoNat : l.recordArgs.valueLen.toNat = l.text.length := by
      show l.text.length.toUInt8.toNat = _
      rw [commMaxValue] at hlen
      rw [Nat.toUInt8_eq, UInt8.toNat_ofNat', Nat.mod_eq_of_lt (by omega)]
    refine ⟨show commPriorityForTag tlvTagQueryRecord = .low by decide, ?_, htoNat.le⟩
    rw [commSendEnter, if_neg (by simp [StoredLine.recordArgs]),
      if_neg (by simp [StoredLine.recordArgs]), if_neg (by omega)]
  · obtain rfl := List.mem_singleton.1 hargs
    exact ⟨by decide, by decide, by decide⟩

/-- **The answer to a query**, in every run in which each call finds a free slot, if no matching
line is longer than a frame can carry: the frames transmitted are at any moment a prefix of one
record for each matching line and one end, all of them are transmitted when nothing more can happen,
and that happens after a bounded number of steps. -/
theorem query_transmitted {card : SdCard} {logs : UInt8 → List StoredLine}
    {events : List StoredLine} {r : QueryRange} {f : TlvFrame} {q : QuerySystem}
    (hcard : CardHolds card logs events) (hf : r.CarriedBy f)
    (htag : f.tag = tlvTagQueryData ∨ f.tag = tlvTagQueryEvents)
    (hshort : ∀ l ∈ searchedLines f.tag logs events, l.InRange r → l.text.length ≤ commMaxValue)
    (h : Reaches queryStep QuerySystem.Roomy (queryStart (routeQuery card f)) q) :
    let answer := queryAnswer (searchedLines f.tag logs events) r
    q.frames <+: answer.map SendArgs.frame ∧
      ((∀ a, QuerySystem.Roomy q a → queryStep q a = none) → q.frames = answer.map SendArgs.frame) ∧
      ∀ as q', exec queryStep q as = some q' → as.length ≤ 10 * answer.length := by
  intro answer
  rw [routeQuery_eq hcard hf htag] at h
  have hA : ∀ args ∈ answer, args.Ready := ready_queryAnswer hshort
  have hanswering : QuerySystem.Answering answer q :=
    h.invariant (answering_start _) fun h hroom hstep ↦ h.step hA hroom hstep
  have hleft : q.stepsLeft ≤ 10 * answer.length :=
    h.invariant (I := fun q ↦ q.stepsLeft ≤ 10 * answer.length) le_rfl fun hle _ hstep ↦
      (queryStep_stepsLeft hstep).le.trans hle
  refine ⟨hanswering.frames_prefix hA, hanswering.frames_complete hA, fun as q' hexec ↦ ?_⟩
  exact (length_le_of_exec queryStep_stepsLeft hexec).trans hleft

/-! ### A record, and four -/

/-- Nothing is left to do for either task. -/
def QuerySystem.Settled (q : QuerySystem) : Prop :=
  q.todo = [] ∧ (∀ call ∈ q.comm.calls.getLast?, call.pc = .returned 0 ∨ call.pc = .returned (-1)) ∧
    q.comm.task = .acquire ∧ q.comm.semTxReady.count = 0

instance (q : QuerySystem) : Decidable (QuerySystem.Settled q) :=
  inferInstanceAs (Decidable (_ ∧ _ ∧ _ ∧ _))

theorem QuerySystem.Settled.quiescent (h : Settled q) : Quiescent queryStep q := by
  obtain ⟨htodo, hlast, htask, hsem⟩ := h
  have hsend : commStep q.comm (.send (q.comm.calls.length - 1)) = none := by
    refine Option.bind_eq_none_iff.2 fun call hcall ↦ ?_
    rw [← List.getLast?_eq_getElem?] at hcall
    rcases hlast call hcall with hpc | hpc <;> rw [commSendStep, hpc]
  intro a
  cases a with
  | sender => rw [queryStep, hsend, htodo]
  | task junk =>
    refine Option.map_eq_none_iff.2 ?_
    show commTxTaskStep q.comm junk = none
    rw [commTxTaskStep, htask, Semaphore.acquire_eq_none.2 hsem]
    rfl

/-- The first second of a year. -/
def newYear : Stamp :=
  ⟨26, 1, 1, 0, 0, 0⟩

def markLine : StoredLine :=
  ⟨newYear, ascii "mark", by decide, isText_of_printable (by decide), by decide⟩

/-- A card with that event line so many times and no measurements. -/
def markCard (n : ℕ) : SdCard := fun filename ↦
  if filename = eventsFilename then
    some ((List.replicate n markLine).flatMap fun l ↦ crlfLine l.text)
  else none

def newYearQuery : QueryRange :=
  ⟨newYear, newYear, by decide, by decide⟩

/-- The request for the events of that second. -/
def newYearRequest : TlvFrame :=
  ⟨tlvTagQueryEvents, 12, some newYearQuery.payload⟩

theorem cardHolds_markCard (n : ℕ) :
    CardHolds (markCard n) (fun _ ↦ []) (List.replicate n markLine) := by
  have hnames : ∀ slot ∈ logSlots, logFilename slot ≠ eventsFilename :=
    List.forall_iff_forall_mem.1 (by decide)
  refine ⟨fun slot hslot ↦ ?_, ?_⟩
  · rw [Stores, markCard, if_neg (hnames slot hslot)]
    rfl
  · rw [Stores, markCard, if_pos rfl]
    rfl

theorem newYearRequest_carriedBy : newYearQuery.CarriedBy newYearRequest :=
  ⟨rfl, rfl⟩

/-- One matching event: its record and the end are transmitted. -/
theorem query_transmitted_newYear :
    ∃ q, Reaches queryStep QuerySystem.Roomy
        (queryStart (routeQuery (markCard 1) newYearRequest)) q ∧
      q.frames = [markLine.recordArgs.frame, queryEndArgs.frame] := by
  have hrun : ((exec (guarded queryStep QuerySystem.Roomy)
      (queryStart (routeQuery (markCard 1) newYearRequest))
      (List.replicate 6 .sender ++ List.replicate 10 (.task queryEndArgs.item))).map
        fun q ↦ decide q.Settled) = some true := by
    decide +kernel
  obtain ⟨q, hexec, hsettled⟩ := Option.map_eq_some_iff.1 hrun
  have hquiescent := (of_decide_eq_true hsettled).quiescent
  refine ⟨q, reaches_of_exec hexec, ?_⟩
  have hall := (query_transmitted (cardHolds_markCard 1) newYearRequest_carriedBy (.inr rfl)
    (by decide +kernel) (reaches_of_exec hexec)).2.1 fun a _ ↦ hquiescent a
  rw [hall]
  decide +kernel

/-- **Four matching events and a late transmitter lose the end.** The four records fill the queue,
the `comm_send` of the end is dropped and its result ignored, and nothing comes after the records. -/
theorem query_end_lost :
    CardHolds (markCard 4) (fun _ ↦ []) (List.replicate 4 markLine) ∧
      newYearQuery.CarriedBy newYearRequest ∧
      ∃ q, exec queryStep (queryStart (routeQuery (markCard 4) newYearRequest))
          (List.replicate 14 .sender ++ List.replicate 20 (.task queryEndArgs.item)) = some q ∧
        Quiescent queryStep q ∧ q.frames = List.replicate 4 markLine.recordArgs.frame ∧
        q.frames ≠ (queryAnswer (List.replicate 4 markLine) newYearQuery).map SendArgs.frame := by
  have hrun : ((exec queryStep (queryStart (routeQuery (markCard 4) newYearRequest))
      (List.replicate 14 .sender ++ List.replicate 20 (.task queryEndArgs.item))).map fun q ↦
        decide (q.Settled ∧ q.frames = List.replicate 4 markLine.recordArgs.frame)) =
      some true := by
    decide +kernel
  obtain ⟨q, hexec, hsettled⟩ := Option.map_eq_some_iff.1 hrun
  obtain ⟨hsettled, hframes⟩ := of_decide_eq_true hsettled
  refine ⟨cardHolds_markCard 4, newYearRequest_carriedBy, q, hexec, hsettled.quiescent, hframes, ?_⟩
  rw [hframes]
  intro h
  exact absurd (congrArg List.length h) (by decide +kernel)

end SubmarineMonitor
