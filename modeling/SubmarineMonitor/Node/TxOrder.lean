import SubmarineMonitor.Node.TxDrain

/-!
# The order on the wire

Accepted messages are put into one of three queues, by their tag, and one task takes them out. What
may be relied on about their order depends on the queue.

* An event, a reply, a record: the messages of one class are transmitted in the order in which their
  puts took effect, none of them is left out, and the rest of them is still waiting (`fifo`).
* A keep-alive: a later one may take the place of an earlier one, so some are left out, but the order
  is kept (`mailbox`), and unless a `comm_send` is just about to replace it, the newest is not among
  those left out (`fresh`).
* Neither of them: the token of a replaced keep-alive stays behind, and wakes the task up when all
  three queues are empty. The task then transmits its local `item`, which nobody filled in. There
  are at most as many of these frames as keep-alives were replaced (`Spent`).

## Main results

`wire_order` is this for every interleaving of any number of callers with the task. A history
variable, the log of the puts that took effect, says in which order they did. A put takes effect
within `osMessageQueuePut`, so the order is not that of the calls to `comm_send`: a call may be
overtaken between its checks and its put.

`keepAlive_overtakes` is what the priority amounts to: as long as nobody takes a keep-alive out of
the mailbox to replace it, at most one frame is transmitted before the one that waits there. One is
the best there is, since the task may have taken another item already, or may have looked into the
mailbox just before.

## What the order is not

The three classes are not ordered among each other beyond that. The two lower ones can starve: with
an acknowledgement put for every one transmitted no record ever leaves, and nothing here says that
it does (`Node.TxDrain` says it for a system that falls quiet).
-/

open Machine

namespace SubmarineMonitor

/-- The class an item belongs to. -/
def TxSlot.prio (slot : TxSlot) : CommPrio :=
  commPriorityForTag slot.item.tag

/-- The items of a class. -/
def ofClass (prio : CommPrio) (slots : List TxSlot) : List TxSlot :=
  slots.filter fun slot ↦ slot.prio = prio

theorem ofClass_append (prio : CommPrio) (a b : List TxSlot) :
    ofClass prio (a ++ b) = ofClass prio a ++ ofClass prio b :=
  List.filter_append _ _

theorem ofClass_singleton (prio : CommPrio) (slot : TxSlot) :
    ofClass prio [slot] = if slot.prio = prio then [slot] else [] := by
  rw [ofClass, List.filter_singleton]
  simp

namespace Comm

/-- What a step puts into a queue. -/
def puts (c : Comm) : CommAction → List TxSlot
  | .send id =>
    match c.calls[id]? with
    | some call =>
      if (call.pc = .put ∨ call.pc = .putAgain) ∧
          ((c.txq call.args.prio).put ⟨call.args.item, id⟩).isSome then [⟨call.args.item, id⟩]
      else []
    | none => []
  | _ => []

/-- The items of a class that were put and not replaced: transmitted, in the task's hand, or queued.
What the task transmits without an item from a queue is not among them (`unfilled`). -/
def circulating (c : Comm) (prio : CommPrio) : List TxSlot :=
  ofClass prio (c.sent.filterMap Transmission.slot? ++ c.task.slot?.toList) ++ (c.txq prio).items

/-- **The order invariant.** `log` has the items in the order in which they were put. -/
structure Ordered (c : Comm) (log : List TxSlot) : Prop where
  /-- A queue holds its own class. -/
  classed : ∀ prio, ∀ slot ∈ (c.txq prio).items, slot.prio = prio
  /-- Only a keep-alive is put again. -/
  again : ∀ call ∈ c.calls, call.pc = .getStale ∨ call.pc = .putAgain → call.args.prio = .high
  fifo : ∀ prio, prio ≠ .high → c.circulating prio = ofClass prio log
  mailbox : (c.circulating .high).Sublist (ofClass .high log)
  /-- What waits in the mailbox is the newest. -/
  newest : ∀ slot ∈ (c.txq .high).items, (ofClass .high log).getLast? = some slot
  fresh : (c.circulating .high).getLast? = (ofClass .high log).getLast? ∨
    ∃ call ∈ c.calls, call.pc = .putAgain

variable {c c' : Comm} {log : List TxSlot} {id : ℕ} {call : CommSend} {prio : CommPrio}
  {q : MessageQueue TxSlot (txqCapacity prio)} {slot : TxSlot}

theorem ordered_create : Ordered communicationCreate [] := by
  refine ⟨fun prio slot hslot ↦ ?_, fun call hcall ↦ ?_, fun prio _ ↦ rfl, .slnil,
    fun slot hslot ↦ ?_, .inl rfl⟩
  · cases hslot
  · cases hcall
  · cases hslot

/-! ### Where a step moves items -/

theorem circulating_put (hq : q.items = (c.txq prio).items ++ [slot]) (prio' : CommPrio) :
    (c.setTxq prio q).circulating prio' =
      c.circulating prio' ++ if prio = prio' then [slot] else [] := by
  rcases eq_or_ne prio' prio with rfl | hne
  · simp [circulating, setTxq, hq]
  · simp [circulating, setTxq, Function.update_of_ne hne, hne.symm]

theorem circulating_get (htask : c.task.slot? = none) (hq : (c.txq prio).items = slot :: q.items)
    (hslot : slot.prio = prio) (prio' : CommPrio) :
    Comm.circulating { c.setTxq prio q with task := .encode slot.item (some slot.src) } prio' =
      c.circulating prio' := by
  rcases eq_or_ne prio' prio with rfl | hne
  · simp [circulating, setTxq, htask, hq, ofClass_append, ofClass_singleton, hslot]
  · simp [circulating, setTxq, htask, ofClass_append, ofClass_singleton, hslot,
      Function.update_of_ne hne, hne.symm]

theorem circulating_transmit {item : CommTxItem} {src : Option ℕ} {frame : List UInt8}
    (htask : c.task = .encode item src) (prio' : CommPrio) :
    Comm.circulating { c with task := .acquire, sent := c.sent ++ [⟨frame, item, src⟩] } prio' =
      c.circulating prio' := by
  cases src <;> simp [circulating, htask, List.filterMap_cons, Transmission.slot?]

theorem circulating_moveTask {task : TxPc} {sem : Semaphore 10} (h : task.slot? = c.task.slot?)
    (prio' : CommPrio) :
    Comm.circulating { c with semTxReady := sem, task := task } prio' = c.circulating prio' := by
  rw [circulating, circulating, h]

/-! ### The invariant -/

/-- A step that puts nothing, moves no item, and begins or ends no replacement. -/
theorem Ordered.of_same (h : Ordered c log) (htxq : c'.txq = c.txq)
    (hcirc : ∀ prio, c'.circulating prio = c.circulating prio)
    (hagain : ∀ call ∈ c'.calls, call.pc = .getStale ∨ call.pc = .putAgain → call.args.prio = .high)
    (hfresh : (∃ call ∈ c.calls, call.pc = .putAgain) →
      (c.circulating .high).getLast? = (ofClass .high log).getLast? ∨
        ∃ call ∈ c'.calls, call.pc = .putAgain) : Ordered c' log := by
  refine ⟨by rw [htxq]; exact h.classed, hagain, fun prio hprio ↦ ?_, ?_, by
    rw [htxq]; exact h.newest, ?_⟩
  · rw [hcirc]
    exact h.fifo prio hprio
  · rw [hcirc]
    exact h.mailbox
  · rw [hcirc]
    exact h.fresh.elim .inl hfresh

/-- A call that has moved, seen from the list. -/
theorem mem_calls_setPc {pc : SendPc} {other : CommSend}
    (h : other ∈ (c.setPc id call pc).calls) :
    other ∈ c.calls ∨ other = { call with pc := pc } :=
  List.mem_or_eq_of_mem_set h

theorem mem_calls_self (hcall : c.calls[id]? = some call) (pc : SendPc) :
    { call with pc := pc } ∈ (c.setPc id call pc).calls :=
  List.mem_set (List.getElem?_eq_some_iff.1 hcall).1 _

/-- If a replacement is going on, it still is when another call has moved. -/
theorem exists_again (hcall : c.calls[id]? = some call) (hpc : call.pc ≠ .putAgain) (pc : SendPc)
    (h : ∃ other ∈ c.calls, other.pc = .putAgain) :
    ∃ other ∈ (c.setPc id call pc).calls, other.pc = .putAgain := by
  obtain ⟨other, hother, hagain⟩ := h
  obtain ⟨i, hi⟩ := List.mem_iff_getElem?.1 hother
  have hne : id ≠ i := by
    rintro rfl
    rw [hcall] at hi
    exact hpc (Option.some.inj hi ▸ hagain)
  refine ⟨other, List.mem_iff_getElem?.2 ⟨i, ?_⟩, hagain⟩
  exact (List.getElem?_set_ne hne).trans hi

theorem puts_call (c : Comm) (args : SendArgs) : c.puts (.call args) = [] :=
  rfl

theorem puts_task (c : Comm) (junk : CommTxItem) : c.puts (.task junk) = [] :=
  rfl

/-- A step of a call that does not put. -/
theorem puts_of_pc (hcall : c.calls[id]? = some call) (hpc : call.pc ≠ .put ∧ call.pc ≠ .putAgain) :
    c.puts (.send id) = [] := by
  rw [puts, hcall]
  exact if_neg fun hput ↦ hput.1.elim hpc.1 hpc.2

/-- A call that finds its queue full puts nothing. -/
theorem puts_of_full (hcall : c.calls[id]? = some call)
    (hfull : (c.txq call.args.prio).items.length = txqCapacity call.args.prio) :
    c.puts (.send id) = [] := by
  rw [puts, hcall]
  show (if _ ∧ _ then _ else _) = []
  rw [if_neg]
  rw [MessageQueue.put_eq_none.2 hfull]
  simp

theorem puts_of_put (hcall : c.calls[id]? = some call) (hpc : call.pc = .put ∨ call.pc = .putAgain)
    {q : MessageQueue TxSlot (txqCapacity call.args.prio)}
    (hput : (c.txq call.args.prio).put ⟨call.args.item, id⟩ = some q) :
    c.puts (.send id) = [⟨call.args.item, id⟩] := by
  rw [puts, hcall]
  exact if_pos ⟨hpc, by rw [hput]; rfl⟩

/-- The mailbox has one place. -/
theorem mailbox_eq (h : slot ∈ (c.txq .high).items) : (c.txq .high).items = [slot] := by
  have hle : (c.txq .high).items.length ≤ 1 := (c.txq .high).bounded
  obtain ⟨other, hother⟩ := List.length_eq_one_iff.1 (le_antisymm hle (List.length_pos_of_mem h))
  rw [hother] at h ⊢
  rw [List.mem_singleton.1 h]

/-- What waits in the mailbox is the last that circulates. -/
theorem getLast?_circulating (h : slot ∈ (c.txq .high).items) :
    (c.circulating .high).getLast? = some slot := by
  rw [circulating, mailbox_eq h, List.getLast?_concat]

/-- The item of a call belongs to its class. -/
theorem prio_item (args : SendArgs) (id : ℕ) : TxSlot.prio ⟨args.item, id⟩ = args.prio :=
  rfl

theorem ofClass_concat (prio : CommPrio) (log : List TxSlot) (slot : TxSlot) :
    ofClass prio (log ++ [slot]) = ofClass prio log ++ if slot.prio = prio then [slot] else [] := by
  rw [ofClass_append, ofClass_singleton]

theorem txq_setTxq_self (q : MessageQueue TxSlot (txqCapacity prio)) :
    (c.setTxq prio q).txq prio = q :=
  Function.update_self ..

theorem txq_setTxq_of_ne (q : MessageQueue TxSlot (txqCapacity prio)) {prio' : CommPrio}
    (h : prio' ≠ prio) : (c.setTxq prio q).txq prio' = c.txq prio' :=
  Function.update_of_ne h _ _

/-- A queue holds its own class also when one more item of it was put. -/
theorem classed_put (h : Ordered c log) (hslot : slot.prio = prio)
    (hq : q.items = (c.txq prio).items ++ [slot]) (prio' : CommPrio) :
    ∀ s ∈ ((c.setTxq prio q).txq prio').items, s.prio = prio' := by
  intro s hs
  rcases eq_or_ne prio' prio with rfl | hne
  · rw [txq_setTxq_self, hq] at hs
    rcases List.mem_append.1 hs with hs | hs
    · exact h.classed _ s hs
    · rw [List.mem_singleton.1 hs, hslot]
  · rw [txq_setTxq_of_ne q hne] at hs
    exact h.classed _ s hs

/-- A put into a queue of the two lower classes. -/
theorem Ordered.put_lower (h : Ordered c log) (hcall : c.calls[id]? = some call)
    (hnot : call.pc ≠ .putAgain) (hslot : slot.prio = prio) (hprio : prio ≠ .high)
    (hq : q.items = (c.txq prio).items ++ [slot]) :
    Ordered ((c.setTxq prio q).setPc id call .release) (log ++ [slot]) := by
  have hcirc : ∀ prio', ((c.setTxq prio q).setPc id call .release).circulating prio' =
      c.circulating prio' ++ if prio = prio' then [slot] else [] :=
    circulating_put hq
  have hhigh : ofClass .high (log ++ [slot]) = ofClass .high log := by
    rw [ofClass_concat, hslot, if_neg hprio, List.append_nil]
  have hmailbox : ((c.setTxq prio q).setPc id call .release).txq .high = c.txq .high :=
    txq_setTxq_of_ne q hprio.symm
  refine ⟨classed_put h hslot hq, fun other hother hpc ↦ ?_, fun prio' hne ↦ ?_, ?_, ?_, ?_⟩
  · rcases mem_calls_setPc hother with hother | rfl
    · exact h.again other hother hpc
    · simp at hpc
  · rw [hcirc, h.fifo prio' hne, ofClass_concat, hslot]
  · rw [hcirc, if_neg hprio, List.append_nil, hhigh]
    exact h.mailbox
  · rw [hmailbox, hhigh]
    exact h.newest
  · rw [hcirc, if_neg hprio, List.append_nil, hhigh]
    exact h.fresh.imp_right (exists_again hcall hnot .release)

/-- A put into the mailbox. -/
theorem Ordered.put_mailbox (h : Ordered c log) {q : MessageQueue TxSlot (txqCapacity .high)}
    (hslot : slot.prio = .high) (hq : q.items = (c.txq .high).items ++ [slot])
    (hroom : (c.txq .high).items.length < txqCapacity .high) :
    Ordered ((c.setTxq .high q).setPc id call .release) (log ++ [slot]) := by
  have hcirc : ∀ prio', ((c.setTxq .high q).setPc id call .release).circulating prio' =
      c.circulating prio' ++ if .high = prio' then [slot] else [] :=
    circulating_put hq
  have hhigh : ofClass .high (log ++ [slot]) = ofClass .high log ++ [slot] := by
    rw [ofClass_concat, if_pos hslot]
  have hempty : (c.txq .high).items = [] :=
    List.eq_nil_of_length_eq_zero (Nat.lt_one_iff.1 hroom)
  have hmailbox : ((c.setTxq .high q).txq .high).items = [slot] := by
    rw [txq_setTxq_self, hq, hempty, List.nil_append]
  refine ⟨classed_put h hslot hq, fun other hother hpc ↦ ?_, fun prio' hne ↦ ?_, ?_,
    fun s hs ↦ ?_, .inl ?_⟩
  · rcases mem_calls_setPc hother with hother | rfl
    · exact h.again other hother hpc
    · simp at hpc
  · rw [hcirc, if_neg hne.symm, List.append_nil, h.fifo prio' hne, ofClass_concat, hslot,
      if_neg hne.symm, List.append_nil]
  · rw [hcirc, if_pos rfl, hhigh]
    exact h.mailbox.append_right _
  · have hs' : s ∈ ((c.setTxq .high q).txq .high).items := hs
    rw [hmailbox] at hs'
    rw [hhigh, List.getLast?_concat, List.mem_singleton.1 hs']
  · rw [hcirc, if_pos rfl, hhigh, List.getLast?_concat, List.getLast?_concat]

/-- A put, of an item that belongs there. -/
theorem Ordered.put (h : Ordered c log) (hcall : c.calls[id]? = some call)
    (hagain : call.pc = .putAgain → prio = .high) (hslot : slot.prio = prio)
    (hput : (c.txq prio).put slot = some q) :
    Ordered ((c.setTxq prio q).setPc id call .release) (log ++ [slot]) := by
  obtain ⟨hitems, hroom⟩ := MessageQueue.put_eq_some hput
  rcases eq_or_ne prio .high with rfl | hne
  · exact h.put_mailbox hslot hitems hroom
  · exact h.put_lower hcall (fun hpc ↦ hne (hagain hpc)) hslot hne hitems

/-- A keep-alive is taken out of the mailbox, to be replaced. -/
theorem Ordered.take (h : Ordered c log) (hcall : c.calls[id]? = some call)
    (hpc : call.pc = .getStale) {q : MessageQueue TxSlot (txqCapacity .high)}
    (hq : (c.txq .high).items = slot :: q.items) :
    Ordered ((c.setTxq .high q).setPc id call .putAgain) log := by
  have hnil : q.items = [] := by
    have hone : (c.txq .high).items = [slot] := mailbox_eq (by rw [hq]; exact List.mem_cons_self)
    rw [hq] at hone
    exact (List.cons.inj hone).2
  have hmailbox : ((c.setTxq .high q).txq .high).items = [] := by
    rw [txq_setTxq_self, hnil]
  have hhigh : (c.setTxq .high q).circulating .high =
      ofClass .high (c.sent.filterMap Transmission.slot? ++ c.task.slot?.toList) := by
    rw [circulating, hmailbox, List.append_nil]
    rfl
  refine ⟨fun prio s hs ↦ ?_, fun other hmem hpc' ↦ ?_, fun prio hne ↦ ?_, ?_,
    fun s (hs : s ∈ ((c.setTxq .high q).txq .high).items) ↦ ?_,
    .inr ⟨_, mem_calls_self (c := c.setTxq .high q) hcall .putAgain, rfl⟩⟩
  · have hs' : s ∈ ((c.setTxq .high q).txq prio).items := hs
    rcases eq_or_ne prio .high with rfl | hne
    · rw [hmailbox] at hs'
      cases hs'
    · rw [txq_setTxq_of_ne q hne] at hs'
      exact h.classed _ s hs'
  · rcases mem_calls_setPc hmem with hmem | rfl
    · exact h.again other hmem hpc'
    · exact h.again call (List.mem_of_getElem? hcall) (.inl hpc)
  · rw [← h.fifo prio hne]
    show (c.setTxq .high q).circulating prio = _
    rw [circulating, txq_setTxq_of_ne q hne]
    rfl
  · show ((c.setTxq .high q).circulating .high).Sublist _
    rw [hhigh]
    exact (List.sublist_append_left _ _).trans h.mailbox
  · rw [hmailbox] at hs
    cases hs

/-- A call that finds its queue full gives up, or goes on to take the stale keep-alive out. -/
theorem Ordered.full (h : Ordered c log) (hcall : c.calls[id]? = some call)
    (hfull : (c.txq call.args.prio).items.length = txqCapacity call.args.prio) {pc : SendPc}
    (hnext : pc = .getStale ∧ call.args.prio = .high ∧ call.pc = .put ∨ pc = .returned (-1)) :
    Ordered (c.setPc id call pc) log := by
  refine h.of_same rfl (fun _ ↦ rfl) (fun other hother hpc' ↦ ?_) fun hagain ↦ ?_
  · rcases mem_calls_setPc hother with hother | rfl
    · exact h.again other hother hpc'
    · rcases hnext with ⟨-, hprio, -⟩ | rfl
      · exact hprio
      · simp at hpc'
  · by_cases hpc : call.pc = .putAgain
    · -- what fills the mailbox is the newest
      have hprio := h.again call (List.mem_of_getElem? hcall) (.inr hpc)
      rw [hprio] at hfull
      obtain ⟨slot, hslot⟩ := List.length_eq_one_iff.1 hfull
      have hmem : slot ∈ (c.txq .high).items := by rw [hslot]; exact List.mem_cons_self
      exact .inl ((getLast?_circulating hmem).trans (h.newest slot hmem).symm)
    · exact .inr (exists_again hcall hpc pc hagain)

/-- The task takes an item. -/
theorem Ordered.get (h : Ordered c log) (htask : c.task.slot? = none)
    (hq : (c.txq prio).items = slot :: q.items) :
    Ordered { c.setTxq prio q with task := .encode slot.item (some slot.src) } log := by
  have hslot : slot.prio = prio := h.classed prio slot (by rw [hq]; exact List.mem_cons_self)
  have hcirc := circulating_get htask hq hslot
  have hmem : ∀ prio', ∀ s ∈ ((c.setTxq prio q).txq prio').items, s ∈ (c.txq prio').items := by
    intro prio' s hs
    rcases eq_or_ne prio' prio with rfl | hne
    · rw [txq_setTxq_self] at hs
      rw [hq]
      exact List.mem_cons_of_mem _ hs
    · rwa [txq_setTxq_of_ne q hne] at hs
  refine ⟨fun prio' s hs ↦ h.classed prio' s (hmem prio' s hs), h.again, fun prio' hne ↦ ?_, ?_,
    fun s hs ↦ h.newest s (hmem .high s hs), ?_⟩
  · rw [hcirc]
    exact h.fifo prio' hne
  · rw [hcirc]
    exact h.mailbox
  · rw [hcirc]
    exact h.fresh

/-- **The order is kept** by every step, whatever the interleaving. -/
theorem Ordered.step {a : CommAction} (h : Ordered c log) (hstep : commStep c a = some c') :
    Ordered c' (log ++ c.puts a) := by
  cases commStep_effect hstep with
  | call args =>
    rw [puts_call, List.append_nil]
    refine h.of_same rfl (fun _ ↦ rfl) (fun other hother hpc ↦ ?_) fun ⟨other, hother, hpc⟩ ↦
      .inr ⟨other, List.mem_append_left _ hother, hpc⟩
    rcases List.mem_append.1 hother with hother | hother
    · exact h.again other hother hpc
    · obtain rfl := List.mem_singleton.1 hother
      have henter : commSendEnter args ≠ .getStale ∧ commSendEnter args ≠ .putAgain := by
        rw [commSendEnter]
        split_ifs <;> simp
      exact absurd hpc (not_or.2 henter)
  | @put id call q hcall hpc hput =>
    rw [puts_of_put hcall hpc hput]
    exact h.put hcall (fun hpc ↦ h.again call (List.mem_of_getElem? hcall) (.inr hpc))
      (prio_item call.args id) hput
  | @full id call pc hcall hpc hfull hnext =>
    rw [puts_of_full hcall hfull, List.append_nil]
    exact h.full hcall hfull hnext
  | @takeStale id call slot q hcall hpc hget =>
    rw [puts_of_pc hcall (by simp [hpc]), List.append_nil]
    exact h.take hcall hpc (MessageQueue.get_eq_some hget)
  | @noStale id call hcall hpc hempty =>
    rw [puts_of_pc hcall (by simp [hpc]), List.append_nil]
    refine h.of_same rfl (fun _ ↦ rfl) (fun other hother hpc' ↦ ?_) fun _ ↦
      .inr ⟨_, mem_calls_self hcall .putAgain, rfl⟩
    rcases mem_calls_setPc hother with hother | rfl
    · exact h.again other hother hpc'
    · exact h.again call (List.mem_of_getElem? hcall) (.inl hpc)
  | @release id call hcall hpc =>
    rw [puts_of_pc hcall (by simp [hpc]), List.append_nil]
    refine h.of_same rfl (fun _ ↦ rfl) (fun other hother hpc' ↦ ?_) fun hagain ↦
      .inr (exists_again hcall (by simp [hpc]) (.returned 0) hagain)
    rcases mem_calls_setPc hother with hother | rfl
    · exact h.again other hother hpc'
    · simp at hpc'
  | @acquire junk sem htask hsem =>
    rw [puts_task, List.append_nil]
    exact h.of_same rfl (circulating_moveTask (by rw [htask]; rfl)) h.again .inr
  | @get junk prio slot q htask hget =>
    rw [puts_task, List.append_nil]
    exact h.get (by rw [htask]; rfl) (MessageQueue.get_eq_some hget)
  | @scan junk prio prio' htask hempty hnext =>
    rw [puts_task, List.append_nil]
    exact h.of_same rfl (circulating_moveTask (by rw [htask]; rfl)) h.again .inr
  | @unfilled junk htask hempty =>
    rw [puts_task, List.append_nil]
    exact h.of_same rfl (circulating_moveTask (by rw [htask]; rfl)) h.again .inr
  | @transmit junk item src frame htask hframe =>
    rw [puts_task, List.append_nil]
    exact h.of_same rfl (circulating_transmit htask) h.again .inr

/-! ### Frames that nobody put -/

/-- How many frames came from no queue: the task found all three empty and transmits what its local
`item` holds. -/
def unfilled (c : Comm) : ℕ :=
  (c.sent.countP fun t ↦ t.src = none) +
    match c.task with
    | .encode _ none => 1
    | _ => 0

/-- **Every surplus token is that of a replaced keep-alive.** A keep-alive that was put and does not
circulate was replaced, and its token is either still there or has been spent on a frame that nobody
put. That items are never short of tokens is `Covered`. -/
def Spent (c : Comm) (log : List TxSlot) : Prop :=
  c.rung + c.holding + c.unfilled + (c.circulating .high).length ≤
    c.queued + (ofClass .high log).length

/-- A step of a call, which moves neither the task nor what is on the wire. -/
theorem Spent.of_send {new : List TxSlot} (h : Spent c log) (htask : c'.task = c.task)
    (hsent : c'.sent = c.sent)
    (hspent : c'.rung + (c'.circulating .high).length + c.queued ≤
      c'.queued + (c.rung + (c.circulating .high).length) + (ofClass .high new).length) :
    Spent c' (log ++ new) := by
  have hunfilled : c'.unfilled = c.unfilled := by rw [unfilled, unfilled, htask, hsent]
  have hholding : c'.holding = c.holding := by rw [holding, holding, htask]
  rw [Spent] at h ⊢
  rw [hunfilled, hholding, ofClass_append, List.length_append]
  omega

/-- A step of a call that touches neither queue nor token. -/
theorem Spent.of_same (h : Spent c log) (hcall : c.calls[id]? = some call) {pc : SendPc}
    (hpc : call.pc ≠ .release) (hpc' : pc ≠ .release) : Spent (c.setPc id call pc) log := by
  have hrung : (c.setPc id call pc).rung = c.rung :=
    congrArg (c.semTxReady.count + ·) (releasing_same hcall hpc hpc')
  rw [← List.append_nil log]
  refine h.of_send rfl rfl ?_
  rw [hrung]
  show c.rung + (c.circulating .high).length + c.queued ≤ c.queued + _ + _
  omega

theorem Spent.put (h : Spent c log) (hcall : c.calls[id]? = some call)
    (hpc : call.pc = .put ∨ call.pc = .putAgain) (hslot : slot.prio = prio)
    (hq : q.items = (c.txq prio).items ++ [slot]) :
    Spent ((c.setTxq prio q).setPc id call .release) (log ++ [slot]) := by
  set c' := (c.setTxq prio q).setPc id call .release
  have hqueued : c'.queued = c.queued + 1 := queued_put hq
  have hreleasing : c'.releasing = c.releasing + 1 := releasing_begin hcall hpc
  have hrung : c'.rung = c.rung + 1 := congrArg (c.semTxReady.count + ·) hreleasing
  have hcirc : c'.circulating .high = c.circulating .high ++ ofClass .high [slot] := by
    rw [ofClass_singleton, hslot]
    exact circulating_put hq .high
  refine h.of_send rfl rfl ?_
  rw [hqueued, hrung, hcirc, List.length_append]
  omega

/-- The one step that leaves a token without its item. -/
theorem Spent.take (h : Spent c log) (hcall : c.calls[id]? = some call)
    (hpc : call.pc = .getStale) {q : MessageQueue TxSlot (txqCapacity .high)}
    (hq : (c.txq .high).items = slot :: q.items) :
    Spent ((c.setTxq .high q).setPc id call .putAgain) log := by
  set c' := (c.setTxq .high q).setPc id call .putAgain
  have hqueued : c'.queued + 1 = c.queued := queued_get hq
  have hreleasing : c'.releasing = c.releasing :=
    releasing_same (c := c.setTxq .high q) hcall (by simp [hpc]) (by simp)
  have hrung : c'.rung = c.rung := congrArg (c.semTxReady.count + ·) hreleasing
  have hcirc : (c'.circulating .high).length + 1 = (c.circulating .high).length := by
    show ((c.setTxq .high q).circulating .high).length + 1 = _
    rw [circulating, circulating, txq_setTxq_self, hq, List.length_append, List.length_append,
      List.length_cons]
    rfl
  rw [← List.append_nil log]
  refine h.of_send rfl rfl ?_
  omega

theorem Spent.release (h : Spent c log) (hcall : c.calls[id]? = some call)
    (hpc : call.pc = .release) :
    Spent ({ c with semTxReady := c.semTxReady.release }.setPc id call (.returned 0)) log := by
  set c' := { c with semTxReady := c.semTxReady.release }.setPc id call (.returned 0)
  have hreleasing : c'.releasing + 1 = c.releasing := releasing_end hcall hpc 0
  have hrung : c'.rung ≤ c.rung := by
    -- a full semaphore loses the token
    have hcount : c.semTxReady.release.count ≤ c.semTxReady.count + 1 := c.semTxReady.release_le
    show c.semTxReady.release.count + c'.releasing ≤ c.semTxReady.count + c.releasing
    omega
  rw [← List.append_nil log]
  refine h.of_send rfl rfl ?_
  show c'.rung + (c.circulating .high).length + c.queued ≤ c.queued + _ + _
  omega

/-- **Every step keeps it**, whatever the interleaving. -/
theorem Spent.step {a : CommAction} (h : Spent c log) (hord : Ordered c log)
    (hstep : commStep c a = some c') : Spent c' (log ++ c.puts a) := by
  have hspent := h
  rw [Spent] at hspent
  cases commStep_effect hstep with
  | call args =>
    rw [puts_call]
    have hrung : Comm.rung { c with calls := c.calls ++ [⟨args, commSendEnter args⟩] } = c.rung :=
      congrArg (c.semTxReady.count + ·) (releasing_call c args)
    refine h.of_send rfl rfl ?_
    rw [hrung, Nat.add_comm]
    exact le_rfl
  | @put id call q hcall hpc hput =>
    rw [puts_of_put hcall hpc hput]
    exact h.put hcall hpc (prio_item call.args id) (MessageQueue.put_eq_some hput).1
  | @full id call pc hcall hpc hfull hnext =>
    rw [puts_of_full hcall hfull, List.append_nil]
    refine h.of_same hcall (ne_release_of_put hpc) ?_
    rcases hnext with ⟨rfl, -⟩ | rfl <;> simp
  | @takeStale id call slot q hcall hpc hget =>
    rw [puts_of_pc hcall (by simp [hpc]), List.append_nil]
    exact h.take hcall hpc (MessageQueue.get_eq_some hget)
  | @noStale id call hcall hpc hempty =>
    rw [puts_of_pc hcall (by simp [hpc]), List.append_nil]
    exact h.of_same hcall (by simp [hpc]) (by simp)
  | @release id call hcall hpc =>
    rw [puts_of_pc hcall (by simp [hpc]), List.append_nil]
    exact h.release hcall hpc
  | @acquire junk sem htask hsem =>
    rw [puts_task, List.append_nil, Spent, circulating_moveTask (by rw [htask]; rfl)]
    have htoken := Semaphore.acquire_eq_some hsem
    rw [holding_acquire htask, unfilled, htask, rung] at hspent
    show sem.count + c.releasing + 1 + (c.sent.countP _ + 0) + _ ≤ c.queued + _
    omega
  | @get junk prio slot q htask hget =>
    have hitems := MessageQueue.get_eq_some hget
    have hqueued := queued_get hitems
    have hslot : slot.prio = prio :=
      hord.classed prio slot (by rw [hitems]; exact List.mem_cons_self)
    rw [puts_task, List.append_nil, Spent, circulating_get (by rw [htask]; rfl) hitems hslot]
    rw [holding_get htask, unfilled, htask] at hspent
    show c.rung + 0 + (c.sent.countP _ + 0) + _ ≤ (c.setTxq prio q).queued + _
    omega
  | @scan junk prio prio' htask hempty hnext =>
    rw [puts_task, List.append_nil, Spent, circulating_moveTask (by rw [htask]; rfl)]
    rw [holding_get htask, unfilled, htask] at hspent
    exact hspent
  | @unfilled junk htask hempty =>
    -- the token in the task's hand is spent on it
    rw [puts_task, List.append_nil, Spent, circulating_moveTask (by rw [htask]; rfl)]
    rw [holding_get htask, Comm.unfilled, htask] at hspent
    show c.rung + 0 + (c.sent.countP _ + 1) + _ ≤ c.queued + _
    omega
  | @transmit junk item src frame htask hframe =>
    have hunfilled : Comm.unfilled { c with
        task := .acquire, sent := c.sent ++ [⟨frame, item, src⟩] } = c.unfilled := by
      rw [Comm.unfilled, Comm.unfilled, htask]
      cases src <;> simp
    rw [puts_task, List.append_nil, Spent, circulating_transmit htask, hunfilled]
    rw [holding_encode htask] at hspent
    exact hspent

/-! ### The wire -/

/-- **The order on the wire**, for any number of callers and any interleaving. With `log` the items
in the order in which they were put: of the two lower classes, what is transmitted from the queues,
in the task's hand and queued is all that was put, in that order; of the keep-alives it is a part of
what was put, in that order, and the newest is the last of it unless a call is just about to put its
own in its place. Besides these the task transmits its local `item` unfilled, at most once for each
keep-alive that was replaced. -/
theorem wire_order {log : List TxSlot}
    (h : Reaches (logged commStep puts) (fun _ _ ↦ True) (communicationCreate, []) (c, log)) :
    (∀ prio, prio ≠ .high → c.circulating prio = ofClass prio log) ∧
      (c.circulating .high).Sublist (ofClass .high log) ∧
      ((c.circulating .high).getLast? = (ofClass .high log).getLast? ∨
        ∃ call ∈ c.calls, call.pc = .putAgain) ∧
      (c.circulating .high).length + c.unfilled ≤ (ofClass .high log).length := by
  obtain ⟨hordered, hspent, hcovered⟩ : Ordered c log ∧ Spent c log ∧ Covered c :=
    h.invariant (I := fun s ↦ Ordered s.1 s.2 ∧ Spent s.1 s.2 ∧ Covered s.1)
      ⟨ordered_create, le_rfl, covered_create⟩ fun ⟨hs, hp, hc⟩ _ hstep ↦ by
        obtain ⟨ha, hlog⟩ := logged_eq_some hstep
        rw [hlog]
        exact ⟨hs.step ha, hp.step hs ha, hc.step ha⟩
  have hqueued := hcovered.queued
  rw [Spent] at hspent
  exact ⟨hordered.fifo, hordered.mailbox, hordered.fresh, by omega⟩

/-- Two records, an acknowledgement and two keep-alives are put while nothing is transmitted. The
second keep-alive goes first, then the acknowledgement, then the records in the order of their puts,
and last the unfilled item, for the first keep-alive. -/
theorem wire_order_mixed :
    ∃ (c : Comm) (log : List TxSlot),
      c.sent.map Transmission.src = [some 4, some 2, some 0, some 1, none] ∧
      log.map TxSlot.src = [0, 1, 2, 3, 4] ∧ c.circulating .low = ofClass .low log ∧
      (c.circulating .high).length + c.unfilled ≤ (ofClass .high log).length := by
  have hrun : ((exec (guarded (logged commStep puts) fun _ _ ↦ True) (communicationCreate, [])
      (([tlvTagQueryRecord, tlvTagQueryEnd, tlvTagAck, tlvTagKeepAlive, tlvTagKeepAlive].map
          fun tag ↦ CommAction.call ⟨false, tag, none, 0⟩) ++
        [.send 0, .send 1, .send 2, .send 3, .send 4, .send 4, .send 4, .send 0, .send 1, .send 2,
          .send 3, .send 4] ++
        List.replicate 22 (.task stackJunk))).map fun s ↦
          (s.1.sent.map Transmission.src, s.2.map TxSlot.src)) =
      some ([some 4, some 2, some 0, some 1, none], [0, 1, 2, 3, 4]) := by decide +kernel
  obtain ⟨⟨c, log⟩, hexec, hfound⟩ := Option.map_eq_some_iff.1 hrun
  obtain ⟨hsent, hlog⟩ := Prod.mk.inj hfound
  obtain ⟨hfifo, -, -, hunfilled⟩ := wire_order (reaches_of_exec hexec)
  exact ⟨c, log, hsent, hlog, hfifo .low (by decide), hunfilled⟩

/-! ### Priority -/

/-- What may have become of the item in the mailbox since `c`: it still waits there, and at most one
frame has been transmitted, after which the task has not looked past the mailbox again; or the task
has it; or it is among the first two frames transmitted. -/
inductive Waiting (c : Comm) (slot : TxSlot) (s : Comm) : Prop
  | waits (hmailbox : (s.txq .high).items = [slot]) (hsent : s.sent = c.sent)
  | waitsNext {t : Transmission} (hmailbox : (s.txq .high).items = [slot])
      (hsent : s.sent = c.sent ++ [t]) (htask : s.task = .acquire ∨ s.task = .get .high)
  | inHand {new : List Transmission} (hsent : s.sent = c.sent ++ new) (hnew : new.length ≤ 1)
      (htask : s.task = .encode slot.item (some slot.src))
  | transmitted {new : List Transmission} (hsent : s.sent = c.sent ++ new)
      (hmem : ∃ t ∈ new.take 2, t.slot? = some slot)

/-- A step that leaves the task and the mailbox alone. -/
theorem Waiting.of_same {s s' : Comm} (h : Waiting c slot s)
    (hmailbox : (s.txq .high).items = [slot] → (s'.txq .high).items = [slot])
    (htask : s'.task = s.task) (hsent : s'.sent = s.sent) : Waiting c slot s' := by
  rcases h with ⟨hm, hs⟩ | ⟨hm, hs, ht⟩ | ⟨hs, hnew, ht⟩ | ⟨hs, hmem⟩
  · exact .waits (hmailbox hm) (hsent.trans hs)
  · exact .waitsNext (hmailbox hm) (hsent.trans hs) (htask ▸ ht)
  · exact .inHand (hsent.trans hs) hnew (htask.trans ht)
  · exact .transmitted (hsent.trans hs) hmem

/-- A step that moves the task on, without an item, and past the mailbox only if that is empty. -/
theorem Waiting.of_moved {s s' : Comm} (h : Waiting c slot s) (hmailbox : s'.txq = s.txq)
    (hsent : s'.sent = s.sent) (hhand : s.task.slot? = none)
    (hnext : s.task = .acquire ∧ s'.task = .get .high ∨ s.task ≠ .acquire ∧
      (s.task = .get .high → (s.txq .high).items = [])) : Waiting c slot s' := by
  rcases h with ⟨hm, hs⟩ | ⟨hm, hs, ht⟩ | ⟨hs, hnew, ht⟩ | ⟨hs, hmem⟩
  · exact .waits (by rw [hmailbox, hm]) (hsent.trans hs)
  · refine .waitsNext (by rw [hmailbox, hm]) (hsent.trans hs) (.inr ?_)
    rcases hnext with ⟨-, hget⟩ | ⟨hne, hempty⟩
    · exact hget
    · have hnil := hempty (ht.resolve_left hne)
      rw [hm] at hnil
      cases hnil
  · rw [ht] at hhand
    cases hhand
  · exact .transmitted (hsent.trans hs) hmem

/-- The move takes this item out of the mailbox, to replace it. -/
def Replaces (slot : TxSlot) (c : Comm) (a : CommAction) : Prop :=
  c.TakesStale a ∧ slot ∈ (c.txq .high).items

instance (slot : TxSlot) (c : Comm) (a : CommAction) : Decidable (c.Replaces slot a) :=
  inferInstanceAs (Decidable (_ ∧ _))

theorem Waiting.step {s s' : Comm} {a : CommAction} (h : Waiting c slot s)
    (hkept : ¬s.Replaces slot a) (hstep : commStep s a = some s') : Waiting c slot s' := by
  cases commStep_effect hstep with
  | call args => exact h.of_same id rfl rfl
  | @put id call q hcall hpc hput =>
    obtain ⟨hitems, hroom⟩ := MessageQueue.put_eq_some hput
    refine h.of_same (fun hm ↦ ?_) rfl rfl
    have hne : .high ≠ call.args.prio := by
      intro hhigh
      rw [← hhigh, hm] at hroom
      exact absurd hroom (lt_irrefl 1)
    show ((s.setTxq call.args.prio q).txq .high).items = _
    rw [txq_setTxq_of_ne q hne, hm]
  | full => exact h.of_same id rfl rfl
  | @takeStale id call other q hcall hpc hget =>
    -- another keep-alive, put after the task took this one
    have hother : slot ∉ (s.txq .high).items := fun hmem ↦ by
      refine hkept ⟨⟨by rw [hcall, Option.map_some, hpc], ?_⟩, hmem⟩
      exact List.ne_nil_of_mem hmem
    rcases h with ⟨hm, -⟩ | ⟨hm, -, -⟩ | ⟨hs, hnew, ht⟩ | ⟨hs, hmem⟩
    · exact absurd (hm ▸ List.mem_singleton_self slot) hother
    · exact absurd (hm ▸ List.mem_singleton_self slot) hother
    · exact .inHand hs hnew ht
    · exact .transmitted hs hmem
  | noStale => exact h.of_same id rfl rfl
  | release => exact h.of_same id rfl rfl
  | acquire htask _ => exact h.of_moved rfl rfl (by rw [htask]; rfl) (.inl ⟨htask, rfl⟩)
  | @get junk prio other q htask hget =>
    have hitems := MessageQueue.get_eq_some hget
    rcases h with ⟨hm, hs⟩ | ⟨hm, hs, ht⟩ | ⟨hs, hnew, ht⟩ | ⟨hs, hmem⟩
    · rcases eq_or_ne prio .high with rfl | hne
      · rw [hm] at hitems
        obtain ⟨rfl, -⟩ := List.cons.inj hitems
        exact .inHand (hs.trans (List.append_nil c.sent).symm) (Nat.zero_le _) rfl
      · refine .waits ?_ hs
        show ((s.setTxq prio q).txq .high).items = _
        rw [txq_setTxq_of_ne q hne.symm, hm]
    · obtain rfl : prio = .high := by
        rw [htask] at ht
        exact TxPc.get.inj (ht.resolve_left (by simp))
      rw [hm] at hitems
      obtain ⟨rfl, -⟩ := List.cons.inj hitems
      exact .inHand hs le_rfl rfl
    · rw [htask] at ht
      cases ht
    · exact .transmitted hs hmem
  | @scan junk prio prio' htask hempty hnext =>
    refine h.of_moved rfl rfl (by rw [htask]; rfl) (.inr ⟨by simp [htask], fun hget ↦ ?_⟩)
    rw [htask] at hget
    rwa [TxPc.get.inj hget] at hempty
  | unfilled htask hempty =>
    exact h.of_moved rfl rfl (by rw [htask]; rfl) (.inr ⟨by simp [htask], by simp [htask]⟩)
  | @transmit junk item src frame htask hframe =>
    rcases h with ⟨hm, hs⟩ | ⟨hm, hs, ht⟩ | @⟨new, hs, hnew, ht⟩ | @⟨new, hs, hmem⟩
    · exact .waitsNext hm (congrArg (· ++ _) hs) (.inl rfl)
    · rw [htask] at ht
      simp at ht
    · rw [htask] at ht
      obtain ⟨rfl, rfl⟩ := TxPc.encode.inj ht
      have hsent : s.sent ++ [⟨frame, slot.item, some slot.src⟩] =
          c.sent ++ (new ++ [⟨frame, slot.item, some slot.src⟩]) := by
        rw [hs, List.append_assoc]
      refine .transmitted hsent ⟨⟨frame, slot.item, some slot.src⟩, ?_, rfl⟩
      rw [List.take_of_length_le (by simpa using hnew)]
      exact List.mem_append_right _ List.mem_cons_self
    · obtain ⟨t, ht, hslot⟩ := hmem
      have hsent : s.sent ++ [⟨frame, item, src⟩] = c.sent ++ (new ++ [⟨frame, item, src⟩]) := by
        rw [hs, List.append_assoc]
      refine .transmitted hsent ⟨t, ?_, hslot⟩
      rw [List.take_append]
      exact List.mem_append_left _ ht

/-- **A keep-alive overtakes.** From any state in which one waits in the mailbox, and as long as no
call takes it out to replace it, it is one of the next two frames transmitted: before it there is
only what the task had already taken, or was about to take. -/
theorem keepAlive_overtakes (hslot : slot ∈ (c.txq .high).items)
    (h : Reaches commStep (fun s a ↦ ¬s.Replaces slot a) c c')
    (htwo : c.sent.length + 2 ≤ c'.sent.length) :
    ∃ t ∈ (c'.sent.drop c.sent.length).take 2, t.slot? = some slot := by
  have hwaiting : Waiting c slot c' :=
    h.invariant (.waits (mailbox_eq hslot) rfl) fun hs hok hstep ↦ hs.step hok hstep
  rcases hwaiting with ⟨-, hs⟩ | ⟨-, hs, -⟩ | ⟨hs, hnew, -⟩ | ⟨hs, hmem⟩
  · rw [hs] at htwo
    omega
  · rw [hs, List.length_append, List.length_singleton] at htwo
    omega
  · rw [hs, List.length_append] at htwo
    omega
  · rwa [hs, List.drop_left]

/-- The task has already taken a record when a keep-alive is put behind two more records. While the
task transmits the keep-alive, two more are put, and the second replaces the first. -/
theorem keepAlive_overtakes_record :
    ∃ (c c' : Comm) (slot : TxSlot), slot.src = 3 ∧
      (c'.sent.drop c.sent.length).map Transmission.src = [some 0, some 3, some 5] ∧
      ∃ t ∈ (c'.sent.drop c.sent.length).take 2, t.slot? = some slot := by
  set slot : TxSlot := ⟨keepAliveArgs.item, 3⟩
  have hrun : ((exec (guarded commStep fun _ _ ↦ True) communicationCreate
      (([tlvTagQueryRecord, tlvTagQueryRecord, tlvTagQueryRecord, tlvTagKeepAlive,
          tlvTagKeepAlive, tlvTagKeepAlive].map fun tag ↦
            CommAction.call ⟨false, tag, none, 0⟩) ++
        [.send 0, .send 0, .task stackJunk, .task stackJunk, .task stackJunk, .task stackJunk,
          .send 1, .send 1, .send 2, .send 2, .send 3, .send 3])).bind fun c ↦
        (exec (guarded commStep fun c a ↦ ¬c.Replaces slot a) c
          (List.replicate 3 (.task stackJunk) ++ List.replicate 2 (.send 4) ++
            List.replicate 4 (.send 5) ++ List.replicate 4 (.task stackJunk))).map fun c' ↦
            ((c.txq .high).items, c.sent.length,
              (c'.sent.drop c.sent.length).map Transmission.src)) =
      some ([slot], 0, [some 0, some 3, some 5]) := by decide +kernel
  obtain ⟨c, -, hrun⟩ := Option.bind_eq_some_iff.1 hrun
  obtain ⟨c', hexec', hfound⟩ := Option.map_eq_some_iff.1 hrun
  obtain ⟨hmailbox, hfound⟩ := Prod.mk.inj hfound
  obtain ⟨hnone, hsent⟩ := Prod.mk.inj hfound
  have hmem : slot ∈ (c.txq .high).items := hmailbox ▸ List.mem_singleton_self slot
  refine ⟨c, c', slot, rfl, hsent, keepAlive_overtakes hmem (reaches_of_exec hexec') ?_⟩
  have hlength := congrArg List.length hsent
  simp only [List.length_map, List.length_drop, List.length_cons, List.length_nil] at hlength
  omega

end Comm

end SubmarineMonitor
