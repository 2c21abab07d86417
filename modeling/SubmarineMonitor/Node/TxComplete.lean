import SubmarineMonitor.Node.TxOrder

/-!
# Nothing is left out

As long as no call takes a stale keep-alive out of the mailbox, an item that is put is transmitted,
in the task's hand or queued until the end, whatever its class (`Complete`), and what is put is one
item for each call that was accepted (`PutOnce`). So when nothing is under way any more, the
transmitted items are those of the accepted calls, each once and each class in the order of its puts
(`sent_of_idle`).

## From three results one account

`Accounted` collects what a run without a replaced keep-alive comes to: the order, the completeness,
the balance of tokens, and that each accepted call has put exactly one item. Each part has its own
step lemma in the module it belongs to, and the whole is what the end-to-end results start from
(`Central.Ingest`, `GroundStation.EventsShown`), so that these never open a step of the transmit
side.

## When nothing is under way

`Idle` is a state in which no call is between its put and its return, and the task waits without a
token. It is not a state that the system must reach: callers may go on for ever. But in such a state
the transmitted items of a class are the puts of that class, in order, and every transmission has a
length that its frame can carry.

## What is left out

Calls that are refused. A call with bad arguments, or one that finds its queue full, has put nothing
and is not counted; the caller learns of it by the result, which the code ignores in most places.
-/

open Machine

namespace SubmarineMonitor

namespace Comm

/-- Of every class, all that was put circulates, in the order of the puts. -/
def Complete (c : Comm) (log : List TxSlot) : Prop :=
  ∀ prio, c.circulating prio = ofClass prio log

/-- Call `id` was accepted. -/
def Accepts (c : Comm) (id : ℕ) : Prop :=
  ∃ call, c.calls[id]? = some call ∧ call.Accepted

/-- `log` has one item for each accepted call. -/
structure PutOnce (c : Comm) (log : List TxSlot) : Prop where
  origin : ∀ slot ∈ log, c.Origin slot
  once : (log.map TxSlot.src).Nodup
  all : ∀ id, c.Accepts id → ∃ slot ∈ log, slot.src = id

/-- A call that goes on, or has been accepted, has passed the checks. -/
def Entered (c : Comm) : Prop :=
  ∀ call ∈ c.calls, call.pc = .returned (-1) ∨ commSendEnter call.args = .put

variable {c c' : Comm} {log : List TxSlot} {id : ℕ} {call : CommSend} {slot : TxSlot}

/-! ### Complete -/

/-- **No step leaves anything out**, but one that takes a stale keep-alive. -/
theorem Complete.step {a : CommAction} (h : Complete c log) (hordered : Ordered c log)
    (hstale : ¬c.TakesStale a) (hstep : commStep c a = some c') :
    Complete c' (log ++ c.puts a) := by
  intro prio
  cases commStep_effect hstep with
  | call args =>
    rw [puts_call, List.append_nil, ← h prio]
    rfl
  | @put id call q hcall hpc hput =>
    rw [puts_of_put hcall hpc hput, ofClass_concat, prio_item, ← h prio]
    exact circulating_put (MessageQueue.put_eq_some hput).1 prio
  | @full id call pc hcall _ hfull _ =>
    rw [puts_of_full hcall hfull, List.append_nil]
    exact h prio
  | @takeStale id call other q hcall hpc hget =>
    refine absurd ⟨by rw [hcall, Option.map_some, hpc], ?_⟩ hstale
    rw [MessageQueue.get_eq_some hget]
    exact List.cons_ne_nil _ _
  | noStale hcall hpc _ | release hcall hpc =>
    rw [puts_of_pc hcall (by simp [hpc]), List.append_nil]
    exact h prio
  | acquire htask _ | scan htask _ _ | unfilled htask _ =>
    rw [puts_task, List.append_nil, ← h prio]
    exact circulating_moveTask (by rw [htask]; rfl) prio
  | get htask hget =>
    have hitems := MessageQueue.get_eq_some hget
    rw [puts_task, List.append_nil, ← h prio]
    exact circulating_get (by rw [htask]; rfl) hitems
      (hordered.classed _ _ (by rw [hitems]; exact List.mem_cons_self)) prio
  | transmit htask _ =>
    rw [puts_task, List.append_nil, ← h prio]
    exact circulating_transmit htask prio

/-! ### One item a call -/

/-- A call is moved, and is not accepted by that. -/
theorem accepts_of_set {pc : SendPc} (hcall : c.calls[id]? = some call)
    (hpc : pc = .release ∨ pc = .returned 0 → call.Accepted)
    (hcalls : c'.calls = c.calls.set id { call with pc := pc }) {i : ℕ} (h : c'.Accepts i) :
    c.Accepts i := by
  obtain ⟨other, hother, hacc⟩ := h
  rw [hcalls] at hother
  rcases eq_or_ne id i with rfl | hne
  · rw [List.getElem?_set_self (List.getElem?_eq_some_iff.1 hcall).1] at hother
    obtain rfl := Option.some.inj hother
    exact ⟨call, hcall, hpc hacc⟩
  · rw [List.getElem?_set_ne hne] at hother
    exact ⟨other, hother, hacc⟩

/-- A step that accepts no call. -/
theorem PutOnce.of_same (h : PutOnce c log) (hp : Persist c c')
    (hback : ∀ id, c'.Accepts id → c.Accepts id) : PutOnce c' log :=
  ⟨fun slot hslot ↦ (h.origin slot hslot).persist hp, h.once, fun id hid ↦ h.all id (hback id hid)⟩

/-- A call puts its item. -/
theorem PutOnce.put (h : PutOnce c log) (hcall : c.calls[id]? = some call)
    (hpc : call.pc = .put ∨ call.pc = .putAgain)
    (hcalls : c'.calls = c.calls.set id { call with pc := .release }) :
    PutOnce c' (log ++ [⟨call.args.item, id⟩]) := by
  have hnot : ¬call.Accepted := by
    rcases hpc with hpc | hpc <;> simp [CommSend.Accepted, hpc]
  have hlt : id < c.calls.length := (List.getElem?_eq_some_iff.1 hcall).1
  have hmoved : c'.calls[id]? = some { call with pc := .release } := by
    rw [hcalls, List.getElem?_set_self hlt]
  have hp : Persist c c' := persist_set hcall .release (fun _ ↦ .inl rfl) hcalls
  refine ⟨fun slot hslot ↦ ?_, ?_, fun i hi ↦ ?_⟩
  · rcases List.mem_append.1 hslot with hslot | hslot
    · exact (h.origin slot hslot).persist hp
    · rw [List.mem_singleton.1 hslot]
      exact ⟨_, hmoved, rfl, .inl rfl⟩
  · rw [List.map_append, List.map_singleton, List.nodup_append]
    refine ⟨h.once, List.nodup_singleton _, fun i hi j hj ↦ ?_⟩
    obtain ⟨slot, hslot, rfl⟩ := List.mem_map.1 hi
    obtain rfl := List.mem_singleton.1 hj
    intro heq
    obtain ⟨before, hbefore, -, hacc⟩ := h.origin slot hslot
    rw [heq, hcall] at hbefore
    exact hnot (Option.some.inj hbefore ▸ hacc)
  · obtain ⟨other, hother, hacc⟩ := hi
    rcases eq_or_ne id i with rfl | hne
    · exact ⟨_, List.mem_append_right _ List.mem_cons_self, rfl⟩
    · rw [hcalls, List.getElem?_set_ne hne] at hother
      obtain ⟨slot, hslot, hsrc⟩ := h.all i ⟨other, hother, hacc⟩
      exact ⟨slot, List.mem_append_left _ hslot, hsrc⟩

/-- **Every step keeps it**, whatever the interleaving. -/
theorem PutOnce.step {a : CommAction} (h : PutOnce c log) (hstep : commStep c a = some c') :
    PutOnce c' (log ++ c.puts a) := by
  cases commStep_effect hstep with
  | call args =>
    rw [puts_call, List.append_nil]
    refine h.of_same (fun i call hcall hacc ↦ ⟨call, ?_, rfl, hacc⟩) fun i ⟨call, hcall, hacc⟩ ↦ ?_
    · exact (List.getElem?_append_left (List.getElem?_eq_some_iff.1 hcall).1).trans hcall
    · rw [List.getElem?_append] at hcall
      split at hcall
      · exact ⟨call, hcall, hacc⟩
      · rw [List.getElem?_singleton] at hcall
        split at hcall
        · obtain rfl := Option.some.inj hcall
          have henter : commSendEnter args ≠ .release ∧ commSendEnter args ≠ .returned 0 := by
            rw [commSendEnter]
            split_ifs <;> simp
          exact absurd hacc (not_or.2 henter)
        · cases hcall
  | @put id call q hcall hpc hput =>
    rw [puts_of_put hcall hpc hput]
    exact h.put hcall hpc rfl
  | @full id call pc hcall hpc hfull hnext =>
    have hnot : ¬call.Accepted := by
      rcases hpc with hpc | hpc <;> simp [CommSend.Accepted, hpc]
    have hpc' : ¬(pc = .release ∨ pc = .returned 0) := by
      rcases hnext with ⟨rfl, -⟩ | rfl <;> simp
    rw [puts_of_full hcall hfull, List.append_nil]
    exact h.of_same (persist_set hcall pc (fun hacc ↦ absurd hacc hnot) rfl)
      fun i ↦ accepts_of_set hcall (fun hacc ↦ absurd hacc hpc') rfl
  | @takeStale id call _ _ hcall hpc _ | @noStale id call hcall hpc _ =>
    have hnot : ¬call.Accepted := by simp [CommSend.Accepted, hpc]
    rw [puts_of_pc hcall (by simp [hpc]), List.append_nil]
    exact h.of_same (persist_set hcall .putAgain (fun hacc ↦ absurd hacc hnot) rfl)
      fun i ↦ accepts_of_set hcall (fun hacc ↦ by simp at hacc) rfl
  | release hcall hpc =>
    rw [puts_of_pc hcall (by simp [hpc]), List.append_nil]
    exact h.of_same (persist_set hcall (.returned 0) (fun _ ↦ .inr rfl) rfl)
      fun i ↦ accepts_of_set hcall (fun _ ↦ .inl hpc) rfl
  | acquire _ _ | get _ _ | scan _ _ _ | unfilled _ _ | transmit _ _ =>
    rw [puts_task, List.append_nil]
    exact h.of_same (.of_calls_eq rfl) fun i hi ↦ hi

/-! ### The checks -/

theorem Entered.set (h : Entered c) (hcall : c.calls[id]? = some call) {pc : SendPc}
    (hpc : call.pc ≠ .returned (-1)) (hcalls : c'.calls = c.calls.set id { call with pc := pc }) :
    Entered c' := by
  intro other hother
  rw [hcalls] at hother
  rcases List.mem_or_eq_of_mem_set hother with hother | rfl
  · exact h other hother
  · exact .inr ((h call (List.mem_of_getElem? hcall)).resolve_left hpc)

theorem Entered.step {a : CommAction} (h : Entered c) (hstep : commStep c a = some c') :
    Entered c' := by
  cases commStep_effect hstep with
  | call args =>
    intro other hother
    rcases List.mem_append.1 hother with hother | hother
    · exact h other hother
    · obtain rfl := List.mem_singleton.1 hother
      show commSendEnter args = _ ∨ commSendEnter args = _
      rw [commSendEnter]
      split_ifs <;> simp
  | put hcall hpc _ => exact h.set hcall (by rcases hpc with hpc | hpc <;> simp [hpc]) rfl
  | full hcall hpc _ _ => exact h.set hcall (by rcases hpc with hpc | hpc <;> simp [hpc]) rfl
  | takeStale hcall hpc _ | noStale hcall hpc _ | release hcall hpc =>
    exact h.set hcall (by simp [hpc]) rfl
  | acquire _ _ | get _ _ | scan _ _ _ | unfilled _ _ | transmit _ _ => exact h

/-! ### When nothing is under way -/

/-- No call is between its first queue operation and its return, and the task waits for a token. -/
structure Idle (c : Comm) : Prop where
  calls : c.Uninvolved
  task : c.task = .acquire
  sem : c.semTxReady.count = 0

/-- What a run without a replaced keep-alive has come to. -/
structure Accounted (c : Comm) (log : List TxSlot) : Prop where
  ordered : Ordered c log
  complete : Complete c log
  matched : Matched c
  putOnce : PutOnce c log
  entered : Entered c
  frames : Provenance c

theorem accounted_of_reaches
    (h : Reaches (logged commStep puts) (fun s a ↦ ¬s.1.TakesStale a) (communicationCreate, [])
      (c, log)) : Accounted c log := by
  refine h.invariant (I := fun s ↦ Accounted s.1 s.2) ?_ fun {s s' a} hs hstale hstep ↦ ?_
  · refine ⟨ordered_create, fun _ ↦ rfl, matched_create, ⟨?_, List.nodup_nil, ?_⟩, ?_,
      provenance_create⟩
    · exact fun slot hslot ↦ absurd hslot List.not_mem_nil
    · exact fun id ⟨call, hcall, _⟩ ↦ by cases hcall
    · exact fun call hcall ↦ absurd hcall List.not_mem_nil
  · obtain ⟨ha, hlog⟩ := logged_eq_some hstep
    rw [hlog]
    exact ⟨hs.ordered.step ha, hs.complete.step hs.ordered hstale ha, hs.matched.step hstale ha,
      hs.putOnce.step ha, hs.entered.step ha, hs.frames.step ha⟩

/-- With nothing under way, all queues are empty. -/
theorem Matched.items_of_idle (h : Matched c) (hidle : c.Idle) (prio : CommPrio) :
    (c.txq prio).items = [] := by
  have hcount := h.count
  rw [hidle.sem, hidle.calls.releasing, holding_acquire hidle.task, queued] at hcount
  refine List.length_eq_zero_iff.1 ?_
  cases prio <;> omega

/-- **What is transmitted is what was put**, each class in its order. -/
theorem Accounted.sent_of_idle (h : Accounted c log) (hidle : c.Idle) (prio : CommPrio) :
    ofClass prio (c.sent.filterMap Transmission.slot?) = ofClass prio log := by
  rw [← h.complete prio, circulating, h.matched.items_of_idle hidle, hidle.task]
  simp

/-- Every transmission comes from a call that passed the checks. -/
theorem Accounted.transmission (h : Accounted c log) {t : Transmission} (ht : t ∈ c.sent) :
    ∃ id, t.slot? = some ⟨t.item, id⟩ ∧ t.item.len.toNat ≤ commMaxValue := by
  obtain ⟨-, id, hid, call, hcall, hitem, hacc⟩ :=
    (onlyAccepted_of h.frames h.matched).transmits t ht
  have hne : call.pc ≠ .returned (-1) := by
    rintro heq
    simp [CommSend.Accepted, heq] at hacc
  have henters := (h.entered call (List.mem_of_getElem? hcall)).resolve_left hne
  refine ⟨id, by rw [Transmission.slot?, hid]; rfl, ?_⟩
  have hlen : call.args.item.len = t.item.len := congrArg CommTxItem.len hitem
  rw [← hlen]
  show call.args.valueLen.toNat ≤ commMaxValue
  rw [commSendEnter] at henters
  split_ifs at henters with _ _ hlen
  exact Nat.not_lt.1 hlen

end Comm

end SubmarineMonitor
