import Mathlib.Data.List.Nodup
import Mathlib.Data.List.Perm.Subperm
import SubmarineMonitor.Node.Communication

/-!
# What reaches the wire

Two invariants of the transmit side, of very different standing.

* `Provenance` holds in every state of every run: an item in a queue, in the task's hand or on the
  wire was put there by an accepted `comm_send`, and no item is in two places.
* `Matched` says that tokens and items are in balance, which is what keeps the task from scanning
  three empty queues. It holds as long as no `comm_send` takes a stale keep-alive out of the mailbox:
  that call rings the doorbell for an item whose predecessor rang it already, and from then on there
  is one token too many.

`transmitted_accepted` is what the two give together, and `transmitted_unfilled` the run in which
the surplus token makes the task transmit whatever its stack slot holds.

## Identity

A call's index in `calls` is its identity and never changes, and a queued item carries it. So
*twice* and *nobody's* can be said: the slots that are queued, in hand or transmitted have different
indices (`Provenance`), and a transmission without an index came from no queue.

## Why two invariants

`Provenance` needs no condition: items are moved and never copied. `Matched` counts, and it is what
the code gets wrong: a replaced keep-alive leaves a token. Under the condition that no call takes a
stale keep-alive out, tokens and items stay equal in number, and the three scans of the task cannot
come up empty, although another task may put an item between two of them; the count in the invariant
includes the call that is about to release. The condition is on the state and the action before the
step.

## What is left out

Nothing is said here about items that are never transmitted (`Node.TxDrain`) nor about the order
(`Node.TxOrder`).
-/

open Machine

namespace SubmarineMonitor

/-! ### Items in circulation -/

/-- The item in the task's hand, if a queue filled it in. -/
def TxPc.slot? : TxPc → Option TxSlot
  | .encode item (some src) => some ⟨item, src⟩
  | _ => none

@[simp] theorem slot?_acquire : TxPc.acquire.slot? = none := rfl

@[simp] theorem slot?_get (prio : CommPrio) : (TxPc.get prio).slot? = none := rfl

@[simp] theorem slot?_unfilled (item : CommTxItem) : (TxPc.encode item none).slot? = none := rfl

@[simp]
theorem slot?_filled (item : CommTxItem) (src : ℕ) :
    (TxPc.encode item (some src)).slot? = some ⟨item, src⟩ :=
  rfl

/-- What a transmission was encoded from, if a queue filled it in. -/
def Transmission.slot? (t : Transmission) : Option TxSlot :=
  t.src.map fun src ↦ ⟨t.item, src⟩

namespace Comm

/-- Every item that was put and not lost: transmitted, in the task's hand, or queued. -/
def slots (c : Comm) : List TxSlot :=
  c.sent.filterMap Transmission.slot? ++ c.task.slot?.toList ++ (c.txq .high).items ++
    (c.txq .med).items ++ (c.txq .low).items

/-- The call an item came from was accepted, and was about that item. -/
def Origin (c : Comm) (slot : TxSlot) : Prop :=
  ∃ call, c.calls[slot.src]? = some call ∧ call.args.item = slot.item ∧ call.Accepted

/-- **Nothing is fabricated or duplicated.** -/
structure Provenance (c : Comm) : Prop where
  /-- Every item in circulation comes from an accepted call. -/
  origin : ∀ slot ∈ c.slots, c.Origin slot
  /-- No call has two items in circulation. -/
  once : (c.slots.map TxSlot.src).Nodup
  /-- A transmitted frame is what the encoder made of its item. -/
  frames : ∀ t ∈ c.sent,
    tlvEncode t.item.tag (some t.item.value.toList) t.item.len tlvMaxFrame = .ok t.frame

/-- Accepted calls stay accepted, and stay about what they were about. -/
def Persist (c c' : Comm) : Prop :=
  ∀ (id : ℕ) (call : CommSend), c.calls[id]? = some call → call.Accepted →
    ∃ call', c'.calls[id]? = some call' ∧ call'.args = call.args ∧ call'.Accepted

variable {c c' : Comm} {id : ℕ} {call : CommSend} {pc : SendPc} {prio : CommPrio}
  {q : MessageQueue TxSlot (txqCapacity prio)} {slot : TxSlot}

theorem Persist.of_calls_eq (h : c'.calls = c.calls) : Persist c c' := by
  intro id call hcall hacc
  exact ⟨call, by rw [h, hcall], rfl, hacc⟩

/-- Moving one call keeps the others, and keeps this one accepted if it was. -/
theorem persist_set (hcall : c.calls[id]? = some call) (pc : SendPc)
    (hpc : call.Accepted → pc = .release ∨ pc = .returned 0)
    (hcalls : c'.calls = c.calls.set id { call with pc := pc }) : Persist c c' := by
  intro i call' hcall' hacc
  rw [hcalls]
  by_cases hi : id = i
  · subst hi
    obtain rfl : call = call' := Option.some.inj (hcall.symm.trans hcall')
    have hlt : id < c.calls.length := (List.getElem?_eq_some_iff.1 hcall).1
    exact ⟨_, List.getElem?_set_self hlt, rfl, hpc hacc⟩
  · exact ⟨call', by rw [List.getElem?_set_ne hi, hcall'], rfl, hacc⟩

theorem Origin.persist (h : c.Origin slot) (hp : Persist c c') : c'.Origin slot := by
  obtain ⟨call, hcall, hitem, hacc⟩ := h
  obtain ⟨call', hcall', hargs, hacc'⟩ := hp _ _ hcall hacc
  exact ⟨call', hcall', by rw [hargs, hitem], hacc'⟩

/-- Items may be moved about and lost. -/
theorem Provenance.of_subperm (h : Provenance c) (hs : c'.slots.Subperm c.slots)
    (hp : Persist c c') (hf : ∀ t ∈ c'.sent,
      tlvEncode t.item.tag (some t.item.value.toList) t.item.len tlvMaxFrame = .ok t.frame) :
    Provenance c' := by
  refine ⟨fun slot hslot ↦ (h.origin slot (hs.subset hslot)).persist hp, ?_, hf⟩
  obtain ⟨l, hperm, hsub⟩ := hs
  rw [← (hperm.map TxSlot.src).nodup_iff]
  exact h.once.sublist (hsub.map _)

/-- A call that was not accepted has nothing in circulation, so its item may be added. -/
theorem Provenance.of_perm_cons (h : Provenance c) (hcall : c.calls[id]? = some call)
    (hacc : ¬call.Accepted) (hs : c'.slots.Perm (⟨call.args.item, id⟩ :: c.slots))
    (hp : Persist c c') (hcall' : c'.Origin ⟨call.args.item, id⟩) (hsent : c'.sent = c.sent) :
    Provenance c' := by
  refine ⟨?_, ?_, hsent ▸ h.frames⟩
  · intro slot hslot
    rcases List.mem_cons.1 (hs.subset hslot) with rfl | hmem
    · exact hcall'
    · exact (h.origin slot hmem).persist hp
  · rw [(hs.map TxSlot.src).nodup_iff, List.map_cons, List.nodup_cons]
    refine ⟨fun hmem ↦ ?_, h.once⟩
    obtain ⟨slot, hslot, hsrc⟩ := List.mem_map.1 hmem
    obtain ⟨call', hcall', -, hacc'⟩ := h.origin slot hslot
    rw [show slot.src = id from hsrc, hcall] at hcall'
    exact hacc (Option.some.inj hcall' ▸ hacc')

/-! ### Where a step moves items -/

theorem slots_setPc : (c.setPc id call pc).slots = c.slots :=
  rfl

theorem slots_put (hq : q.items = (c.txq prio).items ++ [slot]) :
    (c.setTxq prio q).slots.Perm (slot :: c.slots) := by
  rw [List.perm_iff_count]
  intro x
  cases prio <;> simp [slots, setTxq, hq, List.count_cons] <;> omega

theorem slots_get (htask : c.task.slot? = none) (hq : (c.txq prio).items = slot :: q.items) :
    (Comm.slots { c.setTxq prio q with task := .encode slot.item (some slot.src) }).Perm
      c.slots := by
  obtain ⟨item, src⟩ := slot
  rw [List.perm_iff_count]
  intro x
  cases prio <;> simp [slots, setTxq, htask, hq, List.count_cons] <;> omega

theorem slots_drop (hq : (c.txq prio).items = slot :: q.items) :
    (c.setTxq prio q).slots.Subperm c.slots := by
  refine List.Sublist.subperm ?_
  cases prio
  all_goals simp only [slots, setTxq, hq, List.append_assoc, Function.update_self,
    Function.update_of_ne, ne_eq, reduceCtorEq, not_false_eq_true]
  · exact (((List.sublist_cons_self _ _).append_right _).append_left _).append_left _
  · exact ((((List.sublist_cons_self _ _).append_right _).append_left _).append_left _).append_left _
  · exact ((((List.sublist_cons_self _ _).append_left _).append_left _).append_left _).append_left _

theorem slots_transmit {item : CommTxItem} {src : Option ℕ} {frame : List UInt8}
    (htask : c.task = .encode item src) :
    Comm.slots { c with task := .acquire, sent := c.sent ++ [⟨frame, item, src⟩] } =
      c.slots := by
  cases src <;> simp [slots, htask, Transmission.slot?]

theorem slots_moveTask {task : TxPc} {sem : Semaphore 10} (h : task.slot? = c.task.slot?) :
    Comm.slots { c with semTxReady := sem, task := task } = c.slots := by
  rw [slots, slots, h]

/-- **Provenance is kept by every step**, whatever the order. -/
theorem Provenance.step {a : CommAction} (h : Provenance c) (hstep : commStep c a = some c') :
    Provenance c' := by
  cases commStep_effect hstep with
  | call args =>
    refine h.of_subperm (.refl _) (fun i call hcall hacc ↦ ⟨call, ?_, rfl, hacc⟩) h.frames
    exact (List.getElem?_append_left (List.getElem?_eq_some_iff.1 hcall).1).trans hcall
  | @put id call q hcall hpc hput =>
    have hacc : ¬call.Accepted := by
      rcases hpc with hpc | hpc <;> simp [CommSend.Accepted, hpc]
    have hlt : id < c.calls.length := (List.getElem?_eq_some_iff.1 hcall).1
    have hslots := slots_put (MessageQueue.put_eq_some hput).1
    refine h.of_perm_cons hcall hacc (by rwa [slots_setPc])
      (persist_set hcall .release (fun _ ↦ .inl rfl) rfl) ?_ rfl
    exact ⟨{ call with pc := .release }, List.getElem?_set_self hlt, rfl, .inl rfl⟩
  | @full id call pc hcall hpc _ _ =>
    refine h.of_subperm (.refl _) (persist_set hcall pc (fun hacc ↦ ?_) rfl) h.frames
    rcases hpc with hpc | hpc <;> simp [CommSend.Accepted, hpc] at hacc
  | takeStale hcall hpc hget =>
    have hslots := slots_drop (MessageQueue.get_eq_some hget)
    refine h.of_subperm (by rwa [slots_setPc])
      (persist_set hcall .putAgain (fun hacc ↦ ?_) rfl) h.frames
    simp [CommSend.Accepted, hpc] at hacc
  | noStale hcall hpc _ =>
    refine h.of_subperm (.refl _) (persist_set hcall .putAgain (fun hacc ↦ ?_) rfl) h.frames
    simp [CommSend.Accepted, hpc] at hacc
  | release hcall _ =>
    exact h.of_subperm (.refl _) (persist_set hcall (.returned 0) (fun _ ↦ .inr rfl) rfl) h.frames
  | acquire htask _ =>
    exact h.of_subperm (by rw [slots_moveTask (by simp [htask])]) (.of_calls_eq rfl) h.frames
  | get htask hget =>
    exact h.of_subperm (slots_get (by simp [htask]) (MessageQueue.get_eq_some hget)).subperm
      (.of_calls_eq rfl) h.frames
  | scan htask _ _ =>
    exact h.of_subperm (by rw [slots_moveTask (by simp [htask])]) (.of_calls_eq rfl) h.frames
  | unfilled htask _ =>
    exact h.of_subperm (by rw [slots_moveTask (by simp [htask])]) (.of_calls_eq rfl) h.frames
  | transmit htask hframe =>
    refine h.of_subperm (by rw [slots_transmit htask]) (.of_calls_eq rfl) fun t ht ↦ ?_
    rcases List.mem_append.1 ht with ht | ht
    · exact h.frames t ht
    · obtain rfl := List.mem_singleton.1 ht
      exact hframe

/-! ### Tokens and items -/

/-- How many items are queued. -/
def queued (c : Comm) : ℕ :=
  (c.txq .high).items.length + (c.txq .med).items.length + (c.txq .low).items.length

/-- How many calls have put their item and not yet rung the doorbell. -/
def releasing (c : Comm) : ℕ :=
  c.calls.countP fun call ↦ call.pc = .release

/-- The task holds a token for an item it has not taken yet. -/
def holding (c : Comm) : ℕ :=
  match c.task with
  | .get _ => 1
  | _ => 0

theorem holding_acquire (htask : c.task = .acquire) : c.holding = 0 := by
  rw [holding, htask]

theorem holding_get {prio : CommPrio} (htask : c.task = .get prio) : c.holding = 1 := by
  rw [holding, htask]

theorem holding_encode {item : CommTxItem} {src : Option ℕ} (htask : c.task = .encode item src) :
    c.holding = 0 := by
  rw [holding, htask]

/-- **Every queued item has its token, and no token is without an item.** A token is in the
semaphore, about to be released, or in the task's hand. -/
structure Matched (c : Comm) : Prop where
  count : c.queued = c.semTxReady.count + c.releasing + c.holding
  /-- The task does not come to the second queue in vain. -/
  scanMed : c.task = .get .med → 0 < (c.txq .med).items.length + (c.txq .low).items.length
  /-- Nor to the third. -/
  scanLow : c.task = .get .low → 0 < (c.txq .low).items.length
  /-- So it never encodes what no queue filled in. -/
  filled : ∀ item, c.task ≠ .encode item none
  sent : ∀ t ∈ c.sent, t.src ≠ none

theorem queued_le (c : Comm) : c.queued ≤ 9 := by
  have high := (c.txq .high).bounded
  have med := (c.txq .med).bounded
  have low := (c.txq .low).bounded
  simp only [txqCapacity] at high med low
  rw [queued]
  omega

theorem queued_put (hq : q.items = (c.txq prio).items ++ [slot]) :
    (c.setTxq prio q).queued = c.queued + 1 := by
  cases prio <;> simp [queued, setTxq, hq] <;> omega

theorem length_le_put (hq : q.items = (c.txq prio).items ++ [slot]) (prio' : CommPrio) :
    (c.txq prio').items.length ≤ ((c.setTxq prio q).txq prio').items.length := by
  rcases eq_or_ne prio' prio with rfl | hne
  · simp [setTxq, hq]
  · simp [setTxq, Function.update_of_ne hne]

theorem queued_get (hq : (c.txq prio).items = slot :: q.items) :
    (c.setTxq prio q).queued + 1 = c.queued := by
  cases prio <;> simp [queued, setTxq, hq] <;> omega

theorem releasing_setPc (hcall : c.calls[id]? = some call) (pc : SendPc) :
    (c.setPc id call pc).releasing + (if call.pc = .release then 1 else 0) =
      c.releasing + if pc = .release then 1 else 0 := by
  obtain ⟨hlt, hget⟩ := List.getElem?_eq_some_iff.1 hcall
  have hset := List.countP_set (p := fun call ↦ decide (call.pc = .release))
    (a := { call with pc := pc }) hlt
  rw [hget] at hset
  have hpos : call.pc = .release → 0 < c.releasing := by
    intro hpc
    refine List.countP_pos_iff.2 ⟨call, List.mem_of_getElem? hcall, by simp [hpc]⟩
  simp only [releasing, setPc, hset, decide_eq_true_eq] at hpos ⊢
  split_ifs at hpos ⊢ <;> simp_all

/-- A call that begins is not about to release. -/
theorem releasing_call (c : Comm) (args : SendArgs) :
    Comm.releasing { c with calls := c.calls ++ [⟨args, commSendEnter args⟩] } = c.releasing := by
  have hpc : commSendEnter args ≠ .release := by
    rw [commSendEnter]
    split_ifs <;> simp
  simp [releasing, hpc]

/-- Nor is one that goes on without its item in a queue. -/
theorem releasing_same (hcall : c.calls[id]? = some call) {pc : SendPc} (hpc : call.pc ≠ .release)
    (hpc' : pc ≠ .release) : (c.setPc id call pc).releasing = c.releasing := by
  have hreleasing := releasing_setPc hcall pc
  rwa [if_neg hpc, if_neg hpc'] at hreleasing

/-- A call that puts its item does not release yet. -/
theorem ne_release_of_put (hpc : call.pc = .put ∨ call.pc = .putAgain) : call.pc ≠ .release := by
  rcases hpc with hpc | hpc <;> simp [hpc]

/-- A call that finds its queue full leaves the count as it is. -/
theorem releasing_full (hcall : c.calls[id]? = some call) {pc : SendPc}
    (hpc : call.pc = .put ∨ call.pc = .putAgain)
    (hnext : pc = .getStale ∧ call.args.prio = .high ∧ call.pc = .put ∨ pc = .returned (-1)) :
    (c.setPc id call pc).releasing = c.releasing := by
  apply releasing_same hcall (ne_release_of_put hpc)
  rcases hnext with ⟨rfl, -⟩ | rfl <;> simp

/-- A call with its item in a queue is about to release. -/
theorem releasing_begin (hcall : c.calls[id]? = some call)
    (hpc : call.pc = .put ∨ call.pc = .putAgain) :
    (c.setPc id call .release).releasing = c.releasing + 1 := by
  have hreleasing := releasing_setPc hcall .release
  rwa [if_neg (ne_release_of_put hpc), if_pos rfl] at hreleasing

/-- Until it has. -/
theorem releasing_end (hcall : c.calls[id]? = some call) (hpc : call.pc = .release) (rc : ℤ) :
    (c.setPc id call (.returned rc)).releasing + 1 = c.releasing := by
  have hreleasing := releasing_setPc hcall (.returned rc)
  rwa [if_pos hpc, if_neg (by simp)] at hreleasing

/-- A call's step keeps the balance if it keeps the count and takes nothing from the two lower
queues. -/
theorem Matched.of_send (h : Matched c) (htask : c'.task = c.task) (hsent : c'.sent = c.sent)
    (hmed : (c.txq .med).items.length ≤ (c'.txq .med).items.length)
    (hlow : (c.txq .low).items.length ≤ (c'.txq .low).items.length)
    (hcount : c'.queued = c'.semTxReady.count + c'.releasing + c'.holding) : Matched c' := by
  refine ⟨hcount, fun ht ↦ ?_, fun ht ↦ ?_, by rw [htask]; exact h.filled, by
    rw [hsent]; exact h.sent⟩
  · have hpos := h.scanMed (htask ▸ ht)
    omega
  · have hpos := h.scanLow (htask ▸ ht)
    omega

/-- The move takes a stale keep-alive out of the mailbox. -/
def TakesStale (c : Comm) : CommAction → Prop
  | .send id => (c.calls[id]?.map CommSend.pc) = some .getStale ∧ (c.txq .high).items ≠ []
  | _ => False

instance (c : Comm) (a : CommAction) : Decidable (c.TakesStale a) :=
  match a with
  | .call _ => inferInstanceAs (Decidable False)
  | .send _ => inferInstanceAs (Decidable (_ ∧ _))
  | .task _ => inferInstanceAs (Decidable False)

/-- **The balance is kept** by every step that takes no stale keep-alive out of the mailbox. -/
theorem Matched.step {a : CommAction} (h : Matched c) (hstale : ¬c.TakesStale a)
    (hstep : commStep c a = some c') : Matched c' := by
  have hcount := h.count
  have hqueued := c.queued_le
  cases commStep_effect hstep with
  | call args =>
    refine h.of_send rfl rfl le_rfl le_rfl ?_
    rw [releasing_call]
    exact hcount
  | @put id call q hcall hpc hput =>
    have hitems := (MessageQueue.put_eq_some hput).1
    have hqueue := queued_put hitems
    have hreleasing : ((c.setTxq call.args.prio q).setPc id call .release).releasing =
        c.releasing + 1 := releasing_begin hcall hpc
    refine h.of_send rfl rfl (length_le_put hitems .med) (length_le_put hitems .low) ?_
    show (c.setTxq call.args.prio q).queued = c.semTxReady.count + _ + c.holding
    omega
  | @full id call pc hcall hpc _ hnext =>
    have hreleasing := releasing_full hcall hpc hnext
    refine h.of_send rfl rfl le_rfl le_rfl ?_
    show c.queued = c.semTxReady.count + _ + c.holding
    omega
  | @takeStale id call slot q hcall hpc hget =>
    -- the one step that takes an item and leaves its token
    refine absurd ⟨by rw [hcall, Option.map_some, hpc], ?_⟩ hstale
    rw [MessageQueue.get_eq_some hget]
    exact List.cons_ne_nil _ _
  | @noStale id call hcall hpc _ =>
    have hreleasing : (c.setPc id call .putAgain).releasing = c.releasing :=
      releasing_same hcall (by simp [hpc]) (by simp)
    refine h.of_send rfl rfl le_rfl le_rfl ?_
    show c.queued = c.semTxReady.count + _ + c.holding
    omega
  | @release id call hcall hpc =>
    have hreleasing : ({ c with semTxReady := c.semTxReady.release }.setPc id call
        (.returned 0)).releasing + 1 = c.releasing := releasing_end hcall hpc 0
    have hroom : c.semTxReady.count < 10 := by omega
    refine h.of_send rfl rfl le_rfl le_rfl ?_
    show c.queued = c.semTxReady.release.count + _ + c.holding
    rw [Semaphore.count_release_of_lt hroom]
    omega
  | @acquire junk sem htask hsem =>
    have htoken := Semaphore.acquire_eq_some hsem
    rw [holding_acquire htask] at hcount
    refine ⟨?_, by simp, by simp, by simp, h.sent⟩
    show c.queued = sem.count + c.releasing + 1
    omega
  | @get junk prio slot q htask hget =>
    have hqueue := queued_get (MessageQueue.get_eq_some hget)
    rw [holding_get htask] at hcount
    refine ⟨?_, by simp, by simp, by simp, h.sent⟩
    show (c.setTxq prio q).queued = c.semTxReady.count + c.releasing + 0
    omega
  | @scan junk prio prio' htask hempty hnext =>
    rw [holding_get htask] at hcount
    refine ⟨hcount, fun ht ↦ ?_, fun ht ↦ ?_, by simp, h.sent⟩
    · obtain ⟨rfl, -⟩ : prio = .high ∧ prio' = .med := by
        rcases hnext with hnext | ⟨rfl, rfl⟩
        · exact hnext
        · cases ht
      rw [queued, hempty, List.length_nil] at hcount
      show 0 < (c.txq .med).items.length + (c.txq .low).items.length
      omega
    · obtain ⟨rfl, -⟩ : prio = .med ∧ prio' = .low := by
        rcases hnext with ⟨rfl, rfl⟩ | hnext
        · cases ht
        · exact hnext
      have hpos := h.scanMed htask
      rw [hempty, List.length_nil] at hpos
      show 0 < (c.txq .low).items.length
      omega
  | unfilled htask hempty =>
    have hpos := h.scanLow htask
    rw [hempty] at hpos
    exact absurd hpos (lt_irrefl 0)
  | @transmit junk item src frame htask _ =>
    rw [holding_encode htask] at hcount
    refine ⟨hcount, by simp, by simp, by simp, fun t ht ↦ ?_⟩
    rcases List.mem_append.1 ht with ht | ht
    · exact h.sent t ht
    · obtain rfl := List.mem_singleton.1 ht
      rintro rfl
      exact h.filled item htask

/-! ### What is transmitted -/

/-- Only accepted items are encoded and transmitted, and none of them twice. -/
structure OnlyAccepted (c : Comm) : Prop where
  /-- What the task is about to encode, some accepted call filled in. -/
  encodes : ∀ item src, c.task = .encode item src → ∃ id, src = some id ∧ c.Origin ⟨item, id⟩
  /-- Every transmitted frame is the encoding of an accepted call's item. -/
  transmits : ∀ t ∈ c.sent,
    tlvEncode t.item.tag (some t.item.value.toList) t.item.len tlvMaxFrame = .ok t.frame ∧
      ∃ id, t.src = some id ∧ c.Origin ⟨t.item, id⟩
  /-- No call's item is transmitted twice. -/
  once : (c.sent.map Transmission.src).Nodup

theorem onlyAccepted_of (hp : Provenance c) (hm : Matched c) : OnlyAccepted c := by
  have hsent : ∀ t ∈ c.sent, ∃ id, t.src = some id ∧ (⟨t.item, id⟩ : TxSlot) ∈ c.slots := by
    intro t ht
    obtain ⟨id, hid⟩ := Option.ne_none_iff_exists'.1 (hm.sent t ht)
    refine ⟨id, hid, ?_⟩
    have hslot : (⟨t.item, id⟩ : TxSlot) ∈ c.sent.filterMap Transmission.slot? :=
      List.mem_filterMap.2 ⟨t, ht, by rw [Transmission.slot?, hid]; rfl⟩
    simp [slots, hslot]
  constructor
  · intro item src htask
    obtain ⟨id, rfl⟩ := Option.ne_none_iff_exists'.1 fun h : src = none ↦
      hm.filled item (h ▸ htask)
    refine ⟨id, rfl, hp.origin _ ?_⟩
    simp [slots, htask]
  · intro t ht
    obtain ⟨id, hid, hslot⟩ := hsent t ht
    exact ⟨hp.frames t ht, id, hid, hp.origin _ hslot⟩
  · have hmap : c.sent.map Transmission.src =
        ((c.sent.filterMap Transmission.slot?).map TxSlot.src).map some := by
      rw [List.map_map, List.map_filterMap, ← List.filterMap_eq_map]
      refine List.filterMap_congr fun t ht ↦ ?_
      obtain ⟨id, hid, -⟩ := hsent t ht
      simp [Transmission.slot?, hid]
    have honce := hp.once
    simp only [slots, List.map_append] at honce
    rw [hmap]
    refine List.Nodup.map (fun _ _ h ↦ Option.some.inj h) (honce.sublist ?_)
    simp only [List.append_assoc]
    exact List.sublist_append_left _ _

theorem provenance_create : Provenance communicationCreate :=
  ⟨by simp [slots, communicationCreate], by simp [slots, communicationCreate],
    by simp [communicationCreate]⟩

theorem matched_create : Matched communicationCreate :=
  ⟨rfl, nofun, nofun, nofun, nofun⟩

/-- **What is transmitted was accepted**, in every run in which no call takes a stale keep-alive out
of the mailbox: every frame encodes an item some `comm_send` accepted, and no item is transmitted
twice. -/
theorem transmitted_accepted {c : Comm}
    (h : Reaches commStep (fun c a ↦ ¬c.TakesStale a) communicationCreate c) :
    OnlyAccepted c := by
  have hp : Provenance c := h.invariant provenance_create fun hp _ hstep ↦ hp.step hstep
  have hm : Matched c := h.invariant matched_create fun hm hok hstep ↦ hm.step hok hstep
  exact onlyAccepted_of hp hm

/-! ### The surplus token -/

/-- A `comm_send` of a keep-alive without payload. -/
def keepAliveArgs : SendArgs :=
  ⟨false, tlvTagKeepAlive, none, 0⟩

/-- What an uninitialised local happens to hold. -/
def stackJunk : CommTxItem :=
  ⟨0xCC, 0, Vector.replicate 96 0xCC⟩

/-- A keep-alive, and the task transmits it. -/
theorem transmitted_accepted_keepAlive :
    ∃ c, Reaches commStep (fun c a ↦ ¬c.TakesStale a) communicationCreate c ∧
      c.sent.length = 1 ∧ OnlyAccepted c := by
  have hrun : ∃ c, exec (guarded commStep fun c a ↦ ¬c.TakesStale a) communicationCreate
      [.call keepAliveArgs, .send 0, .send 0, .task stackJunk, .task stackJunk,
        .task stackJunk] = some c ∧ c.sent.length = 1 := ⟨_, rfl, rfl⟩
  obtain ⟨c, hexec, hsent⟩ := hrun
  exact ⟨c, reaches_of_exec hexec, hsent, transmitted_accepted (reaches_of_exec hexec)⟩

/-- **The mailbox replacement leaves a token over.** The second keep-alive replaces the first in the
mailbox, but both ring the doorbell. The task transmits the second, comes back for the other token,
finds all three queues empty and transmits its uninitialised local. -/
theorem transmitted_unfilled :
    ∃ c, exec commStep communicationCreate
        [.call keepAliveArgs, .send 0, .send 0, .call keepAliveArgs, .send 1, .send 1, .send 1,
          .send 1, .task stackJunk, .task stackJunk, .task stackJunk, .task stackJunk,
          .task stackJunk, .task stackJunk, .task stackJunk, .task stackJunk] = some c ∧
      (c.sent.map fun t ↦ (t.item.tag, t.src)) = [(tlvTagKeepAlive, some 1), (0xCC, none)] ∧
      ¬OnlyAccepted c := by
  refine ⟨_, rfl, rfl, fun h ↦ ?_⟩
  obtain ⟨-, id, hid, -⟩ := h.transmits _ (List.mem_cons_of_mem _ (List.mem_cons_self ..))
  cases hid

end Comm

end SubmarineMonitor
