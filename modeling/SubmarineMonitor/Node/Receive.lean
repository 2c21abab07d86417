import SubmarineMonitor.Foundation.Machine
import SubmarineMonitor.Foundation.Rtos
import SubmarineMonitor.Node.Routing
import SubmarineMonitor.Protocol.Recovery
import SubmarineMonitor.Protocol.Stream

/-!
# The receive side of the LNC's communication module

The interrupt `HAL_UART_RxCpltCallback` puts one byte into `rxq_bytes` and asks for the next;
`comm_rx_task` takes the bytes out, feeds them to the receiver and routes the frames it finishes.
The task is outrun whenever a handler takes long, and a byte that finds the queue full is gone.

Interrupts come at any moment, so the task's `osMessageQueueGet`, its `tlv_receiver_feed_byte` and
its `comm_route_frame` are steps of their own. An interrupt is one step: no task runs inside it. The
bytes that came in are remembered with the number that were waiting then. This is bookkeeping, and
no step of the code looks at it.

* `commRx_routes`: whatever the interleaving, the reception is never left off, and what is routed
  are the frames in the bytes that came in, less exactly those bytes that came in while 128 were
  waiting.
* `commRx_recovers`: once bytes no longer get lost, at most one wrong frame is routed, one that
  began before, and then every frame that begins 259 bytes or more later.

## The grain of the steps

An interrupt runs to its end before any task goes on, and is one step. The task has three: it takes
a byte out of the queue, feeds it, and routes a finished frame, since a handler may take long and
bytes come in meanwhile. The receiver is the one of `Protocol.Receiver`, and what it delivers is
read off by the scanner there.

## What is lost

A byte that finds 128 others waiting is gone; the result of the put is not looked at. `kept` is what
came in less exactly these bytes. The statements are about `kept`, so they hold for any losses, and
`commRx_recovers` says what a loss costs once it is over. It cannot cost less: the receiver may be
in the middle of a frame of 255 bytes.

## What is left out

`HAL_UART_Receive_IT` fails only when a reception is going on, which is a state here. A framing or
noise error does not end the reception and an overrun does; in either case the callback arms it
again. Bytes that are garbled on the line count as bytes that came in.
-/

open FrameFormat Machine

namespace SubmarineMonitor

/-! ### The data -/

/-- `RxState` of a UART handle. -/
inductive UartRxState
  | ready
  | busyRx
  deriving DecidableEq

/-- `huart->Instance`, as far as the callbacks tell one from another. -/
inductive UartInstance
  | usart2
  | other
  deriving DecidableEq

/-- Where `comm_rx_task` stands. -/
inductive CommRxPc
  /-- Before `tlv_receiver_init`. -/
  | start
  /-- Before `osMessageQueueGet`. -/
  | get
  /-- Before `tlv_receiver_feed_byte`, with the local `byte`. -/
  | feed (byte : UInt8)
  /-- Before `comm_route_frame`, with the local `frame`. -/
  | route (frame : TlvFrame)

/-- A byte that came in, and how many were waiting in `rxq_bytes` then. -/
structure Arrival where
  byte : UInt8
  waiting : ℕ

/-- The receive side of `struct Communication`, its interrupt and its task. -/
structure CommRx where
  /-- `huart2.RxState`. -/
  rxState : UartRxState
  rxIsrByte : UInt8
  rxqBytes : MessageQueue UInt8 128
  rxRecv : TlvReceiver
  task : CommRxPc
  /-- The frames handed to the module they belong to. -/
  routed : List (LncModule × Message)
  arrivals : List Arrival

/-- `communication_create`; `recv` is what the static receiver holds. -/
def commRxCreate (recv : TlvReceiver) : CommRx where
  rxState := .ready
  rxIsrByte := 0
  rxqBytes := .new 128
  rxRecv := recv
  task := .start
  routed := []
  arrivals := []

/-! ### The steps -/

/-- `HAL_UART_Receive_IT(&huart2, &g_comm.rx_isr_byte, 1)`. -/
def halUartReceiveIT (c : CommRx) : CommRx :=
  match c.rxState with
  | .ready => { c with rxState := .busyRx }
  -- `HAL_BUSY`
  | .busyRx => c

/-- `HAL_UART_RxCpltCallback`. -/
def halUartRxCpltCallback (c : CommRx) (huart : UartInstance) : CommRx :=
  if huart ≠ .usart2 then c
  else
    halUartReceiveIT { c with
      -- the result of the put is not looked at
      rxqBytes := (c.rxqBytes.put c.rxIsrByte).getD c.rxqBytes
      arrivals := c.arrivals ++ [⟨c.rxIsrByte, c.rxqBytes.items.length⟩] }

/-- `HAL_UART_ErrorCallback`. -/
def halUartErrorCallback (c : CommRx) (huart : UartInstance) : CommRx :=
  if huart ≠ .usart2 then c else halUartReceiveIT c

/-- A finished frame, and the module `comm_route_frame` hands it to. -/
def commRoute (m : Message) : Option (LncModule × Message) :=
  (commRouteFrame m.frame).map fun module ↦ (module, m)

/-- The next step of `comm_rx_task`. -/
def commRxTaskStep (c : CommRx) : Option CommRx :=
  match c.task with
  | .start =>
    some { halUartReceiveIT { c with rxRecv := tlvReceiverInit c.rxRecv } with task := .get }
  | .get => c.rxqBytes.get.map fun (byte, q) ↦ { c with rxqBytes := q, task := .feed byte }
  | .feed byte =>
    match tlvReceiverFeedByte c.rxRecv byte with
    | (recv, .ok, some frame) => some { c with rxRecv := recv, task := .route frame }
    | (recv, _, _) => some { c with rxRecv := recv, task := .get }
  | .route frame =>
    some { c with task := .get, routed := c.routed ++ (commRoute frame.message).toList }

/-- What happens next. -/
inductive RxAction
  /-- The USART has received a byte: the HAL stores it, ends the reception and calls back. -/
  | byte (b : UInt8)
  /-- A framing, noise or overrun error; an overrun ends the reception. -/
  | error (overrun : Bool)
  /-- Another UART calls one of the two callbacks. -/
  | other (error : Bool)
  /-- `comm_rx_task` takes its next step. -/
  | task

/-- **The receive side**, under any interleaving. Without a reception going on the HAL calls nobody.
-/
def commRxStep (c : CommRx) : RxAction → Option CommRx
  | .byte b =>
    match c.rxState with
    | .ready => none
    | .busyRx => some (halUartRxCpltCallback { c with rxIsrByte := b, rxState := .ready } .usart2)
  | .error overrun =>
    match c.rxState with
    | .ready => none
    | .busyRx =>
      some (halUartErrorCallback (if overrun then { c with rxState := .ready } else c) .usart2)
  | .other error =>
    some (if error then halUartErrorCallback c .other else halUartRxCpltCallback c .other)
  | .task => commRxTaskStep c

/-! ### What a step can do -/

/-- **Everything a step can do.** The interrupt leaves the reception going in every case. -/
inductive RxEffect (c : CommRx) : RxAction → CommRx → Prop
  | kept {b : UInt8} {q : MessageQueue UInt8 128} (hstate : c.rxState = .busyRx)
      (hput : c.rxqBytes.put b = some q) :
      RxEffect c (.byte b) { c with
        rxIsrByte := b
        rxqBytes := q
        arrivals := c.arrivals ++ [⟨b, c.rxqBytes.items.length⟩] }
  | lost {b : UInt8} (hstate : c.rxState = .busyRx) (hfull : c.rxqBytes.items.length = 128) :
      RxEffect c (.byte b) { c with
        rxIsrByte := b
        arrivals := c.arrivals ++ [⟨b, c.rxqBytes.items.length⟩] }
  | none {a : RxAction} (ha : a ≠ .task) : RxEffect c a c
  | start (htask : c.task = .start) :
      RxEffect c .task
        { c with rxState := .busyRx, rxRecv := tlvReceiverInit c.rxRecv, task := .get }
  | get {byte : UInt8} {q : MessageQueue UInt8 128} (htask : c.task = .get)
      (hget : c.rxqBytes.get = some (byte, q)) :
      RxEffect c .task { c with rxqBytes := q, task := .feed byte }
  | frame {byte : UInt8} {recv : TlvReceiver} {frame : TlvFrame} (htask : c.task = .feed byte)
      (hfeed : tlvReceiverFeedByte c.rxRecv byte = (recv, .ok, some frame)) :
      RxEffect c .task { c with rxRecv := recv, task := .route frame }
  | noFrame {byte : UInt8} (htask : c.task = .feed byte)
      (hfeed : (tlvReceiverFeedByte c.rxRecv byte).2.2 = Option.none) :
      RxEffect c .task { c with rxRecv := (tlvReceiverFeedByte c.rxRecv byte).1, task := .get }
  | route {frame : TlvFrame} (htask : c.task = .route frame) :
      RxEffect c .task
        { c with task := .get, routed := c.routed ++ (commRoute frame.message).toList }

theorem commRxTaskStep_effect {c c' : CommRx} (h : commRxTaskStep c = some c') :
    RxEffect c .task c' := by
  rw [commRxTaskStep] at h
  split at h
  · rename_i htask
    cases h
    have hrearm : (halUartReceiveIT { c with rxRecv := tlvReceiverInit c.rxRecv }) =
        { c with rxState := .busyRx, rxRecv := tlvReceiverInit c.rxRecv } := by
      obtain ⟨_ | _, _⟩ := c <;> rfl
    rw [hrearm]
    exact .start htask
  · rename_i htask
    obtain ⟨⟨byte, q⟩, hget, rfl⟩ := Option.map_eq_some_iff.1 h
    exact .get htask hget
  · rename_i byte htask
    have hstatus := feedByte_status_of_frame c.rxRecv byte
    rcases hfeed : tlvReceiverFeedByte c.rxRecv byte with ⟨recv, status, _ | frame⟩
    · have hnone : (tlvReceiverFeedByte c.rxRecv byte).2.2 = none := by rw [hfeed]
      have hnext :
          c' = { c with rxRecv := (tlvReceiverFeedByte c.rxRecv byte).1, task := .get } := by
        rw [hfeed] at h ⊢
        cases status <;> exact (Option.some.inj h).symm
      rw [hnext]
      exact .noFrame htask hnone
    · rw [hfeed] at h hstatus
      obtain rfl : status = .ok := hstatus.resolve_left (Option.some_ne_none _)
      cases h
      exact .frame htask hfeed
  · rename_i frame htask
    cases h
    exact .route htask

/-- The step function does nothing that `RxEffect` does not list. -/
theorem commRxStep_effect {c c' : CommRx} {a : RxAction} (h : commRxStep c a = some c') :
    RxEffect c a c' := by
  cases a with
  | byte b =>
    rw [commRxStep] at h
    split at h
    · cases h
    · rename_i hstate
      cases h
      obtain ⟨rxState, rxIsrByte, rxqBytes, rxRecv, task, routed, arrivals⟩ := c
      obtain rfl : rxState = .busyRx := hstate
      rw [halUartRxCpltCallback, if_neg (by simp)]
      rcases hput : rxqBytes.put b with _ | q
      · simp only [halUartReceiveIT, Option.getD_none]
        exact .lost rfl (MessageQueue.put_eq_none.1 hput)
      · simp only [halUartReceiveIT, Option.getD_some]
        exact .kept rfl hput
  | error overrun =>
    rw [commRxStep] at h
    split at h
    · cases h
    · rename_i hstate
      cases h
      have hsame : halUartErrorCallback (if overrun then { c with rxState := .ready } else c)
          .usart2 = c := by
        obtain ⟨rxState, rxIsrByte, rxqBytes, rxRecv, task, routed, arrivals⟩ := c
        obtain rfl : rxState = .busyRx := hstate
        cases overrun <;> rfl
      rw [hsame]
      exact .none (by simp)
  | other error =>
    cases h
    have hsame : (if error then halUartErrorCallback c .other
        else halUartRxCpltCallback c .other) = c := by
      cases error <;> rfl
    rw [hsame]
    exact .none (by simp)
  | task => exact commRxTaskStep_effect h

/-! ### What is routed -/

/-- The frames of a stream, each with the module it goes to. -/
def routesOf (messages : List Message) : List (LncModule × Message) :=
  messages.filterMap commRoute

theorem routesOf_append (a b : List Message) : routesOf (a ++ b) = routesOf a ++ routesOf b :=
  List.filterMap_append

/-- What a receiver delivers that has seen the bytes before. -/
theorem framesIn_append {recv : TlvReceiver} {a : List UInt8}
    (h : Tracks recv (scan (.hunt : Pending tlvFormat) a).1) (b : List UInt8) :
    framesIn (a ++ b) = framesIn a ++ delivered recv b := by
  rw [delivered_eq h, framesIn, scan_append, segments_append, List.filter_append, List.map_append]
  rfl

/-- Frames behind any bytes: at most one wrong frame, which begins among these bytes, and then those
of a final part of them. -/
theorem framesIn_wire (a : List UInt8) {sent : List Outgoing}
    (hsent : ∀ i, [tlvSof0, tlvSof1] <+: (sent.flatMap Outgoing.bytes).drop i →
      ∃ j < sent.length, i = ((sent.take j).flatMap Outgoing.bytes).length) :
    ∃ (first : List Message) (k : ℕ),
      framesIn (a ++ sent.flatMap Outgoing.bytes) =
        framesIn a ++ first ++ (sent.drop k).map Outgoing.message ∧
      first.length ≤ 1 ∧
      (∀ m ∈ first, ∃ (o : Outgoing) (b c : List UInt8), m = o.message ∧ o.bytes = b ++ c ∧
        2 ≤ b.length ∧ b <:+ a ∧ c ≠ [] ∧ c <+: sent.flatMap Outgoing.bytes) ∧
      ∀ j < sent.length, 259 ≤ ((sent.take j).flatMap Outgoing.bytes).length → k ≤ j := by
  obtain ⟨first, k, hsegments, hone, hfirst, hlate⟩ := scan_wire
    (scan (.hunt : Pending tlvFormat) a).1 ((syncedAtHeads_map_segment sent).2 hsent) bodyLength_le
  refine ⟨(first.filter fun s ↦ TlvSegment.Valid s).map TlvSegment.message, k, ?_, ?_, ?_,
    fun j hj hoff ↦ hlate j ?_ ?_⟩
  · rw [framesIn, scan_append, segments_append, ← wire_map_segment, hsegments, List.filter_append,
      List.filter_append, List.map_append, List.map_append, ← List.map_drop,
      messages_map_segment, ← List.append_assoc, framesIn]
  · rw [List.length_map]
    exact (List.length_filter_le _ _).trans hone
  · intro m hm
    obtain ⟨s, hs, rfl⟩ := List.mem_map.1 hm
    obtain ⟨hmem, hvalid⟩ := List.mem_filter.1 hs
    rw [wire_map_segment] at hfirst
    exact exists_outgoing_of_pending (of_decide_eq_true hvalid) (hfirst s hmem)
  · rwa [List.length_map]
  · rwa [offset_map_segment]

/-- A part of a stream contains the frames that it begins with. -/
theorem framesIn_prefix (a b : List UInt8) : framesIn a <+: framesIn (a ++ b) := by
  obtain ⟨htracks, -, -⟩ := tlvReceiverTrace_refines (tracks_init default) a
  rw [framesIn_append htracks b]
  exact List.prefix_append _ _

/-- One byte more, and the frame it ends. -/
theorem framesIn_concat {recv : TlvReceiver} {data : List UInt8}
    (h : Tracks recv (scan (.hunt : Pending tlvFormat) data).1) (byte : UInt8) :
    Tracks (tlvReceiverFeedByte recv byte).1 (scan (.hunt : Pending tlvFormat) (data ++ [byte])).1 ∧
      framesIn (data ++ [byte]) =
        framesIn data ++ ((tlvReceiverFeedByte recv byte).2.2.map TlvFrame.message).toList := by
  constructor
  · rw [scan_append]
    exact (tlvReceiverTrace_refines h [byte]).1
  · rw [framesIn_append h, delivered_cons]
    exact congrArg _ (List.append_nil _)

namespace CommRx

/-- The byte in the task's hand. -/
def inHand (c : CommRx) : List UInt8 :=
  match c.task with
  | .feed byte => [byte]
  | _ => []

/-- The frame in the task's hand. -/
def finished (c : CommRx) : List Message :=
  match c.task with
  | .route frame => [frame.message]
  | _ => []

/-- The bytes that came in, less those that came in while 128 were waiting. -/
def kept (c : CommRx) : List UInt8 :=
  (c.arrivals.filter fun a ↦ a.waiting < 128).map Arrival.byte

/-- **The invariant.** `fed` is what the receiver has been fed. -/
structure Fed (c : CommRx) (fed : List UInt8) : Prop where
  kept : fed ++ c.inHand ++ c.rxqBytes.items = c.kept
  /-- Before its first step the task has not asked for a byte. -/
  silent : c.task = .start → c.rxState = .ready ∧ fed = []
  listening : c.task ≠ .start → c.rxState = .busyRx
  tracks : c.task ≠ .start → Tracks c.rxRecv (scan (.hunt : Pending tlvFormat) fed).1
  routed : c.routed ++ routesOf c.finished = routesOf (framesIn fed)

variable {c c' : CommRx} {fed : List UInt8}

theorem fed_create (recv : TlvReceiver) : Fed (commRxCreate recv) [] :=
  ⟨rfl, fun _ ↦ ⟨rfl, rfl⟩, (absurd rfl ·), (absurd rfl ·), rfl⟩

theorem kept_arrival (c : CommRx) (b : UInt8) (q : MessageQueue UInt8 128) :
    CommRx.kept { c with
      rxIsrByte := b
      rxqBytes := q
      arrivals := c.arrivals ++ [⟨b, c.rxqBytes.items.length⟩] } =
      c.kept ++ if c.rxqBytes.items.length < 128 then [b] else [] := by
  simp only [kept, List.filter_append, List.map_append]
  split_ifs with h <;> simp [h]

/-- **One step**, which feeds the receiver one byte more or none. -/
theorem Fed.step {a : RxAction} (h : Fed c fed) (hstep : commRxStep c a = some c') :
    Fed c' fed ∨ ∃ byte, Fed c' (fed ++ [byte]) := by
  have hkept := h.kept
  have hrouted := h.routed
  cases commRxStep_effect hstep with
  | @kept b q hstate hput =>
    obtain ⟨hitems, hroom⟩ := MessageQueue.put_eq_some hput
    have hrunning : c.task ≠ .start := fun hstart ↦ by simp [(h.silent hstart).1] at hstate
    refine .inl ⟨?_, (absurd · hrunning), h.listening, h.tracks, hrouted⟩
    rw [kept_arrival, if_pos hroom, ← hkept]
    show fed ++ c.inHand ++ q.items = _
    rw [hitems, List.append_assoc _ _ [b]]
  | @lost b hstate hfull =>
    have hrunning : c.task ≠ .start := fun hstart ↦ by simp [(h.silent hstart).1] at hstate
    refine .inl ⟨?_, (absurd · hrunning), h.listening, h.tracks, hrouted⟩
    rw [kept_arrival c b c.rxqBytes, if_neg (by omega), List.append_nil]
    exact hkept
  | none _ => exact .inl h
  | start htask =>
    obtain ⟨hstate, rfl⟩ := h.silent htask
    rw [inHand, htask] at hkept
    rw [finished, htask] at hrouted
    exact .inl ⟨hkept, by simp, fun _ ↦ rfl, fun _ ↦ tracks_init c.rxRecv, hrouted⟩
  | @get byte q htask hget =>
    have hrunning : c.task ≠ .start := by simp [htask]
    rw [inHand, htask, MessageQueue.get_eq_some hget] at hkept
    rw [finished, htask] at hrouted
    refine .inl ⟨?_, by simp, fun _ ↦ h.listening hrunning, fun _ ↦ h.tracks hrunning, hrouted⟩
    exact (by simp : fed ++ [byte] ++ q.items = fed ++ [] ++ byte :: q.items).trans hkept
  | @frame byte recv frame htask hfeed =>
    have hrunning : c.task ≠ .start := by simp [htask]
    obtain ⟨htracks, hframes⟩ := framesIn_concat (h.tracks hrunning) byte
    rw [inHand, htask] at hkept
    rw [finished, htask] at hrouted
    rw [hfeed] at htracks hframes
    refine .inr ⟨byte, ?_, by simp, fun _ ↦ h.listening hrunning, fun _ ↦ htracks, ?_⟩
    · exact (congrArg (· ++ c.rxqBytes.items) (List.append_nil _)).trans hkept
    · rw [hframes, routesOf_append, ← hrouted]
      exact congrArg (· ++ _) (List.append_nil _).symm
  | @noFrame byte htask hfeed =>
    have hrunning : c.task ≠ .start := by simp [htask]
    obtain ⟨htracks, hframes⟩ := framesIn_concat (h.tracks hrunning) byte
    rw [inHand, htask] at hkept
    rw [finished, htask] at hrouted
    rw [hfeed] at hframes
    refine .inr ⟨byte, ?_, by simp, fun _ ↦ h.listening hrunning, fun _ ↦ htracks, ?_⟩
    · exact (congrArg (· ++ c.rxqBytes.items) (List.append_nil _)).trans hkept
    · rw [hframes]
      exact hrouted.trans (congrArg routesOf (List.append_nil _).symm)
  | @route frame htask =>
    have hrunning : c.task ≠ .start := by simp [htask]
    rw [inHand, htask] at hkept
    rw [finished, htask] at hrouted
    refine .inl ⟨hkept, by simp, fun _ ↦ h.listening hrunning, fun _ ↦ h.tracks hrunning, ?_⟩
    rw [← hrouted]
    show c.routed ++ (commRoute frame.message).toList ++ [] = _
    rw [List.append_nil, routesOf, List.filterMap_cons]
    cases commRoute frame.message <;> rfl

/-- The task has handled all there is. -/
def Drained (c : CommRx) : Prop :=
  c.task = .get ∧ c.rxqBytes.items = []

/-- The task waits only when it has. -/
theorem drained_iff : c.Drained ↔ commRxStep c .task = none := by
  constructor
  · rintro ⟨htask, hempty⟩
    rw [commRxStep, commRxTaskStep, htask, Option.map_eq_none_iff, MessageQueue.get_eq_none]
    exact hempty
  · intro h
    rw [commRxStep, commRxTaskStep] at h
    split at h
    · cases h
    · rename_i htask
      rw [Option.map_eq_none_iff, MessageQueue.get_eq_none] at h
      exact ⟨htask, h⟩
    · split at h <;> cases h
    · cases h

theorem Fed.of_drained (h : Fed c fed) (hdrained : c.Drained) :
    fed = c.kept ∧ c.routed = routesOf (framesIn c.kept) := by
  obtain ⟨htask, hempty⟩ := hdrained
  have hkept := h.kept
  have hrouted := h.routed
  rw [inHand, htask, hempty, List.append_nil, List.append_nil] at hkept
  rw [finished, htask, hkept] at hrouted
  exact ⟨hkept, (List.append_nil _).symm.trans hrouted⟩

theorem exists_fed {ok : CommRx → RxAction → Prop} (h : Reaches commRxStep ok c c')
    (hc : ∃ fed, Fed c fed) : ∃ fed, Fed c' fed := by
  refine h.invariant (I := fun c ↦ ∃ fed, Fed c fed) hc ?_
  rintro s s' a ⟨fed, hfed⟩ - hstep
  rcases hfed.step hstep with hsame | ⟨byte, hmore⟩
  · exact ⟨fed, hsame⟩
  · exact ⟨_, hmore⟩

/-- What has been routed is a beginning of what is to be. -/
theorem Fed.routed_prefix (h : Fed c fed) : c.routed <+: routesOf (framesIn c.kept) := by
  have hframes : framesIn fed <+: framesIn c.kept := by
    rw [← h.kept, List.append_assoc]
    exact framesIn_prefix _ _
  have hdone : c.routed <+: routesOf (framesIn fed) := ⟨_, h.routed⟩
  exact hdone.trans (hframes.filterMap _)

/-- **What is routed**, under any interleaving of the interrupts and the task. The reception goes on
for good. The frames handed to the modules are the frames of a beginning of the bytes that came in,
less those that came in while 128 were waiting, and when the task has nothing left to do they are
the frames of all of these. -/
theorem commRx_routes {recv : TlvReceiver}
    (h : Reaches commRxStep (fun _ _ ↦ True) (commRxCreate recv) c) :
    (c.task ≠ .start → c.rxState = .busyRx) ∧
      c.routed <+: routesOf (framesIn c.kept) ∧
      (commRxStep c .task = none → c.routed = routesOf (framesIn c.kept)) := by
  obtain ⟨fed, hfed⟩ := exists_fed h ⟨[], fed_create recv⟩
  exact ⟨hfed.listening, hfed.routed_prefix, fun hnone ↦ (hfed.of_drained (drained_iff.2 hnone)).2⟩

/-! ### A request -/

/-- A request for the time. -/
def getTimeOutgoing : Outgoing :=
  ⟨tlvTagGetTime, [], by decide⟩

/-- The bytes come in, and the task takes each of them before the next. -/
def takesEach (bytes : List UInt8) : List RxAction :=
  bytes.flatMap fun b ↦ [.byte b, .task, .task]

/-- A request for the time comes in behind half a frame. -/
theorem commRx_routes_getTime :
    ∃ c : CommRx, c.routed = [(.init, getTimeOutgoing.message)] ∧
      c.routed <+: routesOf (framesIn c.kept) := by
  have hrun : (exec (guarded commRxStep fun _ _ ↦ True) (commRxCreate default)
      (.task :: takesEach (0xA5 :: getTimeOutgoing.bytes) ++ [.task])).map CommRx.routed =
        some [(.init, getTimeOutgoing.message)] := by decide +kernel
  obtain ⟨c, hexec, hrouted⟩ := Option.map_eq_some_iff.1 hrun
  exact ⟨c, hrouted, (commRx_routes (reaches_of_exec hexec)).2.1⟩

/-! ### After a loss -/

/-- A byte that comes in finds room. -/
def Room (c : CommRx) : RxAction → Prop
  | .byte _ => c.rxqBytes.items.length < 128
  | _ => True

instance (c : CommRx) (a : RxAction) : Decidable (c.Room a) :=
  match a with
  | .byte _ => inferInstanceAs (Decidable (_ < _))
  | .error _ | .other _ | .task => inferInstanceAs (Decidable True)

/-- As long as there is room, every byte is kept. -/
theorem kept_of_room (h : Reaches commRxStep Room c c') :
    ∃ more, c'.arrivals = c.arrivals ++ more ∧ c'.kept = c.kept ++ more.map Arrival.byte := by
  refine h.invariant (I := fun s ↦ ∃ more, s.arrivals = c.arrivals ++ more ∧
    s.kept = c.kept ++ more.map Arrival.byte) ⟨[], by simp⟩ ?_
  rintro s s' a ⟨more, harrivals, hkept⟩ hroom hstep
  cases commRxStep_effect hstep with
  | @kept b q hstate hput =>
    refine ⟨more ++ [⟨b, s.rxqBytes.items.length⟩], ?_, ?_⟩
    · show s.arrivals ++ [_] = _
      rw [harrivals, List.append_assoc]
    · rw [kept_arrival, if_pos (MessageQueue.put_eq_some hput).2, hkept, List.append_assoc]
      simp
  | @lost b hstate hfull =>
    have hlt : s.rxqBytes.items.length < 128 := hroom
    omega
  | none | start | get | frame | noFrame | route => exact ⟨more, harrivals, hkept⟩

/-- **Recovery after a loss.** Whatever came in and was lost before, if from then on every byte
finds room and the bytes are frames in which the sync pair stands only at the beginning, then what
is routed once the task has nothing left to do is what was to be routed before, at most one frame
more, and then the frames from some frame on. The frame more has its first bytes, the sync pair at
least, among the last that were kept before; every frame that begins at byte 259 or later is among
those routed. -/
theorem commRx_recovers {recv : TlvReceiver} {sent : List Outgoing}
    (h : Reaches commRxStep (fun _ _ ↦ True) (commRxCreate recv) c)
    (hroom : Reaches commRxStep Room c c')
    (harrivals : c'.arrivals.map Arrival.byte =
      c.arrivals.map Arrival.byte ++ sent.flatMap Outgoing.bytes)
    (hdone : commRxStep c' .task = none)
    (hsent : ∀ i, [tlvSof0, tlvSof1] <+: (sent.flatMap Outgoing.bytes).drop i →
      ∃ j < sent.length, i = ((sent.take j).flatMap Outgoing.bytes).length) :
    ∃ (first : List Message) (k : ℕ),
      c'.routed = routesOf (framesIn c.kept ++ first ++ (sent.drop k).map Outgoing.message) ∧
      first.length ≤ 1 ∧
      (∀ m ∈ first, ∃ (o : Outgoing) (a b : List UInt8), m = o.message ∧ o.bytes = a ++ b ∧
        2 ≤ a.length ∧ a <:+ c.kept ∧ b ≠ [] ∧ b <+: sent.flatMap Outgoing.bytes) ∧
      ∀ j < sent.length, 259 ≤ ((sent.take j).flatMap Outgoing.bytes).length → k ≤ j := by
  obtain ⟨fed, hfed⟩ := exists_fed hroom (exists_fed h ⟨[], fed_create recv⟩)
  obtain ⟨-, hrouted⟩ := hfed.of_drained (drained_iff.2 hdone)
  obtain ⟨more, hmore, hkept⟩ := kept_of_room hroom
  have hbytes : more.map Arrival.byte = sent.flatMap Outgoing.bytes := by
    rw [hmore, List.map_append] at harrivals
    exact List.append_cancel_left harrivals
  obtain ⟨first, k, hframes, hone, hfirst, hlate⟩ := framesIn_wire c.kept hsent
  refine ⟨first, k, ?_, hone, hfirst, hlate⟩
  rw [hrouted, hkept, hbytes, hframes]

/-- A frame of three value bytes breaks off behind its length, and two requests for the time come
in: the first is taken for the rest of it, the second is routed. -/
theorem commRx_recovers_getTime :
    ∃ (c' : CommRx) (first : List Message) (k : ℕ),
      c'.routed = [(.init, getTimeOutgoing.message)] ∧
      c'.routed = routesOf (framesIn [0xA5, 0x5A, 0x10, 0x03] ++ first ++
        ([getTimeOutgoing, getTimeOutgoing].drop k).map Outgoing.message) := by
  have hrun : ((exec (guarded commRxStep fun _ _ ↦ True) (commRxCreate default)
      (.task :: takesEach [0xA5, 0x5A, 0x10, 0x03])).bind fun c ↦
        (exec (guarded commRxStep Room) c
          (takesEach ([getTimeOutgoing, getTimeOutgoing].flatMap Outgoing.bytes) ++ [.task])).map
            fun c' ↦ (c.kept, c'.arrivals.map Arrival.byte == c.arrivals.map Arrival.byte ++
              [getTimeOutgoing, getTimeOutgoing].flatMap Outgoing.bytes,
              (commRxStep c' .task).isNone, c'.routed)) =
      some ([0xA5, 0x5A, 0x10, 0x03], true, true, [(.init, getTimeOutgoing.message)]) := by
    decide +kernel
  obtain ⟨c, hexec, hrun⟩ := Option.bind_eq_some_iff.1 hrun
  obtain ⟨c', hexec', hfound⟩ := Option.map_eq_some_iff.1 hrun
  simp only [Prod.mk.injEq, beq_iff_eq, Option.isNone_iff_eq_none] at hfound
  obtain ⟨hkept, harrivals, hidle, hrouted⟩ := hfound
  have hheads : SyncedAtHeads ([getTimeOutgoing, getTimeOutgoing].map Outgoing.segment) := by
    decide +kernel
  obtain ⟨first, k, h, -⟩ := commRx_recovers (reaches_of_exec hexec) (reaches_of_exec hexec')
    harrivals hidle ((syncedAtHeads_map_segment _).1 hheads)
  rw [hkept] at h
  exact ⟨c', first, k, hrouted, h⟩

end CommRx

end SubmarineMonitor
