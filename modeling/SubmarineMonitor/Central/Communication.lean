import SubmarineMonitor.Protocol.Dispatch
import SubmarineMonitor.Protocol.Tags

/-!
# The central computer's receive thread

`Communication::rx_loop`: read whatever the transport has, feed it to the streaming receiver, and hand
each finished frame to the handler registered for its tag. A read that fails is answered with a
reconnect, and both are inside a `try`; the handlers are not, and nothing between them and the
thread's function catches what they throw.

What the world does is one `RxTurn` for each pass of the loop. What the handlers do is the list of
their operations that can throw, and `throws n` is whether the `n`-th of all of them does.

## Handlers as lists of operations

Which exception a handler throws, and why, depends on the disk, the database and the link. What
matters to the thread is only whether one of their operations throws, so a handler is the list of
these operations in the order in which it begins them. The list is read off the source, length
checks included, for every tag that is routed. The exceptions are an oracle on the number of the
operation and not on its kind: any pattern of failures is one.

## Where the loop ends

`tlv_receiver_feed` calls the handler in the middle of a chunk. When an exception leaves it, the
rest of the chunk is not looked at, and neither is any later byte, as the function of the thread is
left and the program ends. So `rxLoop` is a fold that stops, and its result says in which way it
stands. The `try` around the read is what the passes `failed` stand for; the pause of a second
before the reconnect takes time and does nothing else.

## What is left out

What the handlers do, beside their order: the database is `Central.DataCollection`, the replies are
`Central.ManagementCommand`. `send` runs on other threads and shares nothing with the loop but the
transport. A `read` that blocks is a pass that has not happened yet; the transports return after a
time-out, so `running_` is looked at again, and that they do is not needed for safety.
-/

open Abortable FrameFormat

namespace SubmarineMonitor

/-! ### Handlers -/

/-- An operation of a frame handler that can throw. -/
inductive HandlerOp
  /-- The call of `on_management_` or `on_log_`. Both begin as empty lambdas; what can throw is a
  handler that is set but empty, or a line for the live log that finds no memory. -/
  | call
  /-- `log_.write` -/
  | logWrite
  /-- `comm_.send` -/
  | commSend
  | recordMeasurement
  | recordEvent
  deriving DecidableEq

/-- `ManagementCommand::on_frame`. The value is NULL only when the length is 0, which is never the
length that is expected. -/
def managementOps (m : Message) : List HandlerOp :=
  if m.tag = tlvTagTimeReply then if m.len = 7 then [.logWrite] else []
  else if m.tag = tlvTagConfigReply then if m.len = 14 then [.logWrite] else []
  else if m.tag = tlvTagAck then [.logWrite]
  else if m.tag = tlvTagNack then [.logWrite]
  else if m.tag = tlvTagTimeSyncRequest then [.commSend, .logWrite]
  else []

/-- The log handler: `DataCollectionAnalysis::on_frame`, behind a line for the live log, which
counts as part of the call. -/
def logOps (m : Message) : List HandlerOp :=
  if m.tag = tlvTagModeChange then if m.len = 7 then [.recordMeasurement, .recordEvent] else []
  else if m.tag = tlvTagKeepAlive then if m.len = 12 then [.recordMeasurement] else []
  else if m.tag = tlvTagObjectDetected then [.recordEvent]
  else if m.tag = tlvTagObjectCleared then [.recordEvent]
  else []

/-- The tags that `route_frame` hands to `on_management_`. -/
def managementTags : List UInt8 :=
  [tlvTagAck, tlvTagNack, tlvTagTimeReply, tlvTagTimeSyncRequest, tlvTagConfigReply]

/-- The tags that `route_frame` hands to `on_log_`. -/
def logTags : List UInt8 :=
  [tlvTagKeepAlive, tlvTagDataReport, tlvTagModeChange, tlvTagObjectDetected, tlvTagObjectCleared,
    tlvTagStartup, tlvTagQueryRecord, tlvTagQueryEnd]

/-- What `route_frame` leads to. -/
def routeOps (m : Message) : List HandlerOp :=
  if m.tag ∈ managementTags then .call :: managementOps m
  else if m.tag ∈ logTags then .call :: logOps m
  else []

/-- What the thread has done. -/
structure Dispatched where
  /-- The frames passed to `route_frame`. -/
  routed : List Message
  /-- The operations its handlers have begun. -/
  ops : List HandlerOp
  deriving DecidableEq

/-- The next operation of a handler. -/
def runOp (throws : ℕ → Bool) (ops : List HandlerOp) (op : HandlerOp) : List HandlerOp × Bool :=
  (ops ++ [op], throws ops.length)

/-- `route_frame`, and whether an exception leaves it. -/
def routeFrame (throws : ℕ → Bool) (d : Dispatched) (m : Message) : Dispatched × Bool :=
  let r := Abortable.run (runOp throws) d.ops (routeOps m)
  (⟨d.routed ++ [m], r.1⟩, r.2)

/-! ### The thread -/

/-- After the constructor: `rx_recv_` is initialised, and nothing is done. -/
def rxStart : Session Dispatched :=
  ⟨tlvReceiverInit default, ⟨[], []⟩⟩

/-- What one pass of the loop finds. -/
inductive RxTurn
  /-- `running_` is false. -/
  | stop
  /-- `read` returns these bytes. -/
  | bytes (chunk : List UInt8)
  /-- `read` returns 0. -/
  | timeout
  /-- `read` throws; whether `reconnect` then succeeds. -/
  | failed (reconnected : Bool)
  deriving DecidableEq

/-- How the thread's function stands. -/
inductive RxEnd
  | running
  | returned
  /-- An exception has left it. -/
  | escaped
  deriving DecidableEq

/-- `rx_loop`. Between `tlv_receiver_feed` and the handlers stands `frame_trampoline`, which only calls
`route_frame`. -/
def rxLoop (throws : ℕ → Bool) (s : Session Dispatched) : List RxTurn → Session Dispatched × RxEnd
  | [] => (s, .running)
  | .stop :: _ => (s, .returned)
  | .bytes chunk :: turns =>
    let r := dispatch (routeFrame throws) s chunk
    if r.2 then (r.1, .escaped) else rxLoop throws r.1 turns
  | .timeout :: turns => rxLoop throws s turns
  | .failed _ :: turns => rxLoop throws s turns

/-! ### Dispatching -/

variable {throws : ℕ → Bool}

/-- Operations go on as long as none of them throws. -/
theorem run_runOp_iff (ops more : List HandlerOp) :
    (Abortable.run (runOp throws) ops more).2 = false ↔
      ∀ n ≥ ops.length, n < ops.length + more.length → throws n = false := by
  induction more generalizing ops with
  | nil => exact ⟨fun _ n h h' ↦ absurd h' (Nat.not_lt.2 h), fun _ ↦ rfl⟩
  | cons op more ih =>
    by_cases hop : throws ops.length = true
    · have habort : (runOp throws ops op).2 = true := hop
      rw [run_cons_of_abort habort]
      refine ⟨fun h ↦ (Bool.noConfusion h : False).elim, fun h ↦ ?_⟩
      rw [h _ le_rfl (Nat.lt_add_of_pos_right (Nat.succ_pos _))] at hop
      exact absurd hop Bool.false_ne_true
    · rw [Bool.not_eq_true] at hop
      have hgo : (runOp throws ops op).2 = false := hop
      rw [run_cons_of_not_abort hgo]
      refine (ih (ops ++ [op])).trans ?_
      simp only [List.length_append, List.length_cons, List.length_nil]
      refine ⟨fun h n hn hlt ↦ ?_, fun h n hn hlt ↦ h n (by omega) (by omega)⟩
      by_cases hfirst : n = ops.length
      · rw [hfirst, hop]
      · exact h n (by omega) (by omega)

/-- The frames' handlers go on as long as none of their operations throws. -/
theorem run_routeFrame_iff (d : Dispatched) (ms : List Message) :
    (Abortable.run (routeFrame throws) d ms).2 = false ↔
      ∀ n ≥ d.ops.length, n < d.ops.length + (ms.flatMap routeOps).length → throws n = false := by
  have hflat : (_, (Abortable.run (routeFrame throws) d ms).2) =
      Abortable.run (runOp throws) d.ops (ms.flatMap routeOps) :=
    @run_flatMap _ _ (runOp throws) _ _ (routeFrame throws) Dispatched.ops routeOps
      (fun _ _ ↦ rfl) d ms
  rw [← run_runOp_iff, ← hflat]

/-- Frames are passed on in order, all of them unless a handler throws. -/
theorem exists_routed_eq (d : Dispatched) (ms : List Message) :
    ∃ first, first <+: ms ∧ (Abortable.run (routeFrame throws) d ms).1.routed = d.routed ++ first ∧
      ((Abortable.run (routeFrame throws) d ms).2 = false → first = ms) := by
  induction ms generalizing d with
  | nil => exact ⟨[], List.prefix_rfl, (List.append_nil _).symm, fun _ ↦ rfl⟩
  | cons m ms ih =>
    by_cases hm : (routeFrame throws d m).2 = true
    · rw [run_cons_of_abort hm]
      exact ⟨[m], List.prefix_append _ _, rfl, fun h ↦ by cases h⟩
    · rw [Bool.not_eq_true] at hm
      obtain ⟨first, hfirst, hrouted, hall⟩ := ih (routeFrame throws d m).1
      rw [run_cons_of_not_abort hm, hrouted]
      exact ⟨m :: first, (List.prefix_cons_inj m).2 hfirst, by simp [routeFrame],
        fun h ↦ by rw [hall h]⟩

/-! ### Runs of the loop -/

/-- The bytes that these passes read, up to where `running_` is false. -/
def received : List RxTurn → List UInt8
  | [] | .stop :: _ => []
  | .bytes chunk :: turns => chunk ++ received turns
  | .timeout :: turns | .failed _ :: turns => received turns

/-- Passes that read these bytes from a link that does not fail, in reads of at most 256. -/
inductive Reads : List RxTurn → List UInt8 → Prop
  | nil : Reads [] []
  | timeout {turns : List RxTurn} {data : List UInt8} (h : Reads turns data) :
      Reads (.timeout :: turns) data
  | bytes {turns : List RxTurn} {chunk data : List UInt8} (hne : chunk ≠ [])
      (hle : chunk.length ≤ 256) (h : Reads turns data) :
      Reads (.bytes chunk :: turns) (chunk ++ data)

theorem Reads.received_eq {turns : List RxTurn} {data : List UInt8} (h : Reads turns data) :
    received turns = data := by
  induction h with
  | nil => rfl
  | timeout _ ih => exact ih
  | bytes _ _ _ ih => rw [received, ih]

/-- Any bytes may come one at a time. -/
theorem reads_singly (data : List UInt8) : Reads (data.map fun b ↦ .bytes [b]) data := by
  induction data with
  | nil => exact .nil
  | cons b data ih => exact .bytes (List.cons_ne_nil _ _) (by decide : 1 ≤ 256) ih

/-- **The loop feeds what it reads**, however it was cut into reads and whatever timeouts and failures
came between. -/
theorem rxLoop_eq_dispatch (s : Session Dispatched) (turns : List RxTurn) :
    (rxLoop throws s turns).1 = (dispatch (routeFrame throws) s (received turns)).1 ∧
      ((rxLoop throws s turns).2 = .escaped ↔
        (dispatch (routeFrame throws) s (received turns)).2 = true) := by
  induction turns generalizing s with
  | nil => exact ⟨rfl, by simp [rxLoop, received, dispatch]⟩
  | cons turn turns ih =>
    cases turn with
    | stop => exact ⟨rfl, by simp [rxLoop, received, dispatch]⟩
    | timeout => exact ih s
    | failed reconnected => exact ih s
    | bytes chunk =>
      rw [rxLoop, received]
      by_cases hthrow : (dispatch (routeFrame throws) s chunk).2 = true
      · rw [if_pos hthrow, dispatch_append_of_end hthrow]
        exact ⟨rfl, fun _ ↦ hthrow, fun _ ↦ rfl⟩
      · rw [if_neg hthrow, dispatch_append_of_not_end (eq_false_of_ne_true hthrow)]
        exact ih _

/-- What was done, and whether an exception leaves the thread, is settled by the frames in the bytes
read. -/
theorem rxLoop_eq (s : Session Dispatched) (turns : List RxTurn) :
    (rxLoop throws s turns).1.done =
        (Abortable.run (routeFrame throws) s.done (delivered s.recv (received turns))).1 ∧
      ((rxLoop throws s turns).2 = .escaped ↔
        (Abortable.run (routeFrame throws) s.done (delivered s.recv (received turns))).2 = true) := by
  obtain ⟨hstate, hescape⟩ := @rxLoop_eq_dispatch throws s turns
  obtain ⟨hdone, hend, -⟩ := @dispatch_eq _ (routeFrame throws) s (received turns)
  rw [hstate, hescape, hdone, hend]
  exact ⟨rfl, Iff.rfl⟩

/-- A run that goes on has shown the receiver everything it read. -/
theorem recv_of_running {s s' : Session Dispatched} {turns : List RxTurn}
    (h : rxLoop throws s turns = (s', .running)) :
    s'.recv = (tlvReceiverTrace s.recv (received turns)).1 := by
  obtain ⟨hstate, hescape⟩ := @rxLoop_eq_dispatch throws s turns
  rw [h] at hstate hescape
  have hnotEnded : (dispatch (routeFrame throws) s (received turns)).2 = false := by
    by_contra hended
    rw [Bool.not_eq_false] at hended
    cases hescape.2 hended
  have hrecv := (dispatch_eq s (received turns)).2.2 hnotEnded
  rwa [← hstate] at hrecv

/-- Two runs in a row are one. -/
theorem rxLoop_append {s s' : Session Dispatched} {turns : List RxTurn}
    (h : rxLoop throws s turns = (s', .running)) (more : List RxTurn) :
    rxLoop throws s (turns ++ more) = rxLoop throws s' more := by
  induction turns generalizing s with
  | nil =>
    obtain rfl : s = s' := congrArg Prod.fst h
    rfl
  | cons turn turns ih =>
    cases turn with
    | stop => cases congrArg Prod.snd h
    | timeout => exact ih h
    | failed reconnected => exact ih h
    | bytes chunk =>
      rw [rxLoop] at h
      split at h
      · cases congrArg Prod.snd h
      · rename_i hfeed
        rw [List.cons_append, rxLoop, if_neg hfeed]
        exact ih h

/-- The function returns only from the top of its loop. -/
theorem stop_mem_of_returned {s : Session Dispatched} {turns : List RxTurn}
    (h : (rxLoop throws s turns).2 = .returned) : .stop ∈ turns := by
  induction turns generalizing s with
  | nil => cases h
  | cons turn turns ih =>
    cases turn with
    | stop => exact List.mem_cons_self
    | timeout => exact List.mem_cons_of_mem _ (ih h)
    | failed reconnected => exact List.mem_cons_of_mem _ (ih h)
    | bytes chunk =>
      rw [rxLoop] at h
      split at h
      · cases h
      · exact List.mem_cons_of_mem _ (ih h)

/-! ### Exceptions -/

/-- **The thread lives as long as its handlers do not throw.** Its function returns only when
`running_` is false, and no exception leaves it, just when none of the operations that the frames
received lead to throws. -/
theorem rxLoop_survives_iff (throws : ℕ → Bool) (turns : List RxTurn) :
    ((rxLoop throws rxStart turns).2 ≠ .escaped ∧
        ((rxLoop throws rxStart turns).2 = .returned → .stop ∈ turns)) ↔
      ∀ n < ((framesIn (received turns)).flatMap routeOps).length, throws n = false := by
  have hframes : delivered rxStart.recv (received turns) = framesIn (received turns) :=
    delivered_eq (tracks_init default) _
  have hescape := (@rxLoop_eq throws rxStart turns).2
  rw [hframes] at hescape
  have hquiet := @run_routeFrame_iff throws rxStart.done (framesIn (received turns))
  have hops : rxStart.done.ops.length = 0 := rfl
  simp only [hops, ge_iff_le, Nat.zero_le, forall_const, Nat.zero_add] at hquiet
  rw [← hquiet, Ne, hescape, Bool.not_eq_true]
  exact ⟨fun h ↦ h.1, fun h ↦ ⟨h, stop_mem_of_returned⟩⟩

/-- A request for the time, to be sent. -/
def timeSyncRequest : Outgoing :=
  ⟨tlvTagTimeSyncRequest, [], Nat.zero_le _⟩

/-- A request for the time is answered while the transport is dead: of the operations it leads to, the
second is `comm_.send`. -/
theorem not_forall_rxLoop_survives :
    ¬∀ (throws : ℕ → Bool) (turns : List RxTurn), (rxLoop throws rxStart turns).2 ≠ .escaped ∧
      ((rxLoop throws rxStart turns).2 = .returned → .stop ∈ turns) := by
  intro h
  have hescaped : (rxLoop (fun n ↦ n == 1) rxStart [.bytes timeSyncRequest.bytes]).2 = .escaped := by
    decide +kernel
  exact (h _ _).1 hescaped

/-! ### Reconnecting -/

/-- If no frame is ever lost, the receiver is outside a frame. -/
theorem idle_of_routed {recv : TlvReceiver} {p : Pending tlvFormat} (h : Tracks recv p)
    {d : Dispatched} (hall : ∀ sent : List Outgoing,
      (Abortable.run (routeFrame throws) d (delivered recv (sent.flatMap Outgoing.bytes))).1.routed =
        d.routed ++ sent.map Outgoing.message) : p.Idle := by
  by_contra hbusy
  have hlost : keepAliveOutgoing.message ∉ delivered recv keepAliveOutgoing.bytes :=
    message_not_mem_delivered h hbusy (by decide +kernel)
  have hkeepAlive := hall [keepAliveOutgoing]
  obtain ⟨first, hfirst, heq, -⟩ := @exists_routed_eq throws d
    (delivered recv ([keepAliveOutgoing].flatMap Outgoing.bytes))
  rw [heq, List.append_cancel_left_eq] at hkeepAlive
  rw [hkeepAlive, List.flatMap_singleton] at hfirst
  exact hlost (hfirst.subset List.mem_cons_self)

/-- A data report, to be sent. -/
def dataReportOutgoing : Outgoing :=
  ⟨tlvTagDataReport, [], Nat.zero_le _⟩

/-- A data report leads to one operation: its handler does nothing with it. -/
theorem length_flatMap_routeOps_dataReport (k : ℕ) :
    ((List.replicate k dataReportOutgoing.message).flatMap routeOps).length = k := by
  have hone : (routeOps dataReportOutgoing.message).length = 1 := by decide +kernel
  induction k with
  | zero => rfl
  | succ k ih => rw [List.replicate_succ, List.flatMap_cons, List.length_append, hone, ih, add_comm]

/-- If no frame is ever left undone, no operation throws: a handler that throws on the last of enough
reports leaves the frames behind it undone. -/
theorem quiet_of_routed {d : Dispatched} (hall : ∀ sent : List Outgoing,
    (Abortable.run (routeFrame throws) d (sent.map Outgoing.message)).1.routed =
      d.routed ++ sent.map Outgoing.message) : ∀ n ≥ d.ops.length, throws n = false := by
  intro n hn
  by_contra hthrow
  set reports := List.replicate (n - d.ops.length + 1) dataReportOutgoing with hreports
  have habort : (Abortable.run (routeFrame throws) d (reports.map Outgoing.message)).2 = true := by
    rw [← Bool.not_eq_false, run_routeFrame_iff, hreports, List.map_replicate,
      length_flatMap_routeOps_dataReport]
    exact fun hquiet ↦ hthrow (hquiet n hn (by omega))
  have hmore := hall (reports ++ [dataReportOutgoing])
  rw [List.map_append, run_append_of_abort habort] at hmore
  obtain ⟨first, hfirst, heq, -⟩ := @exists_routed_eq throws d (reports.map Outgoing.message)
  rw [heq, List.append_cancel_left_eq] at hmore
  have hlen := hfirst.length_le
  rw [hmore, List.length_append, List.length_map] at hlen
  exact absurd hlen (Nat.not_succ_le_self _)

/-- **A new connection is served from its first byte just when the old one broke between frames.**
Whatever was received before, all frames that the peer sends behind a reconnect are passed on, in
order, just when the receiver was waiting for a sync byte, and no handler throws any more. -/
theorem routed_after_reconnect_iff {before : List RxTurn} {s : Session Dispatched}
    (hbefore : rxLoop throws rxStart before = (s, .running)) :
    (∀ (sent : List Outgoing) (after : List RxTurn), Reads after (sent.flatMap Outgoing.bytes) →
        (rxLoop throws rxStart (before ++ .failed true :: after)).1.done.routed =
          s.done.routed ++ sent.map Outgoing.message) ↔
      (s.recv.state = stSof0 ∨ s.recv.state = stSof1) ∧
        ∀ n ≥ s.done.ops.length, throws n = false := by
  obtain ⟨htracks, -, -⟩ := tlvReceiverTrace_refines (tracks_init default) (received before)
  have hrecv : s.recv = (tlvReceiverTrace (tlvReceiverInit default) (received before)).1 :=
    recv_of_running hbefore
  rw [← hrecv] at htracks
  rw [← idle_iff htracks]
  have hrouted : ∀ {sent : List Outgoing} {after : List RxTurn},
      Reads after (sent.flatMap Outgoing.bytes) →
      (rxLoop throws rxStart (before ++ .failed true :: after)).1.done.routed =
        (Abortable.run (routeFrame throws) s.done
          (delivered s.recv (sent.flatMap Outgoing.bytes))).1.routed := by
    intro sent after hafter
    rw [rxLoop_append hbefore, rxLoop, (rxLoop_eq s after).1, hafter.received_eq]
  constructor
  · intro hall
    have hfed : ∀ sent : List Outgoing, (Abortable.run (routeFrame throws) s.done
        (delivered s.recv (sent.flatMap Outgoing.bytes))).1.routed =
          s.done.routed ++ sent.map Outgoing.message :=
      fun sent ↦ (hrouted (reads_singly _)).symm.trans (hall sent _ (reads_singly _))
    have hidle := idle_of_routed htracks hfed
    refine ⟨hidle, quiet_of_routed fun sent ↦ ?_⟩
    rw [← hfed sent, delivered_idle htracks hidle]
  · rintro ⟨hidle, hquiet⟩ sent after hafter
    rw [hrouted hafter, delivered_idle htracks hidle]
    obtain ⟨first, -, heq, hfirst⟩ := @exists_routed_eq throws s.done (sent.map Outgoing.message)
    rw [heq, hfirst ((run_routeFrame_iff _ _).2 fun n hn _ ↦ hquiet n hn)]

/-- The old connection breaks behind a first sync byte. -/
theorem routed_after_reconnect_iff_sync :
    (rxLoop (fun _ ↦ false) rxStart ([.bytes [0xA5]] ++ .failed true ::
        [.bytes keepAliveOutgoing.bytes])).1.done.routed = [keepAliveOutgoing.message] := by
  have hreads : Reads [.bytes keepAliveOutgoing.bytes]
      ([keepAliveOutgoing].flatMap Outgoing.bytes) :=
    .bytes (by decide +kernel) (by decide +kernel) .nil
  have hbefore : rxLoop (fun _ ↦ false) rxStart [.bytes [0xA5]] =
      ((rxLoop (fun _ ↦ false) rxStart [.bytes [0xA5]]).1, .running) := rfl
  exact (routed_after_reconnect_iff hbefore).2 ⟨.inr rfl, fun _ _ ↦ rfl⟩ [keepAliveOutgoing] _
    hreads

/-- The old connection breaks behind the length of a frame of three value bytes: the first frame on
the new one is taken for the rest of it. -/
theorem not_forall_routed_after_reconnect :
    ¬∀ (before : List RxTurn) (s : Session Dispatched) (sent : List Outgoing) (after : List RxTurn),
      rxLoop (fun _ ↦ false) rxStart before = (s, .running) →
      Reads after (sent.flatMap Outgoing.bytes) →
      (rxLoop (fun _ ↦ false) rxStart (before ++ .failed true :: after)).1.done.routed =
        s.done.routed ++ sent.map Outgoing.message := by
  intro h
  have hreads : Reads [.bytes keepAliveOutgoing.bytes]
      ([keepAliveOutgoing].flatMap Outgoing.bytes) :=
    .bytes (by decide +kernel) (by decide +kernel) .nil
  have hlost : (rxLoop (fun _ ↦ false) rxStart
      [.bytes [0xA5, 0x5A, 0x10, 0x03], .failed true,
        .bytes keepAliveOutgoing.bytes]).1.done.routed = [] := by
    decide +kernel
  have hrouted := h [.bytes [0xA5, 0x5A, 0x10, 0x03]] _ [keepAliveOutgoing] _ rfl hreads
  rw [List.singleton_append, hlost] at hrouted
  cases hrouted

end SubmarineMonitor
