import SubmarineMonitor.Central.Communication
import SubmarineMonitor.Central.Gateway
import SubmarineMonitor.Central.Telemetry
import SubmarineMonitor.Node.TxComplete

/-!
# From the calls on the node to the tables

The whole line in one piece: any number of tasks that call `comm_send`, the transmitting task, the
serial line, the gateway, the receiving thread of the central computer and the handler that fills
the database.

`accepted_stored` says that where nothing is lost on the way nothing is lost, doubled or reordered
at either end. What it rests on is that each part hands on the frames it was handed:
`Comm.Accounted` at the node, `lossless_iff` in the gateway, `delivered_idle` in the receiver.

## Joining the parts

Each part has its own module and its own theorem, of the form: what comes out is what went in, under
a condition on that part. The composition has to show that the conditions fit together. At the node
no waiting keep-alive is replaced and everything was transmitted; the gateway has read all of it and
every `send` took its whole chunk; all that the gateway sent has been read; no handler throws. The
bytes between two parts are the same list on both sides, which is `Comm.WireRead`.

## What is compared

A call of `comm_send` and a row of a table have no type in common, and the time at which an event is
stored belongs to neither the call nor the node. So rows are compared without their times
(`EventRow.body`, `MeasurementRow.body`), and the times are the readings of a clock that may show
anything. Events are compared as a list, in the order of the calls; measurements come with two
priorities, so each class keeps its own order.

## What is left out

The runs in which something does get lost. There a beginning arrives, or the stream with gaps that
the receiver recovers from; `Node.Receive` and `Protocol.Recovery` are about that kind of run, and
nothing here contradicts them. That a run comes to rest at all is not claimed: at rest is a
condition.
-/

open Machine Abortable

namespace SubmarineMonitor

/-! ### What a frame says to the database -/

/-- `DataCollectionAnalysis::on_frame` on the frames that are routed, as far as they go to
`on_log_`. The clock shows `now i` at the `i`-th frame. -/
def DataCollection.onFrames (db : DataCollection) (now : ℕ → List UInt8) :
    List Message → DataCollection
  | [] => db
  | m :: ms =>
    (if m.tag ∈ logTags then db.onFrame (now 0) m.frame else db).onFrames (fun i ↦ now (i + 1)) ms

/-- An event without the time it was stored at. -/
def EventRow.body (row : EventRow) : List UInt8 × List UInt8 :=
  (row.type, row.description)

/-- A measurement without its time. -/
def MeasurementRow.body (row : MeasurementRow) : ℤ × ℤ × ℤ × ℤ × ℤ :=
  (row.tempC, row.humidityPct, row.lightPct, row.batteryPct, row.mode)

/-- What a frame adds to the database. -/
def Message.rows (now : List UInt8) (m : Message) : DataCollection :=
  (DataCollection.mk [] []).onFrame now m.frame

/-- The events that a frame stands for. -/
def Message.events (m : Message) : List (List UInt8 × List UInt8) :=
  (m.rows []).events.map EventRow.body

/-- The measurements that a frame stands for. -/
def Message.measurements (m : Message) : List (ℤ × ℤ × ℤ × ℤ × ℤ) :=
  (m.rows []).measurements.map MeasurementRow.body

/-- A frame adds the same rows to any database. -/
theorem onFrame_add (db : DataCollection) (now : List UInt8) (f : TlvFrame) :
    db.onFrame now f =
      ⟨db.measurements ++ ((DataCollection.mk [] []).onFrame now f).measurements,
        db.events ++ ((DataCollection.mk [] []).onFrame now f).events⟩ := by
  simp only [DataCollection.onFrame, DataCollection.onModeChange, DataCollection.onKeepAlive,
    DataCollection.recordEvent, DataCollection.recordMeasurement]
  split_ifs
  iterate 4
    · split <;> simp
  all_goals simp

/-- The time makes no difference to what is said. -/
theorem rows_body (now : List UInt8) (m : Message) :
    (m.rows now).events.map EventRow.body = m.events ∧
      (m.rows now).measurements.map MeasurementRow.body = m.measurements := by
  simp only [Message.events, Message.measurements, Message.rows, DataCollection.onFrame,
    DataCollection.onModeChange, DataCollection.onKeepAlive, DataCollection.recordEvent,
    DataCollection.recordMeasurement]
  split_ifs
  iterate 4
    · split <;> exact ⟨rfl, rfl⟩
  all_goals exact ⟨rfl, rfl⟩

/-- A frame that the handler is not called for says nothing to the database. -/
theorem rows_of_notMem {m : Message} (h : m.tag ∉ logTags) (now : List UInt8) :
    m.rows now = ⟨[], []⟩ := by
  have hne : ∀ tag ∈ logTags, m.frame.tag ≠ tag := by
    rintro tag htag rfl
    exact h htag
  rw [Message.rows, DataCollection.onFrame, if_neg (hne _ (by decide)), if_neg (hne _ (by decide)),
    if_neg (hne _ (by decide)), if_neg (hne _ (by decide))]

/-- A frame adds its rows, whether or not the handler is called for it. -/
theorem routed_add (db : DataCollection) (now : List UInt8) (m : Message) :
    (if m.tag ∈ logTags then db.onFrame now m.frame else db) =
      ⟨db.measurements ++ (m.rows now).measurements, db.events ++ (m.rows now).events⟩ := by
  split
  · exact onFrame_add db now m.frame
  · rename_i hm
    rw [rows_of_notMem hm, List.append_nil, List.append_nil]

/-- **The tables after some frames.** -/
theorem onFrames_body (db : DataCollection) (now : ℕ → List UInt8) (ms : List Message) :
    (db.onFrames now ms).events.map EventRow.body =
        db.events.map EventRow.body ++ ms.flatMap Message.events ∧
      (db.onFrames now ms).measurements.map MeasurementRow.body =
        db.measurements.map MeasurementRow.body ++ ms.flatMap Message.measurements := by
  induction ms generalizing db now with
  | nil => exact ⟨(List.append_nil _).symm, (List.append_nil _).symm⟩
  | cons m ms ih =>
    obtain ⟨hsaid, hread⟩ := rows_body (now 0) m
    rw [DataCollection.onFrames, (ih _ _).1, (ih _ _).2, routed_add, List.map_append,
      List.map_append, hsaid, hread, List.append_assoc, List.append_assoc]
    exact ⟨rfl, rfl⟩

/-- Events are of the middle class. -/
theorem events_of_prio_ne {m : Message} (h : commPriorityForTag m.tag ≠ .med) : m.events = [] := by
  have hne : ∀ tag, commPriorityForTag tag = .med → m.frame.tag ≠ tag := by
    rintro tag htag rfl
    exact h htag
  rw [Message.events, Message.rows, DataCollection.onFrame, if_neg (hne _ rfl)]
  split
  · rw [DataCollection.onKeepAlive]
    split
    · split_ifs <;> rfl
    · rfl
  · rw [if_neg (hne _ rfl), if_neg (hne _ rfl)]
    rfl

/-- What contributes nothing may be left out. -/
theorem flatMap_filter_of_nil {α β : Type*} {f : α → List β} {p : α → Bool}
    (h : ∀ a, p a = false → f a = []) (l : List α) : (l.filter p).flatMap f = l.flatMap f := by
  induction l with
  | nil => rfl
  | cons a l ih =>
    rcases hp : p a with _ | _
    · rw [List.filter_cons_of_neg (by simp [hp]), List.flatMap_cons, h a hp, ih]
      rfl
    · rw [List.filter_cons_of_pos hp, List.flatMap_cons, List.flatMap_cons, ih]

/-! ### The frames of the node -/

theorem CommTxItem.length_value_le (item : CommTxItem) :
    (item.value.toList.take item.len.toNat).length ≤ tlvMaxValue := by
  rw [List.length_take, Vector.length_toList, tlvMaxValue]
  omega

/-- The message of an item. -/
def CommTxItem.outgoing (item : CommTxItem) : Outgoing :=
  ⟨item.tag, item.value.toList.take item.len.toNat, item.length_value_le⟩

/-- An item whose length is right is transmitted as its message. -/
theorem bytes_outgoing {item : CommTxItem} (hlen : item.len.toNat ≤ commMaxValue)
    {frame : List UInt8}
    (hframe : tlvEncode item.tag (some item.value.toList) item.len tlvMaxFrame = .ok frame) :
    frame = item.outgoing.bytes := by
  have htake : item.outgoing.value.length = item.len.toNat := by
    have hle : item.len.toNat ≤ 96 := hlen
    show (item.value.toList.take item.len.toNat).length = _
    rw [List.length_take, Vector.length_toList]
    omega
  have hlen' : item.outgoing.len = item.len := by
    apply UInt8.toNat_inj.1
    rw [Outgoing.toNat_len, htake]
  have hencode := item.outgoing.tlvEncode_eq
    (Nat.add_le_add_right item.outgoing.value_le 6 : _ ≤ tlvMaxFrame)
  have hsame : tlvEncode item.tag (some item.value.toList) item.len tlvMaxFrame =
      tlvEncode item.tag (some item.outgoing.value) item.len tlvMaxFrame := by
    have hvalue : item.outgoing.value.take item.len.toNat =
        item.value.toList.take item.len.toNat :=
      List.take_of_length_le htake.le
    simp only [tlvEncode, reduceCtorEq, false_and, if_false, Option.getD_some, hvalue]
  rw [hlen'] at hencode
  exact Except.ok.inj (hframe.symm.trans (hsame.trans hencode))

/-- The messages of the frames transmitted. -/
def Comm.messages (c : Comm) : List Message :=
  c.sent.map fun t ↦ t.item.outgoing.message

variable {c : Comm} {log : List TxSlot}

/-- What is on the wire are the frames of these messages. -/
theorem Comm.Accounted.wire (h : c.Accounted log) :
    c.sent.flatMap Transmission.frame =
      (c.sent.map fun t ↦ t.item.outgoing).flatMap Outgoing.bytes := by
  rw [List.flatMap_map]
  refine List.flatMap_congr fun t ht ↦ ?_
  obtain ⟨-, -, hlen⟩ := h.transmission ht
  exact bytes_outgoing hlen (h.frames.frames t ht)

/-- **What was transmitted of a class is what was put of it.** -/
theorem Comm.Accounted.messages_of_idle (h : c.Accounted log) (hidle : c.Idle) (prio : CommPrio) :
    (c.messages.filter fun m ↦ commPriorityForTag m.tag = prio) =
      (ofClass prio log).map fun slot ↦ slot.item.outgoing.message := by
  have hslots : (c.sent.filterMap Transmission.slot?).map (fun slot ↦ slot.item.outgoing.message) =
      c.messages := by
    rw [Comm.messages, List.map_filterMap, ← List.filterMap_eq_map]
    refine List.filterMap_congr fun t ht ↦ ?_
    obtain ⟨id, hslot, -⟩ := h.transmission ht
    rw [hslot]
    rfl
  rw [← h.sent_of_idle hidle, ← hslots, List.filter_map]
  rfl

/-! ### The line -/

/-- A gateway whose sends take what they are offered delivers what it reads. -/
theorem serialToTcp_of_full {serial : List Gateway.SerialTurn}
    (h : ∀ chunk ∈ Gateway.chunksRead serial, chunk.sent = chunk.bytes.length) :
    Gateway.serialToTcp serial = Gateway.concat (Gateway.chunksRead serial) := by
  have hall : Gateway.accepted (Gateway.chunksRead serial) = Gateway.chunksRead serial := by
    refine List.filter_eq_self.2 fun chunk hchunk ↦ decide_eq_true ?_
    have hpos := List.length_pos_iff.2 chunk.bytes_ne
    rw [h chunk hchunk]
    omega
  rw [Gateway.serialToTcp_eq, hall, Gateway.concat]
  refine List.flatMap_congr fun chunk hchunk ↦ ?_
  rw [h chunk hchunk, Int.toNat_natCast, List.take_length]

/-- If no handler throws, the receiving thread routes the frames in what it has read. -/
theorem routed_eq_framesIn (turns : List RxTurn) :
    (rxLoop (fun _ ↦ false) rxStart turns).1.done.routed = framesIn (received turns) := by
  obtain ⟨hdone, -⟩ := @rxLoop_eq (fun _ ↦ false) rxStart turns
  have hdelivered : delivered rxStart.recv (received turns) = framesIn (received turns) :=
    delivered_eq (tracks_init default) _
  rw [hdone, hdelivered]
  obtain ⟨first, -, hrouted, hall⟩ := @exists_routed_eq (fun _ ↦ false) rxStart.done
    (framesIn (received turns))
  have hnone := (@run_routeFrame_iff (fun _ ↦ false) rxStart.done (framesIn (received turns))).2
    fun _ _ _ ↦ rfl
  rw [hrouted, hall hnone]
  rfl

/-- The frames in a stream of frames. -/
theorem framesIn_flatMap_bytes (sent : List Outgoing) :
    framesIn (sent.flatMap Outgoing.bytes) = sent.map Outgoing.message := by
  rw [← delivered_idle (tracks_init default) (.inl rfl) sent]
  exact (delivered_eq (tracks_init default) _).symm

/-- What the node has transmitted has been read: the line, the gateway and the reads have lost
nothing. -/
structure Comm.WireRead (c : Comm) (serial : List Gateway.SerialTurn) (turns : List RxTurn) :
    Prop where
  line : Gateway.concat (Gateway.chunksRead serial) = c.sent.flatMap Transmission.frame
  full : ∀ chunk ∈ Gateway.chunksRead serial, chunk.sent = chunk.bytes.length
  reads : received turns = Gateway.serialToTcp serial

/-- The messages are routed as they were transmitted. -/
theorem Comm.Accounted.routed (h : c.Accounted log) {serial : List Gateway.SerialTurn}
    {turns : List RxTurn} (hread : c.WireRead serial turns) :
    (rxLoop (fun _ ↦ false) rxStart turns).1.done.routed = c.messages := by
  have hwire : received turns = (c.sent.map fun t ↦ t.item.outgoing).flatMap Outgoing.bytes := by
    rw [hread.reads, serialToTcp_of_full hread.full, hread.line, h.wire]
  rw [routed_eq_framesIn, hwire, framesIn_flatMap_bytes, List.map_map]
  rfl

/-- The events that were transmitted are those that were put. -/
theorem Comm.Accounted.events_of_idle (h : c.Accounted log) (hidle : c.Idle) :
    c.messages.flatMap Message.events =
      (ofClass .med log).flatMap fun slot ↦ slot.item.outgoing.message.events := by
  rw [← flatMap_filter_of_nil fun m hm ↦ events_of_prio_ne (of_decide_eq_false hm),
    h.messages_of_idle hidle .med, List.flatMap_map]

/-- **What is accepted is stored.** Any number of tasks call `comm_send`, in any interleaving with
the transmitting task and as long as no waiting keep-alive is replaced. When nothing is under way
any more, and what was transmitted has been read and no handler has thrown, then there is one frame
for each call that was accepted, each class of frames is routed in the order of its calls, and the
tables have grown by what the frames say: the events in the order of the calls. -/
theorem accepted_stored {serial : List Gateway.SerialTurn} {turns : List RxTurn}
    (h : Reaches (logged commStep Comm.puts) (fun s a ↦ ¬s.1.TakesStale a) (communicationCreate, [])
      (c, log))
    (hidle : c.Idle) (hread : c.WireRead serial turns) (now : ℕ → List UInt8)
    (db : DataCollection) :
    c.PutOnce log ∧
      (∀ prio, ((rxLoop (fun _ ↦ false) rxStart turns).1.done.routed.filter fun m ↦
          commPriorityForTag m.tag = prio) =
        (ofClass prio log).map fun slot ↦ slot.item.outgoing.message) ∧
      ((db.onFrames now (rxLoop (fun _ ↦ false) rxStart turns).1.done.routed).events.map
          EventRow.body =
        db.events.map EventRow.body ++
          (ofClass .med log).flatMap fun slot ↦ slot.item.outgoing.message.events) ∧
      (db.onFrames now (rxLoop (fun _ ↦ false) rxStart turns).1.done.routed).measurements.map
          MeasurementRow.body =
        db.measurements.map MeasurementRow.body ++ c.messages.flatMap Message.measurements := by
  have haccounted := Comm.accounted_of_reaches h
  obtain ⟨hevents, hmeasurements⟩ := onFrames_body db now c.messages
  rw [haccounted.routed hread]
  refine ⟨haccounted.putOnce, haccounted.messages_of_idle hidle, ?_, hmeasurements⟩
  rw [hevents, haccounted.events_of_idle hidle]

/-- An object is detected, and the mode changes to error, while a keep-alive is put. -/
def alarmCalls : List SendArgs :=
  [⟨false, tlvTagObjectDetected, none, 0⟩,
    ⟨false, tlvTagModeChange, some (modeChangePayload ⟨60, 50, 40, 30⟩ .normal .error), 7⟩,
    keepaliveSend coldClock ⟨60, 50, 40, 30⟩ .error]

/-- Its frames, the keep-alive first. -/
def alarmBytes : List UInt8 :=
  [⟨tlvTagKeepAlive, keepalivePayload coldClock ⟨60, 50, 40, 30⟩ .error, Nat.le_of_ble_eq_true rfl⟩,
    ⟨tlvTagObjectDetected, [], Nat.zero_le _⟩,
    ⟨tlvTagModeChange, modeChangePayload ⟨60, 50, 40, 30⟩ .normal .error,
      Nat.le_of_ble_eq_true rfl⟩].flatMap Outgoing.bytes

/-- The events of these calls. -/
def alarmEvents : List (List UInt8 × List UInt8) :=
  [(Text.ascii "object_detected", []),
    (Text.ascii "mode_change", Text.ascii "mode Normal -> Error")]

/-- A run with these calls, to its end. -/
theorem exists_alarm_run :
    ∃ (c : Comm) (log : List TxSlot),
      Reaches (logged commStep Comm.puts) (fun s a ↦ ¬s.1.TakesStale a) (communicationCreate, [])
          (c, log) ∧ c.Idle ∧
        (c.sent.map Transmission.src = [some 2, some 0, some 1] ∧
          c.sent.flatMap Transmission.frame = alarmBytes) ∧
        (ofClass .med log).flatMap (fun slot ↦ slot.item.outgoing.message.events) =
          alarmEvents := by
  have hrun : (exec (guarded (logged commStep Comm.puts) fun s a ↦ ¬s.1.TakesStale a)
      (communicationCreate, []) (alarmCalls.map CommAction.call ++
        [.send 0, .send 1, .send 2, .send 0, .send 1, .send 2] ++
        List.replicate 11 (.task Comm.stackJunk))).map (fun s ↦
          (s.1.sent.map Transmission.src, decide (s.1.sent.flatMap Transmission.frame = alarmBytes ∧
              s.1.calls.map CommSend.pc = List.replicate 3 (.returned 0) ∧
              s.1.task = .acquire ∧ s.1.semTxReady.count = 0),
            (ofClass .med s.2).flatMap fun slot ↦ slot.item.outgoing.message.events)) =
      some ([some 2, some 0, some 1], true, alarmEvents) := by decide +kernel
  obtain ⟨⟨c, log⟩, hexec, hfound⟩ := Option.map_eq_some_iff.1 hrun
  obtain ⟨hsrc, hrest⟩ := Prod.mk.inj hfound
  obtain ⟨hidle, hevents⟩ := Prod.mk.inj hrest
  obtain ⟨hbytes, hcalls, htask, hsem⟩ := of_decide_eq_true hidle
  refine ⟨c, log, reaches_of_exec hexec, ⟨fun call hcall ↦ .inr ⟨0, ?_⟩, htask, hsem⟩,
    ⟨hsrc, hbytes⟩, hevents⟩
  have hpc := List.mem_map_of_mem (f := CommSend.pc) hcall
  rw [hcalls] at hpc
  exact List.eq_of_mem_replicate hpc

theorem alarmBytes_ne : alarmBytes ≠ [] := by
  decide +kernel

theorem length_alarmBytes_le : alarmBytes.length ≤ 256 := by
  decide +kernel

/-- Its bytes, read from the serial port at once. -/
def alarmChunk : Gateway.SerialChunk :=
  ⟨alarmBytes, alarmBytes.length, alarmBytes_ne, length_alarmBytes_le, le_rfl⟩

theorem wireRead_alarm {c : Comm} (h : c.sent.flatMap Transmission.frame = alarmBytes) :
    c.WireRead [.chunk alarmChunk] [.bytes alarmBytes] := by
  have hread : Gateway.chunksRead [.chunk alarmChunk] = [alarmChunk] :=
    congrArg (alarmChunk :: ·) (ite_self _)
  have hfull : ∀ chunk ∈ Gateway.chunksRead [.chunk alarmChunk],
      chunk.sent = chunk.bytes.length := by
    rw [hread]
    exact fun chunk hchunk ↦ by rw [List.mem_singleton.1 hchunk]; rfl
  have hline : Gateway.concat (Gateway.chunksRead [.chunk alarmChunk]) = alarmBytes := by
    rw [hread]
    exact List.append_nil _
  refine ⟨hline.trans h.symm, hfull, ?_⟩
  rw [serialToTcp_of_full hfull, hline]
  exact List.append_nil _

/-- The keep-alive goes first, and the two events follow in the order of their calls. -/
theorem accepted_stored_alarm :
    ∃ c : Comm, c.sent.map Transmission.src = [some 2, some 0, some 1] ∧
      ((DataCollection.mk [] []).onFrames (fun _ ↦ [])
          (rxLoop (fun _ ↦ false) rxStart [.bytes alarmBytes]).1.done.routed).events.map
            EventRow.body = alarmEvents := by
  obtain ⟨c, log, hreaches, hidle, ⟨hsrc, hbytes⟩, hevents⟩ := exists_alarm_run
  obtain ⟨-, -, hstored, -⟩ := accepted_stored hreaches hidle (wireRead_alarm hbytes) (fun _ ↦ [])
    ⟨[], []⟩
  exact ⟨c, hsrc, hstored.trans hevents⟩

end SubmarineMonitor
