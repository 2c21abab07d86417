import SubmarineMonitor.Central.DataCollection
import SubmarineMonitor.Node.Event
import SubmarineMonitor.Node.TxAccounting
import SubmarineMonitor.Protocol.Handler

/-!
# Telemetry, from the node to the database

What becomes of a `comm_send` call of `keepalive_task` or of `event_mode_changed`: the item it fills
in, the frame that `comm_tx_task` transmits for that item whenever it gets to it, the bytes in whatever
chunks the central computer reads them, its receiver, and `DataCollectionAnalysis::on_frame`.

`SendArgs.Stores` is all of this for one call. The two payloads are declared on both sides of the line;
`telemetry_fidelity` says that they are the same.

## One call

`SendArgs.Stores` takes a call apart as the code does: `comm_send` copies the payload into an item,
the task encodes the item whenever it gets to it, the bytes are read in chunks, the receiver makes a
frame of them, and the handler stores it. It is about one call because the rest does not depend on
how many there are; what several of them do to one another in the queues is `Node.TxOrder`, and the
way of all of them to the tables is `Central.Ingest`.

The payload is written by the node's compiler and read by another one. Both structures are packed,
so a payload is the list of its fields' bytes. The temperature is the only field of two bytes;
neither side swaps them, and both machines have the low byte first, as the two translations do.

## Values

Readings are machine integers at the node and integers in a row. A temperature below zero is an
`int16_t` on both sides. A mode is a byte, and its name in the description comes from a table with a
default, as a byte above 2 can be in the keep-alive that is sent before the first round.

## What is left out

The other tags of the log handler, which store an event without a payload or nothing. The texts of
the live log, which are written for each frame in front of the handler.
-/

open Machine Text

namespace SubmarineMonitor

/-! ### What is sent, and what it means -/

/-- The `comm_send` call of `keepalive_task`. -/
def keepaliveSend (rtc : RtcReading) (data : MonitorMeasurement) (mode : MonitorMode) : SendArgs :=
  ⟨false, tlvTagKeepAlive, some (keepalivePayload rtc data mode), 12⟩

/-- The name of a mode in the database. -/
def MonitorMode.title : MonitorMode → List UInt8
  | .unknown => ascii "Unknown"
  | .normal => ascii "Normal"
  | .warning => ascii "Warning"
  | .error => ascii "Error"

/-- The measurement that goes with a mode change. -/
def modeChangeRow (now : List UInt8) (data : MonitorMeasurement) (newMode : MonitorMode) :
    MeasurementRow :=
  ⟨now, data.tempC.toInt, data.humidityPct.toNat, data.lightPct.toNat, data.batteryPct.toNat,
    newMode.toByte.toNat⟩

/-- And the event. -/
def modeChangeEvent (now : List UInt8) (oldMode newMode : MonitorMode) : EventRow :=
  ⟨now, ascii "mode_change", ascii "mode " ++ oldMode.title ++ ascii " -> " ++ newMode.title⟩

/-- What `comm_tx_task` makes of an item. -/
def CommTxItem.encode (item : CommTxItem) : Except TlvStatus (List UInt8) :=
  tlvEncode item.tag (some item.value.toList) item.len tlvMaxFrame

/-- **What a call comes to.** With the database as it is, and the clock of the central computer
showing `now` when the frame has arrived, the call turns the one database into the other. -/
structure SendArgs.Stores (args : SendArgs) (now : List UInt8) (db db' : DataCollection) : Prop where
  /-- The arguments pass the checks. -/
  accepted : commSendEnter args = .put
  encoded : ∃ frame, args.item.encode = .ok frame
  /-- Whoever else is sending, what is transmitted for the call is that frame. -/
  transmitted : ∀ c, Reaches commStep (fun _ _ ↦ True) communicationCreate c → ∀ t ∈ c.sent,
    ∀ id call, t.src = some id → c.calls[id]? = some call → call.args = args →
      args.item.encode = .ok t.frame
  /-- In any chunks, fed to a receiver that is hunting, it is stored. -/
  received : ∀ frame, args.item.encode = .ok frame → ∀ recv : TlvReceiver, recv.state = stSof0 →
    ∀ chunks : List (List UInt8), chunks.flatten = frame →
      (chunks.foldl (feedTo fun db f ↦ db.onFrame now f) ⟨recv, db⟩).done = db'

/-! ### The receiving side -/

variable {db : DataCollection} {now : List UInt8} {f : TlvFrame}

theorem onModeChange_of_len_ne (h : f.len ≠ 7) : db.onModeChange now f = db := by
  rw [DataCollection.onModeChange]
  split
  · exact if_neg h
  · rfl

theorem onKeepAlive_of_len_ne (h : f.len ≠ 12) : db.onKeepAlive f = db := by
  rw [DataCollection.onKeepAlive]
  split
  · exact if_neg h
  · rfl

theorem onModeChange_frame (db : DataCollection) (f : TlvFrame) :
    db.onModeChange now f = db.onModeChange now f.message.frame := by
  obtain ⟨tag, len, value⟩ := f
  rcases eq_or_ne len 7 with rfl | hlen
  · obtain _ | value := value
    · rfl
    -- a value too short for the payload, or the payload
    iterate 7
      obtain _ | ⟨b, value⟩ := value
      · rfl
    rfl
  · rw [onModeChange_of_len_ne hlen]
    exact (onModeChange_of_len_ne hlen).symm

theorem onKeepAlive_frame (db : DataCollection) (f : TlvFrame) :
    db.onKeepAlive f = db.onKeepAlive f.message.frame := by
  obtain ⟨tag, len, value⟩ := f
  rcases eq_or_ne len 12 with rfl | hlen
  · obtain _ | value := value
    · rfl
    iterate 12
      obtain _ | ⟨b, value⟩ := value
      · rfl
    rfl
  · rw [onKeepAlive_of_len_ne hlen]
    exact (onKeepAlive_of_len_ne hlen).symm

/-- `on_frame` looks at nothing behind the value. -/
theorem readsMessage_onFrame (now : List UInt8) :
    ReadsMessage fun (db : DataCollection) f ↦ db.onFrame now f := by
  intro db f
  simp only [DataCollection.onFrame, ← onModeChange_frame, ← onKeepAlive_frame]
  rfl

/-- The central computer's names are those of the node's modes. -/
theorem modeName_toByte (mode : MonitorMode) : modeName mode.toByte = mode.title := by
  cases mode <;> rfl

/-- **A mode change is stored as it was sent.** -/
theorem onFrame_modeChange (db : DataCollection) (now : List UInt8) (data : MonitorMeasurement)
    (oldMode newMode : MonitorMode) :
    db.onFrame now (linkFrame tlvTagModeChange (modeChangePayload data oldMode newMode)) =
      (db.recordMeasurement (modeChangeRow now data newMode)).recordEvent
        (modeChangeEvent now oldMode newMode) := by
  have htext : snprintf 64 (ascii "mode " ++ modeName oldMode.toByte ++ ascii " -> " ++
      modeName newMode.toByte) =
        ascii "mode " ++ oldMode.title ++ ascii " -> " ++ newMode.title := by
    rw [modeName_toByte, modeName_toByte]
    cases oldMode <;> cases newMode <;> exact snprintf_of_lt (by decide)
  rw [modeChangeEvent, ← htext]
  show (db.recordMeasurement ⟨now,
    (int16OfBytes data.tempC.toUInt16.lo data.tempC.toUInt16.hi).toInt, _, _, _, _⟩).recordEvent _ = _
  rw [int16OfBytes_int16Bytes]
  rfl

/-! ### From one end to the other -/

/-- The call that sends a message. -/
def Outgoing.args (o : Outgoing) : SendArgs :=
  ⟨false, o.tag, some o.value, o.len⟩

theorem Outgoing.enters_args (o : Outgoing) (hle : o.value.length ≤ commMaxValue) :
    commSendEnter o.args = .put := by
  have hlen : ¬o.args.valueLen.toNat > commMaxValue := by
    show ¬o.len.toNat > commMaxValue
    rw [o.toNat_len]
    exact Nat.not_lt.2 hle
  rw [commSendEnter, if_neg (by rintro ⟨⟩), if_neg (by rintro ⟨⟨⟩, -⟩), if_neg hlen]

theorem Outgoing.encode_args (o : Outgoing) (hle : o.value.length ≤ commMaxValue) :
    o.args.item.encode = .ok o.bytes := by
  rw [CommTxItem.encode, tlvEncode_item_of_enters (o.enters_args hle) o.toNat_len.le]
  exact o.tlvEncode_eq (Nat.add_le_add_right o.value_le 6)

/-- A message that fits into an item is stored as `on_frame` stores its frame. -/
theorem Outgoing.stores_args (o : Outgoing) (hle : o.value.length ≤ commMaxValue)
    (hstored : db.onFrame now o.message.frame = db') : o.args.Stores now db db' where
  accepted := o.enters_args hle
  encoded := ⟨o.bytes, o.encode_args hle⟩
  transmitted := by
    intro c hc t ht id call hsrc hcall hargs
    have hprovenance : Comm.Provenance c :=
      hc.invariant Comm.provenance_create fun hp _ hstep ↦ hp.step hstep
    have hslot : (⟨t.item, id⟩ : TxSlot) ∈ c.slots := by
      have hmem : (⟨t.item, id⟩ : TxSlot) ∈ c.sent.filterMap Transmission.slot? :=
        List.mem_filterMap.2 ⟨t, ht, by rw [Transmission.slot?, hsrc]; rfl⟩
      simp [Comm.slots, hmem]
    obtain ⟨call', hcall', hitem, -⟩ := hprovenance.origin _ hslot
    obtain rfl : call = call' := Option.some.inj (hcall.symm.trans hcall')
    rw [← hargs, hitem]
    exact hprovenance.frames t ht
  received := by
    intro frame hframe recv hrecv chunks hchunks
    obtain rfl : o.bytes = frame := Except.ok.inj ((o.encode_args hle).symm.trans hframe)
    have hsent : chunks.flatten = [o].flatMap Outgoing.bytes := by
      rw [hchunks, List.flatMap_singleton]
    have hdone := @feedTo_chunks DataCollection _ (readsMessage_onFrame now) ⟨recv, db⟩ hrecv [o]
      chunks hsent
    rw [hdone, List.map_singleton, List.foldl_cons, List.foldl_nil, hstored]

/-- The `comm_send` call of `event_mode_changed`. -/
theorem sends_eventModeChanged {s : EventSystem} (hcomm : s.event.commNull = false) (io : EventIo)
    (data : MonitorMeasurement) (oldMode newMode : MonitorMode) :
    (eventModeChanged s io data oldMode newMode).sends =
      s.sends ++ [⟨false, tlvTagModeChange, some (modeChangePayload data oldMode newMode), 7⟩] := by
  dsimp only [eventModeChanged, eventSend, writeEventsFile, alarmStart, alarmStopIfActive]
  split_ifs <;> rw [hcomm]

/-- **What the node reports is what is stored.** A keep-alive becomes one measurement, with the
node's own time and readings, and no event. A mode change becomes one measurement, with the readings
and the new mode, and one event that names both modes. A frame with one of these two tags and any
other length becomes nothing. -/
theorem telemetry_fidelity (db : DataCollection) (now : List UInt8) :
    (∀ (rtc : RtcReading) (data : MonitorMeasurement) (mode : MonitorMode),
      (keepaliveSend rtc data mode).Stores now db
        { db with measurements := db.measurements ++
            [⟨timeUtilsFormat rtc.stamp, data.tempC.toInt, data.humidityPct.toNat,
              data.lightPct.toNat, data.batteryPct.toNat, mode.toByte.toNat⟩] }) ∧
    (∀ (s : EventSystem) (io : EventIo) (data : MonitorMeasurement) (oldMode newMode : MonitorMode),
      s.event.commNull = false →
        ∃ args, (eventModeChanged s io data oldMode newMode).sends = s.sends ++ [args] ∧
          args.Stores now db
            ⟨db.measurements ++ [modeChangeRow now data newMode],
              db.events ++ [modeChangeEvent now oldMode newMode]⟩) ∧
    ∀ f : TlvFrame, f.tag = tlvTagKeepAlive ∧ f.len ≠ 12 ∨ f.tag = tlvTagModeChange ∧ f.len ≠ 7 →
      db.onFrame now f = db := by
  refine ⟨fun rtc data mode ↦ ?_, fun s io data oldMode newMode hcomm ↦ ?_, ?_⟩
  · exact Outgoing.stores_args
      ⟨tlvTagKeepAlive, keepalivePayload rtc data mode, Nat.le_of_ble_eq_true rfl⟩
      (Nat.le_of_ble_eq_true rfl) (onFrame_keepalive db now rtc data mode)
  · exact ⟨_, sends_eventModeChanged hcomm io data oldMode newMode, Outgoing.stores_args
      ⟨tlvTagModeChange, modeChangePayload data oldMode newMode, Nat.le_of_ble_eq_true rfl⟩
      (Nat.le_of_ble_eq_true rfl) (onFrame_modeChange db now data oldMode newMode)⟩
  · rintro f (⟨htag, hlen⟩ | ⟨htag, hlen⟩)
    · rw [DataCollection.onFrame, htag, if_neg (by decide), if_pos rfl, onKeepAlive_of_len_ne hlen]
    · rw [DataCollection.onFrame, htag, if_pos rfl, onModeChange_of_len_ne hlen]

/-- A keep-alive on a frosty Sunday morning, 6 September 2026. -/
theorem telemetry_fidelity_frost :
    (keepaliveSend ⟨26, 9, 6, 7, 8, 5, 9⟩ ⟨-12, 71, 40, 88⟩ .warning).Stores [] ⟨[], []⟩
      ⟨[⟨ascii "2026-09-06 08:05:09", -12, 71, 40, 88, 1⟩], []⟩ :=
  (telemetry_fidelity ⟨[], []⟩ []).1 ⟨26, 9, 6, 7, 8, 5, 9⟩ ⟨-12, 71, 40, 88⟩ .warning

end SubmarineMonitor
