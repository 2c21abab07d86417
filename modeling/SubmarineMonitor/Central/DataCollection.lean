import SubmarineMonitor.Central.ManagementCommand
import SubmarineMonitor.Node.Rounds

/-!
# Data collection

What `DataCollectionAnalysis::on_frame` stores for the frames it is handed, with every SQL statement
succeeding, and what that says about the node's sensor: a stored keep-alive shows a reading of the
sensor, unless none had succeeded by then.

## The database as two lists

The module uses SQLite through three statements for each table, one that inserts, one that selects
and one that deletes. The tables are lists in the order of insertion, and an insertion appends a
row. The column `id` counts that order and is not selected by any statement. Whether a statement
succeeds is left to `Central.Communication`, where it may throw; here it has succeeded.

`on_frame` checks the length and then lays a packed structure over the value. The fields are read
from the list of bytes at the same places, the temperature from two of them, and become integers in
a row. The clock of the central computer is an argument, since a mode change and an object event are
stamped on arrival, while a keep-alive carries the time of the node.

## Readings of the sensor

`shows_last_reading` joins this with the rounds of the node. It says of each row that a keep-alive
leads to that it repeats one reading, taken together, and not the temperature of one and the
humidity of another; the memory that `Node.Rounds` keeps of the last success is what *the last
reading* refers to. Before the first success there is no such reading, and nothing is promised.

## What is left out

The mutex of the class, which makes each method one step; the path of the file and its directory;
and the purge, which is `Central.Storage`.
-/

open Machine Text

namespace SubmarineMonitor

/-! ### The database -/

/-- A row of the table `measurements`. -/
structure MeasurementRow where
  timestamp : List UInt8
  tempC : ℤ
  humidityPct : ℤ
  lightPct : ℤ
  batteryPct : ℤ
  mode : ℤ
  deriving DecidableEq

/-- A row of the table `events`. -/
structure EventRow where
  timestamp : List UInt8
  type : List UInt8
  description : List UInt8
  deriving DecidableEq

/-- The two tables, each in the order of insertion. -/
structure DataCollection where
  measurements : List MeasurementRow
  events : List EventRow
  deriving DecidableEq

/-- `record_measurement`. -/
def DataCollection.recordMeasurement (db : DataCollection) (row : MeasurementRow) :
    DataCollection :=
  { db with measurements := db.measurements ++ [row] }

/-- `record_event`. -/
def DataCollection.recordEvent (db : DataCollection) (row : EventRow) : DataCollection :=
  { db with events := db.events ++ [row] }

/-! ### Frames -/

/-- `TimeUtils::format`: `"%Y-%m-%d %H:%M:%S"`. -/
def timeUtilsFormat (s : Stamp) : List UInt8 :=
  decimal (2000 + s.year.toNat) ++ ascii "-" ++ decimal2 s.month.toNat ++ ascii "-" ++
    decimal2 s.date.toNat ++ ascii " " ++ decimal2 s.hour.toNat ++ ascii ":" ++
    decimal2 s.min.toNat ++ ascii ":" ++ decimal2 s.sec.toNat

/-- `mode_name`. -/
def modeName (mode : UInt8) : List UInt8 :=
  if mode = 0 then ascii "Normal"
  else if mode = 1 then ascii "Warning"
  else if mode = 2 then ascii "Error"
  else ascii "Unknown"

/-- `on_frame`, the `TLV_TAG_MODE_CHANGE` case. -/
def DataCollection.onModeChange (db : DataCollection) (now : List UInt8) (f : TlvFrame) :
    DataCollection :=
  match f.value with
  | some (oldMode :: newMode :: t₀ :: t₁ :: hum :: light :: batt :: _) =>
    if f.len = 7 then
      (db.recordMeasurement ⟨now, (int16OfBytes t₀ t₁).toInt, hum.toNat, light.toNat, batt.toNat,
        newMode.toNat⟩).recordEvent ⟨now, ascii "mode_change",
          snprintf 64 (ascii "mode " ++ modeName oldMode ++ ascii " -> " ++ modeName newMode)⟩
    else db
  | _ => db

/-- `on_frame`, the `TLV_TAG_KEEP_ALIVE` case. -/
def DataCollection.onKeepAlive (db : DataCollection) (f : TlvFrame) : DataCollection :=
  match f.value with
  | some (year :: month :: date :: hour :: min :: sec :: t₀ :: t₁ :: hum :: light :: batt ::
      mode :: _) =>
    if f.len = 12 then
      db.recordMeasurement ⟨timeUtilsFormat ⟨year, month, date, hour, min, sec⟩,
        (int16OfBytes t₀ t₁).toInt, hum.toNat, light.toNat, batt.toNat, mode.toNat⟩
    else db
  | _ => db

/-- `on_frame`. `now` is what `TimeUtils::now` returns. -/
def DataCollection.onFrame (db : DataCollection) (now : List UInt8) (f : TlvFrame) :
    DataCollection :=
  if f.tag = tlvTagModeChange then db.onModeChange now f
  else if f.tag = tlvTagKeepAlive then db.onKeepAlive f
  else if f.tag = tlvTagObjectDetected then db.recordEvent ⟨now, ascii "object_detected", []⟩
  else if f.tag = tlvTagObjectCleared then db.recordEvent ⟨now, ascii "object_cleared", []⟩
  else db

/-! ### Keep-alives -/

/-- The row a keep-alive is stored as. -/
def keepaliveRow (rtc : RtcReading) (data : MonitorMeasurement) (mode : MonitorMode) :
    MeasurementRow :=
  ⟨timeUtilsFormat rtc.stamp, data.tempC.toInt, data.humidityPct.toNat, data.lightPct.toNat,
    data.batteryPct.toNat, mode.toByte.toNat⟩

/-- **A keep-alive is stored as it was sent.** -/
theorem onFrame_keepalive (db : DataCollection) (now : List UInt8) (rtc : RtcReading)
    (data : MonitorMeasurement) (mode : MonitorMode) :
    db.onFrame now (linkFrame tlvTagKeepAlive (keepalivePayload rtc data mode)) =
      db.recordMeasurement (keepaliveRow rtc data mode) := by
  show db.recordMeasurement ⟨timeUtilsFormat rtc.stamp,
    (int16OfBytes data.tempC.toUInt16.lo data.tempC.toUInt16.hi).toInt, _, _, _, _⟩ = _
  rw [int16OfBytes_int16Bytes]
  rfl

/-- Widening changes no temperature. -/
theorem toInt_tempC (d : DhtData) : d.tempC.toInt = d.temperatureInt.toNat := by
  have hlt : d.temperatureInt.toNat < 256 := d.temperatureInt.toNat_lt
  have hnat : d.temperatureInt.toUInt16.toBitVec.toNat = d.temperatureInt.toNat :=
    UInt8.toNat_toUInt16 _
  show d.temperatureInt.toUInt16.toBitVec.toInt = _
  rw [BitVec.toInt_eq_toNat_of_lt (by omega), hnat]

/-- The temperature and the humidity of a row are those of a reading. -/
def MeasurementRow.Shows (row : MeasurementRow) (d : DhtData) : Prop :=
  row.tempC = d.temperatureInt.toNat ∧ row.humidityPct = d.humidityInt.toNat

/-- **No pair of values comes from nowhere.** At any moment of a boot, every round that was logged
and every keep-alive that was sent, once it is stored, shows the last reading of the sensor that had
succeeded when the round was sampled. Two things are without such a reading: a round before the
first success, and a keep-alive before the first round; the latter shows zeros and the mode 255. -/
theorem shows_last_reading {s : Boot} (h : Reaches Boot.step (fun _ _ ↦ True) .start s) :
    (∀ r ∈ s.logged, r.reads <+: s.reads ∧ ∀ d ∈ r.reads.getLast?,
        r.data.tempC.toInt = d.temperatureInt.toNat ∧ r.data.humidityPct = d.humidityInt) ∧
      ∀ k ∈ s.sent, ∃ row : MeasurementRow,
        (∀ (db : DataCollection) (now : List UInt8),
          db.onFrame now (linkFrame tlvTagKeepAlive k.2) = db.recordMeasurement row) ∧
        (k.1 = none → row.tempC = 0 ∧ row.humidityPct = 0 ∧ row.mode = 255) ∧
        ∀ r ∈ k.1, row.mode ≠ 255 ∧ r.reads <+: s.reads ∧ ∀ d ∈ r.reads.getLast?, row.Shows d := by
  have hinv := Boot.inv_of_reaches h
  have hshows : ∀ r : Round, r.Sound s.reads → ∀ d ∈ r.reads.getLast?,
      r.data.tempC.toInt = d.temperatureInt.toNat ∧ r.data.humidityPct = d.humidityInt := by
    intro r hr d hd
    obtain ⟨htemp, hhum⟩ := hr.shows d hd
    exact ⟨by rw [htemp, toInt_tempC], hhum⟩
  refine ⟨fun r hr ↦ ⟨(hinv.logged r hr).earlier, hshows r (hinv.logged r hr)⟩, fun k hk ↦ ?_⟩
  obtain ⟨hsound, rtc, hpayload⟩ := hinv.sent k hk
  refine ⟨keepaliveRow rtc (snapshot k.1).1 (snapshot k.1).2, fun db now ↦ ?_, ?_, ?_⟩
  · rw [hpayload, onFrame_keepalive]
  · rintro hnone
    rw [hnone]
    exact ⟨rfl, rfl, rfl⟩
  · intro r hr
    have hr' := hsound r hr
    have hmode : ∀ m : MonitorMode, m ≠ .unknown → (m.toByte.toNat : ℤ) ≠ 255 := by
      intro m hm
      cases m <;> first | exact absurd rfl hm | decide
    rw [Option.mem_def.1 hr]
    refine ⟨hmode _ hr'.classified, hr'.earlier, fun d hd ↦ ?_⟩
    obtain ⟨htemp, hhum⟩ := hshows r hr' d hd
    exact ⟨htemp, by rw [← hhum]; rfl⟩

/-- A clock that was never set. -/
def coldClock : RtcReading :=
  ⟨0, 1, 1, 6, 0, 0, 0⟩

/-- A first round at 25 degrees and 50 per cent, and a keep-alive after it. -/
theorem shows_last_reading_first :
    ∃ s, Reaches Boot.step (fun _ _ ↦ True) .start s ∧
      s.logged.map (fun r ↦ r.data.tempC) = [25] ∧ ∀ k ∈ s.sent, ∃ row : MeasurementRow,
        ∀ (db : DataCollection) (now : List UInt8),
          db.onFrame now (linkFrame tlvTagKeepAlive k.2) = db.recordMeasurement row := by
  have hexec : exec (guarded Boot.step fun _ _ ↦ True) .start
      [.sample ⟨2048, 128, .ok ⟨50, 0, 25, 0⟩⟩ defaultLimits, .log, .publish,
        .keepalive coldClock] = some _ := rfl
  have hreaches := reaches_of_exec hexec
  refine ⟨_, hreaches, rfl, fun k hk ↦ ?_⟩
  obtain ⟨row, hrow, -⟩ := (shows_last_reading hreaches).2 k hk
  exact ⟨row, hrow⟩

/-- The keep-alive may be faster than the first round: it is stored with zeros that no sensor ever
returned. -/
theorem not_forall_stored_shows :
    ¬∀ s, Reaches Boot.step (fun _ _ ↦ True) .start s →
      (∀ r ∈ s.logged, ∃ d ∈ s.reads,
          r.data.tempC.toInt = d.temperatureInt.toNat ∧ r.data.humidityPct = d.humidityInt) ∧
        ∀ k ∈ s.sent, ∀ row : MeasurementRow,
          (∀ (db : DataCollection) (now : List UInt8),
            db.onFrame now (linkFrame tlvTagKeepAlive k.2) = db.recordMeasurement row) →
          ∃ d ∈ s.reads, row.Shows d := by
  intro h
  have hexec : exec (guarded Boot.step fun _ _ ↦ True) .start [.keepalive coldClock] =
      some _ := rfl
  obtain ⟨-, hsent⟩ := h _ (reaches_of_exec hexec)
  obtain ⟨d, hd, -⟩ := hsent _ (List.mem_singleton_self _) _
    fun db now ↦ onFrame_keepalive db now coldClock ⟨0, 0, 0, 0⟩ .unknown
  cases hd

end SubmarineMonitor
