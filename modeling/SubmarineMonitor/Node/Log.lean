import SubmarineMonitor.Node.Monitor
import SubmarineMonitor.Node.SdFatFs
import SubmarineMonitor.Node.Timestamp

/-!
# The measurement log

`log_write` and what it keeps, after `log.c`: one file per weekday, started afresh by the first write
to it since the slot last changed. What changed is remembered in RAM only.

## What is kept between two calls

Only the slot of the last line, in RAM; zero stands for none, since the slots are numbered from one.
The files themselves are on the card and are the card's business. So what a call does depends on the
reading of the clock, on that byte, and on what the operations on the card return (`LogIo`), and all
three are arguments.

The results of both operations are ignored, as in the code: the slot counts as started once its file
was to be deleted, whatever came of that. The consequences are drawn in four modules, for files that
are kept (`Node.LogRetention`), for the rotation (`Node.LogWeek`), for dates that get mixed
(`Node.LogDates`) and for lines that are cut (`Node.TornAppend`).

## What is left out

The line is printed into a buffer of 128 characters, and no reading makes it longer; the buffer is
kept all the same, as part of `snprintf`. The weekday comes from the RTC as it is: that it is the
weekday of the date is an assumption about a reading, never about this function.
-/

open Text

namespace SubmarineMonitor

/-! ### The writer -/

/-- The part of `struct Log` that changes. -/
structure Log where
  /-- The slot of the last line written, 0 if there was none. -/
  lastWrittenDay : UInt8
  deriving DecidableEq

/-- `log_create`. -/
def logCreate : Log :=
  ⟨0⟩

/-- The Sunday-first weekday slot of `current_timestamp_and_slot`. -/
def slotOf (r : RtcReading) : UInt8 :=
  r.weekDay % 7 + 1

/-- The name `"LOG%u.TXT"`, in a buffer of 13 characters. -/
def logFilename (slot : UInt8) : List UInt8 :=
  snprintf 13 (ascii "LOG" ++ decimal slot.toNat ++ ascii ".TXT")

/-- The text `"[%s] temp=%dC hum=%u%% light=%u%% batt=%u%% mode=%s"`. -/
def logText (r : RtcReading) (data : MonitorMeasurement) (mode : MonitorMode) : List UInt8 :=
  ascii "[" ++ formatTimestamp r ++ ascii "] temp=" ++ signed data.tempC.toInt ++
    ascii "C hum=" ++ decimal data.humidityPct.toNat ++ ascii "% light=" ++
    decimal data.lightPct.toNat ++ ascii "% batt=" ++ decimal data.batteryPct.toNat ++
    ascii "% mode=" ++ monitorModeName mode

/-- The line, in a buffer of 128 characters. -/
def logLine (r : RtcReading) (data : MonitorMeasurement) (mode : MonitorMode) : List UInt8 :=
  snprintf 128 (crlfLine (logText r data mode))

/-- What the SD operations of one `log_write` return. -/
structure LogIo where
  /-- `SDFatFS_DeleteFile` gets as far as unlinking. -/
  delete : Bool
  save : SaveResults

/-- `log_write`. -/
def logWrite (l : Log) (card : SdCard) (io : LogIo) (r : RtcReading) (data : MonitorMeasurement)
    (mode : MonitorMode) : Log × SdCard :=
  let slot := slotOf r
  let filename := logFilename slot
  let line := logLine r data mode
  -- the first write since a day rollover, or ever: start this slot fresh
  if slot ≠ l.lastWrittenDay then
    let card := (sdDeleteFile card io.delete filename).1
    (⟨slot⟩, (sdSaveString card io.save filename line).1)
  else (l, (sdSaveString card io.save filename line).1)

/-! ### What it writes -/

theorem printable_monitorModeName (mode : MonitorMode) : Printable (monitorModeName mode) := by
  cases mode <;> decide

theorem length_monitorModeName_le (mode : MonitorMode) : (monitorModeName mode).length ≤ 7 := by
  cases mode <;> decide

theorem printable_logText (r : RtcReading) (data : MonitorMeasurement) (mode : MonitorMode) :
    Printable (logText r data mode) := by
  have hstamp : Printable (formatTimestamp r) := printable_formatTimestamp r
  have hmode := printable_monitorModeName mode
  rw [logText]
  repeat' apply Printable.append
  all_goals first
    | assumption
    | exact printable_decimal _
    | exact printable_signed _
    | decide

/-- No line comes near the end of its buffer. -/
theorem length_logText_le (r : RtcReading) (data : MonitorMeasurement) (mode : MonitorMode) :
    (logText r data mode).length ≤ 85 := by
  have hstamp : (formatTimestamp r).length ≤ 23 := List.length_take_le _ _
  have htemp := length_signed_int16_le data.tempC
  have hhum := length_decimal_byte_le data.humidityPct
  have hlight := length_decimal_byte_le data.lightPct
  have hbatt := length_decimal_byte_le data.batteryPct
  have hmode := length_monitorModeName_le mode
  simp only [logText, List.length_append, length_ascii]
  have htotal : "[".toList.length + "] temp=".toList.length + "C hum=".toList.length +
      "% light=".toList.length + "% batt=".toList.length + "% mode=".toList.length = 36 := by
    decide
  omega

/-- What is written is a whole line. -/
theorem logLine_eq (r : RtcReading) (data : MonitorMeasurement) (mode : MonitorMode) :
    logLine r data mode = crlfLine (logText r data mode) := by
  refine snprintf_of_lt ?_
  have hlen := length_logText_le r data mode
  rw [crlfLine, List.length_append]
  simp only [List.length_cons, List.length_nil]
  omega

theorem isText_logText (r : RtcReading) (data : MonitorMeasurement) (mode : MonitorMode) :
    IsText (logText r data mode) :=
  isText_of_printable (printable_logText r data mode)

/-! ### What a write does -/

theorem logWrite_lastWrittenDay (l : Log) (card : SdCard) (io : LogIo) (r : RtcReading)
    (data : MonitorMeasurement) (mode : MonitorMode) :
    (logWrite l card io r data mode).1.lastWrittenDay = slotOf r := by
  rw [logWrite]
  split_ifs with h
  · rfl
  · exact (not_not.1 h).symm

/-- It adds to the file of the slot, which it has deleted before if the slot has changed. -/
theorem logWrite_getD (l : Log) (card : SdCard) (io : LogIo) (r : RtcReading)
    (data : MonitorMeasurement) (mode : MonitorMode) :
    ((logWrite l card io r data mode).2 (logFilename (slotOf r))).getD [] =
      (if slotOf r ≠ l.lastWrittenDay ∧ io.delete then [] else
        (card (logFilename (slotOf r))).getD []) ++ io.save.stored (logLine r data mode) := by
  have hsave := fun card ↦
    sdSaveString_crlfLine card io.save (logFilename (slotOf r)) (isText_logText r data mode)
  rw [logWrite]
  simp only [logLine_eq, hsave]
  by_cases h : slotOf r ≠ l.lastWrittenDay
  · simp only [h, if_true, ne_eq, not_false_eq_true, true_and]
    rw [sdSaveData_getD, sdDeleteFile_getD]
  · simp only [h, if_false, false_and]
    rw [sdSaveData_getD]

/-- It touches no other file. -/
theorem logWrite_of_ne (l : Log) (card : SdCard) (io : LogIo) {r : RtcReading}
    (data : MonitorMeasurement) (mode : MonitorMode) {name : List UInt8}
    (h : name ≠ logFilename (slotOf r)) : (logWrite l card io r data mode).2 name = card name := by
  rw [logWrite]
  split_ifs
  · exact (sdSaveData_of_ne _ _ _ h).trans (sdDeleteFile_of_ne _ _ h)
  · exact sdSaveData_of_ne _ _ _ h

end SubmarineMonitor
