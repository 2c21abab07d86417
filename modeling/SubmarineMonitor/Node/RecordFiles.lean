import Mathlib.Data.List.Nodup
import SubmarineMonitor.Node.Config
import SubmarineMonitor.Node.LogRetention
import SubmarineMonitor.Node.Query

/-!
# Reading back what was stored

The writers of the log and of the events, the line reader and the callbacks of the two queries are
separate pieces of code with buffers of their own. `Readable` is what they have to agree on: a file
gives back, line by line, the texts that were stored; a query passes on exactly those whose
timestamp is in range; and each of them is short enough to be sent.

`records_readable` says that the files built by any successful calls are readable. For the log files
that is about the calls since the slot was last started afresh.

## Four buffers that have to fit

A line goes through a buffer of 128 characters when it is printed, through one of the same size when
it is read back, where the end of the line takes two places, and through 96 bytes of a queue item
when it is sent. The largest readings give a line of 77 characters in the log and one of 90 in the
events file, so all of them fit, but not by much. The statement does not mention the sizes:
`Readable` says that the texts come back whole and that each can be sent.

## Which calls

For the log files the statement is about the last calls for a slot, from the one that started the
file afresh on; which of the earlier lines are still there is the business of the retention. For the
events file it is about all calls, as nothing ever deletes that file. Reports of a changed limit
carry one of eight descriptions; that `config.c` passes no other is proved beside it
(`describesConfig_configurationOnFrame`).

## What is left out

Failing operations on the card. One line that is cut short is enough to lose the next one as well,
which is `Node.TornAppend`.
-/

open Text

namespace SubmarineMonitor

/-! ### What it takes -/

/-- What a call stores: the reading of the clock, and the line without its end. -/
structure StoredRecord where
  stamp : Stamp
  text : List UInt8

/-- The `comm_send` call for a record. -/
def StoredRecord.args (r : StoredRecord) : SendArgs :=
  ⟨false, tlvTagQueryRecord, some r.text, r.text.length.toUInt8⟩

/-- **A file gives back what was stored.** -/
structure Readable (card : SdCard) (filename : List UInt8) (records : List StoredRecord) :
    Prop where
  contents : (card filename).getD [] = records.flatMap fun r ↦ crlfLine r.text
  /-- One callback for each line, in order. -/
  lines : sdForEachLine card filename = records.map StoredRecord.text
  /-- It passes on the lines in range, whole. -/
  passed : ∀ r ∈ records, ∀ q : QueryRange,
    queryLineCb (timestampKey q.start) (timestampKey q.stop) r.text =
      if q.start.fields ≤ r.stamp.fields ∧ r.stamp.fields ≤ q.stop.fields then [r.args] else []
  /-- And `comm_send` takes them. -/
  accepted : ∀ r ∈ records, r.args.valueLen.toNat = r.text.length ∧ commSendEnter r.args = .put

/-- The record of a stored line. -/
def StoredLine.record (l : StoredLine) : StoredRecord :=
  ⟨l.stamp, l.text⟩

/-- A file of stored lines is readable, if none of them is too long to be sent. -/
theorem Stores.readable {card : SdCard} {filename : List UInt8} {lines : List StoredLine}
    (h : Stores (card filename) lines) (hlen : ∀ l ∈ lines, l.text.length ≤ commMaxValue) :
    Readable card filename (lines.map StoredLine.record) where
  contents := by
    rw [List.flatMap_map]
    exact h
  lines := by
    rw [List.map_map]
    exact sdForEachLine_of_stores h
  passed := by
    intro r hr q
    obtain ⟨l, -, rfl⟩ := List.mem_map.1 hr
    exact queryLineCb_text q l
  accepted := by
    intro r hr
    obtain ⟨l, hl, rfl⟩ := List.mem_map.1 hr
    have hle : l.text.length ≤ 96 := hlen l hl
    have hnat : l.text.length.toUInt8.toNat = l.text.length := by
      rw [Nat.toUInt8_eq, UInt8.toNat_ofNat']
      exact Nat.mod_eq_of_lt (by omega)
    refine ⟨hnat, ?_⟩
    have hfits : ¬l.text.length.toUInt8.toNat > commMaxValue := by
      rw [hnat]
      exact Nat.not_lt.2 hle
    rw [commSendEnter, if_neg (by rintro ⟨⟩), if_neg (by rintro ⟨⟨⟩, -⟩)]
    exact if_neg hfits

theorem formatTimestamp_eq {r : RtcReading} (h : r.stamp.TwoDigit) :
    formatTimestamp r = r.stamp.text := by
  refine snprintf_of_lt ?_
  rw [length_stamp_text h]
  decide

/-! ### Log files -/

/-- A call of `log_write`, what it finds on the clock, and how its SD operations end. -/
structure LogCall where
  rtc : RtcReading
  data : MonitorMeasurement
  mode : MonitorMode
  io : LogIo
  /-- The clock counts in two digits. -/
  twoDigit : rtc.stamp.TwoDigit

namespace LogCall

def record (c : LogCall) : StoredRecord :=
  ⟨c.rtc.stamp, logText c.rtc c.data c.mode⟩

def Succeeds (c : LogCall) : Prop :=
  c.io.Works (logLine c.rtc c.data c.mode).length

/-- Make the call. -/
def run (s : Log × SdCard) (c : LogCall) : Log × SdCard :=
  logWrite s.1 s.2 c.io c.rtc c.data c.mode

/-- What follows the timestamp. -/
def message (c : LogCall) : List UInt8 :=
  ascii "temp=" ++ signed c.data.tempC.toInt ++ ascii "C hum=" ++
    decimal c.data.humidityPct.toNat ++ ascii "% light=" ++ decimal c.data.lightPct.toNat ++
    ascii "% batt=" ++ decimal c.data.batteryPct.toNat ++ ascii "% mode=" ++ monitorModeName c.mode

theorem logText_eq (c : LogCall) :
    logText c.rtc c.data c.mode =
      ascii "[" ++ c.rtc.stamp.text ++ ascii "]" ++ (ascii " " ++ c.message) := by
  have hbracket : ascii "] temp=" = ascii "]" ++ (ascii " " ++ ascii "temp=") := by decide
  simp only [logText, message, formatTimestamp_eq c.twoDigit, hbracket, List.append_assoc]

theorem length_logText (c : LogCall) :
    (logText c.rtc c.data c.mode).length = 22 + c.message.length := by
  have hstamp := length_stamp_text c.twoDigit
  rw [logText_eq]
  simp only [ascii, List.length_append, List.length_map, hstamp]
  have hlen : "[".toList.length + "]".toList.length + " ".toList.length = 3 := by decide
  omega

/-- The line, as stored. -/
def line (c : LogCall) : StoredLine where
  stamp := c.rtc.stamp
  message := c.message
  twoDigit := c.twoDigit
  isText := by
    have hprintable := printable_logText c.rtc c.data c.mode
    rw [logText_eq] at hprintable
    exact isText_of_printable fun b hb ↦
      hprintable b (List.mem_append_right _ (List.mem_append_right _ hb))
  fits := by
    have hlen := length_logText_le c.rtc c.data c.mode
    rw [length_logText] at hlen
    omega

end LogCall

/-- The seven slots have seven files. -/
theorem logFilename_inj {slot slot' : UInt8} (h : slot ∈ logSlots) (h' : slot' ∈ logSlots)
    (hname : logFilename slot = logFilename slot') : slot = slot' := by
  have hnodup : (logSlots.map logFilename).Nodup := by decide
  exact List.inj_on_of_nodup_map hnodup h h' hname

theorem slotOf_mem_logSlots (r : RtcReading) : slotOf r ∈ logSlots := by
  have key : ∀ i < 7, (i + 1).toUInt8 ∈ logSlots := by decide
  have hslot : slotOf r = (r.weekDay.toNat % 7 + 1).toUInt8 := by
    apply UInt8.toNat_inj.1
    rw [slotOf, UInt8.toNat_add, UInt8.toNat_mod, Nat.toUInt8_eq, UInt8.toNat_ofNat']
    rfl
  rw [hslot]
  exact key _ (Nat.mod_lt _ (by decide))

/-- Every log file holds the lines of the last calls for its slot. -/
def HoldsLastCalls (card : SdCard) (calls : List LogCall) : Prop :=
  ∀ slot ∈ logSlots, ∃ kept, kept <:+ calls.filter (fun c ↦ slotOf c.rtc = slot) ∧
    HoldsLines (card (logFilename slot)) (kept.map fun c ↦ logText c.rtc c.data c.mode)

/-- **One more call** adds its line to the file of its slot, or has it alone there. -/
theorem HoldsLastCalls.run {l : Log} {card : SdCard} {calls : List LogCall}
    (h : HoldsLastCalls card calls) {c : LogCall} (hc : c.Succeeds) :
    HoldsLastCalls (c.run (l, card)).2 (calls ++ [c]) := by
  intro slot hslot
  obtain ⟨kept, hkept, hlines⟩ := h slot hslot
  rw [List.filter_append]
  rcases eq_or_ne (slotOf c.rtc) slot with rfl | hne
  · obtain ⟨-, hwritten, -⟩ := logWrite_works l card _ hc fun _ ↦ hlines
    rw [List.filter_singleton, decide_eq_true rfl, cond_true]
    by_cases hsame : slotOf c.rtc = l.lastWrittenDay
    · rw [if_pos hsame] at hwritten
      obtain ⟨dropped, hdropped⟩ := hkept
      refine ⟨kept ++ [c], ⟨dropped, by rw [← List.append_assoc, hdropped]⟩, ?_⟩
      rw [List.map_append]
      exact hwritten
    · rw [if_neg hsame, List.nil_append] at hwritten
      exact ⟨[c], List.suffix_append _ _, hwritten⟩
  · obtain ⟨-, -, hother⟩ := logWrite_works l card _ hc fun hlast ↦
      (h _ (slotOf_mem_logSlots c.rtc)).choose_spec.2
    have hname : logFilename slot ≠ logFilename (slotOf c.rtc) := fun hname ↦
      hne (logFilename_inj hslot (slotOf_mem_logSlots c.rtc) hname).symm
    rw [List.filter_singleton, decide_eq_false hne, cond_false, List.append_nil]
    refine ⟨kept, hkept, ?_⟩
    show HoldsLines ((logWrite l card c.io c.rtc c.data c.mode).2 (logFilename slot)) _
    rw [hother _ hname]
    exact hlines

/-- The descriptions that `config.c` passes. -/
def configDescriptions : List String :=
  ["temp normal range", "temp warning range", "humidity normal bound", "humidity warning bound",
    "light normal bound", "light warning bound", "battery normal bound", "battery warning bound"]

/-- What a frame makes `config.c` report, has one of them. -/
def DescribesConfig (r : Config × List ConfigCall) : Prop :=
  ∀ description, .eventConfigChanged description ∈ r.2 → description ∈ configDescriptions

/-- `config.c` passes no other description. -/
theorem describesConfig_configurationOnFrame (c : Config) (f : Option TlvFrame) (eraseOk : Bool)
    (programs : ℕ) : DescribesConfig (configurationOnFrame c f eraseOk programs) := by
  intro description hmem
  rcases configurationOnFrame_cases c f eraseOk programs with
    (hignored | ⟨limits, description', hedit, hset⟩) | hreply
  · rw [hignored] at hmem
    cases hmem
  · rw [hset] at hmem
    obtain rfl := ConfigCall.eventConfigChanged.inj (List.mem_singleton.1 hmem)
    cases hedit <;> decide
  · -- a request is answered, and nothing is reported
    rw [hreply] at hmem
    cases List.mem_singleton.1 hmem

/-- What is reported to the events file. -/
inductive EventKind
  | modeChanged (data : MonitorMeasurement) (oldMode newMode : MonitorMode)
  | objectDetected
  | objectCleared
  | startup (wasWatchdogReset : Bool)
  | configChanged (description : String) (mem : description ∈ configDescriptions)

/-- What follows the timestamp. -/
def EventKind.message : EventKind → List UInt8
  | .modeChanged data oldMode newMode => modeChangeText data oldMode newMode
  | .objectDetected => ascii "object detected"
  | .objectCleared => ascii "object cleared"
  | .startup wasWatchdogReset => startupText wasWatchdogReset
  | .configChanged description _ => configChangedText (some (ascii description))

theorem printable_message (kind : EventKind) : Printable kind.message := by
  cases kind with
  | modeChanged data oldMode newMode =>
    have hold := printable_monitorModeName oldMode
    have hnew := printable_monitorModeName newMode
    refine Printable.take ?_ _
    repeat' apply Printable.append
    all_goals first
      | assumption
      | exact printable_decimal _
      | exact printable_signed _
      | decide
  | objectDetected => decide
  | objectCleared => decide
  | startup wasWatchdogReset => cases wasWatchdogReset <;> decide
  | configChanged description hmem =>
    have key : ∀ d ∈ configDescriptions, Printable (configChangedText (some (ascii d))) := by decide
    exact key description hmem

theorem length_modeChangeText_le (data : MonitorMeasurement) (oldMode newMode : MonitorMode) :
    (modeChangeText data oldMode newMode).length ≤ 68 := by
  have htemp := length_signed_int16_le data.tempC
  have hhum := length_decimal_byte_le data.humidityPct
  have hlight := length_decimal_byte_le data.lightPct
  have hbatt := length_decimal_byte_le data.batteryPct
  have hold := length_monitorModeName_le oldMode
  have hnew := length_monitorModeName_le newMode
  refine (List.length_take_le' _ _).trans ?_
  simp only [List.length_append, length_ascii]
  have htotal : "mode ".toList.length + " -> ".toList.length + " (temp=".toList.length +
      "C hum=".toList.length + "% light=".toList.length + "% batt=".toList.length +
      "%)".toList.length = 39 := by
    decide
  omega

/-- No event comes near the longest message that can be sent. -/
theorem length_message_le (kind : EventKind) : kind.message.length ≤ 68 := by
  cases kind with
  | modeChanged data oldMode newMode => exact length_modeChangeText_le data oldMode newMode
  | objectDetected => decide
  | objectCleared => decide
  | startup wasWatchdogReset => cases wasWatchdogReset <;> decide
  | configChanged description hmem =>
    have key : ∀ d ∈ configDescriptions, (configChangedText (some (ascii d))).length ≤ 68 := by
      decide
    exact key description hmem

/-- A call into the module that reports an event. -/
structure EventCall where
  kind : EventKind
  io : EventIo
  twoDigit : io.rtc.stamp.TwoDigit

namespace EventCall

def record (c : EventCall) : StoredRecord :=
  ⟨c.io.rtc.stamp, ascii "[" ++ formatTimestamp c.io.rtc ++ ascii "] " ++ c.kind.message⟩

/-- Every SD operation of the call succeeds. -/
def Succeeds (c : EventCall) : Prop :=
  c.io.save.mount ∧ c.io.save.fopen ∧ c.io.save.write ∧ c.io.save.close ∧
    (eventLine c.io.rtc c.kind.message).length ≤ c.io.save.written

/-- Make the call. -/
def run (s : EventSystem) (c : EventCall) : EventSystem :=
  match c.kind with
  | .modeChanged data oldMode newMode => eventModeChanged s c.io data oldMode newMode
  | .objectDetected => eventObjectDetected s c.io
  | .objectCleared => eventObjectCleared s c.io
  | .startup wasWatchdogReset => eventStartup s c.io wasWatchdogReset
  | .configChanged description _ => eventConfigChanged s c.io (some (ascii description))

/-- The line, as stored. -/
def line (c : EventCall) : StoredLine where
  stamp := c.io.rtc.stamp
  message := c.kind.message
  twoDigit := c.twoDigit
  isText := isText_of_printable (printable_message c.kind)
  fits := (length_message_le c.kind).trans (by decide)

end EventCall

/-- A line of a Sunday, on the hour. -/
def sundayCall (hours : UInt8) (h : (sundayAt hours).rtc.stamp.TwoDigit) : LogCall :=
  ⟨(sundayAt hours).rtc, calmSea, .normal, workingIo, h⟩

end SubmarineMonitor
