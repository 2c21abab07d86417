import SubmarineMonitor.Node.Event
import SubmarineMonitor.Node.Log

/-!
# Range queries

`log_on_frame` and `event_on_frame`: search the stored lines for those whose timestamp lies in the
requested range, and call `comm_send` once for each of them and once more for the end. The two
modules carry the same private helpers, so these are modelled once.

What the functions *do* is their list of `comm_send` calls, in order; what becomes of the calls is
the transmit side's business. `logOnFrame_eq` and `eventOnFrame_eq` say that the list is the
intended answer, whatever the card holds.

## Texts and keys

A line is text until its timestamp is scanned, with the `sscanf` format of the source as data
(`timestampFormat`), and is packed into one number afterwards. Everything behind it is a comparison
of numbers. The statement is about dates, though: a stored line has a `Stamp` of two-digit fields,
and the request has two; that keys compare as dates do is `timestampKey_le_iff`, used once.

`StoredLine` and `QueryRange` carry the bounds on their fields, so that an answer is defined for
every value of these types. For requests with larger bytes the functions are defined all the same,
and `Node.TornAppend` speaks about these too.

## What is left out

`SDFatFS_ForEachLine` sleeps between two lines with the lock held; a search of one file is one step
here, and `Node.SdAccess` takes it apart. What the callbacks' `comm_send` calls return is not looked
at, as in the code: the calls are the result, and what happens to them is `Node.QueryRun`.
-/

open Text

namespace SubmarineMonitor

/-! ### The functions -/

/-- `query_data_line_cb` and `query_events_line_cb`: the `comm_send` call for a line, if its
timestamp is found and lies between the keys. -/
def queryLineCb (startKey endKey : UInt64) (line : List UInt8) : List SendArgs :=
  match parseLineTimestamp line with
  | none => []
  | some key =>
    if key < startKey ∨ key > endKey then []
    else [⟨false, tlvTagQueryRecord, some line, line.length.toUInt8⟩]

/-- The `comm_send` call for `TLV_TAG_QUERY_END`. -/
def queryEndArgs : SendArgs :=
  ⟨false, tlvTagQueryEnd, none, 0⟩

/-- The start and end keys of a `query_range_payload_t`, if the frame carries one. -/
def queryRangeOfFrame (f : TlvFrame) : Option (UInt64 × UInt64) :=
  match f.value with
  | some (y :: mo :: d :: h :: mi :: s :: y' :: mo' :: d' :: h' :: mi' :: s' :: _) =>
    if f.len = 12 then
      some (timestampKey ⟨y, mo, d, h, mi, s⟩, timestampKey ⟨y', mo', d', h', mi', s'⟩)
    else none
  | _ => none

/-- `log_on_frame`: every slot that exists is searched. -/
def logOnFrame (card : SdCard) (f : Option TlvFrame) : List SendArgs :=
  match f.bind queryRangeOfFrame with
  | none => []
  | some (startKey, endKey) =>
    ([1, 2, 3, 4, 5, 6, 7].flatMap fun slot ↦
      (sdForEachLine card (logFilename slot)).flatMap (queryLineCb startKey endKey)) ++
        [queryEndArgs]

/-- `event_on_frame`: there is only one file to search. -/
def eventOnFrame (card : SdCard) (f : Option TlvFrame) : List SendArgs :=
  match f.bind queryRangeOfFrame with
  | none => []
  | some (startKey, endKey) =>
    (sdForEachLine card eventsFilename).flatMap (queryLineCb startKey endKey) ++ [queryEndArgs]

/-! ### The intended answer -/

/-- A line as both writers store it: `[timestamp] message`, short enough for the reader's buffer. -/
structure StoredLine where
  stamp : Stamp
  message : List UInt8
  twoDigit : stamp.TwoDigit
  isText : IsText message
  fits : message.length ≤ 104

/-- The text of the line, without its end-of-line characters. -/
def StoredLine.text (l : StoredLine) : List UInt8 :=
  ascii "[" ++ l.stamp.text ++ ascii "]" ++ (ascii " " ++ l.message)

/-- The file holds exactly these lines; a missing file holds none. -/
def Stores (file : Option (List UInt8)) (lines : List StoredLine) : Prop :=
  file.getD [] = lines.flatMap fun l ↦ crlfLine l.text

/-- A request: the first and the last timestamp asked for. -/
structure QueryRange where
  start : Stamp
  stop : Stamp
  start_twoDigit : start.TwoDigit
  stop_twoDigit : stop.TwoDigit

/-- The twelve payload bytes of a request. -/
def QueryRange.payload (q : QueryRange) : List UInt8 :=
  [q.start.year, q.start.month, q.start.date, q.start.hour, q.start.min, q.start.sec,
    q.stop.year, q.stop.month, q.stop.date, q.stop.hour, q.stop.min, q.stop.sec]

/-- The fields of a timestamp, as a request carries them. -/
def Stamp.bytes (s : Stamp) : List UInt8 :=
  [s.year, s.month, s.date, s.hour, s.min, s.sec]

/-- The frame asks for everything from one timestamp to another, whatever twelve bytes these are. -/
def TlvFrame.AsksFor (f : TlvFrame) (start stop : Stamp) : Prop :=
  f.message.len = 12 ∧ f.message.value = start.bytes ++ stop.bytes

/-- The frame carries the request. -/
def QueryRange.CarriedBy (q : QueryRange) (f : TlvFrame) : Prop :=
  f.message.len = 12 ∧ f.message.value = q.payload

/-- The line's timestamp lies in the range, both ends included. -/
def StoredLine.InRange (l : StoredLine) (q : QueryRange) : Prop :=
  q.start.fields ≤ l.stamp.fields ∧ l.stamp.fields ≤ q.stop.fields

instance (l : StoredLine) (q : QueryRange) : Decidable (l.InRange q) :=
  inferInstanceAs (Decidable (_ ∧ _))

/-- The `comm_send` call for a record. -/
def StoredLine.recordArgs (l : StoredLine) : SendArgs :=
  ⟨false, tlvTagQueryRecord, some l.text, l.text.length.toUInt8⟩

/-- **The answer to a query**: one record for each line in range, in order, and one end. -/
def queryAnswer (lines : List StoredLine) (q : QueryRange) : List SendArgs :=
  (lines.filter fun l ↦ l.InRange q).map StoredLine.recordArgs ++ [queryEndArgs]

/-! ### The functions give the intended answer -/

theorem length_stamp_text {s : Stamp} (h : s.TwoDigit) : s.text.length = 19 := by
  simp only [Stamp.TwoDigit, Stamp.fields, List.mem_cons, List.not_mem_nil, or_false,
    forall_eq_or_imp, forall_eq] at h
  obtain ⟨hyear, hmonth, hdate, hhour, hmin, hsec⟩ := h
  simp [Stamp.text, decimal2_of_lt, hyear, hmonth, hdate, hhour, hmin, hsec, ascii]

theorem StoredLine.length_text (l : StoredLine) : l.text.length = 22 + l.message.length := by
  have hstamp := length_stamp_text l.twoDigit
  simp only [text, ascii, List.length_append, List.length_map, hstamp]
  have hlen : "[".toList.length + "]".toList.length + " ".toList.length = 3 := by decide
  omega

theorem StoredLine.isText_text (l : StoredLine) : IsText l.text := by
  have hprefix : Printable (ascii "[" ++ l.stamp.text ++ ascii "]" ++ ascii " ") := by
    rw [Stamp.text]
    repeat' apply Printable.append
    all_goals first
      | exact printable_decimal2 _
      | decide
  intro c hc
  rw [text, ← List.append_assoc] at hc
  rcases List.mem_append.1 hc with hc | hc
  · exact isText_of_printable hprefix c hc
  · exact l.isText c hc

/-- Reading a file hands over its stored lines. -/
theorem sdForEachLine_of_stores {card : SdCard} {filename : List UInt8} {lines : List StoredLine}
    (h : Stores (card filename) lines) :
    sdForEachLine card filename = lines.map StoredLine.text := by
  refine HoldsLines.forEachLine ⟨?_, ?_⟩
  · rw [List.flatMap_map]
    exact h
  · intro t ht
    obtain ⟨l, -, rfl⟩ := List.mem_map.1 ht
    refine ⟨l.isText_text, ?_⟩
    have hlen := l.length_text
    have hfits := l.fits
    omega

/-- The keys of a request are those of its two timestamps. -/
theorem queryRangeOfFrame_of_asksFor {f : TlvFrame} {start stop : Stamp}
    (h : f.AsksFor start stop) :
    queryRangeOfFrame f = some (timestampKey start, timestampKey stop) := by
  obtain ⟨hlen, hvalue⟩ := h
  obtain ⟨tag, len, value⟩ := f
  obtain rfl : len = 12 := hlen
  have htake : (value.getD []).take 12 = start.bytes ++ stop.bytes := hvalue
  obtain _ | mem := value
  · simp [Stamp.bytes] at htake
  · rw [Option.getD_some] at htake
    rw [← List.take_append_drop 12 mem, htake]
    rfl

theorem queryRangeOfFrame_of_carriedBy {q : QueryRange} {f : TlvFrame} (h : q.CarriedBy f) :
    queryRangeOfFrame f = some (timestampKey q.start, timestampKey q.stop) :=
  queryRangeOfFrame_of_asksFor h

/-- A line whose timestamp is found is passed on exactly when that lies between the keys. -/
theorem queryLineCb_of_parse {line : List UInt8} {key startKey endKey : UInt64}
    (h : parseLineTimestamp line = some key) :
    queryLineCb startKey endKey line =
      if startKey ≤ key ∧ key ≤ endKey then
        [⟨false, tlvTagQueryRecord, some line, line.length.toUInt8⟩] else [] := by
  have hkey : (key < startKey ∨ key > endKey) ↔ ¬(startKey ≤ key ∧ key ≤ endKey) := by
    rw [not_and_or, UInt64.not_le, UInt64.not_le]
  rw [queryLineCb, h]
  split_ifs with hin
  · exact if_neg (mt hkey.1 (not_not.2 hin))
  · exact if_pos (hkey.2 hin)

/-- A stored line is passed on exactly when it lies in the range. -/
theorem queryLineCb_text (q : QueryRange) (l : StoredLine) :
    queryLineCb (timestampKey q.start) (timestampKey q.stop) l.text =
      if l.InRange q then [l.recordArgs] else [] := by
  have hstart := timestampKey_le_iff q.start_twoDigit l.twoDigit
  have hstop := timestampKey_le_iff l.twoDigit q.stop_twoDigit
  have hparse : parseLineTimestamp l.text = some (timestampKey l.stamp) :=
    parseLineTimestamp_text l.twoDigit _
  rw [queryLineCb_of_parse hparse]
  exact if_congr (and_congr hstart hstop) rfl rfl

theorem flatMap_queryLineCb (q : QueryRange) (lines : List StoredLine) :
    (lines.map StoredLine.text).flatMap
        (queryLineCb (timestampKey q.start) (timestampKey q.stop)) =
      (lines.filter fun l ↦ l.InRange q).map StoredLine.recordArgs := by
  induction lines with
  | nil => rfl
  | cons l lines ih =>
    rw [List.map_cons, List.flatMap_cons, ih, queryLineCb_text]
    by_cases hin : l.InRange q <;> simp [hin]

/-- The slots of the log files. -/
def logSlots : List UInt8 :=
  [1, 2, 3, 4, 5, 6, 7]

/-- **`log_on_frame` gives the intended answer** for the lines of the seven log files in turn. -/
theorem logOnFrame_eq {card : SdCard} {logs : UInt8 → List StoredLine} {q : QueryRange}
    {f : TlvFrame} (hlogs : ∀ slot ∈ logSlots, Stores (card (logFilename slot)) (logs slot))
    (hf : q.CarriedBy f) : logOnFrame card (some f) = queryAnswer (logSlots.flatMap logs) q := by
  have hslots : (logSlots.flatMap fun slot ↦ (sdForEachLine card (logFilename slot)).flatMap
        (queryLineCb (timestampKey q.start) (timestampKey q.stop))) =
      logSlots.flatMap fun slot ↦
        ((logs slot).filter fun l ↦ l.InRange q).map StoredLine.recordArgs := by
    refine List.flatMap_congr fun slot hslot ↦ ?_
    rw [sdForEachLine_of_stores (hlogs slot hslot), flatMap_queryLineCb]
  rw [logOnFrame, Option.bind_some, queryRangeOfFrame_of_carriedBy hf, queryAnswer,
    List.filter_flatMap, List.map_flatMap, ← hslots]
  rfl

/-- **`event_on_frame` gives the intended answer** for the lines of the events file. -/
theorem eventOnFrame_eq {card : SdCard} {events : List StoredLine} {q : QueryRange} {f : TlvFrame}
    (hevents : Stores (card eventsFilename) events) (hf : q.CarriedBy f) :
    eventOnFrame card (some f) = queryAnswer events q := by
  rw [eventOnFrame, Option.bind_some, queryRangeOfFrame_of_carriedBy hf, queryAnswer]
  simp only [sdForEachLine_of_stores hevents, flatMap_queryLineCb]

end SubmarineMonitor
