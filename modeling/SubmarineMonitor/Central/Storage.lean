import SubmarineMonitor.Central.DataCollection
import SubmarineMonitor.Foundation.Selection
import SubmarineMonitor.Foundation.TextOrder
import SubmarineMonitor.Node.Query

/-!
# Time as text

The Central Computer stores its timestamps as text and leaves it to SQLite to compare them, byte by byte:
with one another when a range is queried, and with a date alone when old rows are purged. That is right
because every field has its own fixed width. `timeUtilsFormat_le_iff` is the one fact about the format;
`store_orders_by_time` is what the three statements make of it.

## Why it is right

Two texts of the same length compare as the numbers in them, field by field, as long as each field
has a fixed width and is padded with zeros. `timeUtilsFormat_le_iff` is that for nineteen
characters, from the library on separated texts; the date alone is a proper beginning of a timestamp
and so comes before every timestamp of its own day. A purge by the date therefore keeps the whole
day of the cutoff, whatever the time of day.

That the timestamps are those of dates and times is a hypothesis on the tables. It is met by what is
stored: the node's clock shows such fields, and `TimeUtils::now` prints the fields of a `tm`. Frames
with other fields would be stored as well, with texts of other widths in the worst case, and for
these nothing is claimed.

## SQLite

Its part is the comparison of two texts, byte by byte, and a sort that keeps the rows in the order
of the timestamps. A query is a relation between a table and a result (`Selects`): which rows there
are, and that their timestamps ascend. Rows with the same timestamp may come in any order, as SQLite
does not promise one.

## What is left out

The clock. `tm` is the local time some days ago, as the library computes it, and that days have 24
hours there is a matter of the source that changes the cutoff by an hour twice a year.
-/

open Text

namespace SubmarineMonitor

/-! ### The statements -/

/-- `query_measurements`: `SELECT … FROM measurements WHERE timestamp >= ? AND timestamp <= ? ORDER BY
timestamp ASC`. -/
def DataCollection.QueryMeasurements (db : DataCollection) (start stop : List UInt8)
    (result : List MeasurementRow) : Prop :=
  Selects MeasurementRow.timestamp start stop db.measurements result

/-- `query_events`: the same `FROM events`. -/
def DataCollection.QueryEvents (db : DataCollection) (start stop : List UInt8)
    (result : List EventRow) : Prop :=
  Selects EventRow.timestamp start stop db.events result

/-- `TimeUtils::days_ago_date`: `"%Y-%m-%d"` of the local time that many days ago. -/
def daysAgoDate (tm : Stamp) : List UInt8 :=
  decimal (2000 + tm.year.toNat) ++ ascii "-" ++ decimal2 tm.month.toNat ++ ascii "-" ++
    decimal2 tm.date.toNat

/-- `purge_old_locked`: `DELETE FROM … WHERE timestamp < ?` for both tables. `tm` is the local time
`retention_days_` days ago. -/
def DataCollection.purgeOldLocked (db : DataCollection) (tm : Stamp) : DataCollection where
  measurements := db.measurements.filter fun r ↦ ¬r.timestamp < daysAgoDate tm
  events := db.events.filter fun r ↦ ¬r.timestamp < daysAgoDate tm

/-! ### Dates and times -/

/-- The fields are those of a date and a time. -/
structure Stamp.IsDateTime (s : Stamp) : Prop where
  year_le : s.year.toNat ≤ 99
  month_pos : 1 ≤ s.month.toNat
  month_le : s.month.toNat ≤ 12
  date_pos : 1 ≤ s.date.toNat
  date_le : s.date.toNat ≤ 31
  hour_le : s.hour.toNat ≤ 23
  min_le : s.min.toNat ≤ 59
  sec_le : s.sec.toNat ≤ 59

/-- The date only. -/
def Stamp.dateFields (s : Stamp) : List ℕ :=
  [s.year.toNat, s.month.toNat, s.date.toNat]

/-- Every row is stamped with a date and time, `stamp r`. -/
def StampedBy {α : Type*} (timestamp : α → List UInt8) (stamp : α → Stamp) (table : List α) : Prop :=
  ∀ r ∈ table, (stamp r).IsDateTime ∧ timestamp r = timeUtilsFormat (stamp r)

theorem Stamp.IsDateTime.twoDigit {s : Stamp} (h : s.IsDateTime) : s.TwoDigit := by
  obtain ⟨hyear, -, hmonth, -, hdate, hhour, hmin, hsec⟩ := h
  simp only [Stamp.TwoDigit, Stamp.fields, List.mem_cons, List.not_mem_nil, or_false,
    forall_eq_or_imp, forall_eq]
  omega

/-! ### The order of timestamps -/

/-- A year of this century is printed with its last two digits. -/
theorem decimal_year {n : ℕ} (h : n < 100) : decimal (2000 + n) = ascii "20" ++ decimal2 n := by
  interval_cases n <;> rfl

/-- The Central Computer prints timestamps as the node does. -/
theorem timeUtilsFormat_eq {s : Stamp} (h : s.year.toNat < 100) : timeUtilsFormat s = s.text := by
  rw [timeUtilsFormat, decimal_year h, Stamp.text]

theorem text_le_text_iff {s t : Stamp} (hs : s.TwoDigit) (ht : t.TwoDigit) :
    s.text ≤ t.text ↔ s.fields ≤ t.fields := by
  simp only [Stamp.TwoDigit, Stamp.fields, List.mem_cons, List.not_mem_nil, or_false,
    forall_eq_or_imp, forall_eq] at hs ht
  obtain ⟨hyear, hmonth, hdate, hhour, hmin, hsec⟩ := hs
  obtain ⟨hyear', hmonth', hdate', hhour', hmin', hsec'⟩ := ht
  rw [Stamp.text, Stamp.text, ← List.append_nil (decimal2 s.sec.toNat),
    ← List.append_nil (decimal2 t.sec.toNat)]
  simp only [List.append_assoc, append_left_le_iff, decimal2_append_le_iff, Stamp.fields,
    Positional.cons_le_cons_iff, hyear, hmonth, hdate, hhour, hmin, hsec, hyear', hmonth', hdate',
    hhour', hmin', hsec', le_refl]

theorem length_timeUtilsFormat {s : Stamp} (h : s.IsDateTime) : (timeUtilsFormat s).length = 19 := by
  rw [timeUtilsFormat_eq (Nat.lt_succ_of_le h.year_le)]
  exact length_stamp_text h.twoDigit

/-- **Timestamps compare as their fields.** -/
theorem timeUtilsFormat_le_iff {s t : Stamp} (hs : s.IsDateTime) (ht : t.IsDateTime) :
    timeUtilsFormat s ≤ timeUtilsFormat t ↔ s.fields ≤ t.fields := by
  rw [timeUtilsFormat_eq (Nat.lt_succ_of_le hs.year_le),
    timeUtilsFormat_eq (Nat.lt_succ_of_le ht.year_le)]
  exact text_le_text_iff hs.twoDigit ht.twoDigit

/-- **A date alone** is not after the timestamps of its own day, whatever the time. -/
theorem daysAgoDate_le_iff {s tm : Stamp} (hs : s.IsDateTime) (htm : tm.IsDateTime) :
    daysAgoDate tm ≤ timeUtilsFormat s ↔ tm.dateFields ≤ s.dateFields := by
  have hyear : s.year.toNat < 100 := Nat.lt_succ_of_le hs.year_le
  have hmonth : s.month.toNat < 100 := hs.month_le.trans_lt (by decide)
  have hdate : s.date.toNat < 100 := hs.date_le.trans_lt (by decide)
  have hyear' : tm.year.toNat < 100 := Nat.lt_succ_of_le htm.year_le
  have hmonth' : tm.month.toNat < 100 := htm.month_le.trans_lt (by decide)
  have hdate' : tm.date.toNat < 100 := htm.date_le.trans_lt (by decide)
  have hnil : ∀ rest : List UInt8, [] ≤ rest := fun rest ↦ not_lt.1 (List.not_lt_nil rest)
  rw [timeUtilsFormat, daysAgoDate, decimal_year hyear, decimal_year hyear',
    ← List.append_nil (decimal2 tm.date.toNat)]
  simp only [List.append_assoc, append_left_le_iff, decimal2_append_le_iff, Stamp.dateFields,
    Positional.cons_le_cons_iff, hyear, hmonth, hdate, hyear', hmonth', hdate', hnil, le_refl]

/-! ### What the statements do -/

/-- Selecting by text is selecting by time. -/
theorem selects_fields {α : Type*} {timestamp : α → List UInt8} {stamp : α → Stamp}
    {table result : List α} {start stop : Stamp} (hstamp : StampedBy timestamp stamp table)
    (hstart : start.IsDateTime) (hstop : stop.IsDateTime)
    (h : Selects timestamp (timeUtilsFormat start) (timeUtilsFormat stop) table result) :
    Selects (fun r ↦ (stamp r).fields) start.fields stop.fields table result := by
  refine h.congr (fun r hr ↦ ?_) (fun r hr ↦ ?_) fun r hr r' hr' ↦ ?_
  · obtain ⟨hr, htext⟩ := hstamp r hr
    rw [htext, timeUtilsFormat_le_iff hstart hr]
  · obtain ⟨hr, htext⟩ := hstamp r hr
    rw [htext, timeUtilsFormat_le_iff hr hstop]
  · obtain ⟨hr, htext⟩ := hstamp r hr
    obtain ⟨hr', htext'⟩ := hstamp r' hr'
    rw [htext, htext', timeUtilsFormat_le_iff hr hr']

/-- Deleting by text is deleting by date. -/
theorem filter_daysAgoDate {α : Type*} {timestamp : α → List UInt8} {stamp : α → Stamp}
    {table : List α} {tm : Stamp} (hstamp : StampedBy timestamp stamp table) (htm : tm.IsDateTime) :
    (table.filter fun r ↦ ¬timestamp r < daysAgoDate tm) =
      table.filter fun r ↦ tm.dateFields ≤ (stamp r).dateFields := by
  refine List.filter_congr fun r hr ↦ decide_eq_decide.2 ?_
  obtain ⟨hr, htext⟩ := hstamp r hr
  rw [htext, not_lt, daysAgoDate_le_iff hr htm]

/-- **The order of the texts is the order of time.** Timestamps have nineteen characters and compare
as their fields do. So on tables whose rows are stamped with dates and times, a query returns the rows
from `start` to `stop`, oldest first, and a purge keeps the rows of the cutoff date and of all later
ones, and no others. -/
theorem store_orders_by_time {db : DataCollection} {stampM : MeasurementRow → Stamp}
    {stampE : EventRow → Stamp} (hM : StampedBy MeasurementRow.timestamp stampM db.measurements)
    (hE : StampedBy EventRow.timestamp stampE db.events) :
    (∀ s t : Stamp, s.IsDateTime → t.IsDateTime → (timeUtilsFormat s).length = 19 ∧
        (timeUtilsFormat s ≤ timeUtilsFormat t ↔ s.fields ≤ t.fields)) ∧
      (∀ start stop : Stamp, start.IsDateTime → stop.IsDateTime →
        (∀ result, db.QueryMeasurements (timeUtilsFormat start) (timeUtilsFormat stop) result →
            Selects (fun r ↦ (stampM r).fields) start.fields stop.fields db.measurements result) ∧
          ∀ result, db.QueryEvents (timeUtilsFormat start) (timeUtilsFormat stop) result →
            Selects (fun r ↦ (stampE r).fields) start.fields stop.fields db.events result) ∧
      ∀ tm : Stamp, tm.IsDateTime →
        (db.purgeOldLocked tm).measurements =
            db.measurements.filter (fun r ↦ tm.dateFields ≤ (stampM r).dateFields) ∧
          (db.purgeOldLocked tm).events =
            db.events.filter fun r ↦ tm.dateFields ≤ (stampE r).dateFields := by
  refine ⟨fun s t hs ht ↦ ⟨length_timeUtilsFormat hs, timeUtilsFormat_le_iff hs ht⟩,
    fun start stop hstart hstop ↦ ⟨fun result h ↦ ?_, fun result h ↦ ?_⟩, fun tm htm ↦ ⟨?_, ?_⟩⟩
  · exact selects_fields hM hstart hstop h
  · exact selects_fields hE hstart hstop h
  · exact filter_daysAgoDate hM htm
  · exact filter_daysAgoDate hE htm

/-- The last second of a Saturday. -/
def saturdayLast : Stamp :=
  ⟨26, 9, 5, 23, 59, 59⟩

/-- The first second of the Sunday after it. -/
def sundayFirst : Stamp :=
  ⟨26, 9, 6, 0, 0, 0⟩

/-- A row for each of the two seconds. -/
def midnightStore : DataCollection :=
  ⟨[⟨timeUtilsFormat sundayFirst, 21, 50, 60, 90, 0⟩,
    ⟨timeUtilsFormat saturdayLast, 20, 50, 60, 90, 0⟩], []⟩

/-- The second of a row. -/
def midnightStamp (r : MeasurementRow) : Stamp :=
  if r.tempC = 21 then sundayFirst else saturdayLast

theorem isDateTime_saturdayLast : saturdayLast.IsDateTime := by
  constructor <;> decide

theorem isDateTime_sundayFirst : sundayFirst.IsDateTime := by
  constructor <;> decide

theorem stampedBy_midnightStore :
    StampedBy MeasurementRow.timestamp midnightStamp midnightStore.measurements := by
  intro r hr
  rcases List.mem_pair.1 hr with rfl | rfl
  · exact ⟨isDateTime_sundayFirst, rfl⟩
  · exact ⟨isDateTime_saturdayLast, rfl⟩

/-- The rows from the one second to the other, and the purge of everything before the Sunday. -/
theorem store_orders_by_time_midnight :
    Selects (fun r ↦ (midnightStamp r).fields) saturdayLast.fields sundayFirst.fields
        midnightStore.measurements
        ((midnightStore.measurements.filter fun r ↦ timeUtilsFormat saturdayLast ≤ r.timestamp ∧
          r.timestamp ≤ timeUtilsFormat sundayFirst).mergeSort fun r r' ↦
            r.timestamp ≤ r'.timestamp) ∧
      (midnightStore.purgeOldLocked sundayFirst).measurements =
        [⟨timeUtilsFormat sundayFirst, 21, 50, 60, 90, 0⟩] := by
  have hevents : StampedBy EventRow.timestamp (fun _ ↦ sundayFirst) midnightStore.events :=
    fun _ h ↦ by cases h
  obtain ⟨-, hquery, hpurge⟩ := store_orders_by_time stampedBy_midnightStore hevents
  refine ⟨(hquery saturdayLast sundayFirst isDateTime_saturdayLast isDateTime_sundayFirst).1 _
    (.mergeSort ..), (hpurge sundayFirst isDateTime_sundayFirst).1.trans ?_⟩
  decide

end SubmarineMonitor
