import SubmarineMonitor.Central.Datetime

/-!
# Ranges as they were typed

`show_measurements` and `show_events` of the Central Computer's menu hand the two lines that were
typed to the database as they are, while everything else that takes a range puts it into numbers
first. The database compares texts, so a date and a time that is spelled in another way may stand
for another range. `showsCanonical_iff` says for which spellings it does not.

## What is compared

Both sides of the comparison are sets of rows of the same database. The menu compares texts: the
line that was typed, byte by byte, with the text in the row. What the range stands for is a
comparison of dates and times: the line as `parse_datetime` reads it. The rows are those of a
database whose timestamps were all printed by `TimeUtils::format`, so the question is about the
printed timestamps between two lines.

That makes it a question about least and greatest elements. A start is good when the timestamp it is
read as is the least of those not before the line; an end, when it is the greatest of those not
behind it. Each of the two is then followed field by field, from the left: as long as a field can be
lowered, the line has to have it as it is printed.

## Lines that are not accepted

The statement is about lines that `parse_datetime` reads. The menu does not call it for these two
options, and shows something for other lines too; what they stand for is not defined.

## What is left out

How a line is read from the terminal, and the empty database, for which there is nothing to compare.
-/

open Text

namespace SubmarineMonitor

/-! ### The menu -/

/-- `show_measurements`: the rows that are shown for the two lines that were read. -/
def DataCollection.ShowMeasurements (db : DataCollection) (start stop : List UInt8)
    (rows : List MeasurementRow) : Prop :=
  db.QueryMeasurements start stop rows

/-- `show_events`. -/
def DataCollection.ShowEvents (db : DataCollection) (start stop : List UInt8)
    (rows : List EventRow) : Prop :=
  db.QueryEvents start stop rows

/-- What `TimeUtils::format` prints. -/
def timestamps : Set (List UInt8) :=
  Set.range timeUtilsFormat

theorem mem_timestamps (s : Stamp) : timeUtilsFormat s ∈ timestamps :=
  ⟨s, rfl⟩

/-- Every row has such a timestamp. -/
structure DataCollection.Stamped (db : DataCollection) : Prop where
  measurements : ∀ r ∈ db.measurements, r.timestamp ∈ timestamps
  events : ∀ r ∈ db.events, r.timestamp ∈ timestamps

/-- The lines show the same rows as the dates and times they are read as. -/
def ShowsCanonical (start stop : List UInt8) (first last : Stamp) : Prop :=
  ∀ db : DataCollection, db.Stamped →
    (∀ rows, db.ShowMeasurements start stop rows ↔
        db.QueryMeasurements (timeUtilsFormat first) (timeUtilsFormat last) rows) ∧
      ∀ rows, db.ShowEvents start stop rows ↔
        db.QueryEvents (timeUtilsFormat first) (timeUtilsFormat last) rows

/-- The lines and what they are read as hold the same timestamps. -/
theorem showsCanonical_iff_range {start stop : List UInt8} {first last : Stamp} :
    ShowsCanonical start stop first last ↔ ∀ t ∈ timestamps,
      start ≤ t ∧ t ≤ stop ↔ timeUtilsFormat first ≤ t ∧ t ≤ timeUtilsFormat last := by
  have hrow : ∀ t ∈ timestamps, ∃ r : MeasurementRow, r.timestamp = t :=
    fun t _ ↦ ⟨⟨t, 0, 0, 0, 0, 0⟩, rfl⟩
  have hevent : ∀ t ∈ timestamps, ∃ r : EventRow, r.timestamp = t := fun t _ ↦ ⟨⟨t, [], []⟩, rfl⟩
  constructor
  · intro hshows
    refine (selects_iff_of_range_iff hrow).1 fun table htable result ↦ ?_
    exact (hshows ⟨table, []⟩ ⟨htable, fun r hr ↦ by cases hr⟩).1 result
  · intro hrange db hdb
    exact ⟨fun rows ↦ (selects_iff_of_range_iff hrow).2 hrange _ hdb.measurements rows,
      fun rows ↦ (selects_iff_of_range_iff hevent).2 hrange _ hdb.events rows⟩

/-! ### What has to be as it is printed -/

/-- The characters that a start has to begin with: all of them, less what is at its least from the
end on, and a digit if that is one above its least. -/
def Stamp.startText (p : Stamp) : List UInt8 :=
  if p.sec ≠ 0 then if p.sec ≠ 1 then timeUtilsFormat p else p.secHead ++ [0x30]
  else if p.min ≠ 0 then p.secHead
  else if p.hour ≠ 0 then p.minHead
  else if p.date ≠ 1 then p.dateHead ++ decimal2 p.date.toNat
  else p.dateHead ++ [0x30]

/-- A start that leaves out nothing and lets in nothing. -/
def StartAsPrinted (start : List UInt8) (p : Stamp) : Prop :=
  start ≤ timeUtilsFormat p ∧ p.startText <+: start

/-- The same for an end. Whatever follows the seconds is harmless, unless they could be the first
two digits of a byte. -/
def StopAsPrinted (stop : List UInt8) (q : Stamp) : Prop :=
  ∃ rest, stop = timeUtilsFormat q ++ rest ∧
    (10 ≤ q.sec → q.sec ≤ 25 → ∀ c ∈ rest.head?, c < 0x30)

/-! ### Behind a part of the timestamp -/

/-- What is typed between two texts that go on with a number behind the same fields. -/
theorem run_behind_head {head w x y : List UInt8} {front ns : List ℤ} {fmt : List Directive}
    {m n k : ℕ}
    (hhead : ∀ u, datetimeNumbers (head ++ u) = front ++ scanNumbers (.signed :: fmt) (cString u))
    (hw : datetimeNumbers w = front ++ (k : ℤ) :: ns) (hm : m < 100) (hn : n < 100)
    (hlow : head ++ (decimal2 m ++ x) ≤ w) (hhigh : w ≤ head ++ (decimal2 n ++ y)) :
    ∃ ds rest, w = head ++ (ds ++ rest) ∧ decimal2 m ++ x ≤ ds ++ rest ∧
      ds ++ rest ≤ decimal2 n ++ y ∧ Digits ds ∧ ds ≠ [] ∧ NoDigit rest ∧ digitsValue ds = k ∧
      scanNumbers fmt (cString rest) = ns := by
  obtain ⟨u, rfl, hlow', hhigh'⟩ := prefix_of_between hlow hhigh
  obtain ⟨c, v, rfl, hc⟩ := exists_digit_of_between hm hn hlow' hhigh'
  rw [hhead, List.append_cancel_left_eq] at hw
  obtain ⟨ds, rest, heq, hds, hne, hrest, hvalue, hns⟩ := run_of_digit hc hw
  rw [heq] at hlow' hhigh' ⊢
  exact ⟨ds, rest, rfl, hlow', hhigh', hds, hne, hrest, hvalue, hns⟩

/-- A separator that the format asks for is there. -/
theorem exists_eq_cons_of_scanNumbers {c : UInt8} {fmt : List Directive} {s : List UInt8} {n : ℤ}
    {ns : List ℤ} (h : scanNumbers (.char c :: fmt) (cString s) = n :: ns) : ∃ s', s = c :: s' := by
  cases s with
  | nil => cases h
  | cons a s =>
    refine ⟨s, ?_⟩
    rw [cString, List.takeWhile_cons] at h
    split_ifs at h
    · rw [scanNumbers] at h
      split_ifs at h with hac
      rw [eq_of_beq hac]
    · cases h

/-- In front of the least timestamp behind a start there is none. -/
theorem lt_of_isLeast {w c : List UInt8} (h : IsLeast {t ∈ timestamps | w ≤ t} c) {s : Stamp}
    (hs : timeUtilsFormat s < c) : timeUtilsFormat s < w :=
  not_le.1 fun hle ↦ hs.not_ge (h.2 ⟨mem_timestamps s, hle⟩)

theorem lt_of_isGreatest {v d : List UInt8} (h : IsGreatest {t ∈ timestamps | t ≤ v} d) {s : Stamp}
    (hs : d < timeUtilsFormat s) : v < timeUtilsFormat s :=
  not_le.1 fun hle ↦ hs.not_ge (h.2 ⟨mem_timestamps s, hle⟩)

/-! ### Starts -/

/-- **The field in front of those that are at their least** begins as it is printed, or with two
zeros if it is one, where no timestamp lies between the line and what it is read as. -/
theorem field_of_isLeast {head w x y : List UInt8} {front ns : List ℤ} {fmt : List Directive}
    {k : ℕ} {s p : Stamp} (h : IsLeast {t ∈ timestamps | w ≤ t} (timeUtilsFormat p))
    (hhead : ∀ u, datetimeNumbers (head ++ u) = front ++ scanNumbers (.signed :: fmt) (cString u))
    (hw : datetimeNumbers w = front ++ (k : ℤ) :: ns) (hpos : 1 ≤ k) (hk : k < 100)
    (hs : timeUtilsFormat s = head ++ (decimal2 (k - 1) ++ x))
    (hp : timeUtilsFormat p = head ++ (decimal2 k ++ y)) :
    ∃ ds rest, w = head ++ (ds ++ rest) ∧ decimal2 (k - 1) ++ x ≤ ds ++ rest ∧ Digits ds ∧
      scanNumbers fmt (cString rest) = ns ∧
      (ds = decimal2 k ∨ k = 1 ∧ ∃ es, ds = 0x30 :: 0x30 :: es ∧ es ≠ []) := by
  have hlt : timeUtilsFormat s < timeUtilsFormat p := by
    rw [hs, hp]
    exact append_left_lt_iff.2 (decimal2_append_lt (by omega) hk x y)
  have hlow := (lt_of_isLeast h hlt).le
  have hhigh : w ≤ timeUtilsFormat p := h.1.2
  rw [hs] at hlow
  rw [hp] at hhigh
  obtain ⟨ds, rest, hw, hlow, hhigh, hds, hne, -, hvalue, hns⟩ :=
    run_behind_head hhead hw (by omega) hk hlow hhigh
  exact ⟨ds, rest, hw, hlow, hds, hns, eq_decimal2_of_between hds hne hvalue hpos hk hlow hhigh⟩

/-- The hour and the minute are followed by more than any digit. -/
theorem field_colon_of_isLeast {head w x y : List UInt8} {front ns : List ℤ} {n : ℤ}
    {fmt : List Directive} {k : ℕ} {s p : Stamp}
    (h : IsLeast {t ∈ timestamps | w ≤ t} (timeUtilsFormat p))
    (hhead : ∀ u, datetimeNumbers (head ++ u) =
      front ++ scanNumbers (.signed :: .char 0x3A :: fmt) (cString u))
    (hw : datetimeNumbers w = front ++ (k : ℤ) :: n :: ns) (hpos : 1 ≤ k) (hk : k < 100)
    (hs : timeUtilsFormat s = head ++ (decimal2 (k - 1) ++ ([0x3A] ++ x)))
    (hp : timeUtilsFormat p = head ++ (decimal2 k ++ y)) :
    head ++ (decimal2 k ++ [0x3A]) <+: w := by
  obtain ⟨ds, rest, rfl, hlow, hds, hns, rfl | ⟨rfl, es, rfl, hes⟩⟩ :=
    field_of_isLeast h hhead hw hpos hk hs hp
  · obtain ⟨rest, rfl⟩ := exists_eq_cons_of_scanNumbers hns
    exact ⟨rest, by simp only [List.append_assoc, List.singleton_append]⟩
  · obtain ⟨e, es, rfl⟩ := List.exists_cons_of_ne_nil hes
    have he := (isDigit_iff.1 (hds e (by simp))).2
    have hle : 0x3A :: x ≤ e :: (es ++ rest) := append_left_le_iff.1
      (show [0x30, 0x30] ++ 0x3A :: x ≤ [0x30, 0x30] ++ e :: (es ++ rest) from hlow)
    have hcolon : (0x3A : UInt8).toNat = 58 := rfl
    rw [Positional.cons_le_cons_iff, UInt8.lt_iff_toNat_lt, ← UInt8.toNat_inj] at hle
    omega

theorem toNat_pred {b : UInt8} (h : b ≠ 0) : 1 ≤ b.toNat ∧ (b - 1).toNat = b.toNat - 1 := by
  have hpos : 1 ≤ b.toNat := by
    rw [Nat.one_le_iff_ne_zero]
    exact fun h0 ↦ h (UInt8.toNat_inj.1 h0)
  exact ⟨hpos, UInt8.toNat_sub_of_le _ _ (UInt8.le_iff_toNat_le.2 hpos)⟩

/-- The seconds, seen from the second before. -/
theorem sec_of_isLeast {w : List UInt8} {p : Stamp} (hp : parseDatetime w = some p)
    (h : IsLeast {t ∈ timestamps | w ≤ t} (timeUtilsFormat p)) (hsec : p.sec ≠ 0) :
    ∃ ds rest, w = p.secHead ++ (ds ++ rest) ∧
      (ds = decimal2 p.sec.toNat ∨ p.sec.toNat = 1 ∧ ∃ es, ds = 0x30 :: 0x30 :: es ∧ es ≠ []) := by
  obtain ⟨hdatetime, hnumbers⟩ := parseDatetime_spec hp
  obtain ⟨hpos, hpred⟩ := toNat_pred hsec
  have hprev := timeUtilsFormat_eq_secHead { p with sec := p.sec - 1 }
  dsimp only at hprev
  rw [hpred, ← List.append_nil (decimal2 _)] at hprev
  have hformat := timeUtilsFormat_eq_secHead p
  rw [← List.append_nil (decimal2 _)] at hformat
  obtain ⟨ds, rest, hw, -, -, -, hds⟩ := field_of_isLeast h (datetimeNumbers_secHead p) hnumbers
    hpos (hdatetime.sec_le.trans_lt (by decide)) hprev hformat
  exact ⟨ds, rest, hw, hds⟩

/-- The date at midnight, seen from the day before. -/
theorem date_of_isLeast {w : List UInt8} {p : Stamp} (hp : parseDatetime w = some p)
    (h : IsLeast {t ∈ timestamps | w ≤ t} (timeUtilsFormat p)) :
    ∃ ds rest, w = p.dateHead ++ (ds ++ rest) ∧
      (ds = decimal2 p.date.toNat ∨
        p.date.toNat = 1 ∧ ∃ es, ds = 0x30 :: 0x30 :: es ∧ es ≠ []) := by
  obtain ⟨hdatetime, hnumbers⟩ := parseDatetime_spec hp
  have hdate : p.date ≠ 0 := by
    intro h0
    have hpos := hdatetime.date_pos
    rw [h0] at hpos
    exact absurd hpos (by decide)
  obtain ⟨hpos, hpred⟩ := toNat_pred hdate
  have hprev := timeUtilsFormat_eq_dateHead
    { p with date := p.date - 1, hour := 99, min := 99, sec := 99 }
  dsimp only at hprev
  rw [hpred] at hprev
  obtain ⟨ds, rest, hw, -, -, -, hds⟩ := field_of_isLeast h (datetimeNumbers_dateHead p) hnumbers
    hpos (hdatetime.date_le.trans_lt (by decide)) hprev (timeUtilsFormat_eq_dateHead p)
  exact ⟨ds, rest, hw, hds⟩

/-- **What the line has to begin with**, if it is to be as good as what is printed. -/
theorem startText_prefix_of_isLeast {w : List UInt8} {p : Stamp} (hp : parseDatetime w = some p)
    (h : IsLeast {t ∈ timestamps | w ≤ t} (timeUtilsFormat p)) : p.startText <+: w := by
  obtain ⟨hdatetime, hnumbers⟩ := parseDatetime_spec hp
  have hone : ∀ b : UInt8, ¬b ≠ 1 → decimal2 b.toNat = [0x30, 0x31] := by
    intro b hb
    rw [not_not.1 hb]
    rfl
  rw [Stamp.startText]
  split_ifs with hsec hsec1 hmin hhour hday
  · obtain ⟨ds, rest, rfl, rfl | ⟨h1, -⟩⟩ := sec_of_isLeast hp h hsec
    · exact ⟨rest, by rw [timeUtilsFormat_eq_secHead, List.append_assoc]⟩
    · exact absurd (UInt8.toNat_inj.1 h1) hsec1
  · obtain ⟨ds, rest, rfl, rfl | ⟨-, es, rfl, -⟩⟩ := sec_of_isLeast hp h hsec
    · rw [hone p.sec hsec1]
      exact ⟨0x31 :: rest, List.append_assoc _ _ _⟩
    · exact ⟨0x30 :: (es ++ rest), List.append_assoc _ _ _⟩
  · -- The minute before, with the seconds at their last.
    obtain ⟨hpos, hpred⟩ := toNat_pred hmin
    have hprev := timeUtilsFormat_eq_minHead { p with min := p.min - 1, sec := 99 }
    dsimp only at hprev
    rw [hpred] at hprev
    exact field_colon_of_isLeast h (datetimeNumbers_minHead p) hnumbers hpos
      (hdatetime.min_le.trans_lt (by decide)) hprev (timeUtilsFormat_eq_minHead p)
  · obtain ⟨hpos, hpred⟩ := toNat_pred hhour
    have hprev := timeUtilsFormat_eq_hourHead { p with hour := p.hour - 1, min := 99, sec := 99 }
    dsimp only at hprev
    rw [hpred] at hprev
    exact field_colon_of_isLeast h (datetimeNumbers_hourHead p) hnumbers hpos
      (hdatetime.hour_le.trans_lt (by decide)) hprev (timeUtilsFormat_eq_hourHead p)
  · obtain ⟨ds, rest, rfl, rfl | ⟨h1, -⟩⟩ := date_of_isLeast hp h
    · exact ⟨rest, List.append_assoc _ _ _⟩
    · exact absurd (UInt8.toNat_inj.1 h1) hday
  · obtain ⟨ds, rest, rfl, rfl | ⟨-, es, rfl, -⟩⟩ := date_of_isLeast hp h
    · rw [hone p.date hday]
      exact ⟨0x31 :: rest, List.append_assoc _ _ _⟩
    · exact ⟨0x30 :: (es ++ rest), List.append_assoc _ _ _⟩

/-- What follows the date. -/
def Stamp.clockText (s : Stamp) : List UInt8 :=
  [0x20] ++ (decimal2 s.hour.toNat ++
    ([0x3A] ++ (decimal2 s.min.toNat ++ ([0x3A] ++ decimal2 s.sec.toNat))))

theorem head_clockText (s : Stamp) : ∀ c ∈ s.clockText.head?, c < 0x30 := by
  intro c hc
  obtain rfl : 0x20 = c := Option.some.inj hc
  decide

/-- Midnight comes first. -/
theorem clockText_le {s t : Stamp} (hhour : s.hour = 0) (hmin : s.min = 0) (hsec : s.sec = 0) :
    s.clockText ≤ t.clockText := by
  rw [Stamp.clockText, Stamp.clockText, hhour, hmin, hsec]
  refine append_left_le_iff.2 (decimal2_zero_append_le t.hour ?_)
  refine append_left_le_iff.2 (decimal2_zero_append_le t.min ?_)
  exact append_left_le_iff.2 (decimal2_zero_le t.sec)

/-- A timestamp between two texts that begin with the same fields has these fields. -/
theorem eq_secHead_of_between {p s : Stamp} {x y : List UInt8}
    (hlow : p.secHead ++ x ≤ timeUtilsFormat s) (hhigh : timeUtilsFormat s ≤ p.secHead ++ y) :
    timeUtilsFormat s = p.secHead ++ decimal2 s.sec.toNat := by
  obtain ⟨g, hg, -⟩ := prefix_of_between hlow hhigh
  rw [timeUtilsFormat_eq_secHead] at hg ⊢
  rw [(secHead_append_inj hg).1]

theorem eq_minHead_of_between {p s : Stamp} {x y : List UInt8}
    (hlow : p.minHead ++ x ≤ timeUtilsFormat s) (hhigh : timeUtilsFormat s ≤ p.minHead ++ y) :
    timeUtilsFormat s =
      p.minHead ++ (decimal2 s.min.toNat ++ ([0x3A] ++ decimal2 s.sec.toNat)) := by
  obtain ⟨g, hg, -⟩ := prefix_of_between hlow hhigh
  rw [timeUtilsFormat_eq_minHead] at hg ⊢
  rw [(minHead_append_inj hg).1]

theorem eq_dateHead_of_between {p s : Stamp} {x y : List UInt8}
    (hlow : p.dateHead ++ x ≤ timeUtilsFormat s) (hhigh : timeUtilsFormat s ≤ p.dateHead ++ y) :
    timeUtilsFormat s = p.dateHead ++ (decimal2 s.date.toNat ++ s.clockText) := by
  obtain ⟨g, hg, -⟩ := prefix_of_between hlow hhigh
  rw [timeUtilsFormat_eq_dateHead] at hg ⊢
  rw [(dateHead_append_inj hg).1]
  rfl

/-- A digit zero and what follows it, read as one, come behind two zeros. -/
theorem zero_lt_of_scanNumbers {fmt : List Directive} {u x : List UInt8} {n : ℕ} {ns : List ℤ}
    (hn : n = 1) (hscan : scanNumbers (.signed :: fmt) (cString (0x30 :: u)) = (n : ℤ) :: ns)
    (hx : ∀ c ∈ x.head?, c < 0x30) : decimal2 0 ++ x < 0x30 :: u := by
  obtain ⟨ds, rest, heq, hds, hne, -, hvalue, -⟩ := run_of_digit rfl hscan
  rw [heq]
  exact zero_lt_of_value_one hds hne (hvalue.trans hn) hx

/-- **No timestamp is lost or let in** by a start that begins as it has to. -/
theorem isLeast_of_startAsPrinted {w : List UInt8} {p : Stamp} (hp : parseDatetime w = some p)
    (h : StartAsPrinted w p) : IsLeast {t ∈ timestamps | w ≤ t} (timeUtilsFormat p) := by
  obtain ⟨hdatetime, hnumbers⟩ := parseDatetime_spec hp
  obtain ⟨hle, hbegins⟩ := h
  refine ⟨⟨mem_timestamps p, hle⟩, ?_⟩
  rintro _ ⟨⟨s, rfl⟩, hge⟩
  by_contra hlt
  rw [not_le] at hlt
  rw [Stamp.startText] at hbegins
  split_ifs at hbegins with hsec hsec1 hmin hhour hday
  · obtain ⟨u, rfl⟩ := hbegins
    exact absurd ((le_append _ u).trans hge) (not_le.2 hlt)
  · obtain ⟨u, rfl⟩ := hbegins
    have hone : p.sec.toNat = 1 := congrArg UInt8.toNat (not_not.1 hsec1)
    rw [List.append_assoc] at hge hnumbers
    rw [datetimeNumbers_secHead] at hnumbers
    have hs := eq_secHead_of_between hge (hlt.le.trans_eq (timeUtilsFormat_eq_secHead p))
    rw [hs, timeUtilsFormat_eq_secHead, append_left_lt_iff, hone] at hlt
    rw [hs, append_left_le_iff] at hge
    have hzero := eq_zero_of_lt_one s.sec (le_refl []) (by rwa [List.append_nil, List.append_nil])
    have hnil : ∀ c ∈ ([] : List UInt8).head?, c < 0x30 := fun _ hc ↦ by cases hc
    have hgt := zero_lt_of_scanNumbers hone (List.append_cancel_left hnumbers) hnil
    rw [List.append_nil] at hgt
    rw [hzero] at hge
    exact absurd hge (not_le.2 hgt)
  · obtain ⟨u, rfl⟩ := hbegins
    have hs := eq_secHead_of_between hge (hlt.le.trans_eq (timeUtilsFormat_eq_secHead p))
    rw [hs, timeUtilsFormat_eq_secHead, append_left_lt_iff, not_not.1 hsec] at hlt
    exact absurd (decimal2_zero_le s.sec) (not_le.2 hlt)
  · obtain ⟨u, rfl⟩ := hbegins
    have hs := eq_minHead_of_between hge (hlt.le.trans_eq (timeUtilsFormat_eq_minHead p))
    have hsecs := append_left_le_iff (a := [0x3A]).2 (decimal2_zero_le s.sec)
    rw [hs, timeUtilsFormat_eq_minHead, append_left_lt_iff, not_not.1 hsec, not_not.1 hmin] at hlt
    exact absurd (decimal2_zero_append_le s.min hsecs) (not_le.2 hlt)
  · obtain ⟨u, rfl⟩ := hbegins
    have hclock := clockText_le (t := s) (not_not.1 hhour) (not_not.1 hmin) (not_not.1 hsec)
    rw [List.append_assoc] at hge
    have hs := eq_dateHead_of_between hge (hlt.le.trans_eq (timeUtilsFormat_eq_dateHead p))
    rw [hs, timeUtilsFormat_eq_dateHead, append_left_lt_iff] at hlt
    rw [hs, append_left_le_iff] at hge
    exact absurd (decimal2_append_le_of_le (hdatetime.date_le.trans_lt (by decide)) s.date
      (head_clockText p) hclock hge) (not_le.2 hlt)
  · obtain ⟨u, rfl⟩ := hbegins
    have hclock := clockText_le (t := s) (not_not.1 hhour) (not_not.1 hmin) (not_not.1 hsec)
    have hone : p.date.toNat = 1 := congrArg UInt8.toNat (not_not.1 hday)
    rw [List.append_assoc] at hge hnumbers
    rw [datetimeNumbers_dateHead] at hnumbers
    have hs := eq_dateHead_of_between hge (hlt.le.trans_eq (timeUtilsFormat_eq_dateHead p))
    rw [hs, timeUtilsFormat_eq_dateHead, append_left_lt_iff, hone] at hlt
    rw [hs, append_left_le_iff] at hge
    have hzero := eq_zero_of_lt_one s.date hclock hlt
    have hgt := zero_lt_of_scanNumbers hone (List.append_cancel_left hnumbers)
      (head_clockText s)
    rw [hzero] at hge
    exact absurd hge (not_le.2 hgt)

/-! ### Ends -/

/-- **What the line has to look like**, if it is to be as good as what is printed: the second after
is behind it, and so is the least of three digits. -/
theorem stopAsPrinted_of_isGreatest {v : List UInt8} {q : Stamp} (hq : parseDatetime v = some q)
    (h : IsGreatest {t ∈ timestamps | t ≤ v} (timeUtilsFormat q)) : StopAsPrinted v q := by
  obtain ⟨hdatetime, hnumbers⟩ := parseDatetime_spec hq
  have hsec := hdatetime.sec_le
  have hformat := timeUtilsFormat_eq_secHead q
  have hnext : timeUtilsFormat { q with sec := q.sec + 1 } =
      q.secHead ++ decimal2 (q.sec.toNat + 1) := by
    have hsucc : (q.sec + 1).toNat = q.sec.toNat + 1 := by
      rw [UInt8.toNat_add]
      exact Nat.mod_eq_of_lt (by show q.sec.toNat + 1 < 256; omega)
    rw [← hsucc]
    exact timeUtilsFormat_eq_secHead _
  have hlt : v < q.secHead ++ decimal2 (q.sec.toNat + 1) := by
    rw [← hnext]
    refine lt_of_isGreatest h ?_
    rw [hnext, hformat]
    exact append_left_lt_iff.2 ((decimal2_lt_iff (by omega) (by omega)).2 (Nat.lt_succ_self _))
  have hge : q.secHead ++ decimal2 q.sec.toNat ≤ v := by
    rw [← hformat]
    exact h.1.2
  obtain ⟨ds, rest, rfl, -, -, hds, hne, hrest, hvalue, -⟩ :=
    run_behind_head (x := []) (y := []) (m := q.sec.toNat) (n := q.sec.toNat + 1)
      (datetimeNumbers_secHead q) hnumbers (by omega) (by omega) (by rwa [List.append_nil])
      (by rw [List.append_nil]; exact hlt.le)
  obtain ⟨r, hr⟩ := decimal2_prefix_of_between hds hne hrest hvalue (by omega)
    (append_left_le_iff.1 hge) (append_left_lt_iff.1 hlt)
  rw [← hr, ← List.append_assoc, ← hformat] at h ⊢
  refine ⟨r, rfl, fun hlow hhigh c hc ↦ ?_⟩
  -- The first byte of three digits that begins with these two.
  have hten : (10 * q.sec).toNat = 10 * q.sec.toNat := by
    rw [UInt8.toNat_mul]
    have hle : q.sec.toNat ≤ 25 := UInt8.le_iff_toNat_le.1 hhigh
    exact Nat.mod_eq_of_lt (by show 10 * q.sec.toNat < 256; omega)
  have hge10 : 10 ≤ q.sec.toNat := UInt8.le_iff_toNat_le.1 hlow
  have hthree : timeUtilsFormat { q with sec := 10 * q.sec } = timeUtilsFormat q ++ [0x30] := by
    rw [timeUtilsFormat_eq_secHead, hformat, List.append_assoc]
    show q.secHead ++ decimal2 (10 * q.sec).toNat = _
    rw [hten, decimal2_of_hundred (by omega), Nat.mul_div_cancel_left _ (by decide),
      Nat.mul_mod_right]
    rfl
  have hbehind : timeUtilsFormat q < timeUtilsFormat q ++ [0x30] := by
    have hnil := append_left_lt_iff (a := timeUtilsFormat q).2 (List.nil_lt_cons (0x30 : UInt8) [])
    rwa [List.append_nil] at hnil
  have hlt' := lt_of_isGreatest h (hbehind.trans_eq hthree.symm)
  rw [hthree, append_left_lt_iff] at hlt'
  cases r with
  | nil => cases hc
  | cons d r =>
    obtain rfl : d = c := Option.some.inj hc
    rcases List.cons_lt_cons_iff.1 hlt' with hd | ⟨-, hnil⟩
    · exact hd
    · exact absurd hnil (List.not_lt_nil r)

/-- **No timestamp is lost or let in** by an end that begins as it is printed. -/
theorem isGreatest_of_stopAsPrinted {v : List UInt8} {q : Stamp} (hq : parseDatetime v = some q)
    (h : StopAsPrinted v q) : IsGreatest {t ∈ timestamps | t ≤ v} (timeUtilsFormat q) := by
  obtain ⟨hdatetime, -⟩ := parseDatetime_spec hq
  have hsec := hdatetime.sec_le
  have hformat := timeUtilsFormat_eq_secHead q
  obtain ⟨rest, rfl, hrest⟩ := h
  refine ⟨⟨mem_timestamps q, le_append _ rest⟩, ?_⟩
  rintro _ ⟨⟨s, rfl⟩, hle⟩
  by_contra hlt
  rw [not_le] at hlt
  obtain ⟨g, hg, -, hgle⟩ :=
    prefix_of_between (x := []) (by rw [List.append_nil]; exact hlt.le) hle
  have hs : timeUtilsFormat s = q.secHead ++ decimal2 s.sec.toNat := by
    rw [hformat] at hlt hle
    exact eq_secHead_of_between hlt.le (by rwa [List.append_assoc] at hle)
  have hdigits : decimal2 s.sec.toNat = decimal2 q.sec.toNat ++ g := by
    rw [hs, hformat, List.append_assoc] at hg
    exact List.append_cancel_left hg
  have hlen := length_decimal2 (n := q.sec.toNat) (by omega)
  rcases lt_or_ge s.sec.toNat 100 with hsmall | hlarge
  · have hlen' := length_decimal2 hsmall
    rw [hdigits, List.length_append] at hlen'
    obtain rfl : g = [] := List.eq_nil_of_length_eq_zero (by omega)
    rw [hg, List.append_nil] at hlt
    exact lt_irrefl _ hlt
  · have hbyte := s.sec.toNat_lt
    have hlen' := length_decimal2 (n := s.sec.toNat / 10) (by omega)
    rw [decimal2_of_hundred hlarge] at hdigits
    obtain ⟨htens, rfl⟩ := List.append_inj hdigits (hlen'.trans hlen.symm)
    have hq10 := decimal2_injective htens
    have hhead := hrest (UInt8.le_iff_toNat_le.2 (by show 10 ≤ q.sec.toNat; omega))
      (UInt8.le_iff_toNat_le.2 (by show q.sec.toNat ≤ 25; omega))
    cases rest with
    | nil => exact absurd (List.nil_lt_cons _ _) (not_lt.2 hgle)
    | cons c rest =>
      have hc : c.toNat < 48 := UInt8.lt_iff_toNat_lt.1 (hhead c rfl)
      rw [Positional.cons_le_cons_iff, UInt8.lt_iff_toNat_lt, ← UInt8.toNat_inj,
        toNat_digit (by omega)] at hgle
      omega

/-! ### Both lines -/

/-- **The menu shows what the range stands for** just when, in a range that does not go backwards,
the start is not behind its printed form and begins as that does up to the last field that is not at
its least, and the end begins with its printed form, with nothing behind it that a third digit would
come before. A range that goes backwards shows nothing, as it should, unless a timestamp lies
between the two lines themselves. -/
theorem showsCanonical_iff {start stop : List UInt8} {first last : Stamp}
    (hfirst : parseDatetime start = some first) (hlast : parseDatetime stop = some last) :
    ShowsCanonical start stop first last ↔
      if first.fields ≤ last.fields then StartAsPrinted start first ∧ StopAsPrinted stop last
      else ∀ s, ¬(start ≤ timeUtilsFormat s ∧ timeUtilsFormat s ≤ stop) := by
  have hdatetime := (parseDatetime_spec hfirst).1
  have hdatetime' := (parseDatetime_spec hlast).1
  rw [showsCanonical_iff_range]
  split_ifs with hle
  · have hle' := (timeUtilsFormat_le_iff hdatetime hdatetime').2 hle
    rw [range_iff_iff_isLeast (mem_timestamps first) (mem_timestamps last) hle']
    constructor
    · rintro ⟨hleast, hgreatest⟩
      exact ⟨⟨hleast.1.2, startText_prefix_of_isLeast hfirst hleast⟩,
        stopAsPrinted_of_isGreatest hlast hgreatest⟩
    · rintro ⟨hstart, hstop⟩
      exact ⟨isLeast_of_startAsPrinted hfirst hstart, isGreatest_of_stopAsPrinted hlast hstop⟩
  · have hempty : ∀ t, ¬(timeUtilsFormat first ≤ t ∧ t ≤ timeUtilsFormat last) :=
      fun t ht ↦ hle ((timeUtilsFormat_le_iff hdatetime hdatetime').1 (ht.1.trans ht.2))
    constructor
    · intro hrange s hs
      exact hempty _ ((hrange _ (mem_timestamps s)).1 hs)
    · rintro hnone _ ⟨s, rfl⟩
      exact iff_of_false (hnone s) (hempty _)

/-- Up to a Sunday's first second, with a remark behind it. -/
theorem showsCanonical_iff_midnight :
    ShowsCanonical (ascii "2026-09-05 23:59:59") (ascii "2026-09-06 00:00:00 (UTC)") saturdayLast
      sundayFirst := by
  refine (showsCanonical_iff (by decide +kernel) (by decide +kernel)).2 ?_
  rw [if_pos (by decide)]
  refine ⟨⟨by decide +kernel, by decide +kernel⟩, ascii " (UTC)", by decide +kernel, ?_⟩
  exact fun hlow ↦ absurd hlow (by decide)

/-- The Sunday, typed without zeros in front. As a text it is behind everything that is printed in
that year. -/
def sundayTyped : List UInt8 :=
  ascii "2026-9-6 0:0:0"

/-- The Sunday's first row is not shown. -/
theorem not_forall_showsCanonical :
    ¬∀ (start stop : List UInt8) (first last : Stamp), parseDatetime start = some first →
      parseDatetime stop = some last → ShowsCanonical start stop first last := by
  intro h
  have hshows := h sundayTyped (ascii "2026-09-06 23:59:59") sundayFirst ⟨26, 9, 6, 23, 59, 59⟩
    (by decide +kernel) (by decide +kernel)
  have hrow := (showsCanonical_iff_range.1 hshows _ (mem_timestamps sundayFirst)).2
    (by decide +kernel)
  exact absurd hrow (by decide +kernel)

end SubmarineMonitor
