import SubmarineMonitor.Foundation.Positional
import Mathlib.Data.Nat.Init

/-!
# Calendar days

Dates of the years 2000 to 2099 and the number of days since 1 January 2000. In that century every
fourth year is a leap year, without exception.

Later dates have larger day numbers (`dayNumber_le`), so a clock that never runs backwards counts
its days upwards, and the weekday is a function of the day number with period seven.

## Dates that exist

A `Date` carries the bounds on its month and its day as fields, so there is no thirtieth of February
and every function on dates is total. A `DateTime` does the same for the time of day. The next date
and the next second are defined by their cases, as a clock has them, and counted by arithmetic: the
proofs that the count goes up by one are where the cases are compared with the lengths of the
months, once.

The year is any natural number, with every fourth one a leap year. That is the calendar from 2000 to
2099, and the fiction that it goes on so is convenient, since then no function has a bound to check;
`year_lt_iff` says how many days the century has, for those who need to know that they are in it.

Time zones, and hours that are skipped or repeated when the clocks are changed, are left out.

The order of dates is that of lists of their fields. It is the order in which packed or printed
dates are compared as well, so one lemma connects all of them with the count of the days.
-/

namespace Calendar

def isLeap (year : ℕ) : Bool :=
  year % 4 == 0

def daysInMonth (year month : ℕ) : ℕ :=
  match month with
  | 2 => if isLeap year then 29 else 28
  | 4 | 6 | 9 | 11 => 30
  | _ => 31

/-- The days of the year before a month. -/
def daysBefore (year : ℕ) : (month : ℕ) → ℕ
  | 0 => 0
  | 1 => 0
  | m + 2 => daysBefore year (m + 1) + daysInMonth year (m + 1)

/-- A year, a month and a day of the month. -/
structure Date where
  /-- Counted from 2000. -/
  year : ℕ
  month : ℕ
  day : ℕ
  month_pos : 1 ≤ month
  month_le : month ≤ 12
  day_pos : 1 ≤ day
  day_le : day ≤ daysInMonth year month
  deriving DecidableEq

/-- The days from 1 January 2000 to a date. -/
def Date.dayNumber (d : Date) : ℕ :=
  365 * d.year + (d.year + 3) / 4 + daysBefore d.year d.month + (d.day - 1)

/-- The weekday, Monday being 1 and Sunday 7: 1 January 2000 was a Saturday. -/
def Date.weekday (d : Date) : ℕ :=
  (d.dayNumber + 5) % 7 + 1

/-- 6 September 2026 was a Sunday. -/
example : Date.weekday ⟨26, 9, 6, by decide, by decide, by decide, by decide⟩ = 7 := by
  decide

/-- The end of a month is the beginning of the next one, or of an earlier day than a later one. -/
theorem daysBefore_add_le (year : ℕ) {m m' : ℕ} (hm : 1 ≤ m) (hlt : m < m') :
    daysBefore year m + daysInMonth year m ≤ daysBefore year m' := by
  obtain ⟨m, rfl⟩ : ∃ k, m = k + 1 := ⟨m - 1, by omega⟩
  induction m', hlt using Nat.le_induction with
  | base => exact Nat.le_refl _
  | succ m' hle ih =>
    obtain ⟨m', rfl⟩ : ∃ k, m' = k + 1 := ⟨m' - 1, by omega⟩
    exact Nat.le_trans ih (Nat.le_add_right _ _)

/-- A date lies within its year. -/
theorem daysBefore_day_le (d : Date) :
    daysBefore d.year d.month + d.day ≤ 365 + if isLeap d.year then 1 else 0 := by
  have hmonth :=
    daysBefore_add_le d.year d.month_pos (show d.month < 13 from Nat.lt_succ_of_le d.month_le)
  have hday := d.day_le
  have hyear : daysBefore d.year 13 = 365 + if isLeap d.year then 1 else 0 := by
    rcases hleap : isLeap d.year <;> simp [daysBefore, daysInMonth, hleap]
  omega

/-- **Later dates have larger day numbers.** -/
theorem dayNumber_le {d d' : Date} (h : [d.year, d.month, d.day] ≤ [d'.year, d'.month, d'.day]) :
    d.dayNumber ≤ d'.dayNumber := by
  simp only [Positional.cons_le_cons_iff, le_refl, and_true] at h
  have hpos := d.day_pos
  have hpos' := d'.day_pos
  rw [Date.dayNumber, Date.dayNumber]
  rcases h with hyear | ⟨hyear, hmonth | ⟨hmonth, hday⟩⟩
  · have hlast := daysBefore_day_le d
    rw [isLeap] at hlast
    split_ifs at hlast with hleap <;> simp only [beq_iff_eq] at hleap <;> omega
  · have hnext := daysBefore_add_le d.year d.month_pos hmonth
    have hlast := d.day_le
    rw [← hyear]
    omega
  · rw [← hyear, ← hmonth]
    omega

/-! ### The next second -/

theorem daysInMonth_pos (year month : ℕ) : 1 ≤ daysInMonth year month := by
  unfold daysInMonth
  split
  · split <;> decide
  all_goals decide

/-- The date after. -/
def Date.next (d : Date) : Date :=
  if hday : d.day < daysInMonth d.year d.month then
    { d with day := d.day + 1, day_pos := Nat.succ_pos _, day_le := hday }
  else if hmonth : d.month < 12 then
    ⟨d.year, d.month + 1, 1, Nat.succ_pos _, hmonth, le_rfl, daysInMonth_pos _ _⟩
  else ⟨d.year + 1, 1, 1, le_rfl, by decide, le_rfl, daysInMonth_pos _ _⟩

/-- **The days are counted on** from date to date. -/
theorem dayNumber_next (d : Date) : d.next.dayNumber = d.dayNumber + 1 := by
  have hpos := d.day_pos
  have hle := d.day_le
  rw [Date.next]
  split_ifs with hday hmonth
  · simp only [Date.dayNumber]
    omega
  · have hlast : d.day = daysInMonth d.year d.month := by omega
    obtain ⟨m, hm⟩ : ∃ m, d.month = m + 1 := ⟨d.month - 1, by have := d.month_pos; omega⟩
    simp only [Date.dayNumber, hm, daysBefore]
    rw [hm] at hlast
    omega
  · have hlast : d.day = daysInMonth d.year d.month := by omega
    have htwelve : d.month = 12 := by have := d.month_le; omega
    have hyear : daysBefore d.year 12 + 31 = 365 + if isLeap d.year then 1 else 0 := by
      rcases hleap : isLeap d.year <;> simp [daysBefore, daysInMonth, hleap]
    have hday : d.day = 31 := by rw [hlast, htwelve]; rfl
    show 365 * (d.year + 1) + (d.year + 1 + 3) / 4 + 0 + 0 = _
    rw [Date.dayNumber, htwelve, hday]
    rw [isLeap] at hyear
    split_ifs at hyear with hleap <;> simp only [beq_iff_eq] at hleap <;> omega

/-- The weekday is counted on with it. -/
theorem weekday_next (d : Date) : d.next.weekday = d.weekday % 7 + 1 := by
  rw [Date.weekday, Date.weekday, dayNumber_next]
  omega

/-- The century is 36525 days long. -/
theorem year_lt_iff (d : Date) : d.year < 100 ↔ d.dayNumber < 36525 := by
  have hday := daysBefore_day_le d
  have hpos := d.day_pos
  rw [Date.dayNumber]
  rw [isLeap] at hday
  split_ifs at hday with hleap <;> simp only [beq_iff_eq] at hleap <;> omega

/-- A second of the years from 2000. -/
structure DateTime where
  date : Date
  hour : ℕ
  min : ℕ
  sec : ℕ
  hour_lt : hour < 24
  min_lt : min < 60
  sec_lt : sec < 60
  deriving DecidableEq

/-- The second after. -/
def DateTime.next (t : DateTime) : DateTime :=
  if hsec : t.sec + 1 < 60 then { t with sec := t.sec + 1, sec_lt := hsec }
  else if hmin : t.min + 1 < 60 then
    { t with min := t.min + 1, sec := 0, min_lt := hmin, sec_lt := by decide }
  else if hhour : t.hour + 1 < 24 then
    ⟨t.date, t.hour + 1, 0, 0, hhour, by decide, by decide⟩
  else ⟨t.date.next, 0, 0, 0, by decide, by decide, by decide⟩

/-- The seconds since the beginning of 2000. -/
def DateTime.seconds (t : DateTime) : ℕ :=
  ((t.date.dayNumber * 24 + t.hour) * 60 + t.min) * 60 + t.sec

/-- **The seconds are counted on.** -/
theorem seconds_next (t : DateTime) : t.next.seconds = t.seconds + 1 := by
  have hhour := t.hour_lt
  have hmin := t.min_lt
  have hsec := t.sec_lt
  rw [DateTime.next]
  split_ifs
  · simp only [DateTime.seconds]
    omega
  · simp only [DateTime.seconds]
    omega
  · simp only [DateTime.seconds]
    omega
  · simp only [DateTime.seconds, dayNumber_next]
    omega

/-- An earlier second is in the century too. -/
theorem year_lt_of_seconds_le {t u : DateTime} (hu : u.date.year < 100)
    (hle : t.seconds ≤ u.seconds) : t.date.year < 100 := by
  have ht := t.hour_lt
  have hhour := u.hour_lt
  have hmin := u.min_lt
  have hsec := u.sec_lt
  rw [year_lt_iff] at hu ⊢
  rw [DateTime.seconds, DateTime.seconds] at hle
  omega

/-- The second before midnight, in a leap year. -/
example : DateTime.next ⟨⟨24, 2, 28, by decide, by decide, by decide, by decide⟩, 23, 59, 59,
    by decide, by decide, by decide⟩ =
      ⟨⟨24, 2, 29, by decide, by decide, by decide, by decide⟩, 0, 0, 0, by decide, by decide,
        by decide⟩ := by
  decide

end Calendar
