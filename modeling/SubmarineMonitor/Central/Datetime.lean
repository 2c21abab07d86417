import SubmarineMonitor.Central.Storage
import SubmarineMonitor.Foundation.DigitRuns

/-!
# Dates and times that are typed in

`parse_datetime` of the Central Computer's menu, and how it reads what `TimeUtils::format` prints. A
text that goes on where a printed timestamp has already shown some of its fields is read as these
fields and what the rest of the text gives (`scanNumbers_secHead` and its siblings); and no two
timestamps share the fields they begin with unless these are the same (`secHead_append_inj`).

## Numbers behind numbers

`sscanf` with `%d` reads more than a printed timestamp has: spaces in front, a sign, any number of
digits. Which texts it accepts is therefore described through the directives of the format, one by
one, and not through a pattern. `datetimeNumbers` is what it stores, with as many numbers as it gets
to; the checks of `parse_datetime` are on these numbers alone, so texts that are spelled differently
and give the same numbers cannot be told apart behind it.

The heads of a timestamp are its initial parts up to each field. A text that begins with one is read
as the fields in it and then as whatever its rest gives, which is one lemma for each head. That is
what a comparison of texts needs: to see how a typed line lies to a printed one, one goes along the
common part and looks at the first field where they differ.

## Out of range

The standard leaves undefined what `%d` stores for a number that no `int` holds. `parseDatetime`
refuses it, as it refuses a month of 13; nothing is said about such input in the statements that use
it.

## What is left out

That a date exists: the thirty-first of February is accepted by the source, whose checks are on the
single fields, and it is accepted here.
-/

open Text

namespace SubmarineMonitor

/-! ### Parsing -/

/-- The format `"%d-%d-%d %d:%d:%d"`. -/
def parseDatetimeFormat : List Directive :=
  [.signed, .char 0x2D, .signed, .char 0x2D, .signed, .space, .signed, .char 0x3A, .signed,
    .char 0x3A, .signed]

/-- The numbers that stand in a text, as far as it can be read. -/
def datetimeNumbers (s : List UInt8) : List ℤ :=
  scanNumbers parseDatetimeFormat (cString s)

/-- `parse_datetime`. What `sscanf` stores for a number that no `int` holds is undefined; here it is
out of range as any other. -/
def parseDatetime (s : List UInt8) : Option Stamp :=
  match datetimeNumbers s with
  | [y, mo, d, h, mi, se] =>
    if y < 2000 ∨ y > 2099 ∨ mo < 1 ∨ mo > 12 ∨ d < 1 ∨ d > 31 ∨ h < 0 ∨ h > 23 ∨ mi < 0 ∨
        mi > 59 ∨ se < 0 ∨ se > 59 then none
    else
      some ⟨.ofInt (y - 2000), .ofInt mo, .ofInt d, .ofInt h, .ofInt mi, .ofInt se⟩
  | _ => none

/-- The numbers that stand for a date and a time. -/
def Stamp.numbers (s : Stamp) : List ℤ :=
  [2000 + s.year.toNat, s.month.toNat, s.date.toNat, s.hour.toNat, s.min.toNat, s.sec.toNat]

theorem toNat_ofInt {n : ℤ} (hlow : 0 ≤ n) (hhigh : n < 256) :
    ((UInt8.ofInt n).toNat : ℤ) = n := by
  show ((UInt8.ofNat (n % (UInt8.size : ℤ)).toNat).toNat : ℤ) = n
  have hmod : n % (UInt8.size : ℤ) = n := Int.emod_eq_of_lt hlow hhigh
  rw [hmod, UInt8.toNat_ofNat_of_lt' (by show n.toNat < 256; omega)]
  omega

/-- **What `parse_datetime` accepts** are the numbers of a date and a time. -/
theorem parseDatetime_spec {s : List UInt8} {p : Stamp} (h : parseDatetime s = some p) :
    p.IsDateTime ∧ datetimeNumbers s = p.numbers := by
  rw [parseDatetime] at h
  split at h
  next y mo d hr mi se hnumbers =>
    split_ifs at h with hrange
    obtain rfl := Option.some.inj h
    have hy : ((UInt8.ofInt (y - 2000)).toNat : ℤ) = y - 2000 := toNat_ofInt (by omega) (by omega)
    have hmo : ((UInt8.ofInt mo).toNat : ℤ) = mo := toNat_ofInt (by omega) (by omega)
    have hd : ((UInt8.ofInt d).toNat : ℤ) = d := toNat_ofInt (by omega) (by omega)
    have hhr : ((UInt8.ofInt hr).toNat : ℤ) = hr := toNat_ofInt (by omega) (by omega)
    have hmi : ((UInt8.ofInt mi).toNat : ℤ) = mi := toNat_ofInt (by omega) (by omega)
    have hse : ((UInt8.ofInt se).toNat : ℤ) = se := toNat_ofInt (by omega) (by omega)
    refine ⟨?_, ?_⟩
    · constructor <;> dsimp only <;> omega
    · rw [hnumbers, Stamp.numbers, hy, hmo, hd, hhr, hmi, hse]
      ring_nf
  next => cases h

/-! ### The fields of a timestamp -/

/-- The year and the month. -/
def Stamp.dateHead (s : Stamp) : List UInt8 :=
  decimal (2000 + s.year.toNat) ++ [0x2D] ++ (decimal2 s.month.toNat ++ [0x2D])

/-- The date. -/
def Stamp.hourHead (s : Stamp) : List UInt8 :=
  s.dateHead ++ (decimal2 s.date.toNat ++ [0x20])

/-- The date and the hour. -/
def Stamp.minHead (s : Stamp) : List UInt8 :=
  s.hourHead ++ (decimal2 s.hour.toNat ++ [0x3A])

/-- Everything but the seconds. -/
def Stamp.secHead (s : Stamp) : List UInt8 :=
  s.minHead ++ (decimal2 s.min.toNat ++ [0x3A])

theorem timeUtilsFormat_eq_secHead (s : Stamp) :
    timeUtilsFormat s = s.secHead ++ decimal2 s.sec.toNat := by
  simp only [timeUtilsFormat, Stamp.secHead, Stamp.minHead, Stamp.hourHead, Stamp.dateHead,
    List.append_assoc]
  rfl

theorem timeUtilsFormat_eq_minHead (s : Stamp) :
    timeUtilsFormat s =
      s.minHead ++ (decimal2 s.min.toNat ++ ([0x3A] ++ decimal2 s.sec.toNat)) := by
  rw [timeUtilsFormat_eq_secHead, Stamp.secHead]
  simp only [List.append_assoc]

theorem timeUtilsFormat_eq_hourHead (s : Stamp) :
    timeUtilsFormat s = s.hourHead ++ (decimal2 s.hour.toNat ++
      ([0x3A] ++ (decimal2 s.min.toNat ++ ([0x3A] ++ decimal2 s.sec.toNat)))) := by
  rw [timeUtilsFormat_eq_minHead, Stamp.minHead]
  simp only [List.append_assoc]

theorem timeUtilsFormat_eq_dateHead (s : Stamp) :
    timeUtilsFormat s = s.dateHead ++ (decimal2 s.date.toNat ++ ([0x20] ++
      (decimal2 s.hour.toNat ++
        ([0x3A] ++ (decimal2 s.min.toNat ++ ([0x3A] ++ decimal2 s.sec.toNat)))))) := by
  rw [timeUtilsFormat_eq_hourHead, Stamp.hourHead]
  simp only [List.append_assoc]

/-! ### Fields that two timestamps share -/

/-- A number and its separator can be told from what follows. -/
theorem block_append_inj {ds es : List UInt8} (hds : Digits ds) (hes : Digits es) {c : UInt8}
    (hc : isDigit c = false) {x y : List UInt8} (h : ds ++ [c] ++ x = es ++ [c] ++ y) :
    ds = es ∧ x = y := by
  rw [List.append_assoc, List.append_assoc] at h
  obtain ⟨hrun, hrest⟩ := append_digits_inj hds hes (noDigit_cons hc x) (noDigit_cons hc y) h
  exact ⟨hrun, (List.cons.inj hrest).2⟩

theorem dateHead_append_inj {s t : Stamp} {x y : List UInt8}
    (h : s.dateHead ++ x = t.dateHead ++ y) : s.dateHead = t.dateHead ∧ x = y := by
  rw [Stamp.dateHead, Stamp.dateHead, List.append_assoc (decimal (2000 + s.year.toNat) ++ [0x2D]),
    List.append_assoc (decimal (2000 + t.year.toNat) ++ [0x2D])] at h
  obtain ⟨hyear, hrest⟩ := block_append_inj (digits_decimal _).1 (digits_decimal _).1 rfl h
  obtain ⟨hmonth, hxy⟩ := block_append_inj (digits_decimal2 _).1 (digits_decimal2 _).1 rfl hrest
  exact ⟨by rw [Stamp.dateHead, Stamp.dateHead, hyear, hmonth], hxy⟩

theorem hourHead_append_inj {s t : Stamp} {x y : List UInt8}
    (h : s.hourHead ++ x = t.hourHead ++ y) : s.hourHead = t.hourHead ∧ x = y := by
  rw [Stamp.hourHead, Stamp.hourHead, List.append_assoc s.dateHead,
    List.append_assoc t.dateHead] at h
  obtain ⟨hhead, hrest⟩ := dateHead_append_inj h
  obtain ⟨hdate, hxy⟩ := block_append_inj (digits_decimal2 _).1 (digits_decimal2 _).1 rfl hrest
  exact ⟨by rw [Stamp.hourHead, Stamp.hourHead, hhead, hdate], hxy⟩

theorem minHead_append_inj {s t : Stamp} {x y : List UInt8}
    (h : s.minHead ++ x = t.minHead ++ y) : s.minHead = t.minHead ∧ x = y := by
  rw [Stamp.minHead, Stamp.minHead, List.append_assoc s.hourHead, List.append_assoc t.hourHead] at h
  obtain ⟨hhead, hrest⟩ := hourHead_append_inj h
  obtain ⟨hhour, hxy⟩ := block_append_inj (digits_decimal2 _).1 (digits_decimal2 _).1 rfl hrest
  exact ⟨by rw [Stamp.minHead, Stamp.minHead, hhead, hhour], hxy⟩

theorem secHead_append_inj {s t : Stamp} {x y : List UInt8}
    (h : s.secHead ++ x = t.secHead ++ y) : s.secHead = t.secHead ∧ x = y := by
  rw [Stamp.secHead, Stamp.secHead, List.append_assoc s.minHead, List.append_assoc t.minHead] at h
  obtain ⟨hhead, hrest⟩ := minHead_append_inj h
  obtain ⟨hmin, hxy⟩ := block_append_inj (digits_decimal2 _).1 (digits_decimal2 _).1 rfl hrest
  exact ⟨by rw [Stamp.secHead, Stamp.secHead, hhead, hmin], hxy⟩

/-! ### Reading on behind some fields -/

/-- A number and its separator, read. -/
theorem scanNumbers_block (n : ℕ) {c : UInt8} (hc : isDigit c = false) (hc0 : c ≠ 0)
    (fmt : List Directive) (u : List UInt8) :
    scanNumbers (.signed :: .char c :: fmt) (cString (decimal2 n ++ [c] ++ u)) =
      (n : ℤ) :: scanNumbers fmt (cString u) := by
  have hzero : ∀ x ∈ decimal2 n ++ [c], x ≠ 0 := by
    intro x hx
    rcases List.mem_append.1 hx with hx | hx
    · exact ne_zero_of_digits (digits_decimal2 n).1 x hx
    · rwa [List.mem_singleton.1 hx]
  rw [cString_append hzero, List.append_assoc, List.singleton_append,
    scanNumbers_digits_char (digits_decimal2 n).1 (decimal2_ne_nil n) hc, (digits_decimal2 n).2]

/-- What is still to be read behind the year and the month. -/
theorem datetimeNumbers_dateHead (s : Stamp) (u : List UInt8) :
    datetimeNumbers (s.dateHead ++ u) =
      s.numbers.take 2 ++ scanNumbers (parseDatetimeFormat.drop 4) (cString u) := by
  have hzero : ∀ x ∈ decimal (2000 + s.year.toNat) ++ [0x2D], x ≠ 0 := by
    intro x hx
    rcases List.mem_append.1 hx with hx | hx
    · exact ne_zero_of_digits (digits_decimal _).1 x hx
    · rw [List.mem_singleton.1 hx]
      decide
  rw [datetimeNumbers, Stamp.dateHead, List.append_assoc, cString_append hzero, List.append_assoc,
    List.singleton_append, parseDatetimeFormat,
    scanNumbers_digits_char (digits_decimal _).1 (decimal_ne_nil _) rfl, (digits_decimal _).2,
    scanNumbers_block _ rfl (by decide)]
  rfl

theorem datetimeNumbers_hourHead (s : Stamp) (u : List UInt8) :
    datetimeNumbers (s.hourHead ++ u) =
      s.numbers.take 3 ++ scanNumbers (parseDatetimeFormat.drop 6) (cString u) := by
  have hzero : ∀ x ∈ decimal2 s.date.toNat ++ [0x20], x ≠ 0 := by
    intro x hx
    rcases List.mem_append.1 hx with hx | hx
    · exact ne_zero_of_digits (digits_decimal2 _).1 x hx
    · rw [List.mem_singleton.1 hx]
      decide
  have hskip : ∀ fmt (t : List UInt8), scanNumbers (.signed :: fmt) (t.dropWhile isSpace) =
      scanNumbers (.signed :: fmt) t := by
    intro fmt t
    rw [scanNumbers, scanNumbers, scanSigned_dropWhile]
  rw [Stamp.hourHead, List.append_assoc, datetimeNumbers_dateHead, cString_append hzero,
    List.append_assoc, List.singleton_append]
  show _ ++ scanNumbers (.signed :: .space :: _) _ = _
  rw [scanNumbers_digits_space (digits_decimal2 _).1 (decimal2_ne_nil _), hskip,
    (digits_decimal2 _).2]
  rfl

theorem datetimeNumbers_minHead (s : Stamp) (u : List UInt8) :
    datetimeNumbers (s.minHead ++ u) =
      s.numbers.take 4 ++ scanNumbers (parseDatetimeFormat.drop 8) (cString u) := by
  rw [Stamp.minHead, List.append_assoc, datetimeNumbers_hourHead]
  show _ ++ scanNumbers (.signed :: .char 0x3A :: _) _ = _
  rw [scanNumbers_block _ rfl (by decide)]
  rfl

/-- **Only the seconds are left.** -/
theorem datetimeNumbers_secHead (s : Stamp) (u : List UInt8) :
    datetimeNumbers (s.secHead ++ u) = s.numbers.take 5 ++ scanNumbers [.signed] (cString u) := by
  rw [Stamp.secHead, List.append_assoc, datetimeNumbers_minHead]
  show _ ++ scanNumbers (.signed :: .char 0x3A :: _) _ = _
  rw [scanNumbers_block _ rfl (by decide)]
  rfl

/-- **A printed timestamp is read as its six numbers.** -/
theorem datetimeNumbers_timeUtilsFormat (s : Stamp) :
    datetimeNumbers (timeUtilsFormat s) = s.numbers := by
  have hscan : scanSigned (decimal2 s.sec.toNat) = some ((s.sec.toNat : ℤ), []) := by
    have h := scanSigned_digits (digits_decimal2 s.sec.toNat).1 (decimal2_ne_nil _) noDigit_nil
    rwa [List.append_nil, (digits_decimal2 s.sec.toNat).2] at h
  have hzero := cString_append (ne_zero_of_digits (digits_decimal2 s.sec.toNat).1) []
  rw [List.append_nil, show cString [] = [] from rfl, List.append_nil] at hzero
  rw [timeUtilsFormat_eq_secHead, datetimeNumbers_secHead, hzero, scanNumbers, hscan]
  rfl

end SubmarineMonitor
