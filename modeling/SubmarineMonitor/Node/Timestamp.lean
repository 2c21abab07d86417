import SubmarineMonitor.Foundation.Positional
import SubmarineMonitor.Foundation.Text

/-!
# Timestamps

The clock reading that starts every stored line, and the way a range query gets it back: `log.c` and
`event.c` print it with the same format, scan it with the same format and pack it with the same
`timestamp_key`, so it is modelled once.

## Text and number

`format_timestamp` writes into a buffer of 24 bytes, `parse_line_timestamp` scans with a format of
fixed widths, and `timestamp_key` packs six fields into one number of twelve digits. Both directions
are embedded with the formats as data, so that the round trip is a statement about these formats and
not about a function written for it. A field of three digits would be printed in full and scanned in
part: that is why `Stamp.TwoDigit` appears, and every reading of an existing date satisfies it.

## Order

Timestamps are compared as lists of six numbers, the most significant first. Keys are compared as
numbers, texts, in the central computer's database, as strings of bytes. All three orders agree on
two-digit fields, and each agreement is proved where it is used (`timestampKey_le_iff` here).

## What is left out

The hundreds of a year: the code writes `20` in front, and reads it back as literal text.
-/

open Text

namespace SubmarineMonitor

/-! ### The clock -/

/-- What `HAL_RTC_GetTime` and `HAL_RTC_GetDate` return in binary format. The year counts from
2000, the weekday from Monday, which is 1. -/
@[ext]
structure RtcReading where
  year : UInt8
  month : UInt8
  date : UInt8
  weekDay : UInt8
  hours : UInt8
  minutes : UInt8
  seconds : UInt8
  deriving DecidableEq

/-- The six fields of a timestamp, the most significant first. -/
@[ext]
structure Stamp where
  year : UInt8
  month : UInt8
  date : UInt8
  hour : UInt8
  min : UInt8
  sec : UInt8
  deriving DecidableEq

def RtcReading.stamp (r : RtcReading) : Stamp :=
  ⟨r.year, r.month, r.date, r.hours, r.minutes, r.seconds⟩

/-- The fields as numbers. Timestamps are ordered as these lists are, lexicographically. -/
def Stamp.fields (s : Stamp) : List ℕ :=
  [s.year.toNat, s.month.toNat, s.date.toNat, s.hour.toNat, s.min.toNat, s.sec.toNat]

/-- Every field has at most two digits. -/
def Stamp.TwoDigit (s : Stamp) : Prop :=
  ∀ d ∈ s.fields, d < 100

instance (s : Stamp) : Decidable s.TwoDigit :=
  List.decidableBAll (fun d ↦ d < 100) s.fields

/-- The format `"20%02u-%02u-%02u %02u:%02u:%02u"`. -/
def Stamp.text (s : Stamp) : List UInt8 :=
  ascii "20" ++ decimal2 s.year.toNat ++ ascii "-" ++ decimal2 s.month.toNat ++ ascii "-" ++
    decimal2 s.date.toNat ++ ascii " " ++ decimal2 s.hour.toNat ++ ascii ":" ++
    decimal2 s.min.toNat ++ ascii ":" ++ decimal2 s.sec.toNat

/-- `format_timestamp`, into a buffer of 24 bytes. -/
def formatTimestamp (r : RtcReading) : List UInt8 :=
  snprintf 24 r.stamp.text

/-- `timestamp_key`. -/
def timestampKey (s : Stamp) : UInt64 :=
  ((((s.year.toUInt64 * 100 + s.month.toUInt64) * 100 + s.date.toUInt64) * 100 +
    s.hour.toUInt64) * 100 + s.min.toUInt64) * 100 + s.sec.toUInt64

/-- The format `"[20%2u-%2u-%2u %2u:%2u:%2u]"`. -/
def timestampFormat : List Directive :=
  [.char 0x5B, .char 0x32, .char 0x30, .unsigned2, .char 0x2D, .unsigned2, .char 0x2D, .unsigned2,
    .space, .unsigned2, .char 0x3A, .unsigned2, .char 0x3A, .unsigned2, .char 0x5D]

/-- `parse_line_timestamp`: the key of the line, if all six fields were found. -/
def parseLineTimestamp (line : List UInt8) : Option UInt64 :=
  match sscanf timestampFormat line with
  | [year, month, date, hour, min, sec] =>
    some (timestampKey ⟨year.toUInt8, month.toUInt8, date.toUInt8, hour.toUInt8, min.toUInt8,
      sec.toUInt8⟩)
  | _ => none

theorem printable_formatTimestamp (r : RtcReading) : Printable (formatTimestamp r) := by
  refine Printable.take ?_ _
  rw [Stamp.text]
  repeat' apply Printable.append
  all_goals first
    | exact printable_decimal2 _
    | decide

/-! ### Keys are ordered as timestamps are -/

/-- The key is the six fields read in base one hundred: nothing overflows. -/
theorem toNat_timestampKey (s : Stamp) :
    (timestampKey s).toNat = Positional.value 100 s.fields := by
  have hyear := s.year.toNat_lt
  have hmonth := s.month.toNat_lt
  have hdate := s.date.toNat_lt
  have hhour := s.hour.toNat_lt
  have hmin := s.min.toNat_lt
  have hsec := s.sec.toNat_lt
  simp only [timestampKey, UInt64.toNat_add, UInt64.toNat_mul, UInt8.toNat_toUInt64,
    UInt64.reduceToNat, Positional.value, Stamp.fields, List.foldl_cons, List.foldl_nil]
  omega

/-- **Packing keeps the order**: keys compare as the fields do. -/
theorem timestampKey_le_iff {s t : Stamp} (hs : s.TwoDigit) (ht : t.TwoDigit) :
    timestampKey s ≤ timestampKey t ↔ s.fields ≤ t.fields := by
  rw [UInt64.le_iff_toNat_le, toNat_timestampKey, toNat_timestampKey]
  exact Positional.value_le_value_iff rfl hs ht

/-! ### Printed timestamps are parsed back -/

/-- **A printed timestamp is parsed back**, whatever follows it on the line. -/
theorem parseLineTimestamp_text {s : Stamp} (hs : s.TwoDigit) (rest : List UInt8) :
    parseLineTimestamp (ascii "[" ++ s.text ++ ascii "]" ++ rest) = some (timestampKey s) := by
  simp only [Stamp.TwoDigit, Stamp.fields, List.mem_cons, List.not_mem_nil, or_false,
    forall_eq_or_imp, forall_eq] at hs
  obtain ⟨hyear, hmonth, hdate, hhour, hmin, hsec⟩ := hs
  have hdigit : ∀ (n : ℕ) (tail : List UInt8), n < 100 →
      (decimal2 n ++ tail).dropWhile isSpace = decimal2 n ++ tail := by
    intro n tail hn
    rw [decimal2_of_lt hn, List.cons_append, List.dropWhile_cons_of_neg]
    simp [isSpace_of_isDigit (isDigit_add (by omega : n / 10 < 10))]
  have hback : ∀ b : UInt8, b.toNat.toUInt32.toUInt8 = b := by
    intro b
    apply UInt8.toNat_inj.1
    have hb := b.toNat_lt
    simp
  have hscan : sscanf timestampFormat (ascii "[" ++ s.text ++ ascii "]" ++ rest) =
      [s.year.toNat.toUInt32, s.month.toNat.toUInt32, s.date.toNat.toUInt32,
        s.hour.toNat.toUInt32, s.min.toNat.toUInt32, s.sec.toNat.toUInt32] := by
    simp [timestampFormat, Stamp.text, ascii, sscanf, scanUnsigned2_decimal2, hyear, hmonth, hdate,
      hhour, hmin, hsec, hdigit, isSpace]
  rw [parseLineTimestamp, hscan]
  simp only [hback]

end SubmarineMonitor
