import SubmarineMonitor.Foundation.Calendar
import SubmarineMonitor.Node.LogRetention
import SubmarineMonitor.Protocol.Frame
import SubmarineMonitor.Protocol.Tags

/-!
# The two clocks of the node

The internal RTC, which every timestamp is read from, and the DS1307 on the I2C bus, which keeps its
time without power, after `RTC_ds1307_I2C.c`, the driver's `HAL_RTC_SetTime`, `HAL_RTC_SetDate`,
`HAL_RTC_GetTime` and `HAL_RTC_GetDate`, and the part of `init.c` that sets one from the other and
both from a reply of the central computer.

Both keep their fields in binary coded decimal. A byte of two digits survives the conversion and the
bits that the registers have for it, so what is read is what was set (`halRtcGet_showing`,
`rtcGetTime_showing`).

## The hardware

A clock is what can be read and written of it: the fields of `TR` and `DR` for the internal RTC,
sixty-four registers for the DS1307. The driver's functions are embedded, not assumed. In particular
`HAL_RTC_SetDate` puts its fields next to each other without cutting them, so a weekday or a month
out of range spills into the field beside it, and this is kept although no reading of an existing
date comes to it. A transfer on the I2C bus may stop behind any byte (`acked`) and leaves the
registers it has reached; the calls on the internal RTC are taken to succeed.

## What is left out

That the clocks count: how a clock goes on from one second to the next is a law of the hardware,
stated where it is used (`Central.TimeSync`). Nor are there the sub-second counters, the twelve-hour
format, which the code never selects, and the meaning of the DS1307's control register, to which it
writes zero.
-/

open Calendar

namespace SubmarineMonitor

/-! ### Binary coded decimal -/

/-- `bin2bcd`, and `RTC_ByteToBcd2` of the driver. -/
def bin2bcd (val : UInt8) : UInt8 :=
  (val / 10) <<< 4 ||| val % 10

/-- `bcd2bin`, and `RTC_Bcd2ToByte` of the driver. -/
def bcd2bin (val : UInt8) : UInt8 :=
  (val >>> 4) * 10 + (val &&& 0x0F)

/-! ### The DS1307 -/

/-- `RTC_Time_t`. -/
@[ext]
structure RtcTime where
  sec : UInt8
  min : UInt8
  hour : UInt8
  dow : UInt8
  date : UInt8
  month : UInt8
  year : UInt8
  deriving DecidableEq

/-- The chip: its registers from address 0 on, of which the first seven are the clock and the eighth
is the control register, and behind them its memory. -/
structure Ds1307 where
  regs : List UInt8
  length_eq : regs.length = 64

/-- What the seven clock registers are set to. -/
def RtcTime.registers (t : RtcTime) : List UInt8 :=
  [bin2bcd t.sec, bin2bcd t.min, bin2bcd t.hour, bin2bcd t.dow, bin2bcd t.date, bin2bcd t.month,
    bin2bcd t.year]

/-- `RTC_SetTime`, when `acked` of the nine bytes of its transfer are taken: the first of them is
the address of the register that the second one is for. -/
def rtcSetTime (chip : Ds1307) (acked : ℕ) (t : RtcTime) : Ds1307 :=
  let data := (t.registers ++ [0]).take (acked - 1)
  ⟨data ++ chip.regs.drop data.length, by
    have hlen : data.length ≤ 8 := by simp [data, RtcTime.registers]
    rw [List.length_append, List.length_drop, chip.length_eq]
    omega⟩

/-- `RTC_GetTime`, which returns a time only if both of its transfers succeed. -/
def rtcGetTime (chip : Ds1307) (i2c : Bool) : Option RtcTime :=
  if i2c then
    some {
      sec := bcd2bin (chip.regs.getD 0 0 &&& 0x7F)
      min := bcd2bin (chip.regs.getD 1 0)
      hour := bcd2bin (chip.regs.getD 2 0 &&& 0x3F)
      dow := bcd2bin (chip.regs.getD 3 0)
      date := bcd2bin (chip.regs.getD 4 0)
      month := bcd2bin (chip.regs.getD 5 0)
      year := bcd2bin (chip.regs.getD 6 0) }
  else none

/-! ### The internal RTC -/

/-- The fields of the registers `TR` and `DR`. -/
@[ext]
structure InternalRtc where
  hours : UInt8
  minutes : UInt8
  seconds : UInt8
  year : UInt8
  weekDay : UInt8
  month : UInt8
  date : UInt8
  deriving DecidableEq

/-- `HAL_RTC_SetTime`, in binary format on a 24 hour clock. -/
def halRtcSetTime (rtc : InternalRtc) (hours minutes seconds : UInt8) : InternalRtc :=
  { rtc with
    hours := bin2bcd hours &&& 0x3F
    minutes := bin2bcd minutes &&& 0x7F
    seconds := bin2bcd seconds &&& 0x7F }

/-- `HAL_RTC_SetDate`, in binary format. The driver puts the fields next to each other without
cutting them to their width: what a weekday has above three bits goes to the year, and what a month
has above five to the weekday. -/
def halRtcSetDate (rtc : InternalRtc) (weekDay month date year : UInt8) : InternalRtc :=
  let month := if month &&& 0x10 = 0x10 then (month &&& 0xEF) + 0x0A else month
  { rtc with
    year := bin2bcd year ||| weekDay >>> 3
    weekDay := (weekDay ||| bin2bcd month >>> 5) &&& 0x07
    month := bin2bcd month &&& 0x1F
    date := bin2bcd date &&& 0x3F }

/-- `HAL_RTC_GetTime` and `HAL_RTC_GetDate`, in binary format. -/
def halRtcGet (rtc : InternalRtc) : RtcReading where
  year := bcd2bin rtc.year
  month := bcd2bin rtc.month
  date := bcd2bin rtc.date
  weekDay := rtc.weekDay
  hours := bcd2bin rtc.hours
  minutes := bcd2bin rtc.minutes
  seconds := bcd2bin rtc.seconds

/-- What `MX_RTC_Init` sets it to, at every start: midnight of a Monday, 1 January 2000. -/
def mxRtcInit : InternalRtc where
  hours := 0
  minutes := 0
  seconds := 0
  year := 0
  weekDay := 1
  month := 1
  date := 1

/-! ### Setting the clocks -/

/-- `sync_internal_rtc_from_ds1307`. -/
def syncInternalRtcFromDs1307 (rtc : InternalRtc) (chip : Ds1307) (i2c : Bool) : InternalRtc :=
  match rtcGetTime chip i2c with
  | none => rtc
  | some ds =>
    halRtcSetDate (halRtcSetTime rtc ds.hour ds.min ds.sec) ds.dow ds.month ds.date ds.year

/-- `time_payload_t`. -/
@[ext]
structure TimePayload where
  year : UInt8
  month : UInt8
  date : UInt8
  hour : UInt8
  min : UInt8
  sec : UInt8
  dow : UInt8
  deriving DecidableEq

def TimePayload.bytes (p : TimePayload) : List UInt8 :=
  [p.year, p.month, p.date, p.hour, p.min, p.sec, p.dow]

/-- `f->value` as a `time_payload_t`, if it is there and `f->len` is its size. -/
def timePayload (f : TlvFrame) : Option TimePayload :=
  match f.value, f.len.toNat with
  | some (year :: month :: date :: hour :: min :: sec :: dow :: _), 7 =>
    some ⟨year, month, date, hour, min, sec, dow⟩
  | _, _ => none

/-- `apply_cc_time`, whose transfer to the DS1307 may stop anywhere. -/
def applyCcTime (rtc : InternalRtc) (chip : Ds1307) (acked : ℕ) (p : TimePayload) :
    InternalRtc × Ds1307 :=
  (halRtcSetDate (halRtcSetTime rtc p.hour p.min p.sec) p.dow p.month p.date p.year,
    rtcSetTime chip acked ⟨p.sec, p.min, p.hour, p.dow, p.date, p.month, p.year⟩)

/-- The payload that `reply_with_current_time` sends with `TLV_TAG_TIME_REPLY`. -/
def replyWithCurrentTime (rtc : InternalRtc) : TimePayload :=
  let r := halRtcGet rtc
  ⟨r.year, r.month, r.date, r.hours, r.minutes, r.seconds, r.weekDay⟩

/-- `init_on_frame`: the clocks afterwards, and the payload of the reply. -/
def initOnFrame (rtc : InternalRtc) (chip : Ds1307) (acked : ℕ) (f : TlvFrame) :
    (InternalRtc × Ds1307) × Option TimePayload :=
  if f.tag = tlvTagGetTime then ((rtc, chip), some (replyWithCurrentTime rtc))
  else if f.tag = tlvTagTimeSyncReply then
    match timePayload f with
    | some p => (applyCcTime rtc chip acked p, none)
    | none => ((rtc, chip), none)
  else ((rtc, chip), none)

/-! ### What a clock shows -/

/-- A second of the years that two digits can tell. -/
structure CenturyTime extends DateTime where
  year_lt : date.year < 100
  deriving DecidableEq

/-- What the clock reading is at a second. -/
def CenturyTime.reading (t : CenturyTime) : RtcReading where
  year := t.date.year.toUInt8
  month := t.date.month.toUInt8
  date := t.date.day.toUInt8
  weekDay := t.date.weekday.toUInt8
  hours := t.hour.toUInt8
  minutes := t.min.toUInt8
  seconds := t.sec.toUInt8

/-- A reading in the order of the wire. -/
def RtcReading.payload (r : RtcReading) : TimePayload :=
  ⟨r.year, r.month, r.date, r.hours, r.minutes, r.seconds, r.weekDay⟩

/-- A reading in the order of the DS1307. -/
def RtcReading.rtcTime (r : RtcReading) : RtcTime :=
  ⟨r.seconds, r.minutes, r.hours, r.weekDay, r.date, r.month, r.year⟩

/-- The internal RTC showing a second. -/
def InternalRtc.showing (t : CenturyTime) : InternalRtc where
  hours := bin2bcd t.reading.hours
  minutes := bin2bcd t.reading.minutes
  seconds := bin2bcd t.reading.seconds
  year := bin2bcd t.reading.year
  weekDay := t.reading.weekDay
  month := bin2bcd t.reading.month
  date := bin2bcd t.reading.date

/-- The DS1307 shows a second, whatever is in its memory. -/
def Ds1307.Shows (chip : Ds1307) (t : CenturyTime) : Prop :=
  chip.regs.take 7 = t.reading.rtcTime.registers

/-- Two digits survive. -/
theorem bcd2bin_bin2bcd : ∀ n < 100, bcd2bin (bin2bcd n.toUInt8) = n.toUInt8 := by
  decide

/-- Fields within their ranges fit the bits that the registers have for them, and the driver's
conversions leave them alone. -/
theorem bin2bcd_fits :
    (∀ n : ℕ, n < 24 → bin2bcd n.toUInt8 &&& 0x3F = bin2bcd n.toUInt8) ∧
      (∀ n : ℕ, n < 60 → bin2bcd n.toUInt8 &&& 0x7F = bin2bcd n.toUInt8) ∧
      (∀ n : ℕ, n < 32 → bin2bcd n.toUInt8 &&& 0x3F = bin2bcd n.toUInt8) ∧
      (∀ n : ℕ, n < 13 → bin2bcd n.toUInt8 &&& 0x1F = bin2bcd n.toUInt8 ∧
        bin2bcd n.toUInt8 >>> 5 = 0 ∧ n.toUInt8 &&& 0x10 ≠ 0x10) ∧
      ∀ n : ℕ, n < 8 → n.toUInt8 >>> 3 = 0 ∧ n.toUInt8 &&& 0x07 = n.toUInt8 := by
  decide

theorem day_lt (d : Date) : d.day < 32 := by
  have hle := d.day_le
  have hmonth : daysInMonth d.year d.month ≤ 31 := by
    unfold daysInMonth
    split
    · split <;> decide
    all_goals decide
  omega

theorem weekday_lt (d : Date) : d.weekday < 8 := by
  rw [Date.weekday]
  omega

/-- **The internal RTC shows what it is set to.** -/
theorem halRtcSet_reading (rtc : InternalRtc) (t : CenturyTime) :
    halRtcSetDate (halRtcSetTime rtc t.reading.hours t.reading.minutes t.reading.seconds)
      t.reading.weekDay t.reading.month t.reading.date t.reading.year = InternalRtc.showing t := by
  obtain ⟨hhour, hsixty, hday, hmonth, hweek⟩ := bin2bcd_fits
  obtain ⟨hmonth, hhigh, hten⟩ := hmonth _ (Nat.lt_succ_of_le t.date.month_le)
  obtain ⟨hweekHigh, hweek⟩ := hweek _ (weekday_lt t.date)
  simp only [halRtcSetDate, halRtcSetTime, InternalRtc.showing, CenturyTime.reading, hten, if_false,
    hhour _ t.hour_lt, hsixty _ t.min_lt, hsixty _ t.sec_lt, hday _ (day_lt t.date), hmonth,
    hhigh, hweekHigh, hweek, UInt8.or_zero]

/-- **And is read back.** -/
theorem halRtcGet_showing (t : CenturyTime) : halRtcGet (InternalRtc.showing t) = t.reading := by
  have hlt : ∀ {n k : ℕ}, n < k → k ≤ 100 → n < 100 := fun h hle ↦ Nat.lt_of_lt_of_le h hle
  simp only [halRtcGet, InternalRtc.showing, CenturyTime.reading, bcd2bin_bin2bcd _ t.year_lt,
    bcd2bin_bin2bcd _ (hlt (Nat.lt_succ_of_le t.date.month_le) (by decide)),
    bcd2bin_bin2bcd _ (hlt (day_lt t.date) (by decide)),
    bcd2bin_bin2bcd _ (hlt t.hour_lt (by decide)),
    bcd2bin_bin2bcd _ (hlt t.min_lt (by decide)),
    bcd2bin_bin2bcd _ (hlt t.sec_lt (by decide))]

/-- A transfer that stops before the first register changes none. -/
theorem rtcSetTime_of_le_one (chip : Ds1307) {acked : ℕ} (h : acked ≤ 1) (t : RtcTime) :
    (rtcSetTime chip acked t).regs = chip.regs := by
  have hzero : acked - 1 = 0 := by omega
  simp [rtcSetTime, hzero]

/-- The DS1307 shows what a complete transfer set it to. -/
theorem shows_rtcSetTime (chip : Ds1307) {acked : ℕ} (h : 8 ≤ acked) (t : CenturyTime) :
    (rtcSetTime chip acked t.reading.rtcTime).Shows t := by
  obtain ⟨k, rfl⟩ : ∃ k, acked = k + 8 := ⟨acked - 8, by omega⟩
  rw [Ds1307.Shows, rtcSetTime]
  have htake : ((t.reading.rtcTime.registers ++ [0]).take (k + 8 - 1)).take 7 =
      t.reading.rtcTime.registers := by
    rw [List.take_take, Nat.min_eq_left (by omega),
      List.take_append_of_le_length (Nat.le_refl 7)]
    exact List.take_of_length_le (Nat.le_refl 7)
  rw [List.take_append_of_le_length, htake]
  simp [RtcTime.registers]

/-- And is read back. -/
theorem rtcGetTime_shows {chip : Ds1307} {t : CenturyTime} (h : chip.Shows t) :
    rtcGetTime chip true = some t.reading.rtcTime := by
  have hget : ∀ i < 7, chip.regs.getD i 0 = t.reading.rtcTime.registers.getD i 0 := by
    intro i hi
    rw [← h]
    simp [List.getD, hi]
  obtain ⟨hhour, hsixty, -⟩ := bin2bcd_fits
  have hlt : ∀ {n k : ℕ}, n < k → k ≤ 100 → n < 100 := fun h hle ↦ Nat.lt_of_lt_of_le h hle
  simp only [rtcGetTime, if_true, hget 0 (by decide), hget 1 (by decide), hget 2 (by decide),
    hget 3 (by decide), hget 4 (by decide), hget 5 (by decide), hget 6 (by decide),
    RtcTime.registers, List.getD_cons_zero, List.getD_cons_succ, RtcReading.rtcTime,
    CenturyTime.reading, hhour _ t.hour_lt, hsixty _ t.sec_lt, bcd2bin_bin2bcd _ t.year_lt,
    bcd2bin_bin2bcd _ (hlt (Nat.lt_succ_of_le t.date.month_le) (by decide)),
    bcd2bin_bin2bcd _ (hlt (day_lt t.date) (by decide)),
    bcd2bin_bin2bcd _ (hlt (weekday_lt t.date) (by decide)),
    bcd2bin_bin2bcd _ (hlt t.hour_lt (by decide)),
    bcd2bin_bin2bcd _ (hlt t.min_lt (by decide)),
    bcd2bin_bin2bcd _ (hlt t.sec_lt (by decide))]

end SubmarineMonitor
