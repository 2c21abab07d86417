import SubmarineMonitor.Central.DataCollection
import SubmarineMonitor.Central.ManagementCommand
import SubmarineMonitor.Foundation.Machine
import SubmarineMonitor.Node.Clock

/-!
# Keeping the time

The central computer has the time; the node asks for it at every start and sets both of its clocks
to the answer. Until the answer comes it goes by the DS1307, which has counted on through the reset.

`TimeSystem` is both sides with what is on its way between them, in any order and with losses.
`clock_lag` says where the reading of the node's internal RTC comes from: if it goes back to a reply
of the central computer, at first hand or by way of the DS1307, it is the second at which that reply
was sent and what the node's clocks have counted since.

## Three clocks

The clocks count by themselves. The node's RTC runs on the LSI, nominally 32000 Hz, behind
prescalers of 128 and 256, so that one of its seconds lasts 1.024 (the drift that `PERIPHERALS.md`
calls known); the DS1307 has a crystal of its own, and the central computer that of its board.
A second of each is therefore a step of its own, in any order, and no rate is assumed: the node's
time is off by the time the reply was on its way, and by as much as the three counts differ. What is
assumed of the hardware (`ClockHardware`) is only that a clock which counts a second shows the next
one.

## What is left out

A reading is one step, while the code fetches the registers of the DS1307 in one transfer and the
RTC's time and date in two calls (the first of which freezes the shadow registers for the second).
The years end with 2099, which is as far as two digits go: beyond, `clock_lag` says nothing. Where
the central computer has its time from is not asked; `cc` is what `localtime_r` tells, and it only
goes forward.
-/

open Machine Calendar Text

namespace SubmarineMonitor

/-! ### The central computer -/

/-- The fields of `struct tm` that `localtime_r` sets and that are used: the year counts from 1900,
the month from 0 and the weekday from Sunday, which is 0. -/
structure Tm where
  year : ℕ
  mon : ℕ
  mday : ℕ
  hour : ℕ
  min : ℕ
  sec : ℕ
  wday : ℕ
  deriving DecidableEq

/-- `localtime_r`. -/
def localtime (t : CenturyTime) : Tm where
  year := t.date.year + 100
  mon := t.date.month - 1
  mday := t.date.day
  hour := t.hour
  min := t.min
  sec := t.sec
  wday := t.date.weekday % 7

/-- `TimeUtils::now_fields`. -/
def nowFields (tm : Tm) : TimePayload where
  year := (tm.year + 1900 - 2000).toUInt8
  month := (tm.mon + 1).toUInt8
  date := tm.mday.toUInt8
  hour := tm.hour.toUInt8
  min := tm.min.toUInt8
  sec := tm.sec.toUInt8
  dow := if tm.wday = 0 then 7 else tm.wday.toUInt8

def TimePayload.stamp (p : TimePayload) : Stamp :=
  ⟨p.year, p.month, p.date, p.hour, p.min, p.sec⟩

/-- `ManagementCommand::on_frame`, the two cases about the time: what it sends and what it logs. The
line about a request tells the time once more, which may be `later`. -/
def managementOnTimeFrame (now later : Tm) (f : TlvFrame) : List TlvFrame × List (List UInt8) :=
  if f.tag = tlvTagTimeReply then
    match timePayload f with
    | some p => ([], [ascii "LNC reports time " ++ timeUtilsFormat p.stamp])
    | none => ([], [])
  else if f.tag = tlvTagTimeSyncRequest then
    ([linkFrame tlvTagTimeSyncReply (nowFields now).bytes],
      [ascii "LNC requested time sync at boot -- replied with " ++
        timeUtilsFormat (nowFields later).stamp])
  else ([], [])

/-! ### The system -/

/-- The second after, as long as two digits can tell its year. -/
def CenturyTime.next? (t : CenturyTime) : Option CenturyTime :=
  if h : t.toDateTime.next.date.year < 100 then some ⟨t.toDateTime.next, h⟩ else none

/-- How the two clocks of the node count: one second on from whatever second they show. How long it
takes them is not said. -/
structure ClockHardware where
  tickRtc : InternalRtc → InternalRtc
  tickChip : Ds1307 → Ds1307
  tickRtc_showing : ∀ {t t' : CenturyTime}, t.next? = some t' →
    tickRtc (.showing t) = .showing t'
  tickChip_shows : ∀ {chip : Ds1307} {t t' : CenturyTime}, t.next? = some t' → chip.Shows t →
    (tickChip chip).Shows t'

/-- Where the time of a clock comes from. -/
structure TimeOrigin where
  /-- The second at which the reply was sent. -/
  sent : CenturyTime
  /-- What the DS1307 has counted since it was set, up to the restart if the RTC was set from it. -/
  chipSeconds : ℕ
  /-- What the internal RTC has counted since it was set. -/
  rtcSeconds : ℕ

/-- The clocks of both sides, and what is on its way. -/
structure TimeSystem where
  cc : CenturyTime
  rtc : InternalRtc
  chip : Ds1307
  /-- The requests on their way. -/
  requests : ℕ
  /-- The replies on their way, each with the second at which it was sent. -/
  replies : List (TlvFrame × CenturyTime)
  /-- The reply that the internal RTC goes back to, if it does to one. -/
  rtcOrigin : Option TimeOrigin
  /-- The same of the DS1307. -/
  chipOrigin : Option TimeOrigin

inductive TimeAction
  /-- The central computer's clock counts a second. -/
  | second
  /-- The node's internal RTC does. -/
  | rtcSecond
  /-- The DS1307 does. -/
  | chipSecond
  /-- A start of the node, with what the reading of the DS1307 comes to. -/
  | boot (i2c : Bool)
  /-- A request arrives. The time is logged at `later`. -/
  | answer (later : CenturyTime)
  /-- A reply arrives. Of the transfer to the DS1307 `acked` bytes are taken. -/
  | deliver (i acked : ℕ)
  | loseRequest
  | loseReply (i : ℕ)

/-- Before the first start of the node. -/
def timeStart (cc : CenturyTime) (rtc : InternalRtc) (chip : Ds1307) : TimeSystem :=
  ⟨cc, rtc, chip, 0, [], none, none⟩

/-- A request for the time. -/
def timeSyncRequestFrame : TlvFrame :=
  linkFrame tlvTagTimeSyncRequest []

def timeStep (hw : ClockHardware) (s : TimeSystem) : TimeAction → Option TimeSystem
  | .second => s.cc.next?.map fun cc ↦ { s with cc := cc }
  | .rtcSecond => some
      { s with
        rtc := hw.tickRtc s.rtc
        rtcOrigin := s.rtcOrigin.map fun o ↦ { o with rtcSeconds := o.rtcSeconds + 1 } }
  | .chipSecond => some
      { s with
        chip := hw.tickChip s.chip
        chipOrigin := s.chipOrigin.map fun o ↦ { o with chipSeconds := o.chipSeconds + 1 } }
  | .boot i2c => some
      { s with
        rtc := syncInternalRtcFromDs1307 mxRtcInit s.chip i2c
        requests := s.requests + 1
        rtcOrigin := if i2c then s.chipOrigin else none }
  | .answer later =>
    if 0 < s.requests then
      let sent :=
        (managementOnTimeFrame (localtime s.cc) (localtime later) timeSyncRequestFrame).1
      some { s with
        requests := s.requests - 1
        replies := s.replies ++ sent.map fun f ↦ (f, s.cc) }
    else none
  | .deliver i acked => s.replies[i]?.map fun r ↦
      let clocks := (initOnFrame s.rtc s.chip acked r.1).1
      { s with
        rtc := clocks.1
        chip := clocks.2
        replies := s.replies.eraseIdx i
        rtcOrigin := some ⟨r.2, 0, 0⟩
        -- the first byte is an address; the seven after it are the clock
        chipOrigin :=
          if acked ≤ 1 then s.chipOrigin else if 8 ≤ acked then some ⟨r.2, 0, 0⟩ else none }
  | .loseRequest => if 0 < s.requests then some { s with requests := s.requests - 1 } else none
  | .loseReply i =>
    if i < s.replies.length then some { s with replies := s.replies.eraseIdx i } else none

/-! ### Frames about the time -/

theorem weekday_pos (d : Date) : 1 ≤ d.weekday := by
  rw [Date.weekday]
  omega

/-- The fields sent are those that the node's clocks are to show. -/
theorem nowFields_localtime (t : CenturyTime) : nowFields (localtime t) = t.reading.payload := by
  have hyear : t.date.year + 100 + 1900 - 2000 = t.date.year := by omega
  have hmonth : t.date.month - 1 + 1 = t.date.month := Nat.sub_add_cancel t.date.month_pos
  have hweek : (if t.date.weekday % 7 = 0 then 7 else (t.date.weekday % 7).toUInt8) =
      t.date.weekday.toUInt8 := by
    have key : ∀ n : ℕ, n < 8 → 1 ≤ n → (if n % 7 = 0 then 7 else (n % 7).toUInt8) = n.toUInt8 := by
      decide
    exact key _ (weekday_lt _) (weekday_pos _)
  exact TimePayload.ext (congrArg Nat.toUInt8 hyear) (congrArg Nat.toUInt8 hmonth) rfl rfl rfl rfl
    hweek

/-- A payload arrives as it was sent. -/
theorem timePayload_linkFrame (tag : UInt8) (p : TimePayload) :
    timePayload (linkFrame tag p.bytes) = some p :=
  rfl

/-- The reply sent at a second. -/
def replyAt (t : CenturyTime) : TlvFrame :=
  linkFrame tlvTagTimeSyncReply t.reading.payload.bytes

theorem managementOnTimeFrame_request (t later : CenturyTime) :
    (managementOnTimeFrame (localtime t) (localtime later) timeSyncRequestFrame).1 =
      [replyAt t] := by
  have hreply : timeSyncRequestFrame.tag ≠ tlvTagTimeReply := by decide
  have hrequest : timeSyncRequestFrame.tag = tlvTagTimeSyncRequest := rfl
  rw [managementOnTimeFrame, if_neg hreply, if_pos hrequest, nowFields_localtime, replyAt]

theorem initOnFrame_replyAt (rtc : InternalRtc) (chip : Ds1307) (acked : ℕ) (t : CenturyTime) :
    (initOnFrame rtc chip acked (replyAt t)).1 =
      (.showing t, rtcSetTime chip acked t.reading.rtcTime) := by
  have hget : (replyAt t).tag ≠ tlvTagGetTime := by
    show tlvTagTimeSyncReply ≠ tlvTagGetTime
    decide
  have hreply : (replyAt t).tag = tlvTagTimeSyncReply := rfl
  rw [initOnFrame, if_neg hget, if_pos hreply, replyAt, timePayload_linkFrame]
  exact Prod.ext (halRtcSet_reading rtc t) rfl

theorem sync_shows (rtc : InternalRtc) {chip : Ds1307} {t : CenturyTime} (h : chip.Shows t) :
    syncInternalRtcFromDs1307 rtc chip true = .showing t := by
  rw [syncInternalRtcFromDs1307, rtcGetTime_shows h]
  exact halRtcSet_reading rtc t

/-! ### Every run -/

/-- A clock goes back to the reply that is recorded for it: that was sent before, and until the
century ends the clock shows the second of the reply and what was counted since. -/
def TimeOrigin.Explains (o : TimeOrigin) (cc : CenturyTime) (shows : CenturyTime → Prop) : Prop :=
  o.sent.seconds ≤ cc.seconds ∧
    ∃ t : DateTime, t.seconds = o.sent.seconds + o.chipSeconds + o.rtcSeconds ∧
      ∀ hyear : t.date.year < 100, shows ⟨t, hyear⟩

/-- Both clocks go back to their replies, and every reply on its way tells the time at which it was
sent. -/
structure TimeSystem.Explained (s : TimeSystem) : Prop where
  rtc : ∀ o ∈ s.rtcOrigin, o.Explains s.cc fun t ↦ s.rtc = .showing t
  chip : ∀ o ∈ s.chipOrigin, o.Explains s.cc s.chip.Shows
  replies : ∀ r ∈ s.replies, r.2.seconds ≤ s.cc.seconds ∧ r.1 = replyAt r.2

/-- The next second of this century comes after one of this century. -/
theorem next?_of_next {t : DateTime} (hyear : t.next.date.year < 100) :
    ∃ h : t.date.year < 100, (⟨t, h⟩ : CenturyTime).next? = some ⟨t.next, hyear⟩ := by
  have h : t.date.year < 100 := year_lt_of_seconds_le hyear (by rw [seconds_next]; omega)
  exact ⟨h, dif_pos hyear⟩

variable {hw : ClockHardware} {s s' : TimeSystem} {o : TimeOrigin} {cc cc' : CenturyTime}
  {shows shows' : CenturyTime → Prop}

/-- The central computer's clock only goes on. -/
theorem seconds_of_next? (h : cc.next? = some cc') : cc'.seconds = cc.seconds + 1 := by
  rw [CenturyTime.next?] at h
  split at h
  · obtain rfl := Option.some.inj h
    exact seconds_next cc.toDateTime
  · cases h

theorem TimeOrigin.Explains.later (h : o.Explains cc shows) (hcc : cc.next? = some cc') :
    o.Explains cc' shows := by
  obtain ⟨hsent, htime⟩ := h
  refine ⟨?_, htime⟩
  rw [seconds_of_next? hcc]
  omega

/-- A reply that arrives explains what the clock is set to. -/
theorem TimeOrigin.Explains.ofReply {sent : CenturyTime} (hsent : sent.seconds ≤ cc.seconds)
    (h : shows sent) : (⟨sent, 0, 0⟩ : TimeOrigin).Explains cc shows :=
  ⟨hsent, sent.toDateTime, rfl, fun _ ↦ h⟩

/-- One count more, and the next second. -/
theorem TimeOrigin.Explains.count {o' : TimeOrigin} (h : o.Explains cc shows)
    (hsent : o'.sent = o.sent)
    (hcount : o'.chipSeconds + o'.rtcSeconds = o.chipSeconds + o.rtcSeconds + 1)
    (hnext : ∀ {t t' : CenturyTime}, t.next? = some t' → shows t → shows' t') :
    o'.Explains cc shows' := by
  obtain ⟨hpast, t, ht, hshows⟩ := h
  refine ⟨hsent ▸ hpast, t.next, ?_, fun hyear ↦ ?_⟩
  · rw [seconds_next, hsent]
    omega
  · obtain ⟨h, hnext?⟩ := next?_of_next hyear
    exact hnext hnext? (hshows h)

/-- **The central computer's clock counts.** -/
theorem Explained.second (h : s.Explained) (ha : timeStep hw s .second = some s') :
    s'.Explained := by
  obtain ⟨cc, hcc, rfl⟩ := Option.map_eq_some_iff.1 ha
  refine ⟨fun o ho ↦ (h.rtc o ho).later hcc, fun o ho ↦ (h.chip o ho).later hcc, fun r hr ↦ ?_⟩
  obtain ⟨hpast, hreply⟩ := h.replies r hr
  refine ⟨?_, hreply⟩
  show r.2.seconds ≤ cc.seconds
  rw [seconds_of_next? hcc]
  omega

/-- **The internal RTC counts.** -/
theorem Explained.rtcSecond (h : s.Explained) (ha : timeStep hw s .rtcSecond = some s') :
    s'.Explained := by
  obtain rfl := Option.some.inj ha
  refine ⟨fun o ho ↦ ?_, h.chip, h.replies⟩
  obtain ⟨o, hold, rfl⟩ := Option.map_eq_some_iff.1 (Option.mem_def.1 ho)
  refine (h.rtc o hold).count rfl rfl fun hnext hshows ↦ ?_
  show hw.tickRtc s.rtc = _
  rw [hshows, hw.tickRtc_showing hnext]

/-- **The DS1307 counts.** -/
theorem Explained.chipSecond (h : s.Explained) (ha : timeStep hw s .chipSecond = some s') :
    s'.Explained := by
  obtain rfl := Option.some.inj ha
  refine ⟨h.rtc, fun o ho ↦ ?_, h.replies⟩
  obtain ⟨o, hold, rfl⟩ := Option.map_eq_some_iff.1 (Option.mem_def.1 ho)
  exact (h.chip o hold).count rfl (Nat.add_right_comm ..) hw.tickChip_shows

/-- **A start of the node.** -/
theorem Explained.boot (h : s.Explained) {i2c : Bool}
    (ha : timeStep hw s (.boot i2c) = some s') : s'.Explained := by
  obtain rfl := Option.some.inj ha
  refine ⟨fun o ho ↦ ?_, h.chip, h.replies⟩
  rcases i2c with _ | _
  · cases ho
  · obtain ⟨hpast, t, ht, hshows⟩ := h.chip o ho
    exact ⟨hpast, t, ht, fun hyear ↦ sync_shows _ (hshows hyear)⟩

/-- **An answer of the central computer.** -/
theorem Explained.answer (h : s.Explained) {later : CenturyTime}
    (ha : timeStep hw s (.answer later) = some s') : s'.Explained := by
  rw [timeStep] at ha
  split at ha
  · obtain rfl := Option.some.inj ha
    refine ⟨h.rtc, h.chip, fun r hr ↦ ?_⟩
    rcases List.mem_append.1 hr with hold | hnew
    · exact h.replies r hold
    · rw [managementOnTimeFrame_request, List.map_singleton, List.mem_singleton] at hnew
      rw [hnew]
      exact ⟨Nat.le_refl _, rfl⟩
  · cases ha

/-- **A reply arrives.** -/
theorem Explained.deliver (h : s.Explained) {i acked : ℕ}
    (ha : timeStep hw s (.deliver i acked) = some s') : s'.Explained := by
  obtain ⟨r, hr, rfl⟩ := Option.map_eq_some_iff.1 ha
  obtain ⟨hpast, hreply⟩ := h.replies r (List.mem_of_getElem? hr)
  refine ⟨fun o ho ↦ ?_, fun o ho ↦ ?_, fun q hq ↦ h.replies q (List.mem_of_mem_eraseIdx hq)⟩
  · obtain rfl := Option.some.inj ho
    exact .ofReply hpast (by rw [hreply, initOnFrame_replyAt])
  · show o.Explains s.cc (initOnFrame s.rtc s.chip acked r.1).1.2.Shows
    rw [hreply, initOnFrame_replyAt]
    simp only [Option.mem_def] at ho
    split_ifs at ho with hnone hall
    · -- no register is reached
      obtain ⟨hold, t, ht, hshows⟩ := h.chip o ho
      refine ⟨hold, t, ht, fun hyear ↦ ?_⟩
      rw [Ds1307.Shows, rtcSetTime_of_le_one _ hnone]
      exact hshows hyear
    · obtain rfl := Option.some.inj ho
      exact .ofReply hpast (shows_rtcSetTime _ hall r.2)

/-- **Every step keeps it.** -/
theorem Explained.step (h : s.Explained) {a : TimeAction} (ha : timeStep hw s a = some s') :
    s'.Explained := by
  rcases a with _ | _ | _ | i2c | later | ⟨i, acked⟩ | _ | i
  · exact Explained.second h ha
  · exact Explained.rtcSecond h ha
  · exact Explained.chipSecond h ha
  · exact Explained.boot h ha
  · exact Explained.answer h ha
  · exact Explained.deliver h ha
  · rw [timeStep] at ha
    split at ha
    · obtain rfl := Option.some.inj ha
      exact ⟨h.rtc, h.chip, h.replies⟩
    · cases ha
  · rw [timeStep] at ha
    split at ha
    · obtain rfl := Option.some.inj ha
      exact ⟨h.rtc, h.chip, fun q hq ↦ h.replies q (List.mem_of_mem_eraseIdx hq)⟩
    · cases ha

theorem toNat_toUInt8 {n : ℕ} (h : n < 256) : n.toUInt8.toNat = n := by
  rw [Nat.toUInt8_eq, UInt8.toNat_ofNat', Nat.mod_eq_of_lt h]

/-- No field of a reading is cut to its byte. -/
theorem CenturyTime.toNat_reading (t : CenturyTime) :
    t.reading.year.toNat = t.date.year ∧ t.reading.month.toNat = t.date.month ∧
      t.reading.date.toNat = t.date.day ∧ t.reading.weekDay.toNat = t.date.weekday ∧
      t.reading.hours.toNat = t.hour ∧ t.reading.minutes.toNat = t.min ∧
      t.reading.seconds.toNat = t.sec := by
  have hmonth := t.date.month_le
  have hday := day_lt t.date
  have hweek := weekday_lt t.date
  have hhour := t.hour_lt
  have hmin := t.min_lt
  have hsec := t.sec_lt
  have hyear := t.year_lt
  refine ⟨?_, ?_, ?_, ?_, ?_, ?_, ?_⟩ <;> exact toNat_toUInt8 (by omega)

/-- A second as the logs take it: the date exists and the weekday is that of the date. -/
def CenturyTime.clockReading (t : CenturyTime) : ClockReading where
  rtc := t.reading
  date := t.date
  year_eq := t.toNat_reading.1
  month_eq := t.toNat_reading.2.1
  date_eq := t.toNat_reading.2.2.1
  weekDay_eq := t.toNat_reading.2.2.2.1

/-- **What the node's clock shows.** In every run, however fast or slow the three clocks count,
whatever is lost and wherever a transfer on the I2C bus stops, an internal RTC that goes back to a
reply shows the second at which the central computer sent it, and on from there what the DS1307
counted until the restart and the RTC since. As long as this second is one of the century it is a
date that exists, with its weekday, and it is what the node says and the central computer writes
down when it is asked for the time. -/
theorem clock_lag (hw : ClockHardware) (cc : CenturyTime) (rtc : InternalRtc) (chip : Ds1307)
    {s : TimeSystem} (h : Reaches (timeStep hw) (fun _ _ ↦ True) (timeStart cc rtc chip) s)
    {o : TimeOrigin} (ho : s.rtcOrigin = some o) :
    o.sent.seconds ≤ s.cc.seconds ∧
      ∃ t : DateTime, t.seconds = o.sent.seconds + o.chipSeconds + o.rtcSeconds ∧
        ∀ hyear : t.date.year < 100,
          halRtcGet s.rtc = (CenturyTime.mk t hyear).clockReading.rtc ∧
            ∀ now later : Tm,
              managementOnTimeFrame now later
                  (linkFrame tlvTagTimeReply (replyWithCurrentTime s.rtc).bytes) =
                ([], [ascii "LNC reports time " ++
                  timeUtilsFormat (CenturyTime.mk t hyear).reading.stamp]) := by
  have hexplained : s.Explained := by
    refine h.invariant ⟨fun o ho ↦ ?_, fun o ho ↦ ?_, fun r hr ↦ ?_⟩
      fun hs _ ha ↦ Explained.step hs ha
    · cases ho
    · cases ho
    · cases hr
  obtain ⟨hpast, t, ht, hshows⟩ := hexplained.rtc o ho
  refine ⟨hpast, t, ht, fun hyear ↦ ?_⟩
  have hread : halRtcGet s.rtc = (CenturyTime.mk t hyear).reading := by
    rw [hshows hyear, halRtcGet_showing]
  refine ⟨hread, fun now later ↦ ?_⟩
  have hreply : (linkFrame tlvTagTimeReply (replyWithCurrentTime s.rtc).bytes).tag =
      tlvTagTimeReply := rfl
  rw [managementOnTimeFrame, if_pos hreply, timePayload_linkFrame]
  simp only [replyWithCurrentTime, hread, TimePayload.stamp, RtcReading.stamp]

/-! ### Clocks that count -/

/-- The second of a reading, if it is one. -/
def CenturyTime.ofReading? (r : RtcReading) : Option CenturyTime :=
  if h : (1 ≤ r.month.toNat ∧ r.month.toNat ≤ 12) ∧
      (1 ≤ r.date.toNat ∧ r.date.toNat ≤ daysInMonth r.year.toNat r.month.toNat) ∧
      (r.hours.toNat < 24 ∧ r.minutes.toNat < 60 ∧ r.seconds.toNat < 60) ∧
      r.year.toNat < 100 then
    some ⟨⟨⟨r.year.toNat, r.month.toNat, r.date.toNat, h.1.1, h.1.2, h.2.1.1, h.2.1.2⟩,
      r.hours.toNat, r.minutes.toNat, r.seconds.toNat, h.2.2.1.1, h.2.2.1.2.1, h.2.2.1.2.2⟩,
      h.2.2.2⟩
  else none

/-- The reading a second later. A weekday is counted on at midnight, whatever it is. -/
def RtcReading.next (r : RtcReading) : RtcReading :=
  match CenturyTime.ofReading? r with
  | none => r
  | some t =>
    match t.next? with
    | none => r
    | some t' =>
      { t'.reading with
        weekDay := if t'.date = t.date then r.weekDay else r.weekDay % 7 + 1 }

theorem ofReading?_reading (t : CenturyTime) : CenturyTime.ofReading? t.reading = some t := by
  have hmonth := t.date.month_le
  simp only [CenturyTime.ofReading?, t.toNat_reading, t.date.month_pos, hmonth, t.date.day_pos,
    t.date.day_le, t.hour_lt, t.min_lt, t.sec_lt, t.year_lt, and_self, dite_true]

/-- Midnight is the only second that changes the date. -/
theorem date_next (t : DateTime) : t.next.date = t.date ∨ t.next.date = t.date.next := by
  rw [DateTime.next]
  split_ifs
  · exact .inl rfl
  · exact .inl rfl
  · exact .inl rfl
  · exact .inr rfl

theorem next_reading {t t' : CenturyTime} (h : t.next? = some t') :
    t.reading.next = t'.reading := by
  have hdate : t'.date = t.date ∨ t'.date = t.date.next := by
    rw [CenturyTime.next?] at h
    split at h
    · obtain rfl := Option.some.inj h
      exact date_next t.toDateTime
    · cases h
  have hweek : (if t'.date = t.date then t.reading.weekDay else t.reading.weekDay % 7 + 1) =
      t'.reading.weekDay := by
    rcases hdate with hsame | hnext
    · rw [if_pos hsame]
      simp only [CenturyTime.reading, hsame]
    · have hne : t'.date ≠ t.date := by
        intro heq
        have hnumber := dayNumber_next t.date
        rw [← hnext, heq] at hnumber
        omega
      have key : ∀ n : ℕ, n < 8 → n.toUInt8 % 7 + 1 = (n % 7 + 1).toUInt8 := by decide
      rw [if_neg hne]
      simp only [CenturyTime.reading, hnext, weekday_next]
      exact key _ (weekday_lt _)
  rw [RtcReading.next, ofReading?_reading]
  simp only [h]
  rw [hweek]

/-- Clocks that count as the calendar does. -/
def countingClocks : ClockHardware where
  tickRtc rtc :=
    let r := (halRtcGet rtc).next
    halRtcSetDate (halRtcSetTime rtc r.hours r.minutes r.seconds) r.weekDay r.month r.date r.year
  tickChip chip :=
    match rtcGetTime chip true with
    | none => chip
    | some ds =>
      rtcSetTime chip 8
        (RtcReading.next ⟨ds.year, ds.month, ds.date, ds.dow, ds.hour, ds.min, ds.sec⟩).rtcTime
  tickRtc_showing h := by
    rw [halRtcGet_showing, next_reading h]
    exact halRtcSet_reading _ _
  tickChip_shows h hshows := by
    rw [rtcGetTime_shows hshows]
    show (rtcSetTime _ 8 (RtcReading.next (CenturyTime.reading _)).rtcTime).Shows _
    rw [next_reading h]
    exact shows_rtcSetTime _ (Nat.le_refl 8) _

/-- Two seconds before the end of 6 September 2026, a Sunday. -/
def sundayEvening : CenturyTime :=
  ⟨⟨(sundayAt 23).date, 23, 59, 58, by decide, by decide, by decide⟩, by decide⟩

/-- A chip that was never set. -/
def coldChip : Ds1307 :=
  ⟨List.replicate 64 0, rfl⟩

/-- A reply that took a second; the DS1307 counts two, the node starts again, and its RTC counts one
where the central computer counts two: it shows the first second of Monday, and is two behind. -/
theorem clock_lag_midnight : ∃ (s : TimeSystem) (o : TimeOrigin),
    Reaches (timeStep countingClocks) (fun _ _ ↦ True)
      (timeStart sundayEvening mxRtcInit coldChip) s ∧
    o.chipSeconds = 2 ∧ o.rtcSeconds = 1 ∧ s.cc.seconds = o.sent.seconds + 5 ∧
    o.sent.seconds ≤ s.cc.seconds ∧
      ∃ t : DateTime, t.seconds = o.sent.seconds + o.chipSeconds + o.rtcSeconds ∧
        ∀ hyear : t.date.year < 100,
          halRtcGet s.rtc = (CenturyTime.mk t hyear).clockReading.rtc ∧
            ∀ now later : Tm,
              managementOnTimeFrame now later
                  (linkFrame tlvTagTimeReply (replyWithCurrentTime s.rtc).bytes) =
                ([], [ascii "LNC reports time " ++
                  timeUtilsFormat (CenturyTime.mk t hyear).reading.stamp]) := by
  have hrun : ((exec (guarded (timeStep countingClocks) fun _ _ ↦ True)
      (timeStart sundayEvening mxRtcInit coldChip)
      [.boot true, .answer sundayEvening, .second, .deliver 0 9, .second, .chipSecond, .second,
        .chipSecond, .boot true, .second, .rtcSecond, .second]).bind fun s ↦
          s.rtcOrigin.map fun o ↦
            (o.chipSeconds, o.rtcSeconds, s.cc.seconds == o.sent.seconds + 5)) =
        some (2, 1, true) := by
    decide +kernel
  obtain ⟨s, hexec, hrun⟩ := Option.bind_eq_some_iff.1 hrun
  obtain ⟨o, ho, hfound⟩ := Option.map_eq_some_iff.1 hrun
  simp only [Prod.mk.injEq, beq_iff_eq] at hfound
  obtain ⟨hchip, hrtc, hcc⟩ := hfound
  have h := reaches_of_exec hexec
  exact ⟨s, o, h, hchip, hrtc, hcc, clock_lag countingClocks _ _ _ h ho⟩

end SubmarineMonitor
