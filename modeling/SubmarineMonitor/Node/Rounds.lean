import SubmarineMonitor.Foundation.Machine
import SubmarineMonitor.Node.Classification
import SubmarineMonitor.Node.Timestamp

/-!
# The monitor's rounds and the keep-alive

Every 5 s `monitor_task` samples the sensors, classifies the measurement, hands it to the log and
publishes it; every 6 s, on a schedule of its own, `keepalive_task` sends whatever was published
last. The temperature sensor may fail to answer, and a round then repeats the last reading that
succeeded, or the initial zeros if none has.

The machine `Boot` interleaves the two tasks from one boot on. Each round remembers which readings
of the sensor had succeeded by the time it was sampled; that memory is not in the program and steers
nothing, it is what the values are measured against.

## Two schedules

The keep-alive has a period of its own, so it may be sent before the first round, twice between two
rounds, or while one is under way. The machine lets the two tasks take their steps in any order.
What is published under `latest_lock` is one step, since mode and data are copied together; between
the sampling and that step the keep-alive still sends the round before.

## The memory

Every round remembers the readings of the sensor that had succeeded by then. That is history, and it
is what *the last reading that succeeded* means in the statements. A round before the first success
has an empty memory and shows the initial zeros; about what that is classified as nothing is
promised.

## What is left out

The converters and the sensor are arguments of a round: any 32-bit value for a conversion, any
result for a reading. How `DHT_Read` comes to its result is `Node.Dht`. The periods themselves are
`Node.Schedule`, and what the log and the event module do with a round is in their own modules.
-/

open Machine

namespace SubmarineMonitor

/-! ### Sampling -/

/-- `DHT_Data`. -/
structure DhtData where
  humidityInt : UInt8
  humidityDec : UInt8
  temperatureInt : UInt8
  temperatureDec : UInt8
  deriving DecidableEq

/-- `DHT_Read`: its result, with the data if that is `DHT_OK`. -/
inductive DhtResult
  | ok (data : DhtData)
  | noResponse
  | checksumError
  deriving DecidableEq

/-- The temperature of a reading, widened. -/
def DhtData.tempC (d : DhtData) : Int16 :=
  d.temperatureInt.toUInt16.toInt16

/-- `struct Monitor`, less the handles. -/
structure Monitor where
  mode : MonitorMode
  lastTempC : Int16
  lastHumidityPct : UInt8
  lastData : MonitorMeasurement
  deriving DecidableEq

/-- `monitor_create`. -/
def monitorCreate : Monitor :=
  ⟨.unknown, 0, 0, ⟨0, 0, 0, 0⟩⟩

/-- `read_adc_pct`, on what the converter returns. -/
def readAdcPct (raw maxValue : UInt32) : UInt8 :=
  (raw * 100 / maxValue).toUInt8

/-- What the sensors say in one round: the two converters and the DHT11. -/
structure Sensors where
  battery : UInt32
  light : UInt32
  dht : DhtResult
  deriving DecidableEq

/-- `monitor_sample`. -/
def monitorSample (m : Monitor) (sensors : Sensors) : Monitor × MonitorMeasurement :=
  let batteryPct := readAdcPct sensors.battery 4095
  let lightPct := readAdcPct sensors.light 255
  let m := match sensors.dht with
    | .ok d => { m with lastTempC := d.tempC, lastHumidityPct := d.humidityInt }
    | .noResponse | .checksumError => m
  (m, ⟨m.lastTempC, m.lastHumidityPct, lightPct, batteryPct⟩)

/-- `monitor_get_latest`. -/
def monitorGetLatest (m : Monitor) : MonitorMeasurement × MonitorMode :=
  (m.lastData, m.mode)

/-- `keepalive_payload_t`, packed and little-endian. -/
def keepalivePayload (rtc : RtcReading) (data : MonitorMeasurement) (mode : MonitorMode) :
    List UInt8 :=
  [rtc.year, rtc.month, rtc.date, rtc.hours, rtc.minutes, rtc.seconds] ++ int16Bytes data.tempC ++
    [data.humidityPct, data.lightPct, data.batteryPct, mode.toByte]

/-! ### One boot -/

/-- A round: what was measured, what it was classified as, and the readings that had succeeded. -/
structure Round where
  data : MonitorMeasurement
  newMode : MonitorMode
  /-- What `DHT_Read` had returned with `DHT_OK`, oldest first. -/
  reads : List DhtData
  deriving DecidableEq

/-- Where `monitor_task` stands in its loop. -/
inductive MonitorPc
  /-- Before `monitor_sample`. -/
  | sample
  /-- Before `log_write`. -/
  | log (round : Round)
  /-- Before the critical section. -/
  | publish (round : Round)
  deriving DecidableEq

/-- Both tasks, and what they have done since the boot. -/
structure Boot where
  monitor : Monitor
  pc : MonitorPc
  /-- What `DHT_Read` has returned with `DHT_OK`, oldest first. -/
  reads : List DhtData
  /-- The rounds handed to `log_write`. -/
  logged : List Round
  /-- The round published last. -/
  latest : Option Round
  /-- The payloads handed to `comm_send`, each with the round it was taken from. -/
  sent : List (Option Round × List UInt8)
  deriving DecidableEq

/-- After `monitor_create`. -/
def Boot.start : Boot :=
  ⟨monitorCreate, .sample, [], [], none, []⟩

/-- Who moves next. -/
inductive BootAction
  /-- `monitor_sample` and `classify_mode`, with what `config_get_limits` returns. -/
  | sample (sensors : Sensors) (limits : ConfigLimits)
  /-- `log_write`. -/
  | log
  /-- The critical section at the end of the round. -/
  | publish
  /-- A turn of `keepalive_task`. -/
  | keepalive (rtc : RtcReading)

/-- A reading that succeeded is remembered. -/
def remember (reads : List DhtData) : DhtResult → List DhtData
  | .ok d => reads ++ [d]
  | .noResponse | .checksumError => reads

/-- One step of either task. -/
def Boot.step (s : Boot) : BootAction → Option Boot
  | .sample sensors limits =>
    match s.pc with
    | .sample =>
      let (monitor, data) := monitorSample s.monitor sensors
      let reads := remember s.reads sensors.dht
      some { s with
        monitor := monitor
        reads := reads
        pc := .log ⟨data, classifyMode limits data, reads⟩ }
    | _ => none
  | .log =>
    match s.pc with
    | .log round => some { s with logged := s.logged ++ [round], pc := .publish round }
    | _ => none
  | .publish =>
    match s.pc with
    | .publish round =>
      some { s with
        monitor := { s.monitor with mode := round.newMode, lastData := round.data }
        latest := some round
        pc := .sample }
    | _ => none
  | .keepalive rtc =>
    let (data, mode) := monitorGetLatest s.monitor
    some { s with sent := s.sent ++ [(s.latest, keepalivePayload rtc data mode)] }

/-! ### What a round shows -/

/-- The temperature and the humidity are those of the last reading, if there is one. -/
def ShowsLast (reads : List DhtData) (tempC : Int16) (humidityPct : UInt8) : Prop :=
  ∀ d ∈ reads.getLast?, tempC = d.tempC ∧ humidityPct = d.humidityInt

/-- A round that showed the last reading it knew, among readings of this boot. -/
structure Round.Sound (r : Round) (reads : List DhtData) : Prop where
  earlier : r.reads <+: reads
  classified : r.newMode ≠ .unknown
  shows : ShowsLast r.reads r.data.tempC r.data.humidityPct

theorem Round.Sound.mono {r : Round} {reads reads' : List DhtData} (h : r.Sound reads)
    (hle : reads <+: reads') : r.Sound reads' :=
  ⟨h.earlier.trans hle, h.classified, h.shows⟩

/-- What `monitor_get_latest` returns when this round was published last. -/
def snapshot : Option Round → MonitorMeasurement × MonitorMode
  | none => (⟨0, 0, 0, 0⟩, .unknown)
  | some round => (round.data, round.newMode)

theorem classifyMode_ne_unknown (limits : ConfigLimits) (data : MonitorMeasurement) :
    classifyMode limits data ≠ .unknown := by
  simp only [classifyMode]
  split_ifs <;> exact MonitorMode.noConfusion

theorem remember_prefix (reads : List DhtData) (r : DhtResult) : reads <+: remember reads r := by
  cases r with
  | ok d => exact List.prefix_append _ _
  | noResponse | checksumError => exact List.prefix_rfl

/-- A sample shows the last reading, its own included. -/
theorem showsLast_monitorSample {m : Monitor} {reads : List DhtData}
    (h : ShowsLast reads m.lastTempC m.lastHumidityPct) (sensors : Sensors) :
    ShowsLast (remember reads sensors.dht) (monitorSample m sensors).1.lastTempC
      (monitorSample m sensors).1.lastHumidityPct := by
  obtain ⟨battery, light, dht⟩ := sensors
  cases dht with
  | ok d =>
    intro e he
    simp only [remember, List.getLast?_append, List.getLast?_singleton, Option.some_or,
      Option.mem_some_iff] at he
    subst he
    exact ⟨rfl, rfl⟩
  | noResponse | checksumError => exact h

/-- Sampling publishes nothing. -/
theorem monitorGetLatest_monitorSample (m : Monitor) (sensors : Sensors) :
    monitorGetLatest (monitorSample m sensors).1 = monitorGetLatest m := by
  obtain ⟨battery, light, dht⟩ := sensors
  cases dht <;> rfl

/-- The four things that can happen. -/
theorem Boot.step_cases {s s' : Boot} {a : BootAction} (ha : s.step a = some s') :
    (∃ sensors limits, s.pc = .sample ∧ s' = { s with
        monitor := (monitorSample s.monitor sensors).1
        reads := remember s.reads sensors.dht
        pc := .log ⟨(monitorSample s.monitor sensors).2,
          classifyMode limits (monitorSample s.monitor sensors).2,
          remember s.reads sensors.dht⟩ }) ∨
      (∃ round, s.pc = .log round ∧
        s' = { s with logged := s.logged ++ [round], pc := .publish round }) ∨
      (∃ round, s.pc = .publish round ∧ s' = { s with
        monitor := { s.monitor with mode := round.newMode, lastData := round.data }
        latest := some round
        pc := .sample }) ∨
      ∃ rtc, s' = { s with sent := s.sent ++ [(s.latest,
        keepalivePayload rtc (monitorGetLatest s.monitor).1 (monitorGetLatest s.monitor).2)] } := by
  cases a with
  | sample sensors limits =>
    simp only [Boot.step] at ha
    split at ha
    · rename_i hpc
      exact .inl ⟨sensors, limits, hpc, (Option.some.inj ha).symm⟩
    · cases ha
  | log =>
    simp only [Boot.step] at ha
    split at ha
    · rename_i round hpc
      exact .inr (.inl ⟨round, hpc, (Option.some.inj ha).symm⟩)
    · cases ha
  | publish =>
    simp only [Boot.step] at ha
    split at ha
    · rename_i round hpc
      exact .inr (.inr (.inl ⟨round, hpc, (Option.some.inj ha).symm⟩))
    · cases ha
  | keepalive rtc => exact .inr (.inr (.inr ⟨rtc, (Option.some.inj ha).symm⟩))

/-- **What holds throughout a boot.** -/
structure Boot.Inv (s : Boot) : Prop where
  /-- The last known reading is the last one that succeeded. -/
  known : ShowsLast s.reads s.monitor.lastTempC s.monitor.lastHumidityPct
  current : ∀ r, s.pc = .log r ∨ s.pc = .publish r → r.Sound s.reads
  logged : ∀ r ∈ s.logged, r.Sound s.reads
  /-- What is published is the round published last. -/
  published : monitorGetLatest s.monitor = snapshot s.latest
  latest : ∀ r ∈ s.latest, r.Sound s.reads
  /-- Every keep-alive carries the round that was published last when it was sent. -/
  sent : ∀ k ∈ s.sent, (∀ r ∈ k.1, r.Sound s.reads) ∧
    ∃ rtc, k.2 = keepalivePayload rtc (snapshot k.1).1 (snapshot k.1).2

theorem Boot.inv_start : Boot.start.Inv where
  known := nofun
  current _ h := by rcases h with h | h <;> cases h
  logged := nofun
  published := rfl
  latest := nofun
  sent := nofun

theorem Boot.Inv.step {s s' : Boot} {a : BootAction} (h : s.Inv) (ha : s.step a = some s') :
    s'.Inv := by
  rcases Boot.step_cases ha with ⟨sensors, limits, hpc, rfl⟩ | ⟨round, hpc, rfl⟩ |
    ⟨round, hpc, rfl⟩ | ⟨rtc, rfl⟩
  · have hle := remember_prefix s.reads sensors.dht
    have hshows := showsLast_monitorSample h.known sensors
    refine ⟨hshows, ?_, fun r hr ↦ (h.logged r hr).mono hle,
      (monitorGetLatest_monitorSample _ _).trans h.published, fun r hr ↦ (h.latest r hr).mono hle,
      fun k hk ↦ ⟨fun r hr ↦ ((h.sent k hk).1 r hr).mono hle, (h.sent k hk).2⟩⟩
    rintro r (hr | hr)
    · obtain rfl := MonitorPc.log.inj hr
      exact ⟨List.prefix_rfl, classifyMode_ne_unknown _ _, hshows⟩
    · cases hr
  · have hround := h.current round (.inl hpc)
    refine ⟨h.known, ?_, ?_, h.published, h.latest, h.sent⟩
    · rintro r (hr | hr)
      · cases hr
      · obtain rfl := MonitorPc.publish.inj hr
        exact hround
    · intro r hr
      rcases List.mem_append.1 hr with hr | hr
      · exact h.logged r hr
      · obtain rfl := List.mem_singleton.1 hr
        exact hround
  · refine ⟨h.known, ?_, h.logged, rfl, ?_, h.sent⟩
    · rintro r (hr | hr) <;> cases hr
    · intro r hr
      obtain rfl := Option.some.inj hr
      exact h.current round (.inr hpc)
  · refine ⟨h.known, h.current, h.logged, h.published, h.latest, ?_⟩
    intro k hk
    rcases List.mem_append.1 hk with hk | hk
    · exact h.sent k hk
    · obtain rfl := List.mem_singleton.1 hk
      exact ⟨h.latest, rtc, by rw [← h.published]⟩

/-- **Every reachable state of a boot.** -/
theorem Boot.inv_of_reaches {s : Boot} (h : Reaches Boot.step (fun _ _ ↦ True) .start s) : s.Inv :=
  h.invariant Boot.inv_start fun hs _ ha ↦ hs.step ha

end SubmarineMonitor
