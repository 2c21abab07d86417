import Mathlib.Tactic.Common

/-!
# The buzzer and the breathing LED

`buzzer.c` and `sonarled.c`. Both drive a PWM channel of a timer; what is kept of a timer is what
the code writes to it and reads back, so its counter is left out. The buzzer's timer also measures
the time: its update interrupt comes once per PWM period and calls `Buzzer_DurationElapsed`.

## What is kept of the hardware

Of a timer there are four things: the two registers that the module writes, and whether its output
and its update interrupt are started. `Buzzer_DurationElapsed` reads ARR back from the hardware, and
so it is done here: what one interrupt is worth follows from the note that is loaded, also during a
gap, which leaves ARR as it is and only sets the compare value to zero. The time gone by is added up
in a `UInt32` and compared as the code compares it. How far apart the interrupts come is left open,
so what is proved about silence and sound holds however late they are.

## What is left out

`Buzzer_PlayNote` and the two melodies, which nothing calls. The NULL checks: there is one static
handle, and `Buzzer_Create` fails only for a timer that is NULL. A call is one step; that TIM3's
interrupt comes between two writes of `buzzer_arm_note` is not modelled.
-/

namespace SubmarineMonitor

/-- The part of a PWM timer that the code uses. -/
structure PwmTimer where
  /-- ARR, the period in ticks less one. -/
  autoReload : UInt32
  /-- The channel's compare value. -/
  compare : UInt32
  /-- The channel's output is started. -/
  pwm : Bool
  /-- The update interrupt is started. -/
  baseIt : Bool
  deriving DecidableEq

/-! ### The buzzer -/

/-- `Note`. -/
inductive Note
  | c1 | cs1 | d1 | ds1 | e1 | f1 | fs1 | g1 | gs1 | a1 | as1 | b1
  | c2 | cs2 | d2 | ds2 | e2 | f2 | fs2 | g2 | gs2 | a2 | as2 | b2
  deriving DecidableEq

/-- `note_table`: the period and the pulse of each note. -/
def noteTable : Note → UInt32 × UInt32
  | .c1 => (3815, 1907) | .cs1 => (3609, 1804) | .d1 => (3400, 1700) | .ds1 => (3214, 1607)
  | .e1 => (3029, 1514) | .f1 => (2864, 1432) | .fs1 => (2701, 1350) | .g1 => (2550, 1275)
  | .gs1 => (2408, 1204) | .a1 => (2271, 1135) | .as1 => (2144, 1072) | .b1 => (2023, 1011)
  | .c2 => (1911, 955) | .cs2 => (1804, 902) | .d2 => (1702, 851) | .ds2 => (1606, 803)
  | .e2 => (1516, 758) | .f2 => (1431, 715) | .fs2 => (1350, 675) | .g2 => (1274, 637)
  | .gs2 => (1202, 601) | .a2 => (1135, 567) | .as2 => (1071, 535) | .b2 => (1011, 505)

/-- `ALARM_NOTE_MS`. -/
def alarmNoteMs : UInt32 := 300

/-- `alarm_notes`, by `alarm_step`. -/
def alarmNotes (step : UInt8) : Note :=
  if step = 0 then .a1 else .e2

/-- `SONAR_PING_MS`. -/
def sonarPingMs : UInt32 := 150

/-- `SONAR_GAP_MS`. -/
def sonarGapMs : UInt32 := 850

/-- `sonar_note`. -/
def sonarNote : Note := .c2

/-- `struct Buzzer_Handle`, with its timer. -/
structure Buzzer where
  timer : PwmTimer
  /-- Accumulated since the current note or gap started. -/
  elapsedUs : UInt32
  /-- The current note's or gap's requested duration. -/
  targetUs : UInt32
  /-- The two-note siren loop is running. -/
  alarmActive : Bool
  alarmStep : UInt8
  /-- The ping and gap loop is running. -/
  sonarActive : Bool
  sonarInGap : Bool
  deriving DecidableEq

/-- `Buzzer_Create` on TIM3 as `MX_TIM3_Init` leaves it. -/
def buzzerCreate : Buzzer :=
  ⟨⟨999, 9, false, false⟩, 0, 0, false, 0, false, false⟩

/-- `buzzer_arm_note`. -/
def buzzerArmNote (h : Buzzer) (note : Note) (durationMs : UInt32) : Buzzer :=
  { h with
    elapsedUs := 0
    targetUs := durationMs * 1000
    timer := ⟨(noteTable note).1, (noteTable note).2, true, true⟩ }

/-- `buzzer_arm_gap`. -/
def buzzerArmGap (h : Buzzer) (durationMs : UInt32) : Buzzer :=
  { h with elapsedUs := 0, targetUs := durationMs * 1000, timer := { h.timer with compare := 0 } }

/-- `Buzzer_Stop`. -/
def buzzerStop (h : Buzzer) : Buzzer :=
  { h with
    alarmActive := false
    sonarActive := false
    timer := { h.timer with pwm := false, baseIt := false } }

/-- `Buzzer_StartAlarm`. -/
def buzzerStartAlarm (h : Buzzer) : Buzzer :=
  buzzerArmNote { h with alarmActive := true, sonarActive := false, alarmStep := 0 } (alarmNotes 0)
    alarmNoteMs

/-- `Buzzer_StartSonar`. -/
def buzzerStartSonar (h : Buzzer) : Buzzer :=
  buzzerArmNote { h with alarmActive := false, sonarActive := true, sonarInGap := false } sonarNote
    sonarPingMs

/-- `Buzzer_DurationElapsed`. -/
def buzzerDurationElapsed (h : Buzzer) : Buzzer :=
  let h := { h with elapsedUs := h.elapsedUs + (h.timer.autoReload + 1) }
  if h.elapsedUs < h.targetUs then h
  else if h.alarmActive then
    let h := { h with alarmStep := if h.alarmStep = 0 then 1 else 0 }
    buzzerArmNote h (alarmNotes h.alarmStep) alarmNoteMs
  else if h.sonarActive then
    if h.sonarInGap then buzzerArmNote { h with sonarInGap := false } sonarNote sonarPingMs
    else buzzerArmGap { h with sonarInGap := true } sonarGapMs
  else { h with timer := { h.timer with pwm := false, baseIt := false } }

/-- The siren loop is running and heard. -/
def Buzzer.Siren (h : Buzzer) : Prop :=
  h.alarmActive = true ∧ h.timer.pwm = true

instance (h : Buzzer) : Decidable h.Siren :=
  inferInstanceAs (Decidable (_ ∧ _))

/-! ### What each call does to the siren -/

variable {h : Buzzer}

theorem siren_buzzerStartAlarm : (buzzerStartAlarm h).Siren := ⟨rfl, rfl⟩

/-- The interrupt changes notes, not patterns. -/
@[simp]
theorem alarmActive_buzzerDurationElapsed :
    (buzzerDurationElapsed h).alarmActive = h.alarmActive := by
  rw [buzzerDurationElapsed]
  dsimp only
  split_ifs <;> rfl

/-- The interrupt does not silence a siren. -/
theorem siren_buzzerDurationElapsed (hs : h.Siren) : (buzzerDurationElapsed h).Siren := by
  obtain ⟨halarm, hpwm⟩ := hs
  refine ⟨alarmActive_buzzerDurationElapsed.trans halarm, ?_⟩
  rw [buzzerDurationElapsed]
  dsimp only
  split_ifs
  all_goals first
    | exact hpwm
    | rfl

/-- No pattern is on, and the output is off. -/
structure Buzzer.Silent (h : Buzzer) : Prop where
  alarm : h.alarmActive = false
  sonar : h.sonarActive = false
  pwm : h.timer.pwm = false

theorem silent_buzzerStop (h : Buzzer) : (buzzerStop h).Silent :=
  ⟨rfl, rfl, rfl⟩

/-- A late interrupt does not make a silent buzzer sound. -/
theorem silent_buzzerDurationElapsed (hs : h.Silent) : (buzzerDurationElapsed h).Silent := by
  obtain ⟨timer, elapsed, target, alarm, step, sonar, inGap⟩ := h
  obtain ⟨rfl, rfl, hpwm⟩ := hs
  rw [buzzerDurationElapsed]
  dsimp only
  split
  · exact ⟨rfl, rfl, hpwm⟩
  · exact ⟨rfl, rfl, rfl⟩

/-! ### The breathing LED -/

/-- `struct SonarLed`, with its timer and without its task handle. -/
structure SonarLed where
  timer : PwmTimer
  active : Bool
  duty : UInt32
  rising : Bool
  deriving DecidableEq

/-- `SonarLed_Create` on TIM8 as `MX_TIM8_Init` leaves it. -/
def sonarLedCreate : SonarLed :=
  ⟨⟨999, 0, false, false⟩, false, 0, true⟩

/-- `SonarLed_Start`. -/
def sonarLedStart (h : SonarLed) : SonarLed :=
  { active := true, duty := 0, rising := true, timer := { h.timer with compare := 0, pwm := true } }

/-- `SonarLed_Stop`. -/
def sonarLedStop (h : SonarLed) : SonarLed :=
  { h with active := false, timer := { h.timer with pwm := false } }

end SubmarineMonitor
