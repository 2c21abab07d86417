import SubmarineMonitor.Foundation.Machine
import SubmarineMonitor.Node.Buzzer
import SubmarineMonitor.Node.Communication
import SubmarineMonitor.Node.Monitor
import SubmarineMonitor.Node.SdFatFs
import SubmarineMonitor.Node.Timestamp

/-!
# Events

`event.c`: what the node does when the mode changes, when an object appears or disappears, and when
the button is pressed. It sets the LEDs, drives the buzzer, appends a line to the events file and
tells the central computer.

The buzzer plays one pattern at a time, and both this module and the buzzer remember which. The two
memories agree in one direction only, `SirenInvariant`: the sonar ping takes the buzzer over without
this module forgetting the alarm. The button relies on less, `KnowsSound`: whatever is sounding,
this module remembers one of the two.

## Calls and what they leave

A call is a function of the module, the card and the `comm_send` calls made so far, with everything
it finds outside as an argument: the clock's reading and the results of its operations on the card
(`EventIo`). The texts are printed into buffers of the code's sizes, so one that were too long would
come out cut. Both memories of the sound are kept, that of `event.c` and that of the buzzer, because
they do not always agree, and the sound depends on which is asked.

## Runs

`EventRun` adds the mode last reported and what has happened since the mode became the error mode.
Neither is looked at by the code. Mode changes are linked, each from the mode last reported to
another one, which is how `monitor_task` makes them; a caller that does otherwise is no run here.

## What is left out

The calls come from three tasks and from the button's interrupt. Each is one step, as is a tick of
TIM3; that one begins in the middle of another is not modelled. What becomes of the `comm_send`
calls is `Node.Communication`, and `event_on_frame` is with the other query in `Node.Query`.
-/

open Machine Text

namespace SubmarineMonitor

/-! ### The module -/

/-- The three pins of the RGB status LED. -/
structure RgbLed where
  red : Bool
  green : Bool
  blue : Bool
  deriving DecidableEq

/-- `led_set_for_mode`: no case for an unknown mode. -/
def ledSetForMode (led : RgbLed) : MonitorMode → RgbLed
  | .normal => ⟨false, true, false⟩
  | .warning => ⟨true, true, false⟩
  | .error => ⟨true, false, false⟩
  | .unknown => led

/-- `struct Event`, with what it drives. -/
structure Event where
  /-- `comm` is NULL. -/
  commNull : Bool
  buzzer : Buzzer
  sonarLed : SonarLed
  led : RgbLed
  alarmActive : Bool
  sonarActive : Bool
  essentialOnly : Bool
  deriving DecidableEq

/-- `event_create`. -/
def eventCreate (commNull : Bool) : Event :=
  ⟨commNull, buzzerCreate, sonarLedCreate, ⟨false, false, false⟩, false, false, false⟩

/-- `alarm_start`. -/
def alarmStart (e : Event) : Event :=
  if ¬e.alarmActive then { e with buzzer := buzzerStartAlarm e.buzzer, alarmActive := true } else e

/-- `alarm_stop_if_active`. -/
def alarmStopIfActive (e : Event) : Event :=
  if e.alarmActive then { e with buzzer := buzzerStop e.buzzer, alarmActive := false } else e

/-- `sonar_stop_if_active`. -/
def sonarStopIfActive (e : Event) : Event :=
  if e.sonarActive then { e with buzzer := buzzerStop e.buzzer, sonarActive := false } else e

/-- What a call finds outside: the clock, and the results of its SD operations. -/
structure EventIo where
  rtc : RtcReading
  save : SaveResults

/-- The module, the card and the `comm_send` calls made so far. -/
structure EventSystem where
  event : Event
  card : SdCard
  sends : List SendArgs

/-- `EVENTS_FILENAME`. -/
def eventsFilename : List UInt8 :=
  ascii "EVENTS.TXT"

/-- The line `"[%s] %s\r\n"`, in a buffer of 128 characters. -/
def eventLine (r : RtcReading) (message : List UInt8) : List UInt8 :=
  snprintf 128 (crlfLine (ascii "[" ++ formatTimestamp r ++ ascii "] " ++ message))

/-- `write_events_file`. -/
def writeEventsFile (s : EventSystem) (io : EventIo) (message : List UInt8) : EventSystem :=
  { s with card := (sdSaveString s.card io.save eventsFilename (eventLine io.rtc message)).1 }

/-- A `comm_send` call of this module. -/
def eventSend (s : EventSystem) (tag : UInt8) (value : Option (List UInt8)) (len : UInt8) :
    EventSystem :=
  { s with sends := s.sends ++ [⟨s.event.commNull, tag, value, len⟩] }

/-- The text `"mode %s -> %s (temp=%dC hum=%u%% light=%u%% batt=%u%%)"`, in a buffer of 96
characters. -/
def modeChangeText (data : MonitorMeasurement) (oldMode newMode : MonitorMode) : List UInt8 :=
  snprintf 96 (ascii "mode " ++ monitorModeName oldMode ++ ascii " -> " ++ monitorModeName newMode ++
    ascii " (temp=" ++ signed data.tempC.toInt ++ ascii "C hum=" ++
    decimal data.humidityPct.toNat ++ ascii "% light=" ++ decimal data.lightPct.toNat ++
    ascii "% batt=" ++ decimal data.batteryPct.toNat ++ ascii "%)")

/-- `mode_change_payload_t`, packed and little-endian. -/
def modeChangePayload (data : MonitorMeasurement) (oldMode newMode : MonitorMode) : List UInt8 :=
  [oldMode.toByte, newMode.toByte, data.tempC.toUInt16.lo, data.tempC.toUInt16.hi,
    data.humidityPct, data.lightPct, data.batteryPct]

/-- `event_mode_changed`. -/
def eventModeChanged (s : EventSystem) (io : EventIo) (data : MonitorMeasurement)
    (oldMode newMode : MonitorMode) : EventSystem :=
  let e := { s.event with led := ledSetForMode s.event.led newMode }
  let e :=
    if newMode = .error then { alarmStart e with essentialOnly := true }
    else if oldMode = .error then { alarmStopIfActive e with essentialOnly := false }
    else e
  let s := writeEventsFile { s with event := e } io (modeChangeText data oldMode newMode)
  eventSend s tlvTagModeChange (some (modeChangePayload data oldMode newMode)) 7

/-- `event_object_detected`. -/
def eventObjectDetected (s : EventSystem) (io : EventIo) : EventSystem :=
  let e := { s.event with
    buzzer := buzzerStartSonar s.event.buzzer
    sonarActive := true
    sonarLed := sonarLedStart s.event.sonarLed }
  eventSend (writeEventsFile { s with event := e } io (ascii "object detected"))
    tlvTagObjectDetected none 0

/-- `event_object_cleared`. -/
def eventObjectCleared (s : EventSystem) (io : EventIo) : EventSystem :=
  let e := { s.event with
    buzzer := buzzerStop s.event.buzzer
    sonarActive := false
    sonarLed := sonarLedStop s.event.sonarLed }
  eventSend (writeEventsFile { s with event := e } io (ascii "object cleared"))
    tlvTagObjectCleared none 0

/-- The text `"config changed: %s"`, in a buffer of 96 characters. Instead of NULL, the empty text
is printed. -/
def configChangedText (description : Option (List UInt8)) : List UInt8 :=
  snprintf 96 (ascii "config changed: " ++ cString (description.getD []))

/-- `event_config_changed`. -/
def eventConfigChanged (s : EventSystem) (io : EventIo) (description : Option (List UInt8)) :
    EventSystem :=
  writeEventsFile s io (configChangedText description)

/-- The text `"startup (watchdog reset: %s)"`, in a buffer of 64 characters. -/
def startupText (wasWatchdogReset : Bool) : List UInt8 :=
  snprintf 64 (ascii "startup (watchdog reset: " ++
    (if wasWatchdogReset then ascii "yes" else ascii "no") ++ ascii ")")

/-- `event_startup`. -/
def eventStartup (s : EventSystem) (io : EventIo) (wasWatchdogReset : Bool) : EventSystem :=
  writeEventsFile s io (startupText wasWatchdogReset)

/-- `event_button_pressed`. -/
def eventButtonPressed (s : EventSystem) : EventSystem :=
  { s with event := sonarStopIfActive (alarmStopIfActive s.event) }

/-- TIM3's update interrupt. -/
def eventTick (s : EventSystem) : EventSystem :=
  { s with event := { s.event with buzzer := buzzerDurationElapsed s.event.buzzer } }

/-! ### Runs -/

/-- A call into the module. -/
inductive EventAction
  | modeChanged (io : EventIo) (data : MonitorMeasurement) (oldMode newMode : MonitorMode)
  | objectDetected (io : EventIo)
  | objectCleared (io : EventIo)
  | buttonPressed
  | tick

/-- What has happened since the mode last became `MODE_ERROR`. -/
structure SinceError where
  buttonPressed : Bool
  objectDetected : Bool
  objectCleared : Bool
  deriving DecidableEq

/-- The module with the mode last reported, if one was, and what has happened since; neither is
looked at by the code. -/
structure EventRun where
  sys : EventSystem
  mode : Option MonitorMode
  since : SinceError

/-- After `event_create`. -/
def eventStart (commNull : Bool) (card : SdCard) : EventRun :=
  ⟨⟨eventCreate commNull, card, []⟩, none, ⟨false, false, false⟩⟩

/-- A call. Mode changes are linked: each goes from the mode last reported to a different one. -/
def eventStep (r : EventRun) : EventAction → Option EventRun
  | .modeChanged io data oldMode newMode =>
    if (r.mode = none ∨ r.mode = some oldMode) ∧ newMode ≠ oldMode then
      some {
        sys := eventModeChanged r.sys io data oldMode newMode
        mode := some newMode
        since := if newMode = .error then ⟨false, false, false⟩ else r.since }
    else none
  | .objectDetected io =>
    some { r with
      sys := eventObjectDetected r.sys io
      since := { r.since with objectDetected := true } }
  | .objectCleared io =>
    some { r with
      sys := eventObjectCleared r.sys io
      since := { r.since with objectCleared := true } }
  | .buttonPressed =>
    some { r with
      sys := eventButtonPressed r.sys
      since := { r.since with buttonPressed := true } }
  | .tick => some { r with sys := eventTick r.sys }

/-- The siren loop is running. -/
def EventRun.Siren (r : EventRun) : Prop :=
  r.sys.event.buzzer.Siren

instance (r : EventRun) : Decidable r.Siren :=
  inferInstanceAs (Decidable r.sys.event.buzzer.Siren)

/-! ### The siren -/

/-- The two memories of the alarm. -/
structure SirenInvariant (r : EventRun) : Prop where
  /-- Where the buzzer plays the alarm, this module knows. -/
  known : r.sys.event.buzzer.alarmActive = true → r.sys.event.alarmActive = true
  /-- A pattern that is on is heard. -/
  heard : r.sys.event.buzzer.alarmActive = true → r.Siren
  /-- This module has the alarm on exactly from entering the error mode to the next button press. -/
  alarm : r.sys.event.alarmActive = true ↔
    r.mode = some .error ∧ r.since.buttonPressed = false
  /-- A detection takes the buzzer over for good. -/
  ousted : r.sys.event.buzzer.alarmActive = true → r.since.objectDetected = false
  /-- Nothing else silences the siren but an object that is cleared. -/
  kept : r.sys.event.alarmActive = true → r.since.objectDetected = false →
    r.since.objectCleared = false → r.sys.event.buzzer.alarmActive = true

theorem sirenInvariant_start (commNull : Bool) (card : SdCard) :
    SirenInvariant (eventStart commNull card) := by
  constructor <;> simp [eventStart, eventCreate, buzzerCreate]

variable {r r' : EventRun}

theorem SirenInvariant.off (h : SirenInvariant r) (hmode : r.mode ≠ some .error) :
    r.sys.event.alarmActive = false := by
  rw [← Bool.not_eq_true, h.alarm]
  exact fun halarm ↦ hmode halarm.1

theorem SirenInvariant.silent (h : SirenInvariant r) (hoff : r.sys.event.alarmActive = false) :
    r.sys.event.buzzer.alarmActive = false := by
  rw [← Bool.not_eq_true]
  intro hon
  rw [h.known hon] at hoff
  cases hoff

/-- Stopping the alarm leaves both memories without it. -/
theorem SirenInvariant.alarmStop (h : SirenInvariant r) :
    (alarmStopIfActive r.sys.event).alarmActive = false ∧
      (alarmStopIfActive r.sys.event).buzzer.alarmActive = false := by
  rw [alarmStopIfActive]
  split
  · exact ⟨rfl, rfl⟩
  · rename_i hoff
    have hoff := Bool.eq_false_iff.2 hoff
    exact ⟨hoff, h.silent hoff⟩

/-- What a mode change leaves of the module, less the LED. -/
theorem event_eventModeChanged (s : EventSystem) (io : EventIo) (data : MonitorMeasurement)
    (oldMode newMode : MonitorMode) :
    let e := (eventModeChanged s io data oldMode newMode).event
    let e' :=
      if newMode = .error then alarmStart s.event
      else if oldMode = .error then alarmStopIfActive s.event
      else s.event
    e.alarmActive = e'.alarmActive ∧ e.buzzer = e'.buzzer ∧ e.sonarActive = e'.sonarActive := by
  dsimp only [eventModeChanged, eventSend, writeEventsFile, alarmStart, alarmStopIfActive]
  split_ifs <;> exact ⟨rfl, rfl, rfl⟩

/-- With the alarm off in both memories, and the mode not the error mode, nothing is left to say. -/
theorem sirenInvariant_of_off {sys : EventSystem} {mode : Option MonitorMode} {since : SinceError}
    (halarm : sys.event.alarmActive = false) (hbuzzer : sys.event.buzzer.alarmActive = false)
    (hoff : ¬(mode = some .error ∧ since.buttonPressed = false)) :
    SirenInvariant ⟨sys, mode, since⟩ := by
  constructor
  · simp [hbuzzer]
  · simp [hbuzzer]
  · exact ⟨fun h ↦ absurd (halarm.symm.trans h) (by decide), fun h ↦ absurd h hoff⟩
  · simp [hbuzzer]
  · simp [halarm]

/-- A mode change. -/
theorem SirenInvariant.modeChanged (h : SirenInvariant r) {io : EventIo} {data : MonitorMeasurement}
    {oldMode newMode : MonitorMode} (hlinked : r.mode = none ∨ r.mode = some oldMode)
    (hne : newMode ≠ oldMode) {since : SinceError}
    (hsince : since = if newMode = .error then ⟨false, false, false⟩ else r.since) :
    SirenInvariant ⟨eventModeChanged r.sys io data oldMode newMode, some newMode, since⟩ := by
  obtain ⟨halarm, hbuzzer, -⟩ := event_eventModeChanged r.sys io data oldMode newMode
  have hmode : oldMode ≠ .error → r.mode ≠ some .error := by
    rcases hlinked with hnone | hold
    · simp [hnone]
    · simp [hold]
  by_cases herror : newMode = .error
  · -- entering the error mode, which it was not in before
    have hoff := h.off (hmode fun hold ↦ hne (herror.trans hold.symm))
    rw [if_pos herror] at halarm hbuzzer hsince
    rw [alarmStart, if_pos (by simp [hoff])] at halarm hbuzzer
    have hsiren : (eventModeChanged r.sys io data oldMode newMode).event.buzzer.Siren := by
      rw [hbuzzer]
      exact siren_buzzerStartAlarm
    subst hsince
    exact ⟨fun _ ↦ halarm, fun _ ↦ hsiren, ⟨fun _ ↦ ⟨by rw [herror], rfl⟩, fun _ ↦ halarm⟩,
      fun _ ↦ rfl, fun _ _ _ ↦ hsiren.1⟩
  · rw [if_neg herror] at halarm hbuzzer
    by_cases hold : oldMode = .error
    · rw [if_pos hold] at halarm hbuzzer
      exact sirenInvariant_of_off (halarm.trans h.alarmStop.1) (hbuzzer ▸ h.alarmStop.2)
        (by simp [herror])
    · rw [if_neg hold] at halarm hbuzzer
      have hoff := h.off (hmode hold)
      exact sirenInvariant_of_off (halarm.trans hoff) (hbuzzer ▸ h.silent hoff) (by simp [herror])

/-- **The two memories stay in step** as far as the invariant says, whatever is called. -/
theorem SirenInvariant.step {a : EventAction} (h : SirenInvariant r)
    (hstep : eventStep r a = some r') : SirenInvariant r' := by
  cases a with
  | modeChanged io data oldMode newMode =>
    rw [eventStep] at hstep
    split at hstep
    · rename_i hlinked
      obtain rfl := Option.some.inj hstep
      exact h.modeChanged hlinked.1 hlinked.2 rfl
    · cases hstep
  | objectDetected io =>
    obtain rfl := Option.some.inj hstep
    -- from now on the buzzer does not play the alarm, and this module believes what it did before
    refine ⟨nofun, nofun, h.alarm, nofun, nofun⟩
  | objectCleared io =>
    obtain rfl := Option.some.inj hstep
    refine ⟨nofun, nofun, h.alarm, nofun, nofun⟩
  | buttonPressed =>
    obtain rfl := Option.some.inj hstep
    -- the alarm goes first, and stopping the ping does not bring it back
    obtain ⟨halarm, hbuzzer⟩ := h.alarmStop
    refine sirenInvariant_of_off ?_ ?_ (by simp)
    · show (sonarStopIfActive _).alarmActive = false
      rw [sonarStopIfActive]
      split
      · exact halarm
      · exact halarm
    · show (sonarStopIfActive _).buzzer.alarmActive = false
      rw [sonarStopIfActive]
      split
      · rfl
      · exact hbuzzer
  | tick =>
    obtain rfl := Option.some.inj hstep
    have hsame : (buzzerDurationElapsed r.sys.event.buzzer).alarmActive =
        r.sys.event.buzzer.alarmActive := alarmActive_buzzerDurationElapsed
    refine ⟨fun hon ↦ h.known (hsame ▸ hon), fun hon ↦ ?_, h.alarm,
      fun hon ↦ h.ousted (hsame ▸ hon),
      fun halarm hdetected hcleared ↦ hsame.trans (h.kept halarm hdetected hcleared)⟩
    exact siren_buzzerDurationElapsed (h.heard (hsame ▸ hon))

/-- **When the siren is running**, in every state of every run from `event_create`: only in the
error mode, with no button press and no object detected since the mode became that; and then indeed,
if no object was cleared since either. -/
theorem siren_running {commNull : Bool} {card : SdCard}
    (h : Reaches eventStep (fun _ _ ↦ True) (eventStart commNull card) r) :
    (r.Siren → r.mode = some .error ∧ r.since.buttonPressed = false ∧
      r.since.objectDetected = false) ∧
    (r.mode = some .error → r.since.buttonPressed = false → r.since.objectDetected = false →
      r.since.objectCleared = false → r.Siren) := by
  have hinv : SirenInvariant r :=
    h.invariant (sirenInvariant_start commNull card) fun h _ hstep ↦ h.step hstep
  constructor
  · rintro ⟨hon, -⟩
    obtain ⟨hmode, hbutton⟩ := hinv.alarm.1 (hinv.known hon)
    exact ⟨hmode, hbutton, hinv.ousted hon⟩
  · intro hmode hbutton hdetected hcleared
    exact hinv.heard (hinv.kept (hinv.alarm.2 ⟨hmode, hbutton⟩) hdetected hcleared)

/-- No clock, no card. -/
def noIo : EventIo :=
  ⟨⟨0, 0, 0, 0, 0, 0, 0⟩, ⟨false, false, false, 0, false⟩⟩

def coldReading : MonitorMeasurement :=
  ⟨-10, 50, 50, 50⟩

/-- The first reading is an error: the siren runs. -/
theorem siren_running_first :
    ∃ r, Reaches eventStep (fun _ _ ↦ True) (eventStart false fun _ ↦ none) r ∧ r.Siren := by
  have hexec : exec (guarded eventStep fun _ _ ↦ True) (eventStart false fun _ ↦ none)
      [.modeChanged noIo coldReading .unknown .error] = some _ := rfl
  have hreaches := reaches_of_exec hexec
  exact ⟨_, hreaches, (siren_running hreaches).2 rfl rfl rfl rfl⟩

/-- **A detection silences the siren**: the buzzer plays one pattern at a time, and the ping takes
it over while the mode is still the error mode and nobody has pressed the button. -/
theorem siren_ousted :
    ∃ r, exec eventStep (eventStart false fun _ ↦ none)
        [.modeChanged noIo coldReading .unknown .error, .objectDetected noIo] = some r ∧
      r.mode = some .error ∧ r.since.buttonPressed = false ∧ ¬r.Siren :=
  ⟨_, rfl, rfl, rfl, by decide⟩

/-! ### The button -/

/-- With neither pattern remembered, nothing sounds. -/
def Event.KnowsSound (e : Event) : Prop :=
  e.alarmActive = false → e.sonarActive = false → e.buzzer.Silent

theorem knowsSound_eventCreate (commNull : Bool) : (eventCreate commNull).KnowsSound :=
  fun _ _ ↦ ⟨rfl, rfl, rfl⟩

namespace Event.KnowsSound

variable {e : Event}

theorem alarmStart (h : e.KnowsSound) : (alarmStart e).KnowsSound := by
  rw [SubmarineMonitor.alarmStart]
  split
  · exact nofun
  · exact h

theorem alarmStopIfActive (h : e.KnowsSound) : (alarmStopIfActive e).KnowsSound := by
  rw [SubmarineMonitor.alarmStopIfActive]
  split
  · exact fun _ _ ↦ silent_buzzerStop _
  · exact h

/-- **The button silences the buzzer**, whichever of the two was on. -/
theorem silent_buttonPressed (h : e.KnowsSound) :
    (sonarStopIfActive (SubmarineMonitor.alarmStopIfActive e)).buzzer.Silent := by
  rw [sonarStopIfActive]
  split
  · exact silent_buzzerStop _
  · rename_i hsonar
    rw [SubmarineMonitor.alarmStopIfActive] at hsonar ⊢
    split at hsonar
    · rename_i halarm
      rw [if_pos halarm]
      exact silent_buzzerStop _
    · rename_i halarm
      rw [if_neg halarm]
      exact h (Bool.eq_false_iff.2 halarm) (Bool.eq_false_iff.2 hsonar)

end Event.KnowsSound

theorem knowsSound_step {a : EventAction} (h : r.sys.event.KnowsSound)
    (hstep : eventStep r a = some r') : r'.sys.event.KnowsSound := by
  cases a with
  | modeChanged io data oldMode newMode =>
    rw [eventStep] at hstep
    split at hstep
    · obtain rfl := Option.some.inj hstep
      obtain ⟨halarm, hbuzzer, hsonar⟩ := event_eventModeChanged r.sys io data oldMode newMode
      rw [Event.KnowsSound, halarm, hbuzzer, hsonar]
      split_ifs
      · exact h.alarmStart
      · exact h.alarmStopIfActive
      · exact h
    · cases hstep
  | objectDetected io =>
    obtain rfl := Option.some.inj hstep
    exact nofun
  | objectCleared io =>
    obtain rfl := Option.some.inj hstep
    exact fun _ _ ↦ silent_buzzerStop _
  | buttonPressed =>
    obtain rfl := Option.some.inj hstep
    exact fun _ _ ↦ h.silent_buttonPressed
  | tick =>
    obtain rfl := Option.some.inj hstep
    exact fun halarm hsonar ↦ silent_buzzerDurationElapsed (h halarm hsonar)

/-- Neither of the two calls that start a pattern. -/
def EventAction.StartsNothing : EventAction → Prop
  | .modeChanged _ _ _ newMode => newMode ≠ .error
  | .objectDetected _ => False
  | .objectCleared _ | .buttonPressed | .tick => True

/-- Silence lasts until one of them. -/
theorem silent_step {a : EventAction} (h : r.sys.event.buzzer.Silent) (ha : a.StartsNothing)
    (hstep : eventStep r a = some r') : r'.sys.event.buzzer.Silent := by
  cases a with
  | modeChanged io data oldMode newMode =>
    rw [eventStep] at hstep
    split at hstep
    · obtain rfl := Option.some.inj hstep
      obtain ⟨-, hbuzzer, -⟩ := event_eventModeChanged r.sys io data oldMode newMode
      rw [hbuzzer, if_neg ha, alarmStopIfActive]
      split_ifs
      · exact silent_buzzerStop _
      · exact h
      · exact h
    · cases hstep
  | objectDetected io => exact ha.elim
  | objectCleared io =>
    obtain rfl := Option.some.inj hstep
    exact silent_buzzerStop _
  | buttonPressed =>
    obtain rfl := Option.some.inj hstep
    show (sonarStopIfActive (alarmStopIfActive r.sys.event)).buzzer.Silent
    rw [sonarStopIfActive, alarmStopIfActive]
    split_ifs
    all_goals first
      | exact silent_buzzerStop _
      | exact h
  | tick =>
    obtain rfl := Option.some.inj hstep
    exact silent_buzzerDurationElapsed h

/-- **The button silences the buzzer, and it stays silent** until the mode becomes the error mode or
an object is detected, in every run from `event_create` and however late the ticks come. -/
theorem button_silences {commNull : Bool} {card : SdCard} {s t : EventRun}
    (h : Reaches eventStep (fun _ _ ↦ True) (eventStart commNull card) r)
    (hpress : eventStep r .buttonPressed = some s)
    (hrest : Reaches eventStep (fun _ a ↦ a.StartsNothing) s t) :
    t.sys.event.buzzer.timer.pwm = false := by
  have hknows : r.sys.event.KnowsSound :=
    h.invariant (I := fun r ↦ r.sys.event.KnowsSound) (knowsSound_eventCreate commNull)
      fun h _ hstep ↦ knowsSound_step h hstep
  have hsilent : s.sys.event.buzzer.Silent := by
    obtain rfl := Option.some.inj hpress
    exact hknows.silent_buttonPressed
  have hstays : t.sys.event.buzzer.Silent :=
    hrest.invariant (I := fun r ↦ r.sys.event.buzzer.Silent) hsilent
      fun h ha hstep ↦ silent_step h ha hstep
  exact hstays.pwm

instance EventAction.decidableStartsNothing : (a : EventAction) → Decidable a.StartsNothing
  | .modeChanged _ _ _ newMode => inferInstanceAs (Decidable (newMode ≠ .error))
  | .objectDetected _ => .isFalse id
  | .objectCleared _ | .buttonPressed | .tick => .isTrue trivial

/-- An object is detected during an alarm. -/
def alarmAndPing : EventRun :=
  (exec eventStep (eventStart false fun _ ↦ none)
    [.modeChanged noIo coldReading .unknown .error, .objectDetected noIo]).getD
      (eventStart false fun _ ↦ none)

/-- Then the button is pressed, and late interrupts and a clear follow. -/
theorem button_silences_alarmAndPing :
    alarmAndPing.sys.event.buzzer.timer.pwm = true ∧
      ∃ s t, eventStep alarmAndPing .buttonPressed = some s ∧
        exec eventStep s [.tick, .objectCleared noIo, .tick] = some t ∧
        t.sys.event.buzzer.timer.pwm = false := by
  have hexec : exec (guarded eventStep fun _ _ ↦ True) (eventStart false fun _ ↦ none)
      [.modeChanged noIo coldReading .unknown .error, .objectDetected noIo] =
        some alarmAndPing := rfl
  have hrest : exec (guarded eventStep fun _ a ↦ a.StartsNothing)
      ((eventStep alarmAndPing .buttonPressed).getD alarmAndPing)
      [.tick, .objectCleared noIo, .tick] = some _ := rfl
  exact ⟨rfl, _, _, rfl, rfl, button_silences (reaches_of_exec hexec) rfl (reaches_of_exec hrest)⟩

end SubmarineMonitor
