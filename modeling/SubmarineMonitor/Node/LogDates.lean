import SubmarineMonitor.Node.RecordFiles

/-!
# One date in each log file

A log file is meant to hold the lines of one date: its slot is started afresh when the weekday comes
round again. `log_write` remembers in RAM which slot it has started, and takes the slot as started from
then on, also if the old file could not be deleted, and also if the weekday has come round without a
write in between.

`LogFiles.oneDate_of_run` says that a file holds bytes of two dates only after one of these two, in
whatever way the SD operations of the run end.

## How a date is told

A file is bytes, and the bytes of a line that was cut short need not contain a date. So beside the
card there is a record of what each call has stored in which file: the reading of its clock and the
bytes. `Accounted` says that the record is right, that is, that every file is the concatenation of
its parts, and only with this does `OneDate` speak about the files. Both are conclusions of the
theorem.

## The condition

`KnowsToday` is the condition under which the module's belief about its slot is true, and it is
about the state before each write: a write to the remembered slot comes on the date of the last one,
and a write to another slot either deletes the file or finds nothing of another date in it. All
other results are free, also those of the appends. The two runs of `two_dates` break one half of it
each.

## What is left out

Readings of the clock with a wrong weekday: `ClockReading` is a reading whose date exists and has
its weekday. The clock may go back otherwise. A card that has log files on it from before is not
covered, since nobody knows what they hold.
-/

open Machine

namespace SubmarineMonitor

/-! ### Whose bytes a file holds -/

/-- What one call has stored: the reading of the clock, and a line or the beginning of one. -/
structure LogPart where
  reading : ClockReading
  bytes : List UInt8

/-- The log with a record of what each slot's file consists of. -/
structure LogFiles where
  sys : LogSystem
  /-- By slot, oldest first. -/
  parts : UInt8 → List LogPart

/-- What a call stores, if anything. -/
def storedPart (r : ClockReading) (data : MonitorMeasurement) (mode : MonitorMode) (io : LogIo) :
    List LogPart :=
  if io.save.stored (logLine r.rtc data mode) = [] then []
  else [⟨r, io.save.stored (logLine r.rtc data mode)⟩]

/-- The record after an action: a deleted file is empty, and what is stored comes last. -/
def LogFiles.nextParts (s : LogFiles) : LogAction → UInt8 → List LogPart
  | .write r data mode io =>
    let slot := slotOf r.rtc
    Function.update s.parts slot
      ((if slot ≠ s.sys.log.lastWrittenDay ∧ io.delete then [] else s.parts slot) ++
        storedPart r data mode io)
  | .reset => s.parts

/-- One `log_write` with any results of its SD operations, or one reset. -/
def logFilesStep (s : LogFiles) (a : LogAction) : Option LogFiles :=
  (logStep s.sys a).map fun sys ↦ ⟨sys, s.nextParts a⟩

/-- Before the first boot. -/
def logFilesPowerOn (card : SdCard) : LogFiles :=
  ⟨logPowerOn card, fun _ ↦ []⟩

/-- The record is right: every log file is what it says. -/
def LogFiles.Accounted (s : LogFiles) : Prop :=
  ∀ slot ∈ logSlots, (s.sys.card (logFilename slot)).getD [] =
    (s.parts slot).flatMap LogPart.bytes

/-- **No log file holds anything of two dates.** -/
def LogFiles.OneDate (s : LogFiles) : Prop :=
  ∀ slot ∈ logSlots, ∀ p ∈ s.parts slot, ∀ q ∈ s.parts slot, p.reading.date = q.reading.date

/-- A write to the slot that is taken as started comes on the date of the last write; a write to
another slot deletes its file, or finds nothing of another date in it. -/
def LogFiles.KnowsToday (s : LogFiles) : LogAction → Prop
  | .write r _ _ io =>
    if slotOf r.rtc = s.sys.log.lastWrittenDay then ∀ n ∈ s.sys.now, n.date = r.date
    else io.delete ∨ ∀ p ∈ s.parts (slotOf r.rtc), p.reading.date = r.date
  | .reset => True

instance (s : LogFiles) (a : LogAction) : Decidable (s.KnowsToday a) :=
  match a with
  | .write .. => inferInstanceAs (Decidable (ite _ _ _))
  | .reset => inferInstanceAs (Decidable True)

/-! ### Every run -/

theorem flatMap_storedPart (r : ClockReading) (data : MonitorMeasurement) (mode : MonitorMode)
    (io : LogIo) :
    (storedPart r data mode io).flatMap LogPart.bytes = io.save.stored (logLine r.rtc data mode) := by
  rw [storedPart]
  split_ifs with h
  · exact h.symm
  · exact List.append_nil _

theorem reading_of_mem_storedPart {r : ClockReading} {data : MonitorMeasurement}
    {mode : MonitorMode} {io : LogIo} {p : LogPart} (h : p ∈ storedPart r data mode io) :
    p.reading = r := by
  rw [storedPart] at h
  split_ifs at h
  · cases h
  · rw [List.mem_singleton.1 h]

/-- What a step can do. -/
theorem logFilesStep_cases {s s' : LogFiles} {a : LogAction} (h : logFilesStep s a = some s') :
    (∃ r data mode io, a = .write r data mode io ∧
      s'.sys.log = (logWrite s.sys.log s.sys.card io r.rtc data mode).1 ∧
      s'.sys.card = (logWrite s.sys.log s.sys.card io r.rtc data mode).2 ∧
      s'.sys.now = some r ∧ s'.parts = s.nextParts a) ∨
    (a = .reset ∧ s'.sys = { s.sys with log := logCreate } ∧ s'.parts = s.parts) := by
  obtain ⟨sys, hsys, rfl⟩ := Option.map_eq_some_iff.1 h
  cases a with
  | write r data mode io =>
    rw [logStep] at hsys
    split at hsys
    · obtain rfl := Option.some.inj hsys
      exact .inl ⟨r, data, mode, io, rfl, rfl, rfl, rfl, rfl⟩
    · cases hsys
  | reset =>
    obtain rfl := Option.some.inj hsys
    exact .inr ⟨rfl, rfl, rfl⟩

theorem LogFiles.Accounted.step {s s' : LogFiles} {a : LogAction} (h : s.Accounted)
    (hstep : logFilesStep s a = some s') : s'.Accounted := by
  intro slot hslot
  rcases logFilesStep_cases hstep with
    ⟨r, data, mode, io, rfl, -, hcard, -, hparts⟩ | ⟨rfl, hsys, hparts⟩
  · rw [hcard, hparts]
    dsimp only [nextParts]
    rcases eq_or_ne slot (slotOf r.rtc) with rfl | hne
    · rw [logWrite_getD, Function.update_self, List.flatMap_append, flatMap_storedPart]
      split_ifs
      · rfl
      · rw [h _ hslot]
    · rw [Function.update_of_ne hne, logWrite_of_ne _ _ _ _ _ fun hname ↦
        hne (logFilename_inj hslot (slotOf_mem_logSlots r.rtc) hname)]
      exact h slot hslot
  · rw [hsys, hparts]
    exact h slot hslot

/-- A write that keeps something of another date in the file, and stores something, leaves both. -/
theorem LogFiles.not_oneDate_of_write {s s' : LogFiles} (r : ClockReading)
    (data : MonitorMeasurement) (mode : MonitorMode) (io : LogIo) (p : LogPart)
    (hstep : logFilesStep s (.write r data mode io) = some s')
    (hkept : ¬(slotOf r.rtc ≠ s.sys.log.lastWrittenDay ∧ io.delete))
    (hp : p ∈ s.parts (slotOf r.rtc)) (hdate : p.reading.date ≠ r.date)
    (hstored : io.save.stored (logLine r.rtc data mode) ≠ []) : ¬s'.OneDate := by
  intro h
  obtain ⟨sys, -, rfl⟩ := Option.map_eq_some_iff.1 hstep
  have hparts : s.nextParts (.write r data mode io) (slotOf r.rtc) =
      s.parts (slotOf r.rtc) ++ [⟨r, io.save.stored (logLine r.rtc data mode)⟩] := by
    dsimp only [nextParts]
    rw [Function.update_self, if_neg hkept, storedPart, if_neg hstored]
  have hmem : ∀ q ∈ s.parts (slotOf r.rtc) ++ [⟨r, io.save.stored (logLine r.rtc data mode)⟩],
      q ∈ s.nextParts (.write r data mode io) (slotOf r.rtc) := by
    rw [hparts]
    exact fun q hq ↦ hq
  exact hdate (h _ (slotOf_mem_logSlots r.rtc) p (hmem p (List.mem_append_left _ hp)) _
    (hmem _ (List.mem_append_right _ (List.mem_singleton_self _))))

/-- What a run keeps as long as every write knows what is of today. -/
structure LogFiles.Dated (s : LogFiles) : Prop where
  accounted : s.Accounted
  oneDate : s.OneDate
  /-- The file that is taken as started holds nothing but what is of the date of the last write. -/
  started : s.sys.log.lastWrittenDay ≠ 0 → ∃ n ∈ s.sys.now,
    s.sys.log.lastWrittenDay = slotOf n.rtc ∧
      ∀ p ∈ s.parts s.sys.log.lastWrittenDay, p.reading.date = n.date

/-- What a write leaves of the file it writes to is of the same date. -/
theorem LogFiles.Dated.date_of_mem {s : LogFiles} (h : s.Dated) {r : ClockReading}
    {data : MonitorMeasurement} {mode : MonitorMode} {io : LogIo}
    (hok : s.KnowsToday (.write r data mode io)) :
    ∀ p ∈ s.nextParts (.write r data mode io) (slotOf r.rtc), p.reading.date = r.date := by
  intro p hp
  dsimp only [nextParts] at hp
  rw [Function.update_self] at hp
  rcases List.mem_append.1 hp with hp | hp
  · rw [KnowsToday] at hok
    rcases eq_or_ne (slotOf r.rtc) s.sys.log.lastWrittenDay with hslot | hslot
    · -- nothing was deleted: all of it is of the date of the last write
      rw [if_pos hslot] at hok
      rw [if_neg (fun h ↦ h.1 hslot), hslot] at hp
      have hpos : s.sys.log.lastWrittenDay ≠ 0 := by
        rw [← hslot, slotOf_eq]
        exact slotOfDay_ne_zero r.day
      obtain ⟨n, hn, -, hdate⟩ := h.started hpos
      exact (hdate p hp).trans (hok n hn)
    · rw [if_neg hslot] at hok
      rcases hok with hdelete | htoday
      · rw [if_pos ⟨hslot, hdelete⟩] at hp
        cases hp
      · split_ifs at hp
        · cases hp
        · exact htoday p hp
  · rw [reading_of_mem_storedPart hp]

/-- **One action keeps the dates apart.** -/
theorem LogFiles.Dated.step {s s' : LogFiles} {a : LogAction} (h : s.Dated) (hok : s.KnowsToday a)
    (hstep : logFilesStep s a = some s') : s'.Dated := by
  refine ⟨h.accounted.step hstep, ?_, ?_⟩
  · intro slot hslot p hp q hq
    rcases logFilesStep_cases hstep with
      ⟨r, data, mode, io, rfl, -, -, -, hparts⟩ | ⟨rfl, -, hparts⟩
    · rw [hparts] at hp hq
      rcases eq_or_ne slot (slotOf r.rtc) with rfl | hne
      · exact (h.date_of_mem hok p hp).trans (h.date_of_mem hok q hq).symm
      · -- the file of another slot is as it was
        dsimp only [nextParts] at hp hq
        rw [Function.update_of_ne hne] at hp hq
        exact h.oneDate slot hslot p hp q hq
    · rw [hparts] at hp hq
      exact h.oneDate slot hslot p hp q hq
  · intro hpos
    rcases logFilesStep_cases hstep with
      ⟨r, data, mode, io, rfl, hlog, -, hnow, hparts⟩ | ⟨rfl, hsys, -⟩
    · refine ⟨r, hnow, ?_, ?_⟩
      · rw [hlog, logWrite_lastWrittenDay]
      · rw [hlog, logWrite_lastWrittenDay, hparts]
        exact h.date_of_mem hok
    · rw [hsys] at hpos
      exact absurd rfl hpos

/-- **Dates meet in no file** in any run of writes and resets, from a card without log files, in which
no write takes an old file for today's: none comes back to the slot of the last write on another date,
and none fails to delete a file with something of another date in it. All other SD operations may end
as they like. -/
theorem LogFiles.oneDate_of_run {card : SdCard} {s : LogFiles}
    (hcard : ∀ slot ∈ logSlots, card (logFilename slot) = none)
    (h : Reaches logFilesStep LogFiles.KnowsToday (logFilesPowerOn card) s) :
    s.Accounted ∧ s.OneDate := by
  have hstart : (logFilesPowerOn card).Dated := by
    refine ⟨fun slot hslot ↦ ?_, fun slot _ p hp ↦ ?_, fun hpos ↦ absurd rfl hpos⟩
    · show (card (logFilename slot)).getD [] = []
      rw [hcard slot hslot]
      rfl
    · cases hp
  have hdated : s.Dated := h.invariant hstart fun hs hok hstep ↦ hs.step hok hstep
  exact ⟨hdated.accounted, hdated.oneDate⟩

/-! ### A Sunday, and the next one -/

/-- Monday 7 September 2026. -/
def mondayMorning : ClockReading where
  rtc := ⟨26, 9, 7, 1, 10, 0, 0⟩
  date := september 6
  year_eq := rfl
  month_eq := rfl
  date_eq := rfl
  weekDay_eq := rfl

/-- Sunday 13 September 2026. -/
def nextSunday : ClockReading where
  rtc := ⟨26, 9, 13, 7, 10, 0, 0⟩
  date := september 12
  year_eq := rfl
  month_eq := rfl
  date_eq := rfl
  weekDay_eq := rfl

/-- Two writes of a Sunday with a reset between them; the file cannot be deleted again, and need
not. -/
theorem LogFiles.oneDate_of_run_sunday :
    ∃ s, exec logFilesStep (logFilesPowerOn fun _ ↦ none)
        [.write (sundayAt 10) calmSea .normal workingIo, .reset,
          .write (sundayAt 11) calmSea .normal { workingIo with delete := false }] = some s ∧
      s.Accounted ∧ s.OneDate := by
  have hfirst : Reaches logFilesStep KnowsToday (logFilesPowerOn fun _ ↦ none) _ :=
    .step (a := .write (sundayAt 10) calmSea .normal workingIo) .start (by decide) rfl
  have hreset : Reaches logFilesStep KnowsToday (logFilesPowerOn fun _ ↦ none) _ :=
    .step (a := .reset) hfirst (by decide) rfl
  exact ⟨_, rfl, oneDate_of_run (fun _ _ ↦ rfl) (.step (a := .write (sundayAt 11) calmSea .normal
    { workingIo with delete := false }) hreset (by decide) rfl)⟩

/-- **Two Sundays in one file.** In the first run the old file could not be deleted; in the second one
nothing was written for a week, and nothing was deleted. -/
theorem LogFiles.two_dates :
    (∃ s, exec logFilesStep (logFilesPowerOn fun _ ↦ none)
        [.write (sundayAt 10) calmSea .normal workingIo,
          .write mondayMorning calmSea .normal workingIo,
          .write nextSunday calmSea .normal { workingIo with delete := false }] = some s ∧
      sdForEachLine s.sys.card (logFilename 1) =
        [logText (sundayAt 10).rtc calmSea .normal, logText nextSunday.rtc calmSea .normal] ∧
      ¬s.OneDate) ∧
    ∃ s, exec logFilesStep (logFilesPowerOn fun _ ↦ none)
        [.write (sundayAt 10) calmSea .normal workingIo,
          .write nextSunday calmSea .normal workingIo] = some s ∧ ¬s.OneDate := by
  refine ⟨⟨_, rfl, HoldsLines.forEachLine ⟨by decide, fun t ht ↦ ?_⟩, ?_⟩, ⟨_, rfl, ?_⟩⟩
  · rcases List.mem_pair.1 ht with rfl | rfl
    · exact ⟨isText_logText _ _ _, (length_logText_le ..).trans_lt (by decide)⟩
    · exact ⟨isText_logText _ _ _, (length_logText_le ..).trans_lt (by decide)⟩
  · -- the slot has changed, but the old file is still there
    exact not_oneDate_of_write
      (s := (exec logFilesStep (logFilesPowerOn fun _ ↦ none)
        [.write (sundayAt 10) calmSea .normal workingIo,
          .write mondayMorning calmSea .normal workingIo]).get rfl)
      nextSunday calmSea .normal { workingIo with delete := false }
      ⟨sundayAt 10, logLine (sundayAt 10).rtc calmSea .normal⟩ rfl (by decide)
      List.mem_cons_self (by decide) (by decide)
  · -- the slot is that of the last write
    exact not_oneDate_of_write
      (s := (exec logFilesStep (logFilesPowerOn fun _ ↦ none)
        [.write (sundayAt 10) calmSea .normal workingIo]).get rfl)
      nextSunday calmSea .normal workingIo
      ⟨sundayAt 10, logLine (sundayAt 10).rtc calmSea .normal⟩ rfl (by decide)
      List.mem_cons_self (by decide) (by decide)

end SubmarineMonitor
