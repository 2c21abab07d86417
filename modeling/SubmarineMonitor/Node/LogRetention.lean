import SubmarineMonitor.Foundation.Calendar
import SubmarineMonitor.Foundation.Machine
import SubmarineMonitor.Node.Log

/-!
# Retention of the log files

The rule is that the last seven days are kept: a weekday's file is started afresh when its weekday
comes round again. `log_write` tells that moment by comparing today's slot with the slot of the last
line, which it remembers in RAM. A reset forgets it, so the first write after a reset starts today's
file afresh as well, and with it go the lines already written today.

`retained_of_run` is the rule for every run in which this does not happen. What carries it is that
the only lines a deletion can meet are at least a week old: slots repeat every seven days and the
clock never runs backwards.

## Days

The days are numbered (`Date.dayNumber`), and a slot is the remainder of the day by seven. That is
where the calendar comes in, once: behind it two days share a file exactly if seven divides what
lies between them, and the rest is arithmetic. `ClockReading` carries the proof that the date exists
and that the weekday is its weekday, so no later lemma has to ask.

## The condition

The operations on the card succeed, the clock does not go back, and no write is at once the first
since a reset and on a date that has lines already. The last is the flaw that `not_retained_reset`
shows: `last_written_day` is in RAM, and a reset forgets it. All of it is about the action and the
state before it, and resets may come at any other time.

## What is left out

The initial card is arbitrary; log files from before may be there, and nothing is promised about
them. Nothing is said about lines older than a week, which may still be there when days without a
write come between; with a line every day they are not (`Node.LogWeek`).
-/

open Machine Text Calendar

namespace SubmarineMonitor

/-! ### Runs -/

/-- A clock reading whose date exists and whose weekday is that of its date. -/
structure ClockReading where
  rtc : RtcReading
  date : Date
  year_eq : rtc.year.toNat = date.year
  month_eq : rtc.month.toNat = date.month
  date_eq : rtc.date.toNat = date.day
  weekDay_eq : rtc.weekDay.toNat = date.weekday

/-- The day of a reading. -/
def ClockReading.day (r : ClockReading) : ℕ :=
  r.date.dayNumber

/-- `r'` is not earlier than `r`. -/
def ClockReading.NotAfter (r r' : ClockReading) : Prop :=
  r.rtc.stamp.fields ≤ r'.rtc.stamp.fields

instance (r r' : ClockReading) : Decidable (r.NotAfter r') :=
  inferInstanceAs (Decidable (r.rtc.stamp.fields ≤ r'.rtc.stamp.fields))

/-- The log, the card, and what has been written. -/
structure LogSystem where
  log : Log
  card : SdCard
  /-- The last reading of the clock. -/
  now : Option ClockReading
  /-- Every line written, with the reading it was written at, oldest first. -/
  written : List (ClockReading × List UInt8)

inductive LogAction
  | write (r : ClockReading) (data : MonitorMeasurement) (mode : MonitorMode) (io : LogIo)
  /-- A reset of the MCU, after which `log_create` runs again. -/
  | reset

/-- Before the first boot: nothing written yet, whatever else is on the card. -/
def logPowerOn (card : SdCard) : LogSystem :=
  ⟨logCreate, card, none, []⟩

/-- One `log_write` at a reading not earlier than the last one, or one reset. -/
def logStep (s : LogSystem) : LogAction → Option LogSystem
  | .write r data mode io =>
    if ∀ n ∈ s.now, n.NotAfter r then
      some ⟨(logWrite s.log s.card io r.rtc data mode).1,
        (logWrite s.log s.card io r.rtc data mode).2, some r,
        s.written ++ [(r, logText r.rtc data mode)]⟩
    else none
  | .reset => some { s with log := logCreate }

/-- Every SD operation of the action succeeds. -/
def LogAction.Succeeds : LogAction → Prop
  | .write r data mode io =>
    io.delete ∧ io.save.mount ∧ io.save.fopen ∧ io.save.write ∧ io.save.close ∧
      (logLine r.rtc data mode).length ≤ io.save.written
  | .reset => True

instance (a : LogAction) : Decidable a.Succeeds :=
  match a with
  | .write .. => inferInstanceAs (Decidable (_ ∧ _))
  | .reset => inferInstanceAs (Decidable True)

/-- A write that is the first one since a reset, on a date that has lines already. -/
def LogSystem.ReopensToday (s : LogSystem) : LogAction → Prop
  | .write r _ _ _ => s.log.lastWrittenDay = 0 ∧ ∃ w ∈ s.written, w.1.day = r.day
  | .reset => False

instance (s : LogSystem) (a : LogAction) : Decidable (s.ReopensToday a) :=
  match a with
  | .write .. => inferInstanceAs (Decidable (_ ∧ _))
  | .reset => inferInstanceAs (Decidable False)

/-- The lines written on a day, in order. -/
def LogSystem.linesOf (s : LogSystem) (day : ℕ) : List (List UInt8) :=
  (s.written.filter fun w ↦ w.1.day = day).map Prod.snd

/-- **The last seven days are there.** The lines written on the day of the last reading, and on each
of the six days before, are lines of one of the seven log files. -/
def LogSystem.Retained (s : LogSystem) : Prop :=
  ∀ n ∈ s.now, ∀ day, day ≤ n.day → n.day ≤ day + 6 →
    ∃ slot : UInt8, 1 ≤ slot ∧ slot ≤ 7 ∧
      (s.linesOf day).Sublist (sdForEachLine s.card (logFilename slot))

/-! ### Slots -/

/-- The slot of a day. -/
def slotOfDay (day : ℕ) : ℕ :=
  ((day + 5) % 7 + 1) % 7 + 1

/-- The file of a day. -/
def fileOfDay (day : ℕ) : List UInt8 :=
  logFilename (slotOfDay day).toUInt8

theorem slotOf_eq (r : ClockReading) : slotOf r.rtc = (slotOfDay r.day).toUInt8 := by
  apply UInt8.toNat_inj.1
  have hweek := r.weekDay_eq
  rw [Date.weekday] at hweek
  have hslot : slotOfDay r.day < 256 := by
    rw [slotOfDay]
    omega
  rw [slotOf, UInt8.toNat_add, UInt8.toNat_mod, hweek, Nat.toUInt8_eq, UInt8.toNat_ofNat',
    Nat.mod_eq_of_lt hslot, slotOfDay, ClockReading.day]
  simp only [UInt8.reduceToNat]
  omega

theorem slotOfDay_ne_zero (day : ℕ) : (slotOfDay day).toUInt8 ≠ 0 := by
  intro h
  have hzero := congrArg UInt8.toNat h
  rw [Nat.toUInt8_eq, UInt8.toNat_ofNat', slotOfDay, UInt8.toNat_zero] at hzero
  omega

/-- The seven slots have seven files. -/
theorem slotOfDay_eq_of_fileOfDay_eq {d d' : ℕ} (h : fileOfDay d = fileOfDay d') :
    slotOfDay d = slotOfDay d' := by
  have key : ∀ i < 8, ∀ j < 8, logFilename i.toUInt8 = logFilename j.toUInt8 → i = j := by decide
  refine key _ ?_ _ ?_ h <;> rw [slotOfDay] <;> omega

/-- Within a week every day has its own file. -/
theorem fileOfDay_ne {d d' : ℕ} (hlt : d < d') (hweek : d' ≤ d + 6) : fileOfDay d ≠ fileOfDay d' := by
  intro h
  have hslot := slotOfDay_eq_of_fileOfDay_eq h
  rw [slotOfDay, slotOfDay] at hslot
  omega

/-- A clock that does not run backwards does not count its days backwards. -/
theorem ClockReading.NotAfter.day_le {r r' : ClockReading} (h : r.NotAfter r') :
    r.day ≤ r'.day := by
  refine dayNumber_le ?_
  rw [NotAfter] at h
  simp only [RtcReading.stamp, Stamp.fields, r.year_eq, r.month_eq, r.date_eq, r'.year_eq,
    r'.month_eq, r'.date_eq, Positional.cons_le_cons_iff] at h
  simp only [Positional.cons_le_cons_iff, le_refl, and_true]
  omega

/-! ### One write -/

theorem HoldsLines.append {file file' : Option (List UInt8)} {texts : List (List UInt8)}
    {text : List UInt8} (h : HoldsLines file texts) (htext : IsText text)
    (hlen : text.length < 127) (hfile' : file'.getD [] = file.getD [] ++ crlfLine text) :
    HoldsLines file' (texts ++ [text]) := by
  refine ⟨?_, ?_⟩
  · rw [hfile', h.1, List.flatMap_append, List.flatMap_singleton]
  · intro t ht
    rcases List.mem_append.1 ht with ht | ht
    · exact h.2 t ht
    · obtain rfl := List.mem_singleton.1 ht
      exact ⟨htext, hlen⟩

/-- A successful append stores everything. -/
theorem SaveResults.stored_of_le {io : SaveResults} {data : List UInt8} (hmount : io.mount)
    (hopen : io.fopen) (hclose : io.close) (hwritten : data.length ≤ io.written) :
    io.stored data = data := by
  rw [stored, if_pos ⟨hmount, hopen, hclose⟩, List.take_of_length_le hwritten]

/-- Every SD operation of a write of this many bytes succeeds. -/
def LogIo.Works (io : LogIo) (n : ℕ) : Prop :=
  io.delete ∧ io.save.mount ∧ io.save.fopen ∧ io.save.write ∧ io.save.close ∧ n ≤ io.save.written

/-- **What a successful write does**: the file of the slot gets the line, after the lines it had if
the slot is the one last written to, and alone otherwise; no other file changes; the slot is
remembered. -/
theorem logWrite_works (l : Log) (card : SdCard) {io : LogIo} {r : RtcReading}
    {data : MonitorMeasurement} {mode : MonitorMode} (texts : List (List UInt8))
    (hok : io.Works (logLine r data mode).length)
    (hfile : slotOf r = l.lastWrittenDay → HoldsLines (card (logFilename (slotOf r))) texts) :
    (logWrite l card io r data mode).1.lastWrittenDay = slotOf r ∧
      HoldsLines ((logWrite l card io r data mode).2 (logFilename (slotOf r)))
        ((if slotOf r = l.lastWrittenDay then texts else []) ++ [logText r data mode]) ∧
      ∀ name ≠ logFilename (slotOf r), (logWrite l card io r data mode).2 name = card name := by
  obtain ⟨hdelete, hmount, hopen, -, hclose, hwritten⟩ := hok
  have hlen : (logText r data mode).length < 127 :=
    (length_logText_le r data mode).trans_lt (by decide)
  have hkept : HoldsLines (some (if slotOf r ≠ l.lastWrittenDay ∧ io.delete then [] else
      (card (logFilename (slotOf r))).getD [])) (if slotOf r = l.lastWrittenDay then texts else []) := by
    by_cases hslot : slotOf r = l.lastWrittenDay
    · rw [if_neg (fun h ↦ h.1 hslot), if_pos hslot]
      exact hfile hslot
    · rw [if_pos ⟨hslot, hdelete⟩, if_neg hslot]
      exact ⟨rfl, fun t ht ↦ by cases ht⟩
  refine ⟨logWrite_lastWrittenDay .., hkept.append (isText_logText r data mode) hlen ?_,
    fun name hname ↦ logWrite_of_ne l card io data mode hname⟩
  rw [logWrite_getD, SaveResults.stored_of_le hmount hopen hclose hwritten, logLine_eq,
    Option.getD_some]

/-- The same, in terms of the day. -/
theorem logWrite_ok (l : Log) (card : SdCard) {io : LogIo} {r : ClockReading}
    {data : MonitorMeasurement} {mode : MonitorMode} (texts : List (List UInt8))
    (hok : (LogAction.write r data mode io).Succeeds)
    (hfile : slotOf r.rtc = l.lastWrittenDay → HoldsLines (card (fileOfDay r.day)) texts) :
    (logWrite l card io r.rtc data mode).1.lastWrittenDay = slotOf r.rtc ∧
      HoldsLines ((logWrite l card io r.rtc data mode).2 (fileOfDay r.day))
        ((if slotOf r.rtc = l.lastWrittenDay then texts else []) ++ [logText r.rtc data mode]) ∧
      ∀ name ≠ fileOfDay r.day, (logWrite l card io r.rtc data mode).2 name = card name := by
  have hname : fileOfDay r.day = logFilename (slotOf r.rtc) := by rw [slotOf_eq, fileOfDay]
  rw [hname] at hfile ⊢
  exact logWrite_works l card texts hok hfile

/-! ### Runs -/

/-- What a run keeps as long as no write reopens today's file. -/
structure LogSystem.Inv (s : LogSystem) : Prop where
  /-- Everything was written on the day of the last reading or before. -/
  past : ∀ w ∈ s.written, ∃ n ∈ s.now, w.1.day ≤ n.day
  /-- A remembered slot is that of the day of the last reading, which has lines. -/
  last : s.log.lastWrittenDay ≠ 0 →
    ∃ n ∈ s.now, s.log.lastWrittenDay = slotOf n.rtc ∧ ∃ w ∈ s.written, w.1.day = n.day
  /-- A file that has been written to holds whole lines. -/
  files : ∀ w ∈ s.written, ∃ texts, HoldsLines (s.card (fileOfDay w.1.day)) texts
  /-- The lines of the last seven days are each in the file of their day. -/
  kept : ∀ n ∈ s.now, ∀ day, day ≤ n.day → n.day ≤ day + 6 →
    (s.linesOf day).Sublist (sdForEachLine s.card (fileOfDay day))

theorem LogSystem.linesOf_eq_nil {s : LogSystem} {day : ℕ}
    (h : ∀ w ∈ s.written, w.1.day ≠ day) : s.linesOf day = [] := by
  have hnone : s.written.filter (fun w ↦ w.1.day = day) = [] :=
    List.filter_eq_nil_iff.2 fun w hw ↦ by simpa using h w hw
  rw [linesOf, hnone]
  rfl

/-- A write adds its line to those of its day. -/
theorem LogSystem.linesOf_write (s : LogSystem) (l : Log) (card : SdCard) (r : ClockReading)
    (text : List UInt8) (day : ℕ) :
    LogSystem.linesOf ⟨l, card, some r, s.written ++ [(r, text)]⟩ day =
      s.linesOf day ++ if r.day = day then [text] else [] := by
  rw [linesOf, List.filter_append, List.map_append]
  by_cases hday : r.day = day <;> simp [linesOf, hday]

/-- The lines today's file keeps include all the lines written today so far. -/
theorem LogSystem.Inv.sublist_today {s : LogSystem} (h : s.Inv) {r : ClockReading}
    {texts : List (List UInt8)} (hnow : ∀ n ∈ s.now, n.NotAfter r)
    (hreopen : ¬(s.log.lastWrittenDay = 0 ∧ ∃ w ∈ s.written, w.1.day = r.day))
    (hfile : slotOf r.rtc = s.log.lastWrittenDay → HoldsLines (s.card (fileOfDay r.day)) texts) :
    (s.linesOf r.day).Sublist (if slotOf r.rtc = s.log.lastWrittenDay then texts else []) := by
  by_cases hnone : ∀ w ∈ s.written, w.1.day ≠ r.day
  · rw [linesOf_eq_nil hnone]
    exact List.nil_sublist _
  · -- today has lines, so the last reading was today and its slot is remembered
    simp only [not_forall, not_not] at hnone
    obtain ⟨w, hw, hday⟩ := hnone
    have hlast : s.log.lastWrittenDay ≠ 0 := fun h0 ↦ hreopen ⟨h0, w, hw, hday⟩
    obtain ⟨n, hn, hslot, -⟩ := h.last hlast
    obtain ⟨n', hn', hle⟩ := h.past w hw
    obtain rfl : n = n' := Option.some.inj (hn.symm.trans hn')
    have htoday : n.day = r.day := Nat.le_antisymm (hnow n hn).day_le (hday ▸ hle)
    have hsame : slotOf r.rtc = s.log.lastWrittenDay := by
      rw [hslot, slotOf_eq, slotOf_eq, htoday]
    have hkept := h.kept n hn r.day htoday.ge (by omega)
    rw [(hfile hsame).forEachLine] at hkept
    rw [if_pos hsame]
    exact hkept

/-- **One action keeps the last seven days**, if its SD operations succeed and it does not reopen
today's file. -/
theorem LogSystem.Inv.step {s s' : LogSystem} {a : LogAction} (h : s.Inv) (hok : a.Succeeds)
    (hreopen : ¬s.ReopensToday a) (hstep : logStep s a = some s') : s'.Inv := by
  cases a with
  | reset =>
    cases hstep
    exact ⟨h.past, fun hlast ↦ absurd rfl hlast, h.files, h.kept⟩
  | write r data mode io =>
    rw [logStep] at hstep
    split at hstep
    · rename_i hnow
      obtain rfl := Option.some.inj hstep
      obtain ⟨texts, hfile⟩ : ∃ texts, slotOf r.rtc = s.log.lastWrittenDay →
          HoldsLines (s.card (fileOfDay r.day)) texts := by
        by_cases hslot : slotOf r.rtc = s.log.lastWrittenDay
        · have hpos : s.log.lastWrittenDay ≠ 0 := by
            rw [← hslot, slotOf_eq]
            exact slotOfDay_ne_zero r.day
          obtain ⟨n, -, hlast, w, hw, hday⟩ := h.last hpos
          obtain ⟨texts, hfile⟩ := h.files w hw
          have hname : fileOfDay w.1.day = fileOfDay r.day := by
            rw [fileOfDay, fileOfDay, hday, ← slotOf_eq n, ← hlast, ← hslot, slotOf_eq]
          exact ⟨texts, fun _ ↦ hname ▸ hfile⟩
        · exact ⟨[], fun hslot' ↦ absurd hslot' hslot⟩
      obtain ⟨hslot, hlines, hother⟩ := logWrite_ok s.log s.card texts hok hfile
      have htoday := h.sublist_today hnow hreopen hfile
      refine ⟨?_, fun _ ↦ ⟨r, rfl, hslot, _, List.mem_append_right _ (List.mem_singleton_self _),
        rfl⟩, ?_, ?_⟩
      · intro w hw
        refine ⟨r, rfl, ?_⟩
        rcases List.mem_append.1 hw with hw | hw
        · obtain ⟨n, hn, hle⟩ := h.past w hw
          exact hle.trans (hnow n hn).day_le
        · rw [List.mem_singleton.1 hw]
      · intro w hw
        by_cases hname : fileOfDay w.1.day = fileOfDay r.day
        · exact ⟨_, hname ▸ hlines⟩
        · rcases List.mem_append.1 hw with hw | hw
          · obtain ⟨texts, htexts⟩ := h.files w hw
            rw [← hother _ hname] at htexts
            exact ⟨texts, htexts⟩
          · rw [List.mem_singleton.1 hw] at hname
            exact absurd rfl hname
      · rintro n ⟨rfl⟩ day hle hweek
        rw [linesOf_write]
        rcases hle.eq_or_lt with rfl | hlt
        · rw [if_pos rfl, hlines.forEachLine]
          exact htoday.append_right _
        · -- another day of the week: its file was not touched
          rw [if_neg hlt.ne', List.append_nil, sdForEachLine]
          dsimp only
          rw [hother _ (fileOfDay_ne hlt hweek)]
          by_cases hnone : ∀ w ∈ s.written, w.1.day ≠ day
          · rw [linesOf_eq_nil hnone]
            exact List.nil_sublist _
          · simp only [not_forall, not_not] at hnone
            obtain ⟨w, hw, rfl⟩ := hnone
            obtain ⟨n, hn, hpast⟩ := h.past w hw
            have hmono := (hnow n hn).day_le
            exact h.kept n hn w.1.day hpast (by omega)
    · cases hstep

/-- **The last seven days are kept** in every run of successful writes and resets in which no write
is both the first since a reset and on a date that has lines already. -/
theorem LogSystem.retained_of_run {card : SdCard} {s : LogSystem}
    (h : Reaches logStep (fun s a ↦ a.Succeeds ∧ ¬s.ReopensToday a) (logPowerOn card) s) :
    s.Retained := by
  have hinv : s.Inv := h.invariant ⟨nofun, fun hlast ↦ absurd rfl hlast, nofun, nofun⟩
    fun hinv hok hstep ↦ hinv.step hok.1 hok.2 hstep
  intro n hn day hle hweek
  refine ⟨(slotOfDay day).toUInt8, ?_, ?_, hinv.kept n hn day hle hweek⟩ <;>
  · rw [UInt8.le_iff_toNat_le, Nat.toUInt8_eq, UInt8.toNat_ofNat', slotOfDay]
    simp only [UInt8.reduceToNat]
    omega

/-! ### A reset in the middle of the day -/

/-- SD operations that all succeed. -/
def workingIo : LogIo :=
  ⟨true, ⟨true, true, true, 128, true⟩⟩

theorem succeeds_workingIo (r : ClockReading) (data : MonitorMeasurement) (mode : MonitorMode) :
    (LogAction.write r data mode workingIo).Succeeds := by
  refine ⟨rfl, rfl, rfl, rfl, rfl, ?_⟩
  have hlen := length_logText_le r.rtc data mode
  rw [logLine_eq, crlfLine, List.length_append]
  simp only [workingIo, List.length_cons, List.length_nil]
  omega

/-- Sunday 6 September 2026, at a full hour. -/
def sundayAt (hours : UInt8) : ClockReading where
  rtc := ⟨26, 9, 6, 7, hours, 0, 0⟩
  date := ⟨26, 9, 6, by decide, by decide, by decide, by decide⟩
  year_eq := rfl
  month_eq := rfl
  date_eq := rfl
  weekDay_eq := rfl

/-- A day of September 2026, the first being 0. -/
def september (d : Fin 30) : Date :=
  ⟨26, 9, d + 1, by decide, by decide, Nat.succ_pos d, d.isLt⟩

def calmSea : MonitorMeasurement :=
  ⟨20, 50, 60, 90⟩

/-- Two writes on one day, without a reset between them. -/
theorem LogSystem.retained_sunday :
    ∃ s, exec logStep (logPowerOn fun _ ↦ none)
        [.write (sundayAt 10) calmSea .normal workingIo,
          .write (sundayAt 11) calmSea .normal workingIo] = some s ∧
      s.written.length = 2 ∧ s.Retained := by
  have hempty : ¬(logPowerOn fun _ ↦ none).ReopensToday
      (.write (sundayAt 10) calmSea .normal workingIo) := by
    rintro ⟨-, w, hw, -⟩
    cases hw
  have hfirst : Reaches logStep (fun s a ↦ a.Succeeds ∧ ¬s.ReopensToday a)
      (logPowerOn fun _ ↦ none) _ :=
    .step .start ⟨succeeds_workingIo (sundayAt 10) calmSea .normal, hempty⟩ rfl
  refine ⟨_, rfl, rfl, retained_of_run (hfirst.step (a := .write (sundayAt 11) calmSea .normal
    workingIo) ⟨succeeds_workingIo .., ?_⟩ rfl)⟩
  rintro ⟨hlast, -⟩
  exact absurd hlast (by decide)

/-- **A reset loses the lines of the day.** A line at ten, a reset, a line at eleven: the second
write finds no slot remembered, deletes the file of the day, and the first line is in none of the
seven files. -/
theorem LogSystem.not_retained_reset :
    ∃ s, exec logStep (logPowerOn fun _ ↦ none)
        [.write (sundayAt 10) calmSea .normal workingIo, .reset,
          .write (sundayAt 11) calmSea .normal workingIo] = some s ∧ ¬s.Retained := by
  refine ⟨_, rfl, fun h ↦ ?_⟩
  obtain ⟨-, -, hfirst⟩ := logWrite_ok logCreate (fun _ ↦ none) []
    (succeeds_workingIo (sundayAt 10) calmSea .normal) fun hslot ↦ absurd hslot (by decide)
  obtain ⟨-, hlines, hsecond⟩ := logWrite_ok logCreate
    (logWrite logCreate (fun _ ↦ none) workingIo (sundayAt 10).rtc calmSea .normal).2 []
    (succeeds_workingIo (sundayAt 11) calmSea .normal)
    fun hslot ↦ absurd hslot (by decide)
  obtain ⟨slot, -, -, hsub⟩ := h (sundayAt 11) rfl (sundayAt 11).day le_rfl (by omega)
  have htwo : 2 ≤ (sdForEachLine (logWrite logCreate (logWrite logCreate (fun _ ↦ none) workingIo
      (sundayAt 10).rtc calmSea .normal).2 workingIo (sundayAt 11).rtc calmSea .normal).2
      (logFilename slot)).length := hsub.length_le
  by_cases hname : logFilename slot = fileOfDay (sundayAt 11).day
  · rw [hname, hlines.forEachLine] at htwo
    exact absurd htwo (by decide)
  · rw [sdForEachLine, hsecond _ hname, hfirst _ hname] at htwo
    exact absurd htwo (by decide)

end SubmarineMonitor
