import Mathlib.Data.List.Nodup
import SubmarineMonitor.Node.LogRetention
import SubmarineMonitor.Node.Query

/-!
# A week in seven files

Without resets, and with a line on every date, the seven log files are the last seven dates: each file
holds the lines of one of them, whole and in order, and nothing older is left. A slot is started afresh
on the very day that its old lines are seven days old, so it is the daily line that keeps the files from
being late.

`LogSystem.Rotation` is this in terms of days, for the seven days that end with today; before there have
been seven, the rest of the slots are empty. `LogSystem.week_of_run` is the same in terms of the files.

## Why every day

A slot is started afresh by the first write on its weekday. On a day without a write the file of
that weekday stays as it is and soon holds lines of more than a week ago, so *exactly the last seven
dates* is true only where every date has a line. `Daily` says this of the next action: a write today
or tomorrow. Under the same condition a slot that is remembered is today's, and the flaws of the
retention cannot show.

## Two levels

`Rotation` speaks of days and slots, and is what a write keeps; `KeepsWeek` speaks of the files, and
says that each of the seven holds the lines of one date, complete and in the order of the writes,
and that all of them together are the lines of today and the six days before, each as often as it
was written. A list is compared up to permutation there, since the slots are not in the order of the
dates.

## What is left out

Resets and failing operations: one reset on a day with lines is enough to lose them. For the first
six days the files of the days that have not come yet are absent, as the card begins without log
files.
-/

open Machine Text

namespace SubmarineMonitor

/-! ### Sorting a list by keys -/

/-- The parts of a list that belong to different keys are together the part that belongs to any of
them. -/
theorem perm_flatMap_filter {α κ : Type*} [DecidableEq κ] (key : α → κ) (l : List α)
    {keys : List κ} (hkeys : keys.Nodup) :
    (keys.flatMap fun k ↦ l.filter fun a ↦ key a = k).Perm (l.filter fun a ↦ key a ∈ keys) := by
  induction keys with
  | nil => simp
  | cons k keys ih =>
    obtain ⟨hk, hkeys⟩ := List.nodup_cons.1 hkeys
    have hfirst : (l.filter fun a ↦ key a ∈ k :: keys).filter (fun a ↦ key a = k) =
        l.filter fun a ↦ key a = k := by
      rw [List.filter_filter]
      refine List.filter_congr fun a _ ↦ ?_
      by_cases ha : key a = k <;> simp [ha]
    have hrest : (l.filter fun a ↦ key a ∈ k :: keys).filter (fun a ↦ !decide (key a = k)) =
        l.filter fun a ↦ key a ∈ keys := by
      rw [List.filter_filter]
      refine List.filter_congr fun a _ ↦ ?_
      by_cases ha : key a = k
      · simp [ha, hk]
      · simp [ha]
    rw [List.flatMap_cons]
    refine ((ih hkeys).append_left _).trans ?_
    rw [← hfirst, ← hrest]
    exact List.filter_append_perm _ _

/-! ### Runs without a gap -/

/-- The next call is a write, today or on the day after the last one. -/
def LogSystem.Daily (s : LogSystem) : LogAction → Prop
  | .write r _ _ _ => ∀ n ∈ s.now, r.day ≤ n.day + 1
  | .reset => False

instance (s : LogSystem) (a : LogAction) : Decidable (s.Daily a) :=
  match a with
  | .write r _ _ _ => inferInstanceAs (Decidable (∀ n ∈ s.now, r.day ≤ n.day + 1))
  | .reset => inferInstanceAs (Decidable False)

/-- **The seven files are the last seven dates.** Every file holds the lines of one date, in the order
in which they were written, and all of them together hold the lines of today and of the six dates
before, each as often as it was written. -/
def LogSystem.KeepsWeek (s : LogSystem) : Prop :=
  ∀ n ∈ s.now, ∃ texts : UInt8 → List (List UInt8),
    (∀ slot ∈ logSlots, HoldsLines (s.card (logFilename slot)) (texts slot) ∧
      ∃ day, texts slot = s.linesOf day) ∧
    (logSlots.flatMap texts).Perm
      ((s.written.filter fun w ↦ w.1.day ≤ n.day ∧ n.day ≤ w.1.day + 6).map Prod.snd)

/-! ### Seven days and seven slots -/

/-- The days that end with a given one, or the first seven there are. -/
def weekOf (day : ℕ) : List ℕ :=
  (List.range 7).map (day - 6 + ·)

theorem mem_weekOf {day d : ℕ} : d ∈ weekOf day ↔ day - 6 ≤ d ∧ d ≤ day - 6 + 6 := by
  simp only [weekOf, List.mem_map, List.mem_range]
  constructor
  · rintro ⟨i, hi, rfl⟩
    omega
  · rintro ⟨hlow, hhigh⟩
    exact ⟨d - (day - 6), by omega, by omega⟩

theorem nodup_weekOf (day : ℕ) : (weekOf day).Nodup :=
  List.Nodup.map (fun _ _ h ↦ Nat.add_left_cancel h) List.nodup_range

/-- Days of one week have different files. -/
theorem fileOfDay_ne_of_mem {day d d' : ℕ} (hd : d ∈ weekOf day) (hd' : d' ∈ weekOf day)
    (hne : d ≠ d') : fileOfDay d ≠ fileOfDay d' := by
  rw [mem_weekOf] at hd hd'
  rcases Nat.lt_or_gt_of_ne hne with hlt | hgt
  · exact fileOfDay_ne hlt (by omega)
  · exact (fileOfDay_ne hgt (by omega)).symm

/-- The slots of a week are the seven slots. -/
theorem perm_slots_weekOf (day : ℕ) :
    ((weekOf day).map fun d ↦ (slotOfDay d).toUInt8).Perm logSlots := by
  have hperiod : ∀ i, slotOfDay (day - 6 + i) = slotOfDay ((day - 6) % 7 + i) := by
    intro i
    rw [slotOfDay, slotOfDay]
    omega
  have key : ∀ r < 7, ((List.range 7).map fun i ↦ (slotOfDay (r + i)).toUInt8).Perm logSlots := by
    decide
  have hweek := key ((day - 6) % 7) (Nat.mod_lt _ (by decide))
  simpa only [weekOf, List.map_map, Function.comp_def, hperiod] using hweek

/-! ### The rotation -/

/-- Each day of the week has its lines in its file. -/
structure LogSystem.Rotation (s : LogSystem) (n : ClockReading) : Prop where
  past : ∀ w ∈ s.written, w.1.day ≤ n.day
  last : s.log.lastWrittenDay = slotOf n.rtc
  files : ∀ d ∈ weekOf n.day, HoldsLines (s.card (fileOfDay d)) (s.linesOf d)

/-- Before the first write nothing is there; after it, the files rotate. -/
structure LogSystem.Rotating (s : LogSystem) : Prop where
  start : s.now = none → s.log = logCreate ∧ s.written = [] ∧
    ∀ d, HoldsLines (s.card (fileOfDay d)) []
  week : ∀ n ∈ s.now, s.Rotation n

variable {s s' : LogSystem}

theorem linesOf_eq_nil_of_lt {n : ClockReading} (h : s.Rotation n) {day : ℕ} (hday : n.day < day) :
    s.linesOf day = [] :=
  LogSystem.linesOf_eq_nil fun w hw heq ↦ by
    have hle := h.past w hw
    omega

/-- What today's file holds before the write, if the write is not going to delete it. -/
theorem LogSystem.Rotating.today (h : s.Rotating) {r : ClockReading}
    (hdaily : ∀ n ∈ s.now, r.day ≤ n.day + 1) (hnow : ∀ n ∈ s.now, n.NotAfter r)
    (hslot : slotOf r.rtc = s.log.lastWrittenDay) :
    HoldsLines (s.card (fileOfDay r.day)) (s.linesOf r.day) := by
  rcases hn : s.now with _ | n
  · -- nothing written yet: no slot is remembered
    rw [(h.start hn).1, slotOf_eq] at hslot
    exact absurd hslot (slotOfDay_ne_zero r.day)
  · have hweek := h.week n hn
    have hfile : fileOfDay r.day = fileOfDay n.day := by
      rw [fileOfDay, fileOfDay, ← slotOf_eq, ← slotOf_eq, hslot, hweek.last]
    have hle := (hnow n hn).day_le
    have hnext := hdaily n hn
    rcases Nat.lt_or_ge n.day r.day with hlt | hge
    · exact absurd hfile.symm (fileOfDay_ne hlt (by omega))
    · obtain hday : n.day = r.day := Nat.le_antisymm hle hge
      rw [← hday]
      exact hweek.files n.day (mem_weekOf.2 ⟨by omega, by omega⟩)

/-- And if it is: there are no lines of today yet. -/
theorem LogSystem.Rotating.no_lines (h : s.Rotating) {r : ClockReading}
    (hnow : ∀ n ∈ s.now, n.NotAfter r) (hslot : slotOf r.rtc ≠ s.log.lastWrittenDay) :
    s.linesOf r.day = [] := by
  rcases hn : s.now with _ | n
  · refine linesOf_eq_nil fun w hw ↦ ?_
    rw [(h.start hn).2.1] at hw
    cases hw
  · have hweek := h.week n hn
    have hle := (hnow n hn).day_le
    refine linesOf_eq_nil_of_lt hweek (lt_of_le_of_ne hle fun hday ↦ hslot ?_)
    rw [hweek.last, slotOf_eq, slotOf_eq, hday]

/-- The other days of the week, before the write. -/
theorem LogSystem.Rotating.others (h : s.Rotating) {r : ClockReading}
    (hdaily : ∀ n ∈ s.now, r.day ≤ n.day + 1) (hnow : ∀ n ∈ s.now, n.NotAfter r) {d : ℕ}
    (hd : d ∈ weekOf r.day) (hne : d ≠ r.day) : HoldsLines (s.card (fileOfDay d)) (s.linesOf d) := by
  rcases hn : s.now with _ | n
  · obtain ⟨-, hwritten, hempty⟩ := h.start hn
    rw [linesOf_eq_nil (by simp [hwritten])]
    exact hempty d
  · have hle := (hnow n hn).day_le
    have hnext := hdaily n hn
    rw [mem_weekOf] at hd
    exact (h.week n hn).files d (mem_weekOf.2 ⟨by omega, by omega⟩)

/-- **A write keeps the rotation.** -/
theorem LogSystem.Rotating.step {a : LogAction} (h : s.Rotating) (hok : a.Succeeds)
    (hdaily : s.Daily a) (hstep : logStep s a = some s') : s'.Rotating := by
  cases a with
  | reset => exact hdaily.elim
  | write r data mode io =>
    rw [logStep] at hstep
    split at hstep
    · rename_i hnow
      obtain rfl := Option.some.inj hstep
      obtain ⟨hslot, hlines, hother⟩ := logWrite_ok s.log s.card (s.linesOf r.day) hok
        (h.today hdaily hnow)
      have htoday : (if slotOf r.rtc = s.log.lastWrittenDay then s.linesOf r.day else []) =
          s.linesOf r.day := by
        by_cases hsame : slotOf r.rtc = s.log.lastWrittenDay
        · rw [if_pos hsame]
        · rw [if_neg hsame, h.no_lines hnow hsame]
      rw [htoday] at hlines
      refine ⟨(fun hnone ↦ by cases hnone), ?_⟩
      rintro _ ⟨⟩
      refine ⟨?_, hslot, fun d hd ↦ ?_⟩
      · intro w hw
        rcases List.mem_append.1 hw with hw | hw
        · rcases hn : s.now with _ | n
          · rw [(h.start hn).2.1] at hw
            cases hw
          · exact ((h.week n hn).past w hw).trans (hnow n hn).day_le
        · rw [List.mem_singleton.1 hw]
      · rw [linesOf_write]
        by_cases hday : r.day = d
        · subst hday
          rw [if_pos rfl]
          exact hlines
        · have hmem : r.day ∈ weekOf r.day := mem_weekOf.2 ⟨by omega, by omega⟩
          show HoldsLines ((logWrite s.log s.card io r.rtc data mode).2 (fileOfDay d)) _
          rw [if_neg hday, List.append_nil,
            hother _ (fileOfDay_ne_of_mem hd hmem (Ne.symm hday))]
          exact h.others hdaily hnow hd (Ne.symm hday)
    · cases hstep

/-- The rotation, in terms of the files. -/
theorem LogSystem.Rotation.keepsWeek {n : ClockReading} (h : s.Rotation n) :
    ∃ texts : UInt8 → List (List UInt8),
      (∀ slot ∈ logSlots, HoldsLines (s.card (logFilename slot)) (texts slot) ∧
        ∃ day, texts slot = s.linesOf day) ∧
      (logSlots.flatMap texts).Perm
        ((s.written.filter fun w ↦ w.1.day ≤ n.day ∧ n.day ≤ w.1.day + 6).map Prod.snd) := by
  have hperm := perm_slots_weekOf n.day
  -- the file of a slot holds what reading it gives
  refine ⟨fun slot ↦ sdForEachLine s.card (logFilename slot), fun slot hslot ↦ ?_, ?_⟩
  · obtain ⟨d, hd, rfl⟩ := List.mem_map.1 (hperm.mem_iff.2 hslot)
    have hfile := h.files d hd
    have hread : sdForEachLine s.card (logFilename (slotOfDay d).toUInt8) = s.linesOf d :=
      hfile.forEachLine
    refine ⟨?_, d, hread⟩
    dsimp only
    rw [hread]
    exact hfile
  · have hdays : ((weekOf n.day).map fun d ↦ (slotOfDay d).toUInt8).flatMap
        (fun slot ↦ sdForEachLine s.card (logFilename slot)) =
          ((weekOf n.day).flatMap fun d ↦ s.written.filter fun w ↦ w.1.day = d).map Prod.snd := by
      rw [List.flatMap_map, List.map_flatMap]
      exact List.flatMap_congr fun d hd ↦ (h.files d hd).forEachLine
    have hweek : (s.written.filter fun w ↦ w.1.day ∈ weekOf n.day) =
        s.written.filter fun w ↦ w.1.day ≤ n.day ∧ n.day ≤ w.1.day + 6 := by
      refine List.filter_congr fun w hw ↦ ?_
      have hpast := h.past w hw
      rw [decide_eq_decide, mem_weekOf]
      omega
    refine (hperm.flatMap_right _).symm.trans ?_
    rw [hdays, ← hweek]
    exact (perm_flatMap_filter (fun w ↦ w.1.day) s.written (nodup_weekOf n.day)).map _

/-- **Seven files, seven dates**, after every write of every run of successful writes, one at least on
every date, that begins without log files. -/
theorem LogSystem.week_of_run {card : SdCard} (hcard : ∀ slot ∈ logSlots, card (logFilename slot) = none)
    (h : Reaches logStep (fun s a ↦ a.Succeeds ∧ s.Daily a) (logPowerOn card) s) :
    s.KeepsWeek := by
  have hstart : (logPowerOn card).Rotating := by
    refine ⟨fun _ ↦ ⟨rfl, rfl, fun d ↦ ?_⟩, fun n hn ↦ by cases hn⟩
    have hslot : (slotOfDay d).toUInt8 ∈ logSlots :=
      (perm_slots_weekOf d).mem_iff.1 (List.mem_map_of_mem (mem_weekOf.2 ⟨by omega, by omega⟩))
    show HoldsLines (card (fileOfDay d)) []
    rw [fileOfDay, hcard _ hslot]
    exact ⟨rfl, fun t ht ↦ by cases ht⟩
  have hrun : s.Rotating :=
    h.invariant hstart fun hs hok hstep ↦ hs.step hok.1 hok.2 hstep
  exact fun n hn ↦ (hrun.week n hn).keepsWeek

/-- Two writes on one Sunday. -/
theorem LogSystem.week_of_run_sunday :
    ∃ s, exec logStep (logPowerOn fun _ ↦ none)
        [.write (sundayAt 10) calmSea .normal workingIo,
          .write (sundayAt 11) calmSea .normal workingIo] = some s ∧ s.KeepsWeek := by
  have hfirst : Reaches logStep (fun s a ↦ a.Succeeds ∧ s.Daily a) (logPowerOn fun _ ↦ none) _ :=
    .step (a := .write (sundayAt 10) calmSea .normal workingIo) .start
      ⟨succeeds_workingIo (sundayAt 10) calmSea .normal, fun n hn ↦ by cases hn⟩ rfl
  refine ⟨_, rfl, week_of_run (fun _ _ ↦ rfl) (hfirst.step (a := .write (sundayAt 11) calmSea .normal
    workingIo) ⟨succeeds_workingIo .., ?_⟩ rfl)⟩
  rintro _ ⟨⟩
  decide

end SubmarineMonitor
