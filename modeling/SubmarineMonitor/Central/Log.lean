import SubmarineMonitor.Central.LogPurge
import SubmarineMonitor.Foundation.Machine

/-!
# The log of the Central Computer

The class `Log`: one file for each calendar day, opened when a write first sees the new date. A
rollover closes the old file before it opens the new one and takes note of the date last, so when
the opening fails the log is left without a file but with the old date. The next write on that old
date (the clock was set back) finds the date it knows, does not look for a file, and writes to a
stream that is not open, which reports nothing.

`write_appends_iff` says after any sequence of writes which of them reaches the file of its date.

## The stream and the date

`file_` and `open_date_` are two members, and that they agree is no invariant of the class. What is
one is weaker: an open file is that of the date (`FileOfDate`), and the date may be without a file.
The model keeps both, with `file` an optional name, so the state between a failed opening and the
next one that succeeds is a state as any other.

A call gets its surroundings as an argument: what the clock says to `days_ago_date`, what it says to
`now`, whether the system lets a file be opened, and which files it lets be removed. The two
readings of the clock are separate, since the code asks it twice, and a call at midnight may find
the new date in the one and the old day in the other. Nothing is assumed about how they change from
call to call; the clock may be set back.

## The condition

`HasFile` is on the state before the call. On a date that the log knows, it must have a file, and
the file must still be there; on a new date the opening may fail, as the call then throws, and a
file that is opened must not be purged at once, which a negative retention would do.

## What is left out

A disk that is full: a write to an open stream succeeds here. Creating the directory, whose result
is ignored and which makes no difference to an opening beyond the one that `opens` stands for. The
mutex, which makes each call one step.
-/

open Directory Machine Text

namespace SubmarineMonitor

/-- The members of `Log`. -/
structure CentralLog where
  basePath : List UInt8
  retentionDays : ℤ
  /-- The name of the file that `file_` is open on. -/
  file : Option (List UInt8)
  /-- Empty if none was opened yet. -/
  openDate : List UInt8
  deriving DecidableEq

namespace CentralLog

/-- What the surroundings decide during one call. -/
structure Surroundings where
  /-- `TimeUtils::days_ago_date` by the clock of this call. -/
  daysAgoDate : ℤ → List UInt8
  /-- `TimeUtils::now`. -/
  now : List UInt8
  /-- The system lets the file of the day be opened. -/
  opens : Bool
  /-- The entries that `fs::remove` can delete. -/
  removes : List UInt8 → Bool

/-! ### The functions -/

def todayDate (env : Surroundings) : List UInt8 :=
  env.daysAgoDate 0

def computeCutoffDate (env : Surroundings) (retentionDays : ℤ) : List UInt8 :=
  env.daysAgoDate retentionDays

def filePathFor (log : CentralLog) (date : List UInt8) : List UInt8 :=
  log.basePath ++ ascii "-" ++ date ++ ascii ".log"

/-- The name of that file in the directory of the log. -/
def fileNameFor (log : CentralLog) (date : List UInt8) : List UInt8 :=
  filename (log.filePathFor date)

/-- `Log::roll_to_today_if_needed`: the log and its directory, and the text of the exception if one
is thrown. -/
def rollToTodayIfNeeded (log : CentralLog) (dir : Dir) (env : Surroundings) :
    (CentralLog × Dir) × Option (List UInt8) :=
  let today := todayDate env
  if today = log.openDate then ((log, dir), none)
  else
    let log := { log with file := none }
    match openAppend dir (log.fileNameFor today) env.opens with
    | none => ((log, dir), some (ascii "Log: failed to open " ++ log.filePathFor today))
    | some dir =>
      let log := { log with file := some (log.fileNameFor today), openDate := today }
      let cutoffDate := computeCutoffDate env log.retentionDays
      ((log, purgeOldFiles log.basePath cutoffDate env.removes dir), none)

/-- `Log::Log`. -/
def construct (basePath : List UInt8) (retentionDays : ℤ) (dir : Dir) (env : Surroundings) :
    (CentralLog × Dir) × Option (List UInt8) :=
  rollToTodayIfNeeded ⟨basePath, retentionDays, none, []⟩ dir env

/-- The line of a message, without its end. -/
def logLine (env : Surroundings) (message : List UInt8) : List UInt8 :=
  ascii "[" ++ env.now ++ ascii "] " ++ message

/-- `Log::write`: the log and its directory, and the text of the exception or the line that was
printed. A stream that is not open takes what is written to it and reports nothing. -/
def write (log : CentralLog) (dir : Dir) (env : Surroundings) (message : List UInt8) :
    (CentralLog × Dir) × Except (List UInt8) (List UInt8) :=
  match rollToTodayIfNeeded log dir env with
  | (s, some error) => (s, .error error)
  | ((log, dir), none) =>
    let line := logLine env message
    match log.file with
    | none => ((log, dir), .ok line)
    | some name => ((log, append dir name (line ++ ascii "\n")), .ok line)

/-! ### Runs -/

/-- One call of `write`, however it ends. -/
def writeStep (s : CentralLog × Dir) (call : Surroundings × List UInt8) :
    Option (CentralLog × Dir) :=
  some (write s.1 s.2 call.1 call.2).1

/-- If the call returns normally, its line is now at the end of the file of the date it observed. -/
def Appends (s : CentralLog × Dir) (call : Surroundings × List UInt8) : Prop :=
  ∀ line, (write s.1 s.2 call.1 call.2).2 = .ok line →
    contentOf (write s.1 s.2 call.1 call.2).1.2 (s.1.fileNameFor (todayDate call.1)) =
      some ((contentOf s.2 (s.1.fileNameFor (todayDate call.1))).getD [] ++ line ++ ascii "\n")

/-- Before the call: if the log already has the date of the call, it has a file and the file is
there; and if it opens a file, it does not purge it in the same breath. -/
structure HasFile (s : CentralLog × Dir) (env : Surroundings) : Prop where
  of_eq : todayDate env = s.1.openDate →
    s.1.file.isSome ∧ (contentOf s.2 (s.1.fileNameFor (todayDate env))).isSome
  of_ne : todayDate env ≠ s.1.openDate →
    (openAppend s.2 (s.1.fileNameFor (todayDate env)) env.opens).isSome →
    ¬(isExpired s.1.basePath (computeCutoffDate env s.1.retentionDays)
        (s.1.fileNameFor (todayDate env)) = true ∧
      env.removes (s.1.fileNameFor (todayDate env)) = true)

/-- An open file is that of the date the log knows. -/
def FileOfDate (log : CentralLog) : Prop :=
  ∀ name, log.file = some name → name = log.fileNameFor log.openDate

/-! ### One call -/

/-- **What a rollover can do**: nothing on the date it knows; otherwise close the old file, and open
the new one or fail to. -/
theorem rollToTodayIfNeeded_cases (log : CentralLog) (dir : Dir) (env : Surroundings) :
    (todayDate env = log.openDate ∧ rollToTodayIfNeeded log dir env = ((log, dir), none)) ∨
    (todayDate env ≠ log.openDate ∧
      openAppend dir (log.fileNameFor (todayDate env)) env.opens = none ∧
      rollToTodayIfNeeded log dir env = (({ log with file := none }, dir),
        some (ascii "Log: failed to open " ++ log.filePathFor (todayDate env)))) ∨
    ∃ dir', todayDate env ≠ log.openDate ∧
      openAppend dir (log.fileNameFor (todayDate env)) env.opens = some dir' ∧
      rollToTodayIfNeeded log dir env =
        (({ log with file := some (log.fileNameFor (todayDate env)), openDate := todayDate env },
          purgeOldFiles log.basePath (computeCutoffDate env log.retentionDays) env.removes dir'),
          none) := by
  by_cases hdate : todayDate env = log.openDate
  · exact .inl ⟨hdate, by rw [rollToTodayIfNeeded, if_pos hdate]⟩
  have hname : ({ log with file := none } : CentralLog).fileNameFor (todayDate env) =
      log.fileNameFor (todayDate env) := rfl
  cases hopen : openAppend dir (log.fileNameFor (todayDate env)) env.opens with
  | none =>
    refine .inr (.inl ⟨hdate, rfl, ?_⟩)
    simp only [rollToTodayIfNeeded, if_neg hdate, hname, hopen]
    rfl
  | some dir' =>
    refine .inr (.inr ⟨dir', hdate, rfl, ?_⟩)
    simp only [rollToTodayIfNeeded, if_neg hdate, hname, hopen]

/-- A rollover keeps the file and the date together, whether it succeeds or not. -/
theorem FileOfDate.roll {log : CentralLog} (h : log.FileOfDate) (dir : Dir) (env : Surroundings) :
    (rollToTodayIfNeeded log dir env).1.1.FileOfDate := by
  obtain ⟨-, heq⟩ | ⟨-, -, heq⟩ | ⟨dir', -, -, heq⟩ := rollToTodayIfNeeded_cases log dir env
  · rw [heq]
    exact h
  · rw [heq]
    exact fun _ hname ↦ absurd hname.symm (Option.some_ne_none _)
  · rw [heq]
    exact fun name hname ↦ (Option.some.inj hname).symm

theorem write_log (log : CentralLog) (dir : Dir) (env : Surroundings) (message : List UInt8) :
    (write log dir env message).1.1 = (rollToTodayIfNeeded log dir env).1.1 := by
  rw [write]
  rcases rollToTodayIfNeeded log dir env with ⟨⟨log', dir'⟩, _ | error⟩
  · cases hfile : log'.file <;> simp only [hfile]
  · rfl

/-- **After any calls** an open file is that of the date the log knows. -/
theorem fileOfDate_of_reaches {s₀ s : CentralLog × Dir} (h₀ : s₀.1.FileOfDate)
    (h : Reaches writeStep (fun _ _ ↦ True) s₀ s) : s.1.FileOfDate := by
  refine h.invariant (I := fun s ↦ s.1.FileOfDate) h₀ ?_
  rintro ⟨log, dir⟩ s' ⟨env, message⟩ hlog - hstep
  obtain rfl := Option.some.inj hstep
  show (write log dir env message).1.1.FileOfDate
  rw [write_log]
  exact hlog.roll dir env

/-! ### What reaches the file -/

/-- The call behind a rollover that succeeded or was not needed. -/
theorem write_of_roll {log log' : CentralLog} {dir dir' : Dir} {env : Surroundings}
    (h : rollToTodayIfNeeded log dir env = ((log', dir'), none)) (message : List UInt8) :
    write log dir env message =
      match log'.file with
      | none => ((log', dir'), .ok (logLine env message))
      | some name =>
        ((log', append dir' name (logLine env message ++ ascii "\n")),
          .ok (logLine env message)) := by
  rw [write, h]

/-- A line with its end is not empty. -/
theorem append_line_ne (content line : List UInt8) : content ++ line ++ ascii "\n" ≠ content := by
  intro h
  have hlen := congrArg List.length h
  rw [List.length_append, List.length_append, show (ascii "\n").length = 1 from rfl] at hlen
  omega

/-- What an open file holds after a line was appended to it. -/
theorem contentOf_append_line (dir : Dir) (name line : List UInt8) (old : Option (List UInt8)) :
    contentOf (append dir name (line ++ ascii "\n")) name =
        some (old.getD [] ++ line ++ ascii "\n") ↔
      contentOf dir name = some (old.getD []) := by
  rw [contentOf_append]
  cases contentOf dir name with
  | none => simp
  | some content => simp [← List.append_assoc]

section

variable {s : CentralLog × Dir} {call : Surroundings × List UInt8} {log' : CentralLog} {dir' : Dir}

/-- A call whose rollover left the log with the file of its date. -/
theorem appends_of_roll_some (h : rollToTodayIfNeeded s.1 s.2 call.1 = ((log', dir'), none))
    (hfile : log'.file = some (s.1.fileNameFor (todayDate call.1))) :
    Appends s call ↔ contentOf dir' (s.1.fileNameFor (todayDate call.1)) =
      some ((contentOf s.2 (s.1.fileNameFor (todayDate call.1))).getD []) := by
  have hwrite := write_of_roll h call.2
  rw [hfile] at hwrite
  rw [Appends, hwrite]
  simp only [Except.ok.injEq, forall_eq']
  exact contentOf_append_line _ _ _ _

/-- A call that finds the log without a file, and looks for none. -/
theorem not_appends_of_roll_none (h : rollToTodayIfNeeded s.1 s.2 call.1 = ((log', s.2), none))
    (hfile : log'.file = none) : ¬Appends s call := by
  intro happends
  have hwrite := write_of_roll h call.2
  rw [hfile] at hwrite
  have hlost := happends (logLine call.1 call.2) (by rw [hwrite])
  rw [hwrite] at hlost
  cases hcontent : contentOf s.2 (s.1.fileNameFor (todayDate call.1)) with
  | none =>
    rw [hcontent] at hlost
    cases hlost
  | some content =>
    rw [hcontent] at hlost
    exact append_line_ne content _ (Option.some.inj hlost).symm

/-- A call whose rollover failed does not return. -/
theorem appends_of_roll_error {error : List UInt8}
    (h : rollToTodayIfNeeded s.1 s.2 call.1 = ((log', dir'), some error)) : Appends s call := by
  intro line hline
  rw [write, h] at hline
  cases hline

end

/-- **Which calls reach the file of their date**: those that find the log with a file. -/
theorem FileOfDate.appends_iff {s : CentralLog × Dir} (h : s.1.FileOfDate)
    (call : Surroundings × List UInt8) : Appends s call ↔ HasFile s call.1 := by
  obtain ⟨hdate, heq⟩ | ⟨hdate, hopen, heq⟩ | ⟨dir', hdate, hopen, heq⟩ :=
    rollToTodayIfNeeded_cases s.1 s.2 call.1
  · -- no rollover: the file is the one that is open, if any is
    have hiff : HasFile s call.1 ↔ s.1.file.isSome ∧
        (contentOf s.2 (s.1.fileNameFor (todayDate call.1))).isSome :=
      ⟨fun hfile ↦ hfile.of_eq hdate, fun hfile ↦ ⟨fun _ ↦ hfile, fun hne ↦ absurd hdate hne⟩⟩
    rw [hiff]
    cases hfile : s.1.file with
    | none =>
      exact iff_of_false (not_appends_of_roll_none heq hfile) fun hsome ↦
        absurd hsome.1 Bool.false_ne_true
    | some name =>
      obtain rfl : name = s.1.fileNameFor (todayDate call.1) := hdate ▸ h name hfile
      rw [appends_of_roll_some heq hfile]
      cases contentOf s.2 (s.1.fileNameFor (todayDate call.1)) <;> simp
  · -- the opening failed, and that is reported
    refine iff_of_true (appends_of_roll_error heq)
      ⟨fun hsame ↦ absurd hsame hdate, fun _ hsome ↦ ?_⟩
    rw [hopen] at hsome
    exact absurd hsome Bool.false_ne_true
  · -- the file was opened, and is still there unless the purge takes it away
    have hiff : HasFile s call.1 ↔
        ¬(isExpired s.1.basePath (computeCutoffDate call.1 s.1.retentionDays)
            (s.1.fileNameFor (todayDate call.1)) = true ∧
          call.1.removes (s.1.fileNameFor (todayDate call.1)) = true) :=
      ⟨fun hfile ↦ hfile.of_ne hdate (by rw [hopen]; rfl),
        fun hkept ↦ ⟨fun hsame ↦ absurd hsame hdate, fun _ _ ↦ hkept⟩⟩
    rw [hiff, appends_of_roll_some heq rfl, contentOf_purgeOldFiles, contentOf_openAppend hopen]
    split_ifs with hpurged
    · exact iff_of_false (fun hnone ↦ by cases hnone) (not_not.2 hpurged)
    · exact iff_of_true rfl hpurged

/-- **Which writes are not lost.** On a log that was constructed, after any writes on any dates,
however the openings of their files and the deletions of old ones end: a write either throws or has
its line at the end of the file of its date exactly when it finds the log with a file. -/
theorem write_appends_iff {basePath : List UInt8} {retentionDays : ℤ} {dir : Dir}
    {env : Surroundings} {s₀ s : CentralLog × Dir}
    (h₀ : construct basePath retentionDays dir env = (s₀, none))
    (h : Reaches writeStep (fun _ _ ↦ True) s₀ s) (call : Surroundings × List UInt8) :
    Appends s call ↔ HasFile s call.1 := by
  have hfile : (⟨basePath, retentionDays, none, []⟩ : CentralLog).FileOfDate :=
    fun _ hname ↦ absurd hname.symm (Option.some_ne_none _)
  have hstart : s₀.1.FileOfDate := by
    have hroll := hfile.roll dir env
    rwa [← construct, h₀] at hroll
  exact (fileOfDate_of_reaches hstart h).appends_iff call

/-! ### A clock that is set back -/

/-- What a call sees at noon of this date. -/
def noon (date : List UInt8) (opens : Bool) : Surroundings where
  daysAgoDate := fun n ↦ if n = 0 then date else ascii "2026-08-01"
  now := date ++ ascii " 12:00:00"
  opens := opens
  removes := fun _ ↦ true

/-- A log that was started on the sixth of September. -/
def started : CentralLog × Dir :=
  (construct (ascii "log") 7 (fun _ ↦ none) (noon (ascii "2026-09-06") true)).1

/-- The same log when the file of the seventh could not be opened. -/
def midnightFailed : CentralLog × Dir :=
  (write started.1 started.2 (noon (ascii "2026-09-07") false) (ascii "first")).1

theorem construct_eq_started :
    construct (ascii "log") 7 (fun _ ↦ none) (noon (ascii "2026-09-06") true) = (started, none) :=
  Prod.ext rfl (by decide +kernel)

theorem reaches_midnightFailed : Reaches writeStep (fun _ _ ↦ True) started midnightFailed :=
  .step (a := (noon (ascii "2026-09-07") false, ascii "first")) .start trivial rfl

/-- Both directions of the characterisation at the call that follows, on the sixth again. -/
theorem write_appends_iff_midnightFailed :
    Appends midnightFailed (noon (ascii "2026-09-06") true, ascii "second") ↔
      HasFile midnightFailed (noon (ascii "2026-09-06") true) :=
  write_appends_iff construct_eq_started reaches_midnightFailed
    (noon (ascii "2026-09-06") true, ascii "second")

/-- **A write can be lost without a word.** Started on the sixth, a failed opening on the seventh,
and the clock back on the sixth: the write returns and its line is nowhere. -/
theorem not_write_appends :
    ¬∀ (basePath : List UInt8) (retentionDays : ℤ) (dir : Dir) (env : Surroundings)
      (s₀ s : CentralLog × Dir), construct basePath retentionDays dir env = (s₀, none) →
      Reaches writeStep (fun _ _ ↦ True) s₀ s →
      ∀ call : Surroundings × List UInt8, Appends s call := by
  intro h
  have happends := h _ _ _ _ _ _ construct_eq_started reaches_midnightFailed
    (noon (ascii "2026-09-06") true, ascii "second")
  have hnofile : midnightFailed.1.file = none := by decide +kernel
  have hdate : todayDate (noon (ascii "2026-09-06") true) = midnightFailed.1.openDate := by
    decide +kernel
  have hroll : rollToTodayIfNeeded midnightFailed.1 midnightFailed.2
      (noon (ascii "2026-09-06") true) = (midnightFailed, none) := by
    rw [rollToTodayIfNeeded, if_pos hdate]
  exact not_appends_of_roll_none hroll hnofile happends

end CentralLog

end SubmarineMonitor
