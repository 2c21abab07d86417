import SubmarineMonitor.Foundation.Mutex
import SubmarineMonitor.Node.SdFatFs

/-!
# The SD card, used by several tasks

`sdfatfs.c` keeps one `FATFS` and one `FIL` for everybody, and a scan of a file even sleeps between
two lines. `Monitor` and `ObjectDetection` append lines and delete files while the task that answers
queries reads them. Here every call of FatFs is a step of its own, on the statics that all tasks
share, with `s_sd_lock` around the steps of one call of the module.

Whatever the interleaving, the calls do what they would do one after another, each of them what the
functions of the module say that take it for one step (`SdEffect`), and nobody ever finds `s_fs`
mounted or `s_fil` open that he has not mounted or opened himself (`sd_serializable`).

## Statics

All callers share one `FATFS` and one `FIL`, which are statics of `sdfatfs.c`. Here they are part of
the shared state, and an access to an open file goes through them, so a caller that lost the lock in
the middle would write into another caller's file. That this does not happen is a conclusion, not a
part of the model: nothing in the steps looks at who has mounted what.

## Effects

`SdEffect` is what a call does as one step, in the terms of `Node.SdFatFs`, for every answer that
FatFs can give, the failing ones included. A call by itself is shown to have it
(`sdEffect_of_completes`), and `Foundation.Mutex` does the rest: the completed calls can be put in
the order in which they released the lock, and the card is what that order gives.

## What is left out

`SDFatFS_PrintFile` and `SDFatFS_ListFiles`, which nobody calls. The callback of a scan runs under
the lock; it hands a line to `comm_send`, which does not wait. A card that is pulled out between two
calls of FatFs: every call may fail here, but the files do not change by themselves.
-/

open Machine Mutex

namespace SubmarineMonitor

/-! ### The statics -/

/-- `s_fil`, when a file is open. -/
structure SdFil where
  name : List UInt8
  /-- The read position. -/
  pos : ℕ
  /-- From there on reading fails. -/
  readable : ℕ
  /-- What was written and is not in the file before it is closed; none for a file being read. -/
  written : Option (List UInt8)

/-- The card, `s_fs` and `s_fil`. -/
structure SdStatics where
  card : SdCard
  mounted : Bool
  fil : Option SdFil

/-- Nothing is mounted and nothing is open. -/
def SdStatics.AtRest (s : SdStatics) : Prop :=
  s.mounted = false ∧ s.fil = none

/-! ### The calls -/

/-- A call of the module. `SDFatFS_SaveString` is a `saveData` of the string. -/
inductive SdOp
  | saveData (filename data : List UInt8)
  | forEachLine (filename : List UInt8)
  | deleteFile (filename : List UInt8)

/-- What a call makes known: whether it returned `FR_OK`, and the lines it handed to its callback.
-/
structure SdResult where
  ok : Bool
  lines : List (List UInt8)
  deriving DecidableEq

/-- Where a call stands, between `osMutexAcquire` and `osMutexRelease`. -/
inductive SdPc
  | mount (op : SdOp)
  | fopen (op : SdOp)
  | write (data : List UInt8)
  /-- Before `f_gets`. -/
  | gets (lines : List (List UInt8))
  /-- Asleep in `osDelay`. -/
  | delay (lines : List (List UInt8))
  | unlink (filename : List UInt8)
  | close (result : SdResult)
  | unmount (result : SdResult)

/-- What FatFs answers. A call looks at the part that is about it. -/
structure SdAnswer where
  /-- It returned `FR_OK`. -/
  ok : Bool
  /-- How many bytes `f_write` wrote. -/
  written : ℕ
  /-- How many bytes of the opened file can be read. -/
  readable : ℕ

/-- `f_gets` from the open file, and the position behind what was read. -/
def SdStatics.fgets (s : SdStatics) : List UInt8 × Option SdFil :=
  match s.fil with
  | none => ([], none)
  | some fil =>
    let content := ((s.card fil.name).getD []).take fil.readable
    let (buffer, rest) := fGets (content.drop fil.pos) 127
    (buffer, some { fil with pos := content.length - rest.length })

/-- `f_close` on the open file. What was written reaches it unless that fails. -/
def SdStatics.fclose (s : SdStatics) (ok : Bool) : SdStatics :=
  match s.fil with
  | some ⟨name, _, _, some written⟩ =>
    { s with
      card := if ok then Function.update s.card name (some ((s.card name).getD [] ++ written))
        else s.card
      fil := none }
  | _ => { s with fil := none }

/-- `f_open`: `FA_OPEN_APPEND` creates the file if it is missing, `FA_READ` fails on a missing one.
-/
def SdStatics.fopen (s : SdStatics) (answer : SdAnswer) : SdOp → Option (SdPc × SdStatics)
  | .saveData filename data =>
    if answer.ok then
      some (.write data, { s with
        card := Function.update s.card filename (some ((s.card filename).getD []))
        fil := some ⟨filename, 0, 0, some []⟩ })
    else none
  | .forEachLine filename =>
    if answer.ok ∧ (s.card filename).isSome then
      some (.gets [], { s with fil := some ⟨filename, 0, answer.readable, none⟩ })
    else none
  | .deleteFile _ => none

/-- What follows `sd_mount`. -/
def SdOp.mounted : SdOp → SdPc
  | .saveData filename data => .fopen (.saveData filename data)
  | .forEachLine filename => .fopen (.forEachLine filename)
  | .deleteFile filename => .unlink filename

/-- The next call of FatFs in `SDFatFS_SaveData`, `SDFatFS_ForEachLine` or `SDFatFS_DeleteFile`. -/
def sdBody (pc : SdPc) (s : SdStatics) (answer : SdAnswer) : (SdPc ⊕ SdResult) × SdStatics :=
  match pc with
  | .mount op =>
    if answer.ok then (.inl op.mounted, { s with mounted := true })
    else (.inr ⟨false, []⟩, s)
  | .fopen op =>
    match s.fopen answer op with
    | some (pc, s) => (.inl pc, s)
    | none => (.inl (.unmount ⟨false, []⟩), s)
  | .write data =>
    (.inl (.close ⟨answer.ok, []⟩),
      { s with fil := s.fil.map fun fil ↦ { fil with written := some (data.take answer.written) } })
  | .gets lines =>
    match s.fgets with
    | ([], fil) => (.inl (.close ⟨true, lines⟩), { s with fil := fil })
    | (c :: buffer, fil) =>
      (.inl (.delay (lines ++ [trimLine (c :: buffer)])), { s with fil := fil })
  | .delay lines => (.inl (.gets lines), s)
  | .unlink filename =>
    if answer.ok ∧ (s.card filename).isSome then
      (.inl (.unmount ⟨true, []⟩), { s with card := Function.update s.card filename none })
    else (.inl (.unmount ⟨false, []⟩), s)
  | .close result => (.inl (.unmount result), s.fclose answer.ok)
  | .unmount result => (.inr result, { s with mounted := false })

/-! ### A call by itself -/

/-- What a call does as one step. -/
def SdEffect : Effect SdStatics SdOp SdResult := fun op s s' r ↦
  match op with
  | .saveData filename data =>
    ∃ io, sdSaveData s.card io filename data = (s'.card, r.ok) ∧ r.lines = []
  | .forEachLine filename =>
    s'.card = s.card ∧ (r = ⟨false, []⟩ ∨ r.ok = true ∧ ∃ file readable,
      s.card filename = some file ∧ r.lines = forEachLine (file.take readable))
  | .deleteFile filename =>
    ∃ ok, sdDeleteFile s.card ok filename = (s'.card, r.ok) ∧ r.lines = []

/-- Where a call has got to that began at `s`. -/
inductive Progress (op : SdOp) (s : SdStatics) : SdStatics → SdPc → Prop
  | mount : Progress op s s (.mount op)
  | fopen : Progress op s { s with mounted := true } (.fopen op)
  | write {filename data : List UInt8} {fil : SdFil} (hop : op = .saveData filename data)
      (hname : fil.name = filename) :
      Progress op s
        ⟨Function.update s.card filename (some ((s.card filename).getD [])), true, some fil⟩
        (.write data)
  | closeWritten {filename data : List UInt8} {pos readable written : ℕ} {ok : Bool}
      (hop : op = .saveData filename data) :
      Progress op s
        ⟨Function.update s.card filename (some ((s.card filename).getD [])), true,
          some ⟨filename, pos, readable, some (data.take written)⟩⟩ (.close ⟨ok, []⟩)
  | gets {filename file : List UInt8} {pos readable : ℕ} {lines : List (List UInt8)}
      (hop : op = .forEachLine filename) (hfile : s.card filename = some file)
      (hlines : lines ++ forEachLine ((file.take readable).drop pos) =
        forEachLine (file.take readable)) :
      Progress op s ⟨s.card, true, some ⟨filename, pos, readable, none⟩⟩ (.gets lines)
  | delay {filename file : List UInt8} {pos readable : ℕ} {lines : List (List UInt8)}
      (hop : op = .forEachLine filename) (hfile : s.card filename = some file)
      (hlines : lines ++ forEachLine ((file.take readable).drop pos) =
        forEachLine (file.take readable)) :
      Progress op s ⟨s.card, true, some ⟨filename, pos, readable, none⟩⟩ (.delay lines)
  | closeRead {filename file : List UInt8} {pos readable : ℕ} (hop : op = .forEachLine filename)
      (hfile : s.card filename = some file) :
      Progress op s ⟨s.card, true, some ⟨filename, pos, readable, none⟩⟩
        (.close ⟨true, forEachLine (file.take readable)⟩)
  | unlink {filename : List UInt8} (hop : op = .deleteFile filename) :
      Progress op s { s with mounted := true } (.unlink filename)
  | unmount {t : SdStatics} {r : SdResult} (hfil : t.fil = none) (heffect : SdEffect op s t r) :
      Progress op s t (.unmount r)

/-- Reading leaves an end of what there was to read. -/
theorem fGets_suffix (file : List UInt8) (n : ℕ) : (fGets file n).2 <:+ file := by
  induction file generalizing n with
  | nil => exact List.suffix_refl []
  | cons c file ih =>
    match n with
    | 0 => exact List.suffix_refl _
    | n + 1 =>
      rw [fGets]
      split_ifs
      · exact (ih (n + 1)).trans (List.suffix_cons c file)
      · exact List.suffix_cons c file
      · exact (ih n).trans (List.suffix_cons c file)

/-- The position behind what was read is where the rest begins. -/
theorem drop_pos_fGets (content : List UInt8) (pos n : ℕ) :
    content.drop (content.length - (fGets (content.drop pos) n).2.length) =
      (fGets (content.drop pos) n).2 :=
  (List.suffix_iff_eq_drop.1 ((fGets_suffix _ n).trans (List.drop_suffix pos content))).symm

variable {op : SdOp} {s t t' : SdStatics} {j j' : SdPc} {r : SdResult} {answer : SdAnswer}
  {lines : List (List UInt8)}

/-- What a call does is seen on the card. -/
theorem SdEffect.of_card (h : SdEffect op s t r) (hcard : t'.card = t.card) :
    SdEffect op s t' r := by
  cases op with
  | saveData | forEachLine | deleteFile =>
    rw [SdEffect, hcard]
    exact h

/-- The loop ends where nothing is read. -/
theorem forEachLine_of_fGets_nil {file rest : List UInt8} (h : fGets file 127 = ([], rest)) :
    forEachLine file = [] := by
  rw [forEachLine]
  split
  · rfl
  · rename_i heq
    rw [h] at heq
    cases heq

/-- One `f_gets`: the last, or one more line. -/
theorem Progress.fgets (h : Progress op s t (.gets lines)) :
    (∃ fil, t.fgets = ([], fil) ∧ Progress op s { t with fil := fil } (.close ⟨true, lines⟩)) ∨
      ∃ c buffer fil, t.fgets = (c :: buffer, fil) ∧
        Progress op s { t with fil := fil } (.delay (lines ++ [trimLine (c :: buffer)])) := by
  cases h with
  | @gets filename file pos readable _ hop hfile hlines =>
    rw [SdStatics.fgets]
    simp only [hfile, Option.getD_some]
    have hpos := drop_pos_fGets (file.take readable) pos 127
    rcases hread : fGets ((file.take readable).drop pos) 127 with ⟨_ | ⟨c, buffer⟩, rest⟩
    · left
      rw [forEachLine_of_fGets_nil hread, List.append_nil] at hlines
      rw [hlines]
      exact ⟨_, rfl, .closeRead hop hfile⟩
    · right
      refine ⟨c, buffer, _, rfl, .delay hop hfile ?_⟩
      rw [hread] at hpos
      rw [hpos, ← hlines, List.append_assoc, forEachLine_of_fGets hread (List.cons_ne_nil _ _)]
      rfl

/-- What closing a written file leaves is what the whole call leaves. -/
theorem sdSaveData_fclose (card : SdCard) (filename data : List UInt8) (pos readable written : ℕ)
    (ok closed : Bool) :
    sdSaveData card ⟨true, true, ok, written, closed⟩ filename data =
      ((SdStatics.fclose ⟨Function.update card filename (some ((card filename).getD [])), true,
        some ⟨filename, pos, readable, some (data.take written)⟩⟩ closed).card, ok) := by
  cases closed <;> simp [sdSaveData, SdStatics.fclose]

/-- **One step of a call**, from rest. -/
theorem Progress.step (hs : s.AtRest) (h : Progress op s t j)
    (hstep : sdBody j t answer = (.inl j', t')) : Progress op s t' j' := by
  obtain ⟨hmounted, hclosed⟩ := hs
  rcases j with op' | op' | data | lines | lines | filename | result | result
  · cases h
    rw [sdBody] at hstep
    split at hstep
    · cases hstep
      cases op with
      | saveData | forEachLine => exact .fopen
      | deleteFile filename => exact .unlink rfl
    · cases hstep
  · cases h
    rw [sdBody] at hstep
    split at hstep
    · rename_i pc s' hopen
      cases hstep
      cases op with
      | saveData filename data =>
        rw [SdStatics.fopen] at hopen
        split at hopen
        · cases hopen
          exact .write rfl rfl
        · cases hopen
      | forEachLine filename =>
        rw [SdStatics.fopen] at hopen
        split at hopen
        · rename_i hok
          cases hopen
          obtain ⟨file, hfile⟩ := Option.isSome_iff_exists.1 hok.2
          exact .gets rfl hfile rfl
        · cases hopen
      | deleteFile => cases hopen
    · cases hstep
      refine .unmount hclosed ?_
      cases op with
      | saveData filename data => exact ⟨⟨true, false, false, 0, false⟩, rfl, rfl⟩
      | forEachLine filename => exact ⟨rfl, .inl rfl⟩
      | deleteFile filename => exact ⟨false, rfl, rfl⟩
  · cases h with
    | @write filename _ fil hop hname =>
      cases hstep
      obtain ⟨name, pos, readable, written⟩ := fil
      obtain rfl : name = filename := hname
      exact .closeWritten hop
  · rw [sdBody] at hstep
    rcases h.fgets with ⟨fil, hread, hnext⟩ | ⟨c, buffer, fil, hread, hnext⟩
    · rw [hread] at hstep
      cases hstep
      exact hnext
    · rw [hread] at hstep
      cases hstep
      exact hnext
  · cases h with
    | delay hop hfile hlines =>
      cases hstep
      exact .gets hop hfile hlines
  · cases h with
    | unlink hop =>
      subst hop
      rw [sdBody] at hstep
      split at hstep
      · rename_i hok
        cases hstep
        exact .unmount hclosed ⟨true, by rw [sdDeleteFile, if_pos ⟨rfl, hok.2⟩], rfl⟩
      · cases hstep
        exact .unmount hclosed ⟨false, by rw [sdDeleteFile, if_neg (by simp)], rfl⟩
  · cases h with
    | @closeWritten filename data pos readable written ok hop =>
      cases hstep
      subst hop
      exact .unmount rfl ⟨⟨true, true, ok, written, answer.ok⟩,
        sdSaveData_fclose s.card filename data pos readable written ok answer.ok, rfl⟩
    | @closeRead filename file pos readable hop hfile =>
      cases hstep
      subst hop
      exact .unmount rfl ⟨rfl, .inr ⟨rfl, file, readable, hfile, rfl⟩⟩
  · cases hstep

theorem progress_of_within (hs : s.AtRest) (h : Within sdBody s (.mount op) t j) :
    Progress op s t j := by
  induction h with
  | start => exact .mount
  | step answer _ hstep ih => exact ih.step hs hstep

/-- **A call by itself** that begins at rest ends at rest, and has done its effect. -/
theorem sdEffect_of_completes (hs : s.AtRest) (h : Completes sdBody .mount op s t r) :
    t.AtRest ∧ SdEffect op s t r := by
  obtain ⟨t', j, answer, hwithin, hlast⟩ := h
  have hprogress := progress_of_within hs hwithin
  rcases j with op' | op' | data | lines | lines | filename | result | result
  · cases hprogress
    rw [sdBody] at hlast
    split at hlast
    · cases hlast
    · cases hlast
      refine ⟨hs, ?_⟩
      cases op with
      | saveData filename data => exact ⟨⟨false, false, false, 0, false⟩, rfl, rfl⟩
      | forEachLine filename => exact ⟨rfl, .inl rfl⟩
      | deleteFile filename => exact ⟨false, rfl, rfl⟩
  · rw [sdBody] at hlast
    split at hlast <;> cases hlast
  · cases hlast
  · rw [sdBody] at hlast
    split at hlast <;> cases hlast
  · cases hlast
  · rw [sdBody] at hlast
    split at hlast <;> cases hlast
  · cases hlast
  · cases hprogress with
    | unmount hfil heffect =>
      cases hlast
      exact ⟨⟨rfl, hfil⟩, heffect.of_card rfl⟩

/-! ### All calls -/

/-- A call finds nothing mounted where it mounts, and nothing open where it opens. -/
theorem Progress.unused (hs : s.AtRest) (h : Progress op s t j) :
    (∀ op', j = .mount op' → t.AtRest) ∧ ∀ op', j = .fopen op' → t.fil = none := by
  constructor
  · rintro op' rfl
    cases h
    exact hs
  · rintro op' rfl
    cases h
    exact hs.2

/-- **The card under many hands.** In every interleaving of any number of tasks that call the
module, whatever FatFs answers, the completed calls have done one after another what each of them
does as one step; the card is what they left and everything is at rest whenever the lock is free; no
two tasks are at work; and nobody mounts or opens over somebody else. -/
theorem sd_serializable {ι : Type*} [DecidableEq ι] {c : State ι SdStatics SdOp SdPc SdResult}
    {log : List (Done ι SdOp SdResult)} (hs : s.AtRest)
    (h : Reaches (logged (Mutex.step sdBody .mount) completed) (fun _ _ ↦ True) (idle s, [])
      (c, log)) :
    (∃ s', Serial SdEffect s log s' ∧ s'.AtRest ∧ (c.owner = none → c.shared = s')) ∧
      (∀ i i', (c.pc i).Holds → (c.pc i').Holds → i = i') ∧
      ∀ i op j, c.pc i = .inside op j →
        (∀ op', j = .mount op' → c.shared.AtRest) ∧
          ∀ op', j = .fopen op' → c.shared.fil = none := by
  obtain ⟨s', hserial, hc⟩ := serializable h
  obtain ⟨hrest, hserial'⟩ := hserial.refine hs fun hI hd ↦ sdEffect_of_completes hI hd
  refine ⟨⟨s', hserial', hrest, hc.free⟩, fun i i' ↦ hc.eq_of_holds, fun i op j hpc ↦ ?_⟩
  exact (progress_of_within hrest (hc.inside i op j hpc)).unused hrest

/-- A card with one file of one line. -/
def oneLineCard : SdStatics :=
  ⟨fun name ↦ if name = [0x41] then some (crlfLine [0x78]) else none, false, none⟩

/-- A task wants to append a second line to the file while another reads it, and waits. -/
def appendSchedule : List (Action ℕ SdOp SdAnswer) :=
  [.call 1 (.forEachLine [0x41]), .acquire 1, .call 0 (.saveData [0x41] (crlfLine [0x79]))] ++
    List.replicate 7 (.work 1 ⟨true, 0, 9⟩) ++ [.release 1, .acquire 0] ++
    List.replicate 5 (.work 0 ⟨true, 3, 0⟩) ++ [.release 0]

theorem sd_serializable_append :
    ∃ (c : State ℕ SdStatics SdOp SdPc SdResult) (log : List (Done ℕ SdOp SdResult)),
      log.map (fun d ↦ (d.thread, d.result)) = [(1, ⟨true, [[0x78]]⟩), (0, ⟨true, []⟩)] ∧
      c.shared.card [0x41] = some (crlfLine [0x78] ++ crlfLine [0x79]) ∧
      ∃ s', Serial SdEffect oneLineCard log s' ∧ s'.AtRest := by
  have hrun : (exec (guarded (logged (Mutex.step sdBody .mount) completed) fun _ _ ↦ True)
      (idle oneLineCard, []) appendSchedule).map (fun s ↦
        (s.2.map fun d ↦ (d.thread, d.result), s.1.shared.card [0x41])) =
      some ([(1, ⟨true, [[0x78]]⟩), (0, ⟨true, []⟩)],
        some (crlfLine [0x78] ++ crlfLine [0x79])) := by decide +kernel
  obtain ⟨⟨c, log⟩, hexec, hfound⟩ := Option.map_eq_some_iff.1 hrun
  obtain ⟨hlog, hcard⟩ := Prod.mk.inj hfound
  obtain ⟨⟨s', hserial, hrest, -⟩, -⟩ := sd_serializable ⟨rfl, rfl⟩ (reaches_of_exec hexec)
  exact ⟨c, log, hlog, hcard, s', hserial, hrest⟩

end SubmarineMonitor
