import Mathlib.Data.List.TakeDrop
import Mathlib.Data.List.TakeWhile
import SubmarineMonitor.Foundation.Text

/-!
# The SD card

`sdfatfs.c` over the parts of FatFs it uses. A card is its files; the result codes of the FatFs
calls are arguments, so every pattern of failures is a choice of arguments. Every function mounts
the card, does its work and unmounts it again under one lock, so a call is a single step.

Reading goes through `f_gets`, which this build configures to drop every carriage return.

## What FatFs may answer

Each call of FatFs has its result as an argument, and `f_write` two: the status, and how many bytes
it has stored. The two are independent, since FatFs returns `FR_OK` together with a short count when
the volume is full. What `f_close` returns decides whether the directory entry is written, and
`SDFatFS_SaveData` ignores it. `sdSaveData_complete_iff` is about all of these choices at once.

## Reading

`f_gets` is embedded with its buffer: it stops at a line feed or when the buffer is full, and in
this configuration drops carriage returns. A physical line that is longer than the buffer is handed
over in pieces; a line that ends with the file is handed over as it is. The callback gets a C
string, so a zero byte ends it.

## What is left out

The file system itself: clusters, directories, long names. A card is a function from names to
contents. Read errors in the middle of a file are taken for its end, as the loop over `f_gets` does,
and are not among the arguments here. The lock, and the delay between two lines, are in
`Node.SdAccess`.
-/

namespace SubmarineMonitor

/-! ### Files -/

def cr : UInt8 := 0x0D

def lf : UInt8 := 0x0A

/-- The files on the card, by name. -/
abbrev SdCard := List UInt8 → Option (List UInt8)

/-- What the FatFs calls of one `SDFatFS_SaveData` return. -/
structure SaveResults where
  mount : Bool
  fopen : Bool
  /-- `f_write` returned `FR_OK`. -/
  write : Bool
  /-- How many bytes `f_write` wrote; fewer than asked for when the volume is full. -/
  written : ℕ
  /-- `f_close` returned `FR_OK`: the new size reached the directory. -/
  close : Bool

/-- `SDFatFS_SaveData`: the card afterwards, and whether it returned `FR_OK`. -/
def sdSaveData (card : SdCard) (io : SaveResults) (filename data : List UInt8) : SdCard × Bool :=
  if ¬io.mount then (card, false)
  else if ¬io.fopen then (card, false)
  else
    -- `FA_OPEN_APPEND` creates the file if it is missing
    let old := (card filename).getD []
    let content := if io.close then old ++ data.take io.written else old
    (Function.update card filename (some content), io.write)

/-- `SDFatFS_SaveString`. -/
def sdSaveString (card : SdCard) (io : SaveResults) (filename str : List UInt8) : SdCard × Bool :=
  sdSaveData card io filename (str.takeWhile (· ≠ 0))

/-- `SDFatFS_DeleteFile`. `ok` is whether both the mount and `f_unlink` succeed; unlinking a file
that does not exist fails with `FR_NO_FILE`. -/
def sdDeleteFile (card : SdCard) (ok : Bool) (filename : List UInt8) : SdCard × Bool :=
  if ok ∧ (card filename).isSome then (Function.update card filename none, true)
  else (card, false)

/-- What reaches the file. -/
def SaveResults.stored (io : SaveResults) (data : List UInt8) : List UInt8 :=
  if io.mount ∧ io.fopen ∧ io.close then data.take io.written else []

/-- It is added at the end. -/
theorem sdSaveData_getD (card : SdCard) (io : SaveResults) (filename data : List UInt8) :
    ((sdSaveData card io filename data).1 filename).getD [] =
      (card filename).getD [] ++ io.stored data := by
  rcases io with ⟨mount, fopen, write, written, close⟩
  cases mount <;> cases fopen <;> cases close <;> simp [sdSaveData, SaveResults.stored]

theorem sdSaveData_of_ne (card : SdCard) (io : SaveResults) {filename name : List UInt8}
    (data : List UInt8) (h : name ≠ filename) :
    (sdSaveData card io filename data).1 name = card name := by
  rw [sdSaveData]
  split_ifs
  all_goals first
    | rfl
    | exact Function.update_of_ne h _ _

theorem sdDeleteFile_getD (card : SdCard) (ok : Bool) (filename : List UInt8) :
    ((sdDeleteFile card ok filename).1 filename).getD [] =
      if ok then [] else (card filename).getD [] := by
  rcases hfile : card filename with _ | file <;> cases ok <;> simp [sdDeleteFile, hfile]

theorem sdDeleteFile_of_ne (card : SdCard) (ok : Bool) {filename name : List UInt8}
    (h : name ≠ filename) : (sdDeleteFile card ok filename).1 name = card name := by
  rw [sdDeleteFile]
  split_ifs
  · exact Function.update_of_ne h _ _
  · rfl

/-! ### What success means -/

/-- **When a reported success is one.** `FR_OK` means that everything was appended, for each choice
of results on its own, exactly when no short write and no lost directory entry hides behind an
`FR_OK` of `f_write`. -/
theorem sdSaveData_complete_iff (card : SdCard) (io : SaveResults) (filename data : List UInt8) :
    ((sdSaveData card io filename data).2 = true →
      (sdSaveData card io filename data).1 filename =
        some ((card filename).getD [] ++ data)) ↔
      (io.mount → io.fopen → io.write →
        data = [] ∨ data.length ≤ io.written ∧ io.close = true) := by
  by_cases hmount : io.mount = true
  swap
  · exact iff_of_true (by simp [sdSaveData, hmount]) fun h ↦ absurd h hmount
  by_cases hopen : io.fopen = true
  swap
  · exact iff_of_true (by simp [sdSaveData, hmount, hopen]) fun _ h ↦ absurd h hopen
  -- past the two early returns the status is that of `f_write`
  have hstatus : (sdSaveData card io filename data).2 = io.write := by
    simp [sdSaveData, hmount, hopen]
  have hfile : (sdSaveData card io filename data).1 filename = some (if io.close then
      (card filename).getD [] ++ data.take io.written else (card filename).getD []) := by
    simp [sdSaveData, hmount, hopen]
  rw [hstatus, hfile, Option.some.injEq]
  simp only [hmount, hopen, true_imp_iff]
  apply imp_congr_right
  intro _
  cases io.close with
  | true =>
    show _ ++ data.take io.written = _ ↔ _
    rw [List.append_cancel_left_eq, List.take_eq_self_iff]
    constructor
    · intro h
      exact .inr ⟨h, rfl⟩
    · rintro (rfl | ⟨h, -⟩)
      · exact Nat.zero_le _
      · exact h
  | false =>
    show (card filename).getD [] = (card filename).getD [] ++ data ↔ _
    rw [List.self_eq_append_right]
    simp

/-- A card with room for one more byte, a file that holds one byte, and two bytes to append: `FR_OK`
is returned and half of the data is missing. -/
theorem not_sdSaveData_complete :
    ¬∀ (card : SdCard) (io : SaveResults) (filename data : List UInt8),
      (sdSaveData card io filename data).2 = true →
        (sdSaveData card io filename data).1 filename =
          some ((card filename).getD [] ++ data) := by
  intro h
  have hfull := h (fun _ ↦ some [1]) ⟨true, true, true, 1, true⟩ [0x61] [2, 3] rfl
  exact absurd hfull (by decide)

/-! ### Reading lines -/

/-- `f_gets` with room for `n` characters: what was read, and the rest of the file. -/
def fGets : List UInt8 → (n : ℕ) → List UInt8 × List UInt8
  | [], _ => ([], [])
  | c :: file, 0 => ([], c :: file)
  | c :: file, n + 1 =>
    if c = cr then fGets file (n + 1)
    else if c = lf then ([lf], file)
    else ((c :: (fGets file n).1), (fGets file n).2)

theorem length_fGets_le (file : List UInt8) (n : ℕ) :
    (fGets file n).1.length + (fGets file n).2.length ≤ file.length := by
  induction file generalizing n with
  | nil => simp [fGets]
  | cons c file ih =>
    cases n with
    | zero => simp [fGets]
    | succ n =>
      have hskip := ih (n + 1)
      have hnext := ih n
      rw [fGets]
      split_ifs <;> simp only [List.length_cons, List.length_nil] <;> omega

/-- The line handed to the callback: the string in the buffer, less its end-of-line characters. -/
def trimLine (buffer : List UInt8) : List UInt8 :=
  ((buffer.takeWhile (· ≠ 0)).reverse.dropWhile fun c ↦ c = lf ∨ c = cr).reverse

/-- `SDFatFS_ForEachLine` on an open file, with its buffer of 128 characters: the lines handed to
the callback, in order. -/
def forEachLine (file : List UInt8) : List (List UInt8) :=
  match _h : fGets file 127 with
  | ([], _) => []
  | (c :: buffer, rest) => trimLine (c :: buffer) :: forEachLine rest
termination_by file.length
decreasing_by
  have hle := length_fGets_le file 127
  rw [_h] at hle
  simp only [List.length_cons] at hle
  omega

/-- `SDFatFS_ForEachLine`, every FatFs call succeeding but for a missing file. -/
def sdForEachLine (card : SdCard) (filename : List UInt8) : List (List UInt8) :=
  match card filename with
  | none => []
  | some file => forEachLine file

/-! ### Files of complete lines -/

/-- Text that can be a line: no end-of-line character and no terminating zero in it. -/
def IsText (text : List UInt8) : Prop :=
  ∀ c ∈ text, c ≠ cr ∧ c ≠ lf ∧ c ≠ 0

/-- Printable text can be a line. -/
theorem isText_of_printable {text : List UInt8} (h : Text.Printable text) : IsText text := by
  intro c hc
  obtain ⟨hlow, -⟩ := h c hc
  refine ⟨?_, ?_, ?_⟩ <;> rintro rfl <;> exact absurd hlow (by decide)

/-- A line as the writers end it. -/
def crlfLine (text : List UInt8) : List UInt8 :=
  text ++ [cr, lf]

/-- A line is written to its end. -/
theorem sdSaveString_crlfLine (card : SdCard) (io : SaveResults) (filename : List UInt8)
    {text : List UInt8} (h : IsText text) :
    sdSaveString card io filename (crlfLine text) =
      sdSaveData card io filename (crlfLine text) := by
  have hzero : (crlfLine text).takeWhile (· ≠ 0) = crlfLine text := by
    refine List.takeWhile_eq_self_iff.2 fun c hc ↦ ?_
    rcases List.mem_append.1 hc with hc | hc
    · simpa using (h c hc).2.2
    · rcases List.mem_pair.1 hc with rfl | rfl <;> decide
  rw [sdSaveString, hzero]

/-- A line that fits the buffer is read up to its line feed. -/
theorem fGets_crlfLine {text : List UInt8} (h : IsText text) {n : ℕ} (hn : text.length < n)
    (rest : List UInt8) : fGets (crlfLine text ++ rest) n = (text ++ [lf], rest) := by
  induction text generalizing n with
  | nil =>
    obtain _ | n := n
    · simp at hn
    have hne : lf ≠ cr := by decide
    show fGets (cr :: lf :: rest) (n + 1) = _
    rw [fGets, if_pos rfl, fGets, if_neg hne, if_pos rfl]
    rfl
  | cons c text ih =>
    obtain _ | n := n
    · simp at hn
    obtain ⟨hcr, hlf, -⟩ := h c List.mem_cons_self
    have ih' := ih (fun x hx ↦ h x (List.mem_cons_of_mem c hx)) (Nat.lt_of_succ_lt_succ hn)
    show fGets (c :: (crlfLine text ++ rest)) (n + 1) = _
    rw [fGets, if_neg hcr, if_neg hlf, ih']
    rfl

/-- The end of the line is stripped again, and nothing else. -/
theorem trimLine_lf {text : List UInt8} (h : IsText text) : trimLine (text ++ [lf]) = text := by
  have hzero : (text ++ [lf]).takeWhile (· ≠ 0) = text ++ [lf] := by
    refine List.takeWhile_eq_self_iff.2 fun c hc ↦ ?_
    rcases List.mem_append.1 hc with hc | hc
    · simpa using (h c hc).2.2
    · obtain rfl := List.mem_singleton.1 hc
      decide
  rw [trimLine, hzero, List.reverse_append, List.reverse_singleton, List.singleton_append,
    List.dropWhile_cons_of_pos (by decide), List.dropWhile_eq_self_iff.2, List.reverse_reverse]
  intro hpos
  obtain ⟨hcr, hlf, -⟩ := h _ (List.mem_reverse.1 (List.getElem_mem hpos))
  rw [decide_eq_true_eq]
  exact not_or.2 ⟨hlf, hcr⟩

/-- Text without an end of line is handed over as it is. -/
theorem trimLine_text {text : List UInt8} (h : IsText text) : trimLine text = text := by
  have hzero : text.takeWhile (· ≠ 0) = text :=
    List.takeWhile_eq_self_iff.2 fun c hc ↦ by simpa using (h c hc).2.2
  rw [trimLine, hzero, List.dropWhile_eq_self_iff.2, List.reverse_reverse]
  intro hpos
  obtain ⟨hcr, hlf, -⟩ := h _ (List.mem_reverse.1 (List.getElem_mem hpos))
  rw [decide_eq_true_eq]
  exact not_or.2 ⟨hlf, hcr⟩

@[simp]
theorem forEachLine_nil : forEachLine [] = [] := by
  rw [forEachLine]
  split
  · rfl
  · rename_i heq
    cases heq

/-- One read of the loop. -/
theorem forEachLine_of_fGets {file buffer rest : List UInt8} (h : fGets file 127 = (buffer, rest))
    (hne : buffer ≠ []) : forEachLine file = trimLine buffer :: forEachLine rest := by
  rw [forEachLine]
  split
  · rename_i heq
    rw [h] at heq
    exact absurd (congrArg Prod.fst heq) hne
  · rename_i c buffer' rest' heq
    rw [h, Prod.mk.injEq] at heq
    obtain ⟨rfl, rfl⟩ := heq
    rfl

/-- There are no lines in a missing file, as in an empty one. -/
theorem sdForEachLine_eq (card : SdCard) (filename : List UInt8) :
    sdForEachLine card filename = forEachLine ((card filename).getD []) := by
  rw [sdForEachLine]
  split
  · rename_i hnone
    rw [hnone, Option.getD_none, forEachLine_nil]
  · rename_i file hsome
    rw [hsome, Option.getD_some]

/-- A complete line is read in one go. -/
theorem forEachLine_crlfLine {text : List UInt8} (h : IsText text) (hlen : text.length < 127)
    (rest : List UInt8) : forEachLine (crlfLine text ++ rest) = text :: forEachLine rest := by
  have hread := fGets_crlfLine h hlen rest
  rw [forEachLine_of_fGets hread (by simp), trimLine_lf h]

/-- **Complete lines are read back line by line**, whatever follows them. -/
theorem forEachLine_flatMap_append {texts : List (List UInt8)} (h : ∀ t ∈ texts, IsText t)
    (hlen : ∀ t ∈ texts, t.length < 127) (rest : List UInt8) :
    forEachLine (texts.flatMap crlfLine ++ rest) = texts ++ forEachLine rest := by
  induction texts with
  | nil => rfl
  | cons t texts ih =>
    have ih' := ih (fun x hx ↦ h x (List.mem_cons_of_mem t hx))
      fun x hx ↦ hlen x (List.mem_cons_of_mem t hx)
    rw [List.flatMap_cons, List.append_assoc,
      forEachLine_crlfLine (h t List.mem_cons_self) (hlen t List.mem_cons_self), ih']
    rfl

/-- **A file of complete lines is read back line by line.** -/
theorem forEachLine_flatMap {texts : List (List UInt8)} (h : ∀ t ∈ texts, IsText t)
    (hlen : ∀ t ∈ texts, t.length < 127) : forEachLine (texts.flatMap crlfLine) = texts := by
  have hread := forEachLine_flatMap_append h hlen []
  rwa [forEachLine_nil, List.append_nil, List.append_nil] at hread

/-- The file holds whole lines, none too long to be read back. -/
def HoldsLines (file : Option (List UInt8)) (texts : List (List UInt8)) : Prop :=
  file.getD [] = texts.flatMap crlfLine ∧ ∀ t ∈ texts, IsText t ∧ t.length < 127

theorem HoldsLines.forEachLine {card : SdCard} {filename : List UInt8}
    {texts : List (List UInt8)} (h : HoldsLines (card filename) texts) :
    sdForEachLine card filename = texts := by
  obtain ⟨hfile, htexts⟩ := h
  rw [sdForEachLine_eq, hfile]
  exact forEachLine_flatMap (fun t ht ↦ (htexts t ht).1) fun t ht ↦ (htexts t ht).2

end SubmarineMonitor
