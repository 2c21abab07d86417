import Mathlib.Algebra.Order.BigOperators.Group.List
import Mathlib.Data.List.Flatten
import SubmarineMonitor.Node.RecordFiles

/-!
# A line that was cut short

When the volume fills up in the middle of an append, the file ends in a part of a line, and the next
append goes on from there: the reader sees one physical line with the beginning of the one and all
of the other. It is handed over as such, or in two pieces if it does not fit the buffer, and the
line that was written completely is in neither case among what is handed over
(`forEachLine_unfinished`).

`TornLog.query_iff` says for which files and ranges a query still gives every complete line.

## How one physical line comes about

`log_write` appends at the end of the file, wherever that is. A line that was cut short has no end,
so the next line continues it. What the reader makes of that depends on how long both are together:
within the buffer it is one line that begins with the old timestamp, beyond it there are two pieces,
and the second piece begins in the middle of the second line. In neither case is the second line
handed over as it was written, unless nothing of the first was stored.

## Why the condition is what it is

The query looks at the timestamp of the physical line, so the line that follows the cut is answered
for only if nothing was stored of the cut one. Where it is out of the range its absence is right,
and the pieces must then not be sent in its place; this is part of the statement. Lines further on
are not affected.

## What is left out

A second cut in the same file. Any beginning of a line may have been stored, also all of it but the
line feed. Whether the record of the merged line can be sent at all, with 96 bytes to a queue item,
is decided in `comm_send` and not here.
-/

open Text

namespace SubmarineMonitor

/-! ### Reading on over a cut -/

theorem fGets_zero (file : List UInt8) : fGets file 0 = ([], file) := by
  cases file <;> rfl

theorem fGets_cr (file : List UInt8) (n : ℕ) : fGets (cr :: file) (n + 1) = fGets file (n + 1) := by
  rw [fGets, if_pos rfl]

/-- Text is read as far as there is room for it. -/
theorem fGets_text {text : List UInt8} (h : IsText text) {n : ℕ} (hn : text.length ≤ n)
    (file : List UInt8) :
    fGets (text ++ file) n =
      (text ++ (fGets file (n - text.length)).1, (fGets file (n - text.length)).2) := by
  induction text generalizing n with
  | nil => rfl
  | cons c text ih =>
    obtain _ | n := n
    · simp at hn
    obtain ⟨hcr, hlf, -⟩ := h c List.mem_cons_self
    have ih' := ih (fun x hx ↦ h x (List.mem_cons_of_mem c hx)) (Nat.le_of_succ_le_succ hn)
    rw [List.cons_append, fGets, if_neg hcr, if_neg hlf, ih', List.length_cons,
      Nat.add_sub_add_right]
    rfl

theorem IsText.append {s t : List UInt8} (hs : IsText s) (ht : IsText t) : IsText (s ++ t) := by
  intro c hc
  rcases List.mem_append.1 hc with hc | hc
  · exact hs c hc
  · exact ht c hc

/-- **A complete line behind an unfinished one** is read together with it, and is not handed over. -/
theorem forEachLine_unfinished {torn text sep : List UInt8} (htorn : IsText torn)
    (htext : IsText text) (hsep : sep = [] ∨ sep = [cr]) (htornlen : torn.length < 127)
    (hlen : text.length < 127) (rest : List UInt8) :
    ∃ lines, forEachLine (torn ++ sep ++ (crlfLine text ++ rest)) = lines ++ forEachLine rest ∧
      (torn ≠ [] → text ∉ lines) := by
  obtain ⟨m, hm⟩ : ∃ m, 127 - torn.length = m + 1 := ⟨127 - torn.length - 1, by omega⟩
  have hskip : fGets (sep ++ (crlfLine text ++ rest)) (m + 1) =
      fGets (crlfLine text ++ rest) (m + 1) := by
    rcases hsep with rfl | rfl
    · rfl
    · exact fGets_cr _ m
  have hread := fGets_text htorn htornlen.le (sep ++ (crlfLine text ++ rest))
  rw [hm, hskip, ← List.append_assoc] at hread
  rcases Nat.lt_or_ge text.length (m + 1) with hfits | hlong
  · -- both fit the buffer
    rw [fGets_crlfLine htext hfits] at hread
    refine ⟨[torn ++ text], ?_, fun hne hmem ↦ ?_⟩
    · rw [forEachLine_of_fGets hread (by simp), ← List.append_assoc,
        trimLine_lf (htorn.append htext)]
      rfl
    · have heq := congrArg List.length (List.mem_singleton.1 hmem)
      have hpos := List.length_pos_of_ne_nil hne
      rw [List.length_append] at heq
      omega
  · -- the buffer is full before the end of the line
    have hsplit : crlfLine text ++ rest =
        text.take (m + 1) ++ (crlfLine (text.drop (m + 1)) ++ rest) := by
      rw [crlfLine, crlfLine, ← List.append_assoc, ← List.append_assoc, List.take_append_drop]
    have hhead : IsText (text.take (m + 1)) := fun c hc ↦ htext c (List.mem_of_mem_take hc)
    have htail : IsText (text.drop (m + 1)) := fun c hc ↦ htext c (List.mem_of_mem_drop hc)
    have hheadlen : (text.take (m + 1)).length = m + 1 := List.length_take_of_le hlong
    have htaillen : (text.drop (m + 1)).length = text.length - (m + 1) := List.length_drop
    rw [hsplit, fGets_text hhead hheadlen.le, hheadlen, Nat.sub_self, fGets_zero, ← hsplit] at hread
    refine ⟨[torn ++ text.take (m + 1), text.drop (m + 1)], ?_, fun _ hmem ↦ ?_⟩
    · rw [List.append_nil] at hread
      rw [forEachLine_of_fGets hread (by simp [← List.length_eq_zero_iff, hheadlen]),
        trimLine_text (htorn.append hhead), forEachLine_crlfLine htail (by omega)]
      rfl
    · rcases List.mem_pair.1 hmem with heq | heq
      · have hlength := congrArg List.length heq
        rw [List.length_append, hheadlen] at hlength
        omega
      · have hlength := congrArg List.length heq
        omega

/-! ### Files with one cut -/

/-- The timestamp of the line is from `start` to `stop`, compared as the query compares it. -/
def LogCall.Within (c : LogCall) (start stop : Stamp) : Prop :=
  timestampKey start ≤ timestampKey c.rtc.stamp ∧ timestampKey c.rtc.stamp ≤ timestampKey stop

instance (c : LogCall) (start stop : Stamp) : Decidable (c.Within start stop) :=
  inferInstanceAs (Decidable (_ ∧ _))

/-- What is stored by complete appends. -/
def linesFile (calls : List LogCall) : List UInt8 :=
  calls.flatMap fun c ↦ logLine c.rtc c.data c.mode

/-- A log file in which one append was cut short. -/
structure TornLog where
  /-- The complete appends before it. -/
  done : List LogCall
  /-- The append that was cut short, and the bytes of its line that were stored. -/
  cut : LogCall
  torn : List UInt8
  torn_prefix : torn <+: logLine cut.rtc cut.data cut.mode
  torn_ne : torn ≠ logLine cut.rtc cut.data cut.mode
  /-- The complete appends after it. -/
  later : List LogCall

namespace TornLog

/-- The contents of the file. -/
def file (t : TornLog) : List UInt8 :=
  linesFile t.done ++ (t.torn ++ linesFile t.later)

/-- The lines that were completely written. -/
def complete (t : TornLog) : List LogCall :=
  t.done ++ t.later

end TornLog

/-! ### How they come about -/

namespace LogCall

variable {s : Log × SdCard} {c : LogCall}

/-- A call for the slot last written to only appends. -/
theorem run_of_last (hslot : slotOf c.rtc = s.1.lastWrittenDay) :
    (c.run s).1 = s.1 ∧ ((c.run s).2 (logFilename s.1.lastWrittenDay)).getD [] =
      (s.2 (logFilename s.1.lastWrittenDay)).getD [] ++
        c.io.save.stored (logLine c.rtc c.data c.mode) := by
  have hfile := logWrite_getD s.1 s.2 c.io c.rtc c.data c.mode
  rw [if_neg (fun h ↦ h.1 hslot), hslot] at hfile
  refine ⟨?_, hfile⟩
  rw [run, logWrite, if_neg (not_not.2 hslot)]

/-- Calls for other slots do not touch the file of a slot. -/
theorem foldl_run_of_ne {calls : List LogCall} (s : Log × SdCard) {slot : UInt8}
    (hslot : slot ∈ logSlots) (h : ∀ c ∈ calls, slotOf c.rtc ≠ slot) :
    (calls.foldl run s).2 (logFilename slot) = s.2 (logFilename slot) := by
  induction calls generalizing s with
  | nil => rfl
  | cons c calls ih =>
    rw [List.foldl_cons, ih _ fun c' hc' ↦ h c' (List.mem_cons_of_mem c hc')]
    exact logWrite_of_ne _ _ _ _ _ fun hname ↦ h c List.mem_cons_self
      (logFilename_inj hslot (slotOf_mem_logSlots c.rtc) hname).symm

/-- Any number of complete appends to the slot last written to. -/
theorem foldl_run_of_last {calls : List LogCall} (s : Log × SdCard)
    (hslot : ∀ c ∈ calls, slotOf c.rtc = s.1.lastWrittenDay) (hcalls : ∀ c ∈ calls, c.Succeeds) :
    (calls.foldl run s).1 = s.1 ∧
      ((calls.foldl run s).2 (logFilename s.1.lastWrittenDay)).getD [] =
        (s.2 (logFilename s.1.lastWrittenDay)).getD [] ++ linesFile calls := by
  induction calls using List.reverseRecOn with
  | nil => exact ⟨rfl, (List.append_nil _).symm⟩
  | append_singleton calls c ih =>
    obtain ⟨hlog, hfile⟩ := ih (fun c' hc' ↦ hslot c' (List.mem_append_left _ hc'))
      fun c' hc' ↦ hcalls c' (List.mem_append_left _ hc')
    have hmem : c ∈ calls ++ [c] := List.mem_append_right _ (List.mem_singleton_self c)
    obtain ⟨-, hmount, hopen, -, hclose, hwritten⟩ := hcalls c hmem
    have hlast : slotOf c.rtc = (calls.foldl run s).1.lastWrittenDay := by rw [hlog, hslot c hmem]
    obtain ⟨hlog', hfile'⟩ := run_of_last hlast
    rw [hlog, hfile, SaveResults.stored_of_le hmount hopen hclose hwritten, List.append_assoc]
      at hfile'
    rw [List.foldl_concat]
    refine ⟨hlog'.trans hlog, hfile'.trans ?_⟩
    rw [linesFile, linesFile, List.flatMap_append, List.flatMap_singleton]

end LogCall

/-- **An append that is not stored completely**, and any number of complete ones after it, leave a
file with one cut. -/
theorem TornLog.file_of_run (t : TornLog) {s : Log × SdCard}
    (hfile : (s.2 (logFilename s.1.lastWrittenDay)).getD [] = linesFile t.done)
    (hslot : slotOf t.cut.rtc = s.1.lastWrittenDay)
    (hstored : t.cut.io.save.stored (logLine t.cut.rtc t.cut.data t.cut.mode) = t.torn)
    (hlaterSlot : ∀ c ∈ t.later, slotOf c.rtc = s.1.lastWrittenDay)
    (hlater : ∀ c ∈ t.later, c.Succeeds) :
    (((t.cut :: t.later).foldl LogCall.run s).2 (logFilename s.1.lastWrittenDay)).getD [] =
      t.file := by
  obtain ⟨hlog, hcut⟩ := LogCall.run_of_last hslot
  rw [hfile, hstored] at hcut
  obtain ⟨-, hlines⟩ := LogCall.foldl_run_of_last (t.cut.run s) (by rwa [hlog]) hlater
  rw [hlog, hcut] at hlines
  rw [List.foldl_cons, hlines, file, List.append_assoc]

/-! ### What a query makes of them -/

/-- What the query sends for one file. -/
def sentFor (start stop : Stamp) (lines : List (List UInt8)) : List SendArgs :=
  lines.flatMap (queryLineCb (timestampKey start) (timestampKey stop))

/-- A record for each of the lines in range. -/
def recordsWithin (start stop : Stamp) (calls : List LogCall) : List SendArgs :=
  (calls.filter fun c ↦ c.Within start stop).map fun c ↦ c.record.args

variable {start stop : Stamp}

theorem queryLineCb_logText (c : LogCall) :
    queryLineCb (timestampKey start) (timestampKey stop) (logText c.rtc c.data c.mode) =
      if c.Within start stop then [c.record.args] else [] := by
  have hparse : parseLineTimestamp (logText c.rtc c.data c.mode) =
      some (timestampKey c.rtc.stamp) := by
    rw [c.logText_eq]
    exact parseLineTimestamp_text c.twoDigit _
  exact queryLineCb_of_parse hparse

theorem sentFor_append (lines lines' : List (List UInt8)) :
    sentFor start stop (lines ++ lines') = sentFor start stop lines ++ sentFor start stop lines' :=
  List.flatMap_append

theorem recordsWithin_append (calls calls' : List LogCall) :
    recordsWithin start stop (calls ++ calls') =
      recordsWithin start stop calls ++ recordsWithin start stop calls' := by
  rw [recordsWithin, List.filter_append, List.map_append]
  rfl

theorem recordsWithin_cons (c : LogCall) (calls : List LogCall) :
    recordsWithin start stop (c :: calls) =
      (if c.Within start stop then [c.record.args] else []) ++ recordsWithin start stop calls := by
  by_cases hin : c.Within start stop <;> simp [recordsWithin, hin]

/-- For complete lines it sends exactly the records in range. -/
theorem sentFor_map (calls : List LogCall) :
    sentFor start stop (calls.map fun c ↦ logText c.rtc c.data c.mode) =
      recordsWithin start stop calls := by
  induction calls with
  | nil => rfl
  | cons c calls ih =>
    rw [List.map_cons, recordsWithin_cons, ← ih, ← queryLineCb_logText]
    rfl

/-- A record is only sent for the line it holds. -/
theorem count_sentFor_eq_zero {lines : List (List UInt8)} {c : LogCall}
    (h : logText c.rtc c.data c.mode ∉ lines) :
    (sentFor start stop lines).count c.record.args = 0 := by
  refine List.count_eq_zero.2 fun hmem ↦ ?_
  obtain ⟨line, hline, hsent⟩ := List.mem_flatMap.1 hmem
  rw [queryLineCb] at hsent
  split at hsent
  · cases hsent
  · split at hsent
    · cases hsent
    · have hvalue := congrArg SendArgs.value (List.mem_singleton.1 hsent)
      obtain rfl : logText c.rtc c.data c.mode = line := Option.some.inj hvalue
      exact h hline

theorem LogCall.length_logText_lt (c : LogCall) : (logText c.rtc c.data c.mode).length < 127 :=
  (length_logText_le c.rtc c.data c.mode).trans_lt (by decide)

/-- Complete lines are read one by one. -/
theorem forEachLine_linesFile (calls : List LogCall) (rest : List UInt8) :
    forEachLine (linesFile calls ++ rest) =
      calls.map (fun c ↦ logText c.rtc c.data c.mode) ++ forEachLine rest := by
  have hfile : linesFile calls =
      (calls.map fun c ↦ logText c.rtc c.data c.mode).flatMap crlfLine := by
    rw [linesFile, List.flatMap_map]
    exact List.flatMap_congr fun c _ ↦ logLine_eq c.rtc c.data c.mode
  rw [hfile, forEachLine_flatMap_append]
  · intro t ht
    obtain ⟨c, -, rfl⟩ := List.mem_map.1 ht
    exact isText_logText c.rtc c.data c.mode
  · intro t ht
    obtain ⟨c, -, rfl⟩ := List.mem_map.1 ht
    exact c.length_logText_lt

theorem forEachLine_linesFile_nil (calls : List LogCall) :
    forEachLine (linesFile calls) = calls.map fun c ↦ logText c.rtc c.data c.mode := by
  have hread := forEachLine_linesFile calls []
  rwa [forEachLine_nil, List.append_nil, List.append_nil] at hread

/-- What is stored of a line that was cut short: some of its text, or all of it and half of its
end. -/
theorem TornLog.torn_cases (t : TornLog) :
    ∃ part sep, t.torn = part ++ sep ∧ IsText part ∧ part.length < 127 ∧
      (sep = [] ∨ sep = [cr]) ∧ (part = [] → t.torn = []) := by
  have htext := isText_logText t.cut.rtc t.cut.data t.cut.mode
  have hlen := t.cut.length_logText_lt
  have hstamp := t.cut.length_logText
  have htake := t.torn_prefix
  have hne := t.torn_ne
  rw [logLine_eq, crlfLine] at htake hne
  generalize logText t.cut.rtc t.cut.data t.cut.mode = text at htext hlen hstamp htake hne
  rcases Nat.lt_or_ge text.length t.torn.length with hlong | hshort
  · -- the whole text, and the carriage return
    obtain ⟨sep, hsep⟩ := List.prefix_of_prefix_length_le (List.prefix_append text [cr, lf]) htake
      hlong.le
    rw [← hsep, List.prefix_append_right_inj] at htake
    rw [← hsep] at hlong hne
    refine ⟨text, sep, hsep.symm, htext, hlen, ?_, fun h ↦ ?_⟩
    · rcases List.prefix_cons_iff.1 htake with hsep | ⟨sep, rfl, htail⟩
      · exact .inl hsep
      · rcases List.prefix_cons_iff.1 htail with rfl | ⟨sep, rfl, hnil⟩
        · exact .inr rfl
        · rw [List.prefix_nil.1 hnil] at hne
          exact absurd rfl hne
    · rw [h, List.length_nil] at hstamp
      omega
  · have hpart := List.prefix_of_prefix_length_le htake (List.prefix_append text [cr, lf]) hshort
    refine ⟨t.torn, [], (List.append_nil _).symm, fun x hx ↦ htext x (hpart.subset hx), ?_, .inl rfl,
      id⟩
    omega

namespace TornLog

variable (t : TornLog)

/-- **What the query sends for a file with one cut**: for the line that follows the cut, something
else than its record, and for all other lines their records. -/
theorem exists_sentFor_file (start stop : Stamp) {c : LogCall} {calls : List LogCall}
    (h : t.later = c :: calls) :
    ∃ lines, sentFor start stop (forEachLine t.file) =
        recordsWithin start stop t.done ++
          (sentFor start stop lines ++ recordsWithin start stop calls) ∧
      (t.torn ≠ [] → (sentFor start stop lines).count c.record.args = 0) := by
  obtain ⟨part, sep, htorn, hpart, hpartlen, hsep, hnil⟩ := t.torn_cases
  obtain ⟨lines, hread, hmissing⟩ := forEachLine_unfinished hpart
    (isText_logText c.rtc c.data c.mode) hsep hpartlen c.length_logText_lt (linesFile calls)
  have hlater : linesFile t.later = crlfLine (logText c.rtc c.data c.mode) ++ linesFile calls := by
    rw [h, linesFile, List.flatMap_cons, logLine_eq]
    rfl
  refine ⟨lines, ?_, fun hne ↦ count_sentFor_eq_zero (hmissing fun hzero ↦ hne (hnil hzero))⟩
  rw [file, hlater, htorn, forEachLine_linesFile, hread, forEachLine_linesFile_nil, sentFor_append,
    sentFor_append, sentFor_map, sentFor_map]

/-- Every complete line in range is passed on if nothing was stored of the cut line, or nothing in
range follows it. -/
theorem sublist_sentFor_file (h : t.torn = [] ∨ ∀ c ∈ t.later.head?, ¬c.Within start stop) :
    (recordsWithin start stop t.complete).Sublist (sentFor start stop (forEachLine t.file)) := by
  rw [complete, recordsWithin_append]
  by_cases hnil : t.torn = []
  · rw [file, hnil, List.nil_append, forEachLine_linesFile, forEachLine_linesFile_nil,
      sentFor_append, sentFor_map, sentFor_map]
  · rcases hlater : t.later with _ | ⟨c, calls⟩
    · -- nothing follows the cut line
      rw [file, forEachLine_linesFile, sentFor_append, sentFor_map]
      exact (List.nil_sublist _).append_left _
    · obtain ⟨lines, hsent, -⟩ := t.exists_sentFor_file start stop hlater
      have hout := h.resolve_left hnil c (by rw [hlater]; rfl)
      rw [hsent, recordsWithin_cons, if_neg hout, List.nil_append]
      exact (List.sublist_append_right _ _).append_left _

/-- Otherwise the line that follows it is passed on once less than it was written. -/
theorem exists_count_lt (h : ¬(t.torn = [] ∨ ∀ c ∈ t.later.head?, ¬c.Within start stop)) :
    ∃ c : LogCall, (sentFor start stop (forEachLine t.file)).count c.record.args <
      (recordsWithin start stop t.complete).count c.record.args := by
  simp only [not_or, not_forall, not_not] at h
  obtain ⟨hne, c, hhead, hin⟩ := h
  obtain ⟨calls, hlater⟩ := List.head?_eq_some_iff.1 hhead
  obtain ⟨lines, hsent, hmissing⟩ := t.exists_sentFor_file start stop hlater
  refine ⟨c, ?_⟩
  rw [hsent, complete, hlater, recordsWithin_append, recordsWithin_cons, if_pos hin]
  simp only [List.count_append, hmissing hne, List.count_singleton_self]
  omega

/-- One log file has a cut append in it, the others hold complete lines. `logs` is what was completely
written to each of them. -/
structure OnCard (card : SdCard) (slot : UInt8) (logs : UInt8 → List LogCall) : Prop where
  slot_mem : slot ∈ logSlots
  file_eq : (card (logFilename slot)).getD [] = t.file
  complete_eq : logs slot = t.complete
  others : ∀ slot' ∈ logSlots, slot' ≠ slot →
    (card (logFilename slot')).getD [] = linesFile (logs slot')

variable {t} {card : SdCard} {slot : UInt8} {logs : UInt8 → List LogCall} {f : TlvFrame}

theorem logOnFrame_of_asksFor (card : SdCard) (hf : f.AsksFor start stop) :
    logOnFrame card (some f) = (logSlots.flatMap fun s ↦
      sentFor start stop (sdForEachLine card (logFilename s))) ++ [queryEndArgs] := by
  rw [logOnFrame, Option.bind_some, queryRangeOfFrame_of_asksFor hf]
  rfl

theorem recordsWithin_flatMap :
    recordsWithin start stop (logSlots.flatMap logs) =
      logSlots.flatMap fun s ↦ recordsWithin start stop (logs s) := by
  rw [recordsWithin, List.filter_flatMap, List.map_flatMap]
  rfl

theorem OnCard.sentFor_this (h : t.OnCard card slot logs) :
    sentFor start stop (sdForEachLine card (logFilename slot)) =
      sentFor start stop (forEachLine t.file) := by
  rw [sdForEachLine_eq, h.file_eq]

theorem OnCard.sentFor_other (h : t.OnCard card slot logs) {s : UInt8} (hs : s ∈ logSlots)
    (hne : s ≠ slot) :
    sentFor start stop (sdForEachLine card (logFilename s)) =
      recordsWithin start stop (logs s) := by
  rw [sdForEachLine_eq, h.others s hs hne, forEachLine_linesFile_nil, sentFor_map]

theorem OnCard.sublist_logOnFrame (h : t.OnCard card slot logs) (hf : f.AsksFor start stop)
    (hcut : t.torn = [] ∨ ∀ c ∈ t.later.head?, ¬c.Within start stop) :
    (recordsWithin start stop (logSlots.flatMap logs)).Sublist (logOnFrame card (some f)) := by
  rw [logOnFrame_of_asksFor card hf, recordsWithin_flatMap]
  refine (List.Sublist.flatMap_right _ fun s hs ↦ ?_).trans (List.sublist_append_left _ _)
  rcases eq_or_ne s slot with rfl | hne
  · rw [h.sentFor_this, h.complete_eq]
    exact t.sublist_sentFor_file hcut
  · rw [h.sentFor_other hs hne]

theorem OnCard.not_sublist_logOnFrame (h : t.OnCard card slot logs) (hf : f.AsksFor start stop)
    (hcut : ¬(t.torn = [] ∨ ∀ c ∈ t.later.head?, ¬c.Within start stop)) :
    ¬(recordsWithin start stop (logSlots.flatMap logs)).Sublist (logOnFrame card (some f)) := by
  intro hsub
  obtain ⟨c, hlt⟩ := t.exists_count_lt hcut
  have hle := hsub.count_le c.record.args
  have hend : [queryEndArgs].count c.record.args = 0 := by
    refine List.count_eq_zero.2 fun hmem ↦ ?_
    have htag : tlvTagQueryRecord = tlvTagQueryEnd :=
      congrArg SendArgs.tag (List.mem_singleton.1 hmem)
    exact absurd htag (by decide)
  rw [logOnFrame_of_asksFor card hf, recordsWithin_flatMap, List.count_append, hend,
    List.count_flatMap, List.count_flatMap, Nat.add_zero] at hle
  have hthis : (sentFor start stop (sdForEachLine card (logFilename slot))).count c.record.args <
      (recordsWithin start stop (logs slot)).count c.record.args := by
    rw [h.sentFor_this, h.complete_eq]
    exact hlt
  refine hle.not_gt (List.sum_lt_sum _ _ (fun s hs ↦ ?_) ⟨slot, h.slot_mem, hthis⟩)
  rcases eq_or_ne s slot with rfl | hne
  · exact hthis.le
  · rw [Function.comp_apply, Function.comp_apply, h.sentFor_other hs hne]

/-- **When a cut costs only its own line.** A query sends the record of every complete line in range,
of the file with the cut and of the others, exactly if nothing was stored of the cut line, or no line
in range directly follows it. -/
theorem query_iff (h : t.OnCard card slot logs) (hf : f.AsksFor start stop) :
    (recordsWithin start stop (logSlots.flatMap logs)).Sublist (logOnFrame card (some f)) ↔
      t.torn = [] ∨ ∀ c ∈ t.later.head?, ¬c.Within start stop := by
  refine ⟨fun hsub ↦ ?_, h.sublist_logOnFrame hf⟩
  by_contra hcut
  exact h.not_sublist_logOnFrame hf hcut hsub

/-! ### A Sunday on which the volume was full at eleven -/

/-- The line of eleven o'clock, on a volume that has room for thirty bytes of it. -/
def cutAtEleven : LogCall where
  rtc := (sundayAt 11).rtc
  data := calmSea
  mode := .normal
  io := ⟨true, ⟨true, true, true, 30, true⟩⟩
  twoDigit := by decide

def sundayTorn : TornLog where
  done := [sundayCall 10 (by decide)]
  cut := cutAtEleven
  torn := (logLine (sundayAt 11).rtc calmSea .normal).take 30
  torn_prefix := List.take_prefix _ _
  torn_ne := by decide
  later := [sundayCall 12 (by decide)]

/-- The card after the three calls. -/
def sundayCard : SdCard :=
  ((sundayTorn.done ++ sundayTorn.cut :: sundayTorn.later).foldl LogCall.run
    (logCreate, fun _ ↦ none)).2

def sundayLogs (slot : UInt8) : List LogCall :=
  if slot = 1 then sundayTorn.complete else []

/-- The whole of the Sunday. -/
def sundayRequest : TlvFrame :=
  ⟨tlvTagQueryData, 12, some [26, 9, 6, 0, 0, 0, 26, 9, 6, 23, 59, 59]⟩

theorem onCard_sunday : sundayTorn.OnCard sundayCard 1 sundayLogs where
  slot_mem := by decide
  file_eq := by
    have hlast : ((sundayCall 10 (by decide)).run (logCreate, fun _ ↦ none)).1.lastWrittenDay = 1 := by
      decide
    have hten : (((sundayCall 10 (by decide)).run (logCreate, fun _ ↦ none)).2
        (logFilename 1)).getD [] = linesFile sundayTorn.done := by
      decide
    have hfile := sundayTorn.file_of_run (s := (sundayCall 10 (by decide)).run (logCreate, fun _ ↦ none))
    rw [hlast] at hfile
    refine hfile hten (by decide) (by decide) (fun c hc ↦ ?_) fun c hc ↦ ?_
    · rw [List.mem_singleton.1 hc]
      decide
    · rw [List.mem_singleton.1 hc]
      exact succeeds_workingIo (sundayAt 12) calmSea .normal
  complete_eq := rfl
  others := by
    intro slot hslot hne
    rw [sundayCard, LogCall.foldl_run_of_ne _ hslot, sundayLogs, if_neg hne]
    · rfl
    · have hall : (sundayTorn.done ++ sundayTorn.cut :: sundayTorn.later).map
          (fun c ↦ slotOf c.rtc) = [1, 1, 1] := by decide
      intro c hc hslot'
      have hmem := List.mem_map_of_mem (f := fun c : LogCall ↦ slotOf c.rtc) hc
      rw [hall, hslot'] at hmem
      exact hne (by simpa using hmem)

/-- **The line of twelve o'clock is lost**, although it was written completely: it continues the line
of eleven o'clock. -/
theorem not_forwarded_sunday :
    sundayTorn.OnCard sundayCard 1 sundayLogs ∧
      sundayRequest.AsksFor ⟨26, 9, 6, 0, 0, 0⟩ ⟨26, 9, 6, 23, 59, 59⟩ ∧
        ¬(recordsWithin ⟨26, 9, 6, 0, 0, 0⟩ ⟨26, 9, 6, 23, 59, 59⟩
          (logSlots.flatMap sundayLogs)).Sublist (logOnFrame sundayCard (some sundayRequest)) := by
  refine ⟨onCard_sunday, ⟨rfl, rfl⟩, onCard_sunday.not_sublist_logOnFrame ⟨rfl, rfl⟩ ?_⟩
  decide

/-- A query that ends before noon finds everything. -/
theorem query_iff_sunday :
    (recordsWithin ⟨26, 9, 6, 0, 0, 0⟩ ⟨26, 9, 6, 11, 59, 59⟩
      (logSlots.flatMap sundayLogs)).Sublist (logOnFrame sundayCard
        (some ⟨tlvTagQueryData, 12, some [26, 9, 6, 0, 0, 0, 26, 9, 6, 11, 59, 59]⟩)) := by
  refine (query_iff onCard_sunday ⟨rfl, rfl⟩).2 (.inr ?_)
  decide

end TornLog

end SubmarineMonitor
