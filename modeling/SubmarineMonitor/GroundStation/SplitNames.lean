import SubmarineMonitor.Foundation.Separated

/-!
# The names of a crew

`split_names` of the ground station's menu: a line cut at its commas, each part without the spaces
and tabs around it, parts with nothing else in them left out. The code finds the ends of a part by
two searches for a character that is not blank and cuts out what is between them; `getline` gives no
part behind a comma that ends the line, which makes no difference, since it would be left out.

## Two translations

The functions of the standard library that the code uses are defined first, with the results the
library documents: `npos` is `none`, a `substr` that goes beyond the end is cut there, and `getline`
removes the delimiter and fails at the end of the stream only. `splitNames` is then the loop of the
source, word for word, as a recursion on what is left of the line.

`strippedParts` says what the loop is for, with Mathlib's `splitOn` and the `strip` of
`Foundation.Separated`. That the two agree is one theorem; everything about names is proved of the
second.

## A specification in three parts

The first part says which names a line has. The second says that each of them is a name: not empty,
with no comma and no blank at its ends. The third goes the other way: any list of names, joined by
commas with any blanks around each, is a line with exactly these names. It is the part that whoever
types the names relies on. No hypothesis is needed in it: that a name is one is part of
`PaddedName`, and the empty list is the empty line.

## What is left out

Other kinds of blanks than spaces and tabs stay in the names, as in the code. A carriage return at
the end of the line is one of them.
-/

open Separated

namespace SubmarineMonitor

/-! ### The standard library -/

def comma : UInt8 := 0x2C

/-- A space and a tab. -/
def blanks : List UInt8 := [0x20, 0x09]

def isBlank (c : UInt8) : Bool :=
  blanks.contains c

/-- `find_first_not_of`; `none` is `npos`. -/
def findFirstNotOf (s chars : List UInt8) : Option ℕ :=
  s.findIdx? fun c ↦ !chars.contains c

/-- `find_last_not_of`. -/
def findLastNotOf (s chars : List UInt8) : Option ℕ :=
  (s.reverse.findIdx? fun c ↦ !chars.contains c).map fun i ↦ s.length - 1 - i

def substr (s : List UInt8) (pos n : ℕ) : List UInt8 :=
  (s.drop pos).take n

/-- `std::getline` on what is left of a stream: the characters in front of the delimiter, and what
is left behind it. At the end of the stream there is nothing more to get. -/
def getline (ss : List UInt8) (delim : UInt8) : Option (List UInt8 × List UInt8) :=
  match ss with
  | [] => none
  | _ :: _ => some (ss.takeWhile (· != delim), (ss.dropWhile (· != delim)).drop 1)

/-- What is left is shorter. -/
theorem length_lt_of_getline {ss part rest : List UInt8} {delim : UInt8}
    (h : getline ss delim = some (part, rest)) : rest.length < ss.length := by
  obtain _ | ⟨c, ss⟩ := ss
  · cases h
  obtain ⟨-, rfl⟩ := Prod.mk.inj (Option.some.inj h)
  have hle := (List.dropWhile_sublist (l := c :: ss) (· != delim)).length_le
  rw [List.length_drop]
  simp only [List.length_cons] at hle ⊢
  omega

/-! ### The function -/

/-- `split_names` on what is left of the line. -/
def splitNames (ss : List UInt8) : List (List UInt8) :=
  match _h : getline ss comma with
  | none => []
  | some (part, rest) =>
    match findFirstNotOf part blanks, findLastNotOf part blanks with
    | some first, some last => substr part first (last - first + 1) :: splitNames rest
    -- where there is no first there is no last
    | _, _ => splitNames rest
termination_by ss.length
decreasing_by all_goals exact length_lt_of_getline _h

/-! ### One part -/

/-- The first character that is not blank. -/
theorem findFirstNotOf_append {l s : List UInt8} {c : UInt8} (hl : ∀ b ∈ l, isBlank b = true)
    (hc : isBlank c = false) : findFirstNotOf (l ++ c :: s) blanks = some l.length := by
  have hnone : l.findIdx? (fun b ↦ !blanks.contains b) = none := by
    rw [List.findIdx?_eq_none_iff]
    intro b hb
    rw [Bool.not_eq_false']
    exact hl b hb
  have hfirst : (!blanks.contains c) = true := by
    rw [Bool.not_eq_true']
    exact hc
  rw [findFirstNotOf, List.findIdx?_append, hnone, List.findIdx?_cons, if_pos hfirst,
    Option.map_some, Option.none_or, Nat.zero_add]

/-- The last one, the same way from behind. -/
theorem findLastNotOf_append {s r : List UInt8} {c : UInt8} (hr : ∀ b ∈ r, isBlank b = true)
    (hc : isBlank c = false) : findLastNotOf (s ++ c :: r) blanks = some s.length := by
  have hr' : ∀ b ∈ r.reverse, isBlank b = true := fun b hb ↦ hr b (List.mem_reverse.1 hb)
  have hback : (s ++ c :: r).reverse = r.reverse ++ c :: s.reverse := by simp
  have hfind := findFirstNotOf_append hr' hc (s := s.reverse)
  rw [findFirstNotOf] at hfind
  rw [findLastNotOf, hback, hfind, Option.map_some, List.length_reverse, List.length_append,
    List.length_cons]
  congr 1
  omega

/-- **What is cut out of a part** is the part without the blanks around it. -/
theorem substr_eq_strip {part : List UInt8} (h : strip isBlank part ≠ []) :
    ∃ first last, findFirstNotOf part blanks = some first ∧ findLastNotOf part blanks = some last ∧
      substr part first (last - first + 1) = strip isBlank part := by
  obtain ⟨l, r, hpart, hl, hr⟩ := exists_eq_append_strip isBlank part
  have htrimmed : Trimmed isBlank (strip isBlank part) := trimmed_strip part
  generalize strip isBlank part = m at h hpart htrimmed
  obtain ⟨c, m', hm⟩ := List.exists_cons_of_ne_nil h
  obtain ⟨m'', d, hm'⟩ := List.eq_nil_or_concat m |>.resolve_left h
  rw [List.concat_eq_append] at hm'
  have hfirst : part = l ++ c :: (m' ++ r) := by rw [hpart, hm]; rfl
  have hlast : part = (l ++ m'') ++ d :: r := by rw [hpart, hm']; simp
  have hc : isBlank c = false := htrimmed.head c (by rw [hm]; rfl)
  have hd : isBlank d = false := htrimmed.last d (by rw [hm']; simp)
  refine ⟨l.length, (l ++ m'').length, ?_, ?_, ?_⟩
  · rw [hfirst]
    exact findFirstNotOf_append hl hc
  · rw [hlast]
    exact findLastNotOf_append hr hd
  · have hlen : (l ++ m'').length - l.length + 1 = m.length := by
      rw [hm', List.length_append, List.length_append, List.length_singleton]
      omega
    rw [hlen, substr, hpart, List.drop_left, List.take_left]

/-- A part with nothing but blanks in it is skipped. -/
theorem findFirstNotOf_eq_none {part : List UInt8} (h : strip isBlank part = []) :
    findFirstNotOf part blanks = none := by
  rw [findFirstNotOf, List.findIdx?_eq_none_iff]
  intro c hc
  rw [Bool.not_eq_false']
  exact (strip_eq_nil_iff part).1 h c hc

/-! ### The line -/

/-- The parts of a line, stripped, without the empty ones. -/
def strippedParts (line : List UInt8) : List (List UInt8) :=
  ((line.splitOn comma).map (strip isBlank)).filter (· ≠ [])

theorem strippedParts_nil : strippedParts [] = [] := by decide

/-- One turn of the loop takes off one part. -/
theorem strippedParts_of_getline {ss part rest : List UInt8}
    (h : getline ss comma = some (part, rest)) :
    strippedParts ss = [strip isBlank part].filter (· ≠ []) ++ strippedParts rest := by
  obtain _ | ⟨c, ss⟩ := ss
  · cases h
  obtain ⟨rfl, rfl⟩ := Prod.mk.inj (Option.some.inj h)
  generalize c :: ss = s
  have hpart : comma ∉ s.takeWhile (· != comma) := by
    intro hmem
    exact bne_iff_ne.1 (List.mem_takeWhile_imp (p := (· != comma)) hmem) rfl
  have hs := (List.takeWhile_append_dropWhile (p := (· != comma)) (l := s)).symm
  rcases hrest : s.dropWhile (· != comma) with _ | ⟨d, rest⟩
  · -- the last part, with no comma behind it
    rw [hrest, List.append_nil] at hs
    rw [← hs] at hpart ⊢
    rw [strippedParts, List.splitOn_eq_singleton hpart, List.drop_nil, strippedParts_nil,
      List.append_nil]
    rfl
  · have hd : d = comma := by
      have hnot := List.head?_dropWhile_not (· != comma) s
      rw [hrest] at hnot
      exact bne_eq_false_iff_eq.1 hnot
    rw [hrest, hd] at hs
    generalize s.takeWhile (· != comma) = part at hpart hs
    rw [hs, strippedParts, List.splitOn_append_cons_self_of_not_mem hpart, List.map_cons]
    show ([strip isBlank part] ++ (rest.splitOn comma).map (strip isBlank)).filter _ = _
    rw [List.filter_append]
    rfl

/-- **What the loop collects** is the stripped parts. -/
theorem splitNames_eq_strippedParts (ss : List UInt8) : splitNames ss = strippedParts ss := by
  induction hn : ss.length using Nat.strong_induction_on generalizing ss with
  | _ n ih =>
    rw [splitNames]
    split
    · rename_i hnone
      obtain _ | ⟨c, ss⟩ := ss
      · exact strippedParts_nil.symm
      · cases hnone
    · rename_i part rest hsome
      have hshort : rest.length < n := hn ▸ length_lt_of_getline hsome
      rw [strippedParts_of_getline hsome, ← ih _ hshort rest rfl]
      rcases eq_or_ne (strip isBlank part) [] with hblank | hname
      · rw [findFirstNotOf_eq_none hblank, hblank]
        rfl
      · obtain ⟨first, last, hfirst, hlast, hsub⟩ := substr_eq_strip hname
        rw [hfirst, hlast]
        show substr part first (last - first + 1) :: splitNames rest = _
        have hkeep : [strip isBlank part].filter (· ≠ []) = [strip isBlank part] := by
          rw [List.filter_cons_of_pos (by simpa using hname), List.filter_nil]
        rw [hsub, hkeep, List.singleton_append]

/-! ### Names -/

/-- A name: something, with no comma in it and no blank at its ends. -/
structure IsName (name : List UInt8) : Prop where
  nonempty : name ≠ []
  comma_notMem : comma ∉ name
  trimmed : Trimmed isBlank name

theorem isName_of_mem_strippedParts {line name : List UInt8} (h : name ∈ strippedParts line) :
    IsName name := by
  obtain ⟨hmem, hne⟩ := List.mem_filter.1 h
  obtain ⟨part, hpart, rfl⟩ := List.mem_map.1 hmem
  refine ⟨of_decide_eq_true hne, ?_, trimmed_strip part⟩
  obtain ⟨l, r, hsplit, -, -⟩ := exists_eq_append_strip isBlank part
  intro hcomma
  apply notMem_of_mem_splitOn hpart
  rw [hsplit]
  exact List.mem_append_right l (List.mem_append_left r hcomma)

/-- A name as it may be typed: with any blanks around it. -/
structure PaddedName where
  before : List UInt8
  name : List UInt8
  after : List UInt8
  blank_before : ∀ c ∈ before, isBlank c = true
  isName : IsName name
  blank_after : ∀ c ∈ after, isBlank c = true

def PaddedName.text (p : PaddedName) : List UInt8 :=
  p.before ++ (p.name ++ p.after)

theorem PaddedName.strip_text (p : PaddedName) : strip isBlank p.text = p.name :=
  strip_append p.blank_before p.blank_after p.isName.trimmed p.isName.nonempty

theorem PaddedName.comma_notMem_text (p : PaddedName) : comma ∉ p.text := by
  have hblank : isBlank comma = false := rfl
  intro h
  rcases List.mem_append.1 h with h | h
  · exact Bool.false_ne_true (hblank.symm.trans (p.blank_before comma h))
  rcases List.mem_append.1 h with h | h
  · exact p.isName.comma_notMem h
  · exact Bool.false_ne_true (hblank.symm.trans (p.blank_after comma h))

theorem strippedParts_intercalate (names : List PaddedName) :
    strippedParts ([comma].intercalate (names.map PaddedName.text)) =
      names.map PaddedName.name := by
  rcases eq_or_ne names [] with rfl | hne
  · exact strippedParts_nil
  have hcomma : ∀ text ∈ names.map PaddedName.text, comma ∉ text := by
    intro text htext
    obtain ⟨p, -, rfl⟩ := List.mem_map.1 htext
    exact p.comma_notMem_text
  have hstrip : (names.map PaddedName.text).map (strip isBlank) = names.map PaddedName.name := by
    rw [List.map_map]
    exact List.map_congr_left fun p _ ↦ p.strip_text
  rw [strippedParts, List.splitOn_intercalate comma hcomma (by simpa using hne), hstrip,
    List.filter_eq_self]
  intro name hname
  obtain ⟨p, -, rfl⟩ := List.mem_map.1 hname
  exact decide_eq_true p.isName.nonempty

/-- **The names of a line** are its parts between the commas, in order, each without the blanks
around it and without those that have nothing else in them; each is a name, and the names of a list
that are joined with commas and any blanks around them are the names of that line again. -/
theorem splitNames_spec :
    (∀ line, splitNames line =
      ((line.splitOn comma).map (strip isBlank)).filter (· ≠ [])) ∧
    (∀ line, ∀ name ∈ splitNames line, IsName name) ∧
    ∀ names : List PaddedName,
      splitNames ([comma].intercalate (names.map PaddedName.text)) =
        names.map PaddedName.name := by
  refine ⟨splitNames_eq_strippedParts, ?_, ?_⟩
  · intro line name hname
    rw [splitNames_eq_strippedParts] at hname
    exact isName_of_mem_strippedParts hname
  · intro names
    rw [splitNames_eq_strippedParts]
    exact strippedParts_intercalate names

end SubmarineMonitor
