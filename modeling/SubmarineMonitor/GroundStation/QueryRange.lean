import SubmarineMonitor.Central.Datetime
import SubmarineMonitor.GroundStation.CentralComputer

/-!
# The range that is asked for

What becomes of a date and a time between the ground station's menu and the database: text, six
`int`s, six bytes with the year counted from 2000, and text again on the Central Computer.
`parse_half` cuts each number to a byte without looking at it, where `parse_datetime` on the other
machine looks first. So the Central Computer searches for what was typed just when every number fits
its byte (`rangeExact_iff`); any other is replaced by the one that has the same byte, and not
refused.

## Three spellings of a time

What the operator types, what the bytes mean and what the database is asked for are compared as
numbers. The typed line is the six numbers that `%d` reads; six bytes stand for six numbers, the
year with 2000 added; and the text that the Central Computer makes of them is read as numbers again,
by its own `parse_datetime`. The range is right if all three agree, and `RangeExact` says so for
both ends, with the other half: a line that nothing printed could be read as is to be refused.

The numbers are as written, of any size. A number that no `int` holds is undefined in C, and the
statement counts it with those that do not fit.

## Bytes and dates

A byte holds more than a date needs. The thirteenth month and the twenty-fifth hour fit their bytes;
they go through unchanged, are asked for as written, and find nothing or something as texts compare.
They are not replaced, and so the range is exact. What is replaced is a number above 255 or below
zero, or a year outside 2000 to 2255.

## What is left out

The query itself, which is `GroundStation.CentralComputer`, and the rows that it finds. How the two
lines are read from the terminal.
-/

open Text

namespace SubmarineMonitor

/-! ### One half -/

/-- The two parsers read the same numbers. -/
theorem sscanf_parseHalfFormat (s : List UInt8) :
    sscanf parseHalfFormat (cString s) = (datetimeNumbers s).map UInt32.ofInt :=
  sscanf_eq parseHalfFormat (cString s)

theorem toUInt8_ofInt (n : ℤ) : (UInt32.ofInt n).toUInt8 = UInt8.ofInt n := by
  have hwide : (UInt32.ofInt n).toNat = (n % 4294967296).toNat := by
    show (UInt32.ofNat (n % 4294967296).toNat).toNat = _
    exact UInt32.toNat_ofNat_of_lt' (by show (n % 4294967296).toNat < 4294967296; omega)
  have hnarrow : (UInt8.ofInt n).toNat = (n % 256).toNat := by
    show (UInt8.ofNat (n % 256).toNat).toNat = _
    exact UInt8.toNat_ofNat_of_lt' (by show (n % 256).toNat < 256; omega)
  rw [← UInt8.toNat_inj, UInt32.toNat_toUInt8, hwide, hnarrow]
  omega

/-- The bytes that six numbers are cut to. -/
def stampOfNumbers (y mo d h mi se : ℤ) : Stamp :=
  ⟨.ofInt (y - 2000), .ofInt mo, .ofInt d, .ofInt h, .ofInt mi, .ofInt se⟩

/-- **What `parse_half` makes of six numbers** are their bytes, the year counted from 2000. -/
theorem parseHalf_eq_some_iff {s : List UInt8} {t : Stamp} :
    parseHalf s = some t ↔ ∃ y mo d h mi se,
      datetimeNumbers s = [y, mo, d, h, mi, se] ∧ stampOfNumbers y mo d h mi se = t := by
  have hyear : ∀ y : ℤ, (UInt32.ofInt y - 2000).toUInt8 = UInt8.ofInt (y - 2000) := by
    intro y
    have hsub : UInt32.ofInt y - 2000 = UInt32.ofInt (y - 2000) := by
      rw [sub_eq_add_neg y, UInt32.ofInt_add, UInt32.ofInt_neg, UInt32.sub_eq_add_neg]
      rfl
    rw [hsub, toUInt8_ofInt]
  rw [parseHalf, sscanf_parseHalfFormat]
  constructor
  · intro h
    split at h
    next y mo d hr mi se hnumbers =>
      simp only [List.map_eq_cons_iff, List.map_eq_nil_iff] at hnumbers
      obtain ⟨y, _, hnumbers, rfl, mo, _, rfl, rfl, d, _, rfl, rfl, hr, _, rfl, rfl, mi, _, rfl,
        rfl, se, _, rfl, rfl, rfl⟩ := hnumbers
      refine ⟨y, mo, d, hr, mi, se, hnumbers, ?_⟩
      rw [hyear, toUInt8_ofInt, toUInt8_ofInt, toUInt8_ofInt, toUInt8_ofInt, toUInt8_ofInt] at h
      exact Option.some.inj h
    next => cases h
  · rintro ⟨y, mo, d, h, mi, se, hnumbers, rfl⟩
    rw [hnumbers]
    show some (⟨_, _, _, _, _, _⟩ : Stamp) = _
    rw [hyear, toUInt8_ofInt, toUInt8_ofInt, toUInt8_ofInt, toUInt8_ofInt, toUInt8_ofInt]
    rfl

/-- A year that its byte holds, and five other numbers that a byte holds. -/
def FitBytes : List ℤ → Prop
  | [] => True
  | y :: ns => (2000 ≤ y ∧ y ≤ 2255) ∧ ∀ n ∈ ns, 0 ≤ n ∧ n ≤ 255

theorem fitBytes_numbers (t : Stamp) : FitBytes t.numbers := by
  have hbyte : ∀ b : UInt8, 0 ≤ (b.toNat : ℤ) ∧ (b.toNat : ℤ) ≤ 255 := by
    intro b
    have hlt := b.toNat_lt
    omega
  refine ⟨?_, ?_⟩
  · obtain ⟨hlow, hhigh⟩ := hbyte t.year
    omega
  · simp only [List.mem_cons, List.not_mem_nil, or_false, forall_eq_or_imp, forall_eq]
    exact ⟨hbyte _, hbyte _, hbyte _, hbyte _, hbyte _⟩

/-- **The bytes stand for the numbers** they were made of just when these fit. -/
theorem numbers_eq_iff {s : List UInt8} {t : Stamp} (h : parseHalf s = some t) :
    t.numbers = datetimeNumbers s ↔ FitBytes (datetimeNumbers s) := by
  constructor
  · intro heq
    rw [← heq]
    exact fitBytes_numbers t
  · intro hfit
    obtain ⟨y, mo, d, hr, mi, se, hnumbers, rfl⟩ := parseHalf_eq_some_iff.1 h
    rw [hnumbers] at hfit ⊢
    obtain ⟨⟨hylow, hyhigh⟩, hrest⟩ := hfit
    simp only [List.mem_cons, List.not_mem_nil, or_false, forall_eq_or_imp, forall_eq] at hrest
    have hyear : ((UInt8.ofInt (y - 2000)).toNat : ℤ) = y - 2000 :=
      toNat_ofInt (by omega) (by omega)
    have hback : ∀ n : ℤ, 0 ≤ n ∧ n ≤ 255 → ((UInt8.ofInt n).toNat : ℤ) = n :=
      fun n hn ↦ toNat_ofInt hn.1 (Int.lt_add_one_of_le hn.2)
    obtain ⟨hmo, hd, hhr, hmi, hse⟩ := hrest
    show [2000 + ((UInt8.ofInt (y - 2000)).toNat : ℤ), _, _, _, _, _] = _
    rw [hyear, stampOfNumbers, hback mo hmo, hback d hd, hback hr hhr, hback mi hmi, hback se hse]
    ring_nf

/-! ### The range -/

/-- `handle_client`: the start and the end that a query asks the database for. -/
def rangeStrings (m : Message) : Option (List UInt8 × List UInt8) :=
  (gsQueryRange m).map fun range ↦ (timeUtilsFormat range.start, timeUtilsFormat range.stop)

/-- What the Central Computer searches for is read as what was typed, and what nothing that it
prints is read as is refused. -/
structure RangeExact (tag : UInt8) (start stop : List UInt8) : Prop where
  arrives : ∀ range, queryRange start stop = some range →
    ∃ first last, rangeStrings (gsQuery tag range).message = some (first, last) ∧
      datetimeNumbers first = datetimeNumbers start ∧ datetimeNumbers last = datetimeNumbers stop
  refuses : ∀ s ∈ [start, stop],
    (∀ t, datetimeNumbers (timeUtilsFormat t) ≠ datetimeNumbers s) → parseHalf s = none

theorem queryRange_eq_some_iff {start stop : List UInt8} {range : GsQueryRange} :
    queryRange start stop = some range ↔
      parseHalf start = some range.start ∧ parseHalf stop = some range.stop := by
  rw [queryRange]
  constructor
  · intro h
    obtain ⟨first, hfirst, h⟩ := Option.bind_eq_some_iff.1 h
    obtain ⟨last, hlast, h⟩ := Option.bind_eq_some_iff.1 h
    obtain rfl := Option.some.inj h
    exact ⟨hfirst, hlast⟩
  · rintro ⟨hfirst, hlast⟩
    rw [hfirst, hlast]
    rfl

/-- `parse_half` accepts what has six numbers. -/
theorem exists_parseHalf_iff {s : List UInt8} :
    (∃ t, parseHalf s = some t) ↔ (datetimeNumbers s).length = 6 := by
  constructor
  · rintro ⟨t, ht⟩
    obtain ⟨y, mo, d, h, mi, se, hnumbers, -⟩ := parseHalf_eq_some_iff.1 ht
    rw [hnumbers]
    rfl
  · intro hsix
    match hnumbers : datetimeNumbers s, hsix with
    | [y, mo, d, h, mi, se], _ =>
      exact ⟨_, parseHalf_eq_some_iff.2 ⟨y, mo, d, h, mi, se, hnumbers, rfl⟩⟩

/-- **The range arrives as it was typed**, or is refused, just when all numbers that `parse_half`
reads fit their bytes, the year counted from 2000. -/
theorem rangeExact_iff (tag : UInt8) (start stop : List UInt8) :
    RangeExact tag start stop ↔
      ∀ s ∈ [start, stop], (datetimeNumbers s).length = 6 → FitBytes (datetimeNumbers s) := by
  constructor
  · intro hexact s hs hsix
    obtain ⟨t, ht⟩ := exists_parseHalf_iff.2 hsix
    by_contra hfit
    have hnone := hexact.refuses s hs fun t' heq ↦ hfit <| by
      rw [← heq, datetimeNumbers_timeUtilsFormat]
      exact fitBytes_numbers t'
    rw [ht] at hnone
    cases hnone
  · intro hfit
    have hread : ∀ s ∈ [start, stop], ∀ t, parseHalf s = some t →
        datetimeNumbers (timeUtilsFormat t) = datetimeNumbers s := by
      intro s hs t ht
      rw [datetimeNumbers_timeUtilsFormat]
      exact (numbers_eq_iff ht).2 (hfit s hs (exists_parseHalf_iff.1 ⟨t, ht⟩))
    refine ⟨fun range hrange ↦ ?_, fun s hs hnone ↦ ?_⟩
    · obtain ⟨hfirst, hlast⟩ := queryRange_eq_some_iff.1 hrange
      exact ⟨timeUtilsFormat range.start, timeUtilsFormat range.stop, rfl,
        hread start List.mem_cons_self _ hfirst,
        hread stop (List.mem_cons_of_mem _ List.mem_cons_self) _ hlast⟩
    · cases ht : parseHalf s with
      | none => rfl
      | some t => exact absurd (hread s hs t ht) (hnone t)

/-- The last second before the years that a byte can count. -/
def lastCentury : List UInt8 :=
  ascii "1999-12-31 23:59:59"

/-- What the Central Computer searches from is more than two centuries later. -/
theorem queryRange_lastCentury :
    ∃ range, queryRange lastCentury dayStop = some range ∧
      timeUtilsFormat range.start = ascii "2255-12-31 23:59:59" := by
  refine ⟨⟨⟨255, 12, 31, 23, 59, 59⟩, ⟨24, 5, 1, 23, 59, 59⟩⟩, ?_, ?_⟩
  · decide +kernel
  · decide +kernel

/-- Six numbers that an `int` holds, and another year that is searched from. -/
theorem not_forall_rangeExact :
    ¬∀ (tag : UInt8) (start stop : List UInt8),
      (∀ n ∈ datetimeNumbers start ++ datetimeNumbers stop, -2147483648 ≤ n ∧ n ≤ 2147483647) →
      RangeExact tag start stop := by
  intro h
  obtain ⟨range, hrange, hformat⟩ := queryRange_lastCentury
  obtain ⟨first, last, hstrings, hfirst, -⟩ :=
    (h tlvTagGsQueryData lastCentury dayStop (by decide +kernel)).arrives range hrange
  rw [rangeStrings, gsQueryRange_message] at hstrings
  obtain ⟨rfl, -⟩ := Prod.mk.inj (Option.some.inj hstrings)
  rw [hformat] at hfirst
  exact absurd hfirst (by decide +kernel)

end SubmarineMonitor
