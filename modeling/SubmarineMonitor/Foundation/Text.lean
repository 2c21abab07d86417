import Mathlib.Data.List.Basic
import Mathlib.Tactic.IntervalCases

/-!
# Formatted text

The part of `printf` and `scanf` that fixed-width records need, on text as bytes without the
terminating zero: decimal numbers, two-digit fields, truncation to a buffer, and scanning with
`%2u` and `%d`.

A field that was printed with `%02u` and has at most two digits is scanned back with `%2u`, whatever
follows it (`scanUnsigned2_decimal2`). Scanning accepts more than printing produces, white space and
signs included, so the converse does not hold and is not stated.

## Text as bytes

Text in a buffer of C is bytes up to the first zero. Here it is the list of these bytes, and the
zero appears only where a buffer's size is counted: `snprintf` keeps one byte less than the size. A
text with a zero inside cannot come out of a buffer, and `cString` is what is seen of a list that
has one.

The encoding does not matter. Bytes above 127 are neither digits nor space, as in the locale in
which such programs run, and are copied as they are.

## How much of `printf`

A format is not interpreted. A definition that follows a program writes the pieces next to one
another, each with the function for its directive, which is easier to compare with the source than a
list of directives and arguments would be. For `scanf` it is the other way round. The input decides
how far the format gets, so the format is data, and `sscanf` returns the values up to the first
mismatch.

`%2u` takes at most two characters, an optional sign among them, and no more: a third digit is left
to the next directive. That is what makes scanning of fixed-width fields right for printed text and
surprising for other text.
-/

namespace Text

/-! ### Printing -/

/-- The bytes of an ASCII string. -/
def ascii (s : String) : List UInt8 :=
  s.toList.map fun c ↦ c.toNat.toUInt8

/-- `%u`: the decimal digits of a number. -/
def decimal (n : ℕ) : List UInt8 :=
  (Nat.toDigits 10 n).map fun c ↦ c.toNat.toUInt8

/-- `%02u`: at least two digits. -/
def decimal2 (n : ℕ) : List UInt8 :=
  if n < 10 then 0x30 :: decimal n else decimal n

/-- A digit of `%X`. -/
def hexDigit (d : UInt8) : UInt8 :=
  if d < 10 then 0x30 + d else 0x37 + d

/-- `%02X` of a byte. -/
def hex2 (b : UInt8) : List UInt8 :=
  [hexDigit (b >>> 4), hexDigit (b &&& 0x0F)]

/-- `%d`. -/
def signed (i : ℤ) : List UInt8 :=
  if i < 0 then 0x2D :: decimal i.natAbs else decimal i.natAbs

/-- `%s` on a `char *`: the bytes in front of the first zero. -/
def cString (text : List UInt8) : List UInt8 :=
  text.takeWhile (· != 0)

/-- What `snprintf` leaves in a buffer of this size: the text, cut to make room for the zero. -/
def snprintf (size : ℕ) (text : List UInt8) : List UInt8 :=
  text.take (size - 1)

/-- A text that fits is printed whole. -/
theorem snprintf_of_lt {size : ℕ} {text : List UInt8} (h : text.length < size) :
    snprintf size text = text :=
  List.take_of_length_le (by omega)

/-! ### Scanning -/

/-- `isspace`. -/
def isSpace (c : UInt8) : Bool :=
  c == 0x20 || (0x09 ≤ c && c ≤ 0x0D)

/-- `isdigit`. -/
def isDigit (c : UInt8) : Bool :=
  0x30 ≤ c && c ≤ 0x39

/-- The number a digit stands for. -/
def digitValue (c : UInt8) : UInt32 :=
  (c - 0x30).toUInt32

/-- `%2u`: skip white space, then convert at most two characters, an optional sign and digits. -/
def scanUnsigned2 (s : List UInt8) : Option (UInt32 × List UInt8) :=
  match s.dropWhile isSpace with
  | [] => none
  | a :: rest =>
    if isDigit a then
      match rest with
      | [] => some (digitValue a, [])
      | b :: rest' =>
        if isDigit b then some (10 * digitValue a + digitValue b, rest')
        else some (digitValue a, rest)
    else if a == 0x2B || a == 0x2D then
      match rest with
      | [] => none
      | b :: rest' =>
        if isDigit b then some (if a == 0x2D then -digitValue b else digitValue b, rest')
        else none
    else none

/-- The number that a run of digits stands for. -/
def digitsValue (ds : List UInt8) : ℕ :=
  ds.foldl (fun n d ↦ 10 * n + (digitValue d).toNat) 0

/-- `%d`: skip white space, then convert an optional sign and as many digits as there are. A number that
no `int` holds is undefined behaviour in C. -/
def scanSigned (s : List UInt8) : Option (ℤ × List UInt8) :=
  match s.dropWhile isSpace with
  | [] => none
  | a :: rest =>
    let digits := if a == 0x2B || a == 0x2D then rest else a :: rest
    if digits.takeWhile isDigit = [] then none
    else
      let n : ℤ := digitsValue (digits.takeWhile isDigit)
      some (if a == 0x2D then -n else n, digits.dropWhile isDigit)

/-- A piece of a `scanf` format. -/
inductive Directive
  /-- An ordinary character, which must match. -/
  | char (c : UInt8)
  /-- White space, which matches any amount of it. -/
  | space
  /-- `%2u`. -/
  | unsigned2
  /-- `%d`. -/
  | signed

/-- `sscanf`: the values converted before the first mismatch, each as the 32 bits it is stored in. -/
def sscanf : List Directive → List UInt8 → List UInt32
  | [], _ => []
  | .char c :: fmt, s =>
    match s with
    | [] => []
    | a :: rest => if a == c then sscanf fmt rest else []
  | .space :: fmt, s => sscanf fmt (s.dropWhile isSpace)
  | .unsigned2 :: fmt, s =>
    match scanUnsigned2 s with
    | none => []
    | some (n, rest) => n :: sscanf fmt rest
  | .signed :: fmt, s =>
    match scanSigned s with
    | none => []
    | some (n, rest) => UInt32.ofInt n :: sscanf fmt rest

/-! ### Two-digit fields -/

/-- A number below one hundred is printed as its two digits. -/
theorem decimal2_of_lt {n : ℕ} (h : n < 100) :
    decimal2 n = [0x30 + (n / 10).toUInt8, 0x30 + (n % 10).toUInt8] := by
  interval_cases n <;> rfl

theorem isDigit_add {d : ℕ} (h : d < 10) : isDigit (0x30 + d.toUInt8) = true := by
  interval_cases d <;> rfl

theorem digitValue_add {d : ℕ} (h : d < 10) : digitValue (0x30 + d.toUInt8) = d.toUInt32 := by
  interval_cases d <;> rfl

/-- A digit is not white space. -/
theorem isSpace_of_isDigit {c : UInt8} (h : isDigit c = true) : isSpace c = false := by
  rw [isDigit, Bool.and_eq_true, decide_eq_true_iff, decide_eq_true_iff, UInt8.le_iff_toNat_le,
    UInt8.le_iff_toNat_le] at h
  have hne : c ≠ 0x20 := by
    rintro rfl
    exact absurd h.1 (by decide)
  have hgt : ¬c ≤ 0x0D := by
    rw [UInt8.le_iff_toNat_le]
    have hlow : (0x30 : UInt8).toNat = 48 := rfl
    have hhigh : (0x0D : UInt8).toNat = 13 := rfl
    omega
  simp [isSpace, hne, hgt]

/-- **A two-digit field is scanned back.** -/
theorem scanUnsigned2_decimal2 {n : ℕ} (h : n < 100) (rest : List UInt8) :
    scanUnsigned2 (decimal2 n ++ rest) = some (n.toUInt32, rest) := by
  have htens : n / 10 < 10 := by omega
  have hones : n % 10 < 10 := Nat.mod_lt _ (by decide)
  rw [decimal2_of_lt h, List.cons_append, List.cons_append, List.nil_append, scanUnsigned2,
    List.dropWhile_cons_of_neg (by simp [isSpace_of_isDigit (isDigit_add htens)])]
  simp only [isDigit_add htens, isDigit_add hones, if_true, digitValue_add htens,
    digitValue_add hones]
  congr 2
  interval_cases n <;> rfl

/-! ### What printed text consists of -/

/-- Visible characters and blanks only. -/
def Printable (text : List UInt8) : Prop :=
  ∀ c ∈ text, 0x20 ≤ c ∧ c < 0x7F

instance (text : List UInt8) : Decidable (Printable text) :=
  List.decidableBAll (fun c ↦ 0x20 ≤ c ∧ c < 0x7F) text

theorem Printable.append {s t : List UInt8} (hs : Printable s) (ht : Printable t) :
    Printable (s ++ t) := by
  intro c hc
  rcases List.mem_append.1 hc with hc | hc
  · exact hs c hc
  · exact ht c hc

theorem Printable.take {s : List UInt8} (hs : Printable s) (n : ℕ) : Printable (s.take n) :=
  fun c hc ↦ hs c (List.mem_of_mem_take hc)

theorem Printable.cons {s : List UInt8} {c : UInt8} (hc : 0x20 ≤ c ∧ c < 0x7F)
    (hs : Printable s) : Printable (c :: s) := by
  intro x hx
  rcases List.mem_cons.1 hx with rfl | hx
  · exact hc
  · exact hs x hx

theorem printable_decimal (n : ℕ) : Printable (decimal n) := by
  intro c hc
  obtain ⟨d, hd, rfl⟩ := List.mem_map.1 hc
  have hdigit := Nat.isDigit_of_mem_toDigits (by decide) (by decide) hd
  rw [Char.isDigit, Bool.and_eq_true, decide_eq_true_iff, decide_eq_true_iff] at hdigit
  have hlow : 48 ≤ d.toNat := hdigit.1
  have hhigh : d.toNat ≤ 57 := hdigit.2
  have hbyte : d.toNat.toUInt8.toNat = d.toNat := by
    rw [Nat.toUInt8_eq, UInt8.toNat_ofNat']
    exact Nat.mod_eq_of_lt (by omega)
  rw [UInt8.le_iff_toNat_le, UInt8.lt_iff_toNat_lt, hbyte]
  have hblank : (0x20 : UInt8).toNat = 32 := rfl
  have hdelete : (0x7F : UInt8).toNat = 127 := rfl
  omega

theorem printable_decimal2 (n : ℕ) : Printable (decimal2 n) := by
  rw [decimal2]
  split_ifs
  · exact .cons (by decide) (printable_decimal n)
  · exact printable_decimal n

theorem printable_signed (i : ℤ) : Printable (signed i) := by
  rw [signed]
  split_ifs
  · exact .cons (by decide) (printable_decimal _)
  · exact printable_decimal _

/-! ### How long it gets -/

theorem length_decimal_le {n k : ℕ} (hk : 0 < k) (h : n < 10 ^ k) : (decimal n).length ≤ k := by
  rw [decimal, List.length_map]
  exact (Nat.length_toDigits_le_iff (by decide) hk).2 h

theorem length_signed_le {i : ℤ} {k : ℕ} (hk : 0 < k) (h : i.natAbs < 10 ^ k) :
    (signed i).length ≤ k + 1 := by
  have hlen := length_decimal_le hk h
  rw [signed]
  split_ifs
  · exact Nat.succ_le_succ hlen
  · exact hlen.trans (Nat.le_succ k)

theorem length_ascii (s : String) : (ascii s).length = s.toList.length :=
  List.length_map _

/-- A byte is printed with at most three digits. -/
theorem length_decimal_byte_le (b : UInt8) : (decimal b.toNat).length ≤ 3 :=
  length_decimal_le (by decide) (b.toNat_lt.trans (by decide))

/-- A 16-bit number is printed with at most five digits and a sign. -/
theorem length_signed_int16_le (i : Int16) : (signed i.toInt).length ≤ 6 := by
  refine length_signed_le (by decide) ?_
  have hlow := i.le_toInt
  have hhigh := i.toInt_lt
  omega

end Text
