import SubmarineMonitor.Foundation.TextOrder
import Mathlib.Data.List.TakeWhile

/-!
# Numbers in text

What `%d` makes of a number that was printed, and how else a number can be spelled. A run of digits
that ends where the digits end is read back as its value (`scanSigned_digits`), so a printed number
is read back whatever follows it, as long as that is not a digit.

The other spellings of a number below one hundred are its single digit and runs with zeros in front
(`digits_cases`). As texts they lie far from the two digits that `%02u` prints: between the texts of
two successive numbers there is next to nothing that is read as the second of them
(`eq_decimal2_of_between`).

## Reading and spelling

Reading is a function and spelling is not: `007`, `+7` and `7` are all read as seven. The module
therefore works with runs of digits, as they stand in a text, and with their values, and asks of a
text how it falls into a run and a rest. That decomposition is unique (`append_digits_inj`), since
the rest begins with no digit.

`scanNumbers` is `scanf` on a list of directives, with numbers of unlimited size. It makes no
difference where a number is in the range of its type, and elsewhere C leaves open what is stored.

## Texts between texts

The last part joins reading with the order of texts. If a text lies between two printed numbers in
the order of bytes and is read as one of them, it begins as that one is printed, or with two zeros
in the one case where that is possible. The statements are for numbers with two digits, because that
is the width at which leading zeros and a single digit are the only other spellings.

White space and signs come before every digit in the order of bytes, so a text that lies between the
texts of two numbers begins with a digit (`exists_digit_of_between`), and only runs of digits have
to be looked at.
-/

namespace Text

/-! ### Runs of digits -/

/-- Digits only. -/
def Digits (ds : List UInt8) : Prop :=
  ∀ c ∈ ds, isDigit c = true

/-- No digit comes next. -/
def NoDigit (rest : List UInt8) : Prop :=
  ∀ c ∈ rest.head?, isDigit c = false

theorem noDigit_cons {c : UInt8} (h : isDigit c = false) (rest : List UInt8) :
    NoDigit (c :: rest) := by
  intro x hx
  obtain rfl : c = x := Option.some.inj hx
  exact h

theorem noDigit_nil : NoDigit [] :=
  fun _ h ↦ by cases h

theorem isDigit_iff {c : UInt8} : isDigit c = true ↔ 48 ≤ c.toNat ∧ c.toNat ≤ 57 := by
  rw [isDigit, Bool.and_eq_true, decide_eq_true_iff, decide_eq_true_iff, UInt8.le_iff_toNat_le,
    UInt8.le_iff_toNat_le]
  rfl

theorem toNat_digit {d : ℕ} (h : d < 10) : (0x30 + d.toUInt8 : UInt8).toNat = 48 + d := by
  interval_cases d <;> rfl

theorem toNat_digitValue {c : UInt8} (h : isDigit c = true) :
    (digitValue c).toNat = c.toNat - 48 := by
  obtain ⟨hlow, -⟩ := isDigit_iff.1 h
  have hle : (0x30 : UInt8) ≤ c := UInt8.le_iff_toNat_le.2 hlow
  rw [digitValue, UInt8.toNat_toUInt32, UInt8.toNat_sub_of_le _ _ hle]
  rfl

theorem Digits.append {ds es : List UInt8} (hds : Digits ds) (hes : Digits es) :
    Digits (ds ++ es) := by
  intro c hc
  rcases List.mem_append.1 hc with hc | hc
  · exact hds c hc
  · exact hes c hc

theorem noDigit_dropWhile (s : List UInt8) : NoDigit (s.dropWhile isDigit) := by
  intro x hx
  have hnot := List.head?_dropWhile_not isDigit s
  rw [Option.mem_def.1 hx] at hnot
  exact hnot

/-- A run ends where no digit comes next. -/
theorem takeWhile_digits {ds rest : List UInt8} (hds : Digits ds) (hrest : NoDigit rest) :
    (ds ++ rest).takeWhile isDigit = ds := by
  rw [List.takeWhile_append_of_pos hds]
  cases rest with
  | nil => exact List.append_nil ds
  | cons c rest =>
    rw [List.takeWhile_cons_of_neg (by simp [hrest c rfl]), List.append_nil]

theorem dropWhile_digits {ds rest : List UInt8} (hds : Digits ds) (hrest : NoDigit rest) :
    (ds ++ rest).dropWhile isDigit = rest := by
  rw [List.dropWhile_append_of_pos hds]
  cases rest with
  | nil => rfl
  | cons c rest => rw [List.dropWhile_cons_of_neg (by simp [hrest c rfl])]

/-- **A text falls into a run and the rest** in one way only. -/
theorem append_digits_inj {ds es x y : List UInt8} (hds : Digits ds) (hes : Digits es)
    (hx : NoDigit x) (hy : NoDigit y) (h : ds ++ x = es ++ y) : ds = es ∧ x = y := by
  have hrun : ds = es := by
    rw [← takeWhile_digits hds hx, h, takeWhile_digits hes hy]
  subst hrun
  exact ⟨rfl, List.append_cancel_left h⟩

/-- `c_str` cuts nothing off what has no zero in it. -/
theorem cString_append {a : List UInt8} (h : ∀ c ∈ a, c ≠ 0) (u : List UInt8) :
    cString (a ++ u) = a ++ cString u :=
  List.takeWhile_append_of_pos fun c hc ↦ bne_iff_ne.2 (h c hc)

theorem ne_zero_of_digits {ds : List UInt8} (h : Digits ds) : ∀ c ∈ ds, c ≠ 0 := by
  rintro c hc rfl
  cases h 0 hc

/-! ### Their values -/

/-- The first digit counts most. -/
theorem digitsValue_cons (c : UInt8) (ds : List UInt8) :
    digitsValue (c :: ds) = (digitValue c).toNat * 10 ^ ds.length + digitsValue ds := by
  have heq : ∀ es : List UInt8,
      digitsValue es = Positional.value 10 (es.map fun d ↦ (digitValue d).toNat) := by
    intro es
    rw [digitsValue, Positional.value, List.foldl_map]
    simp only [Nat.mul_comm]
  rw [heq, heq, List.map_cons, Positional.value_cons, List.length_map]

theorem digitsValue_concat (ds : List UInt8) (c : UInt8) :
    digitsValue (ds ++ [c]) = 10 * digitsValue ds + (digitValue c).toNat := by
  rw [digitsValue, List.foldl_append]
  rfl

/-- The digits of a number, from the last. -/
theorem decimal_eq_append (n : ℕ) :
    decimal n = (if n < 10 then [] else decimal (n / 10)) ++ [0x30 + (n % 10).toUInt8] := by
  have hdigit : ∀ d < 10, (Nat.digitChar d).toNat.toUInt8 = 0x30 + d.toUInt8 := by decide
  rw [decimal, Nat.toDigits_eq_if (by decide)]
  split_ifs with hlt
  · rw [List.map_singleton, hdigit n hlt, Nat.mod_eq_of_lt hlt, List.nil_append]
  · rw [List.map_append, List.map_singleton, hdigit _ (Nat.mod_lt n (by decide)), decimal]

/-- **A printed number** consists of digits, and they stand for the number. -/
theorem digits_decimal (n : ℕ) : Digits (decimal n) ∧ digitsValue (decimal n) = n := by
  induction n using Nat.strong_induction_on with
  | _ n ih =>
    have hlast : n % 10 < 10 := Nat.mod_lt n (by decide)
    have hone : Digits [0x30 + (n % 10).toUInt8] := by
      intro c hc
      rw [List.mem_singleton.1 hc]
      exact isDigit_add hlast
    have hvalue : (digitValue (0x30 + (n % 10).toUInt8)).toNat = n % 10 := by
      rw [digitValue_add hlast]
      exact Nat.mod_eq_of_lt (hlast.trans (by decide))
    rw [decimal_eq_append, digitsValue_concat, hvalue]
    split_ifs with hlt
    · refine ⟨hone, ?_⟩
      show 10 * 0 + n % 10 = n
      omega
    · obtain ⟨hdigits, htens⟩ := ih (n / 10) (by omega)
      exact ⟨hdigits.append hone, by rw [htens]; omega⟩

theorem decimal_ne_nil (n : ℕ) : decimal n ≠ [] := by
  rw [decimal_eq_append]
  exact List.append_ne_nil_of_right_ne_nil _ (List.cons_ne_nil _ _)

/-- The same for two digits at least. -/
theorem digits_decimal2 (n : ℕ) : Digits (decimal2 n) ∧ digitsValue (decimal2 n) = n := by
  obtain ⟨hdigits, hvalue⟩ := digits_decimal n
  rw [decimal2]
  split_ifs
  · refine ⟨List.forall_mem_cons.2 ⟨rfl, hdigits⟩, ?_⟩
    rw [digitsValue_cons, hvalue]
    show 0 * 10 ^ (decimal n).length + n = n
    omega
  · exact ⟨hdigits, hvalue⟩

theorem decimal2_ne_nil (n : ℕ) : decimal2 n ≠ [] := by
  rw [decimal2]
  split_ifs
  · exact List.cons_ne_nil _ _
  · exact decimal_ne_nil n

theorem decimal2_injective {m n : ℕ} (h : decimal2 m = decimal2 n) : m = n := by
  rw [← (digits_decimal2 m).2, h, (digits_decimal2 n).2]

/-! ### Reading them back -/

/-- `scanf`, with the numbers as they are written rather than as 32 bits. -/
def scanNumbers : List Directive → List UInt8 → List ℤ
  | [], _ => []
  | .char c :: fmt, s =>
    match s with
    | [] => []
    | a :: rest => if a == c then scanNumbers fmt rest else []
  | .space :: fmt, s => scanNumbers fmt (s.dropWhile isSpace)
  | .unsigned2 :: fmt, s =>
    match scanUnsigned2 s with
    | none => []
    | some (n, rest) => n.toNat :: scanNumbers fmt rest
  | .signed :: fmt, s =>
    match scanSigned s with
    | none => []
    | some (n, rest) => n :: scanNumbers fmt rest

theorem ofInt_toNat (n : UInt32) : UInt32.ofInt n.toNat = n := by
  have hlt : n.toNat < UInt32.size := n.toNat_lt_size
  have hmod : ((n.toNat : ℤ) % (UInt32.size : ℤ)).toNat = n.toNat := by
    rw [← Int.natCast_mod, Int.toNat_natCast, Nat.mod_eq_of_lt hlt]
  show UInt32.ofNat ((n.toNat : ℤ) % (UInt32.size : ℤ)).toNat = n
  rw [hmod, UInt32.ofNat_toNat]

/-- What is stored are the low 32 bits of the numbers. -/
theorem sscanf_eq (fmt : List Directive) (s : List UInt8) :
    sscanf fmt s = (scanNumbers fmt s).map UInt32.ofInt := by
  induction fmt generalizing s with
  | nil => rfl
  | cons d fmt ih =>
    cases d with
    | char c =>
      cases s with
      | nil => rfl
      | cons a rest =>
        rw [sscanf, scanNumbers]
        split_ifs
        · exact ih rest
        · rfl
    | space => exact ih _
    | unsigned2 =>
      rw [sscanf, scanNumbers]
      cases scanUnsigned2 s with
      | none => rfl
      | some p =>
        show p.1 :: sscanf fmt p.2 = UInt32.ofInt p.1.toNat :: _
        rw [ih, ofInt_toNat]
    | signed =>
      rw [sscanf, scanNumbers]
      cases scanSigned s with
      | none => rfl
      | some p =>
        show UInt32.ofInt p.1 :: sscanf fmt p.2 = _
        rw [ih]
        rfl

/-- **A run of digits is read as its value.** -/
theorem scanSigned_digits {ds rest : List UInt8} (hds : Digits ds) (hne : ds ≠ [])
    (hrest : NoDigit rest) : scanSigned (ds ++ rest) = some ((digitsValue ds : ℤ), rest) := by
  obtain ⟨a, es, rfl⟩ := List.exists_cons_of_ne_nil hne
  have ha := hds a List.mem_cons_self
  have hsign : ∀ c : UInt8, isDigit c = false → (a == c) = false := by
    intro c hc
    refine beq_false_of_ne ?_
    rintro rfl
    rw [ha] at hc
    cases hc
  have hspace : (a :: es ++ rest).dropWhile isSpace = a :: (es ++ rest) :=
    List.dropWhile_cons_of_neg (by simp [isSpace_of_isDigit ha])
  have hrun : (a :: (es ++ rest)).takeWhile isDigit = a :: es := takeWhile_digits hds hrest
  have hleft : (a :: (es ++ rest)).dropWhile isDigit = rest := dropWhile_digits hds hrest
  rw [scanSigned, hspace]
  simp only [hsign 0x2B rfl, hsign 0x2D rfl, Bool.or_self, Bool.false_eq_true, if_false, hrun,
    hleft, hne]

/-- A number and the separator behind it. -/
theorem scanNumbers_digits_char {ds : List UInt8} (hds : Digits ds) (hne : ds ≠ []) {c : UInt8}
    (hc : isDigit c = false) (fmt : List Directive) (rest : List UInt8) :
    scanNumbers (.signed :: .char c :: fmt) (ds ++ c :: rest) =
      (digitsValue ds : ℤ) :: scanNumbers fmt rest := by
  rw [scanNumbers, scanSigned_digits hds hne (noDigit_cons hc rest)]
  show (digitsValue ds : ℤ) :: (if c == c then scanNumbers fmt rest else []) = _
  rw [if_pos (beq_self_eq_true c)]

/-- A number and the blank behind it. -/
theorem scanNumbers_digits_space {ds : List UInt8} (hds : Digits ds) (hne : ds ≠ [])
    (fmt : List Directive) (rest : List UInt8) :
    scanNumbers (.signed :: .space :: fmt) (ds ++ 0x20 :: rest) =
      (digitsValue ds : ℤ) :: scanNumbers fmt (rest.dropWhile isSpace) := by
  rw [scanNumbers, scanSigned_digits hds hne (noDigit_cons rfl rest)]
  rfl

/-- `%d` skips white space itself. -/
theorem scanSigned_dropWhile (s : List UInt8) :
    scanSigned (s.dropWhile isSpace) = scanSigned s := by
  have htwice : (s.dropWhile isSpace).dropWhile isSpace = s.dropWhile isSpace := by
    induction s with
    | nil => rfl
    | cons c s ih =>
      rcases hc : isSpace c with _ | _
      · rw [List.dropWhile_cons_of_neg (by simp [hc]), List.dropWhile_cons_of_neg (by simp [hc])]
      · rw [List.dropWhile_cons_of_pos hc, ih]
  rw [scanSigned, scanSigned, htwice]

/-- **A text that begins with a digit**, read with `%d`: the run it begins with, and the rest. -/
theorem run_of_digit {fmt : List Directive} {c : UInt8} {v : List UInt8} {k : ℕ} {ns : List ℤ}
    (hc : isDigit c = true)
    (hscan : scanNumbers (.signed :: fmt) (cString (c :: v)) = (k : ℤ) :: ns) :
    ∃ ds rest, c :: v = ds ++ rest ∧ Digits ds ∧ ds ≠ [] ∧ NoDigit rest ∧ digitsValue ds = k ∧
      scanNumbers fmt (cString rest) = ns := by
  have hds : Digits ((c :: v).takeWhile isDigit) := fun d hd ↦ List.mem_takeWhile_imp hd
  have hne : (c :: v).takeWhile isDigit ≠ [] := by
    rw [List.takeWhile_cons_of_pos hc]
    exact List.cons_ne_nil _ _
  have hrest := noDigit_dropWhile (c :: v)
  have hsplit : (c :: v).takeWhile isDigit ++ (c :: v).dropWhile isDigit = c :: v :=
    List.takeWhile_append_dropWhile
  have hrest' : NoDigit (cString ((c :: v).dropWhile isDigit)) := by
    intro d hd
    cases hr : (c :: v).dropWhile isDigit with
    | nil =>
      rw [hr] at hd
      cases hd
    | cons e r =>
      rw [hr, cString, List.takeWhile_cons] at hd
      split_ifs at hd
      · obtain rfl : e = d := Option.some.inj hd
        exact hrest e (by rw [hr]; rfl)
      · cases hd
  refine ⟨_, _, hsplit.symm, hds, hne, hrest, ?_⟩
  rw [← hsplit, cString_append (ne_zero_of_digits hds), scanNumbers,
    scanSigned_digits hds hne hrest'] at hscan
  obtain ⟨hvalue, htail⟩ := List.cons.inj hscan
  exact ⟨Int.ofNat_inj.1 hvalue, htail⟩

/-! ### The other spellings -/

/-- **A number below one hundred** is one digit, the two digits it is printed with, or has zeros in
front. -/
theorem digits_cases {ds : List UInt8} (hds : Digits ds) (hne : ds ≠ [])
    (hlt : digitsValue ds < 100) :
    (∃ c, ds = [c] ∧ c.toNat = 48 + digitsValue ds) ∨ ds = decimal2 (digitsValue ds) ∨
      ∃ c es, ds = 0x30 :: c :: es ∧ es ≠ [] ∧ c.toNat ≤ 48 + digitsValue ds / 10 := by
  have hdigit : ∀ c ∈ ds, (digitValue c).toNat = c.toNat - 48 ∧ 48 ≤ c.toNat ∧ c.toNat ≤ 57 :=
    fun c hc ↦ ⟨toNat_digitValue (hds c hc), isDigit_iff.1 (hds c hc)⟩
  match ds, hne with
  | [a], _ =>
    obtain ⟨hval, hlow, -⟩ := hdigit a List.mem_cons_self
    refine .inl ⟨a, rfl, ?_⟩
    show a.toNat = 48 + (10 * 0 + (digitValue a).toNat)
    omega
  | [a, b], _ =>
    obtain ⟨haval, halow, hahigh⟩ := hdigit a List.mem_cons_self
    obtain ⟨hbval, hblow, hbhigh⟩ := hdigit b (List.mem_cons_of_mem a List.mem_cons_self)
    refine .inr (.inl ?_)
    have hvalue : digitsValue [a, b] = 10 * (a.toNat - 48) + (b.toNat - 48) := by
      show 10 * (10 * 0 + (digitValue a).toNat) + (digitValue b).toNat = _
      omega
    rw [decimal2_of_lt hlt, hvalue]
    congr 2
    · rw [← UInt8.toNat_inj, toNat_digit (by omega)]
      omega
    · rw [← UInt8.toNat_inj, toNat_digit (by omega)]
      omega
  | a :: b :: c :: es, _ =>
    obtain ⟨haval, halow, -⟩ := hdigit a List.mem_cons_self
    obtain ⟨hbval, hblow, -⟩ := hdigit b (List.mem_cons_of_mem a List.mem_cons_self)
    have hvalue := digitsValue_cons a (b :: c :: es)
    have hvalue' := digitsValue_cons b (c :: es)
    have hpow : 10 ^ 1 ≤ 10 ^ (c :: es).length := Nat.pow_le_pow_right (by decide) (by simp)
    have hpow' : 10 ^ 2 ≤ 10 ^ (b :: c :: es).length := Nat.pow_le_pow_right (by decide) (by simp)
    have hfirst : (digitValue a).toNat * 10 ^ 2 ≤
        (digitValue a).toNat * 10 ^ (b :: c :: es).length :=
      Nat.mul_le_mul_left _ hpow'
    have hsecond : (digitValue b).toNat * 10 ^ 1 ≤ (digitValue b).toNat * 10 ^ (c :: es).length :=
      Nat.mul_le_mul_left _ hpow
    refine .inr (.inr ⟨b, c :: es, ?_, List.cons_ne_nil _ _, by omega⟩)
    have hzero : a = 0x30 := by
      rw [← UInt8.toNat_inj]
      show a.toNat = 48
      omega
    rw [hzero]

/-! ### Between the texts of two numbers -/

/-- Two digits against a text, character by character. -/
theorem decimal2_append_le_cons_iff {n : ℕ} (hn : n < 100) {z v : List UInt8} {c : UInt8} :
    decimal2 n ++ z ≤ c :: v ↔
      48 + n / 10 < c.toNat ∨ 48 + n / 10 = c.toNat ∧ (0x30 + (n % 10).toUInt8) :: z ≤ v := by
  rw [decimal2_of_lt hn, List.cons_append, Positional.cons_le_cons_iff, UInt8.lt_iff_toNat_lt,
    ← UInt8.toNat_inj, toNat_digit (by omega)]
  rfl

theorem cons_le_decimal2_append_iff {n : ℕ} (hn : n < 100) {z v : List UInt8} {c : UInt8} :
    c :: v ≤ decimal2 n ++ z ↔
      c.toNat < 48 + n / 10 ∨ c.toNat = 48 + n / 10 ∧ v ≤ (0x30 + (n % 10).toUInt8) :: z := by
  rw [decimal2_of_lt hn, List.cons_append, Positional.cons_le_cons_iff, UInt8.lt_iff_toNat_lt,
    ← UInt8.toNat_inj, toNat_digit (by omega)]
  rfl

/-- A zero behind the text of a number has a character behind it that is no smaller than the
number. -/
theorem le_second_of_decimal2_append_le {n : ℕ} (hn : n < 100) {z v : List UInt8} {c : UInt8}
    (hlow : decimal2 n ++ z ≤ 0x30 :: c :: v) : n < 10 ∧ 48 + n ≤ c.toNat := by
  have hzero : (0x30 : UInt8).toNat = 48 := rfl
  rcases (decimal2_append_le_cons_iff hn).1 hlow with h | ⟨h, hnext⟩
  · omega
  · rw [Positional.cons_le_cons_iff, UInt8.lt_iff_toNat_lt, ← UInt8.toNat_inj,
      toNat_digit (by omega)] at hnext
    refine ⟨by omega, ?_⟩
    rcases hnext with h' | ⟨h', -⟩ <;> omega

/-- What lies between two numbers begins with a digit. -/
theorem exists_digit_of_between {m n : ℕ} (hm : m < 100) (hn : n < 100) {x y u : List UInt8}
    (hlow : decimal2 m ++ x ≤ u) (hhigh : u ≤ decimal2 n ++ y) :
    ∃ c v, u = c :: v ∧ isDigit c = true := by
  cases u with
  | nil =>
    rw [decimal2_of_lt hm] at hlow
    exact absurd (List.nil_lt_cons _ _) (not_lt.2 hlow)
  | cons c v =>
    have hc : 48 ≤ c.toNat := by
      rcases (decimal2_append_le_cons_iff hm).1 hlow with h | ⟨h, -⟩ <;> omega
    have hc' : c.toNat ≤ 57 := by
      rcases (cons_le_decimal2_append_iff hn).1 hhigh with h | ⟨h, -⟩ <;> omega
    exact ⟨c, v, rfl, isDigit_iff.2 ⟨hc, hc'⟩⟩

/-- **Up to the text of a number**, and behind that of the number before it, only the two digits are
read as the number; for one, so are digits that begin with two zeros. -/
theorem eq_decimal2_of_between {ds rest x y : List UInt8} {n : ℕ} (hds : Digits ds) (hne : ds ≠ [])
    (hvalue : digitsValue ds = n) (hpos : 1 ≤ n) (hn : n < 100)
    (hlow : decimal2 (n - 1) ++ x ≤ ds ++ rest) (hhigh : ds ++ rest ≤ decimal2 n ++ y) :
    ds = decimal2 n ∨ n = 1 ∧ ∃ es, ds = 0x30 :: 0x30 :: es ∧ es ≠ [] := by
  rcases digits_cases hds hne (by omega) with ⟨c, rfl, hc⟩ | heq | ⟨c, es, rfl, hes, hc⟩
  · -- A single digit is behind the zero that the number is printed with.
    rw [hvalue] at hc
    rcases (cons_le_decimal2_append_iff hn).1 hhigh with h | ⟨h, -⟩ <;> omega
  · exact .inl (by rw [heq, hvalue])
  · -- Zeros in front are before the number before, unless that is zero itself.
    rw [hvalue] at hc
    obtain ⟨hsmall, hsecond⟩ := le_second_of_decimal2_append_le (by omega) hlow
    have hone : n = 1 := by omega
    have hzero : (0x30 : UInt8).toNat = 48 := rfl
    have hc0 : c = 0x30 := by
      rw [← UInt8.toNat_inj]
      omega
    exact .inr ⟨hone, es, by rw [hc0], hes⟩

/-- **From the text of a number on**, and in front of that of the number after it, only what begins
with the two digits is read as the number. -/
theorem decimal2_prefix_of_between {ds rest : List UInt8} {n : ℕ} (hds : Digits ds) (hne : ds ≠ [])
    (hrest : NoDigit rest) (hvalue : digitsValue ds = n) (hn : n + 1 < 100)
    (hlow : decimal2 n ≤ ds ++ rest) (hhigh : ds ++ rest < decimal2 (n + 1)) :
    decimal2 n <+: ds ++ rest := by
  rw [← List.append_nil (decimal2 n)] at hlow
  rcases digits_cases hds hne (by omega) with ⟨c, rfl, hc⟩ | heq | ⟨c, es, rfl, -, hc⟩
  · -- A single digit is behind the number after, unless it is a zero with a digit behind it.
    rw [hvalue] at hc
    have hhigh' : c :: rest ≤ decimal2 (n + 1) ++ [] := by
      rw [List.append_nil]
      exact hhigh.le
    obtain ⟨hn0, hlast⟩ : n = 0 ∧ rest ≤ [0x30 + ((n + 1) % 10).toUInt8] := by
      rcases (cons_le_decimal2_append_iff hn).1 hhigh' with h | ⟨h, hle⟩
      · omega
      · exact ⟨by omega, hle⟩
    rw [hn0] at hlow hlast
    have hfirst : [0x30] ≤ rest := by
      rcases (decimal2_append_le_cons_iff (by decide)).1 hlow with h | ⟨-, hle⟩
      · omega
      · exact hle
    cases rest with
    | nil => exact absurd (List.nil_lt_cons _ _) (not_lt.2 hfirst)
    | cons x rest =>
      have hdigit : isDigit x = true := by
        rw [Positional.cons_le_cons_iff] at hfirst hlast
        rw [isDigit, Bool.and_eq_true, decide_eq_true_iff, decide_eq_true_iff]
        refine ⟨hfirst.elim le_of_lt fun h ↦ h.1.le, ?_⟩
        exact (hlast.elim le_of_lt fun h ↦ h.1.le).trans (by decide : (0x31 : UInt8) ≤ 0x39)
      rw [hrest x rfl] at hdigit
      cases hdigit
  · rw [heq, hvalue]
    exact List.prefix_append _ _
  · rw [hvalue] at hc
    obtain ⟨hsmall, hsecond⟩ := le_second_of_decimal2_append_le (by omega) hlow
    have hn0 : n = 0 := by omega
    have hzero : (0x30 : UInt8).toNat = 48 := rfl
    have hc0 : c = 0x30 := by
      rw [← UInt8.toNat_inj]
      omega
    rw [hc0, hn0]
    exact ⟨es ++ rest, rfl⟩

/-! ### The texts of bytes -/

/-- Three digits are two and one. -/
theorem decimal2_of_hundred {n : ℕ} (h : 100 ≤ n) :
    decimal2 n = decimal2 (n / 10) ++ [0x30 + (n % 10).toUInt8] := by
  have hten : ¬n < 10 := by omega
  have hten' : ¬n / 10 < 10 := by omega
  rw [decimal2, if_neg hten, decimal_eq_append, if_neg hten, decimal2, if_neg hten']

theorem decimal2_append_lt {m n : ℕ} (hlt : m < n) (hn : n < 100) (x y : List UInt8) :
    decimal2 m ++ x < decimal2 n ++ y := by
  rw [← not_le, decimal2_append_le_iff hn (hlt.trans hn)]
  omega

/-- **Two zeros come first** of all bytes that are printed. -/
theorem decimal2_zero_append_le (b : UInt8) {x y : List UInt8} (hle : x ≤ y) :
    decimal2 0 ++ x ≤ decimal2 b.toNat ++ y := by
  have hbyte := b.toNat_lt
  rcases Nat.eq_zero_or_pos b.toNat with hzero | hpos
  · rw [hzero]
    exact append_left_le_iff.2 hle
  · rcases lt_or_ge b.toNat 100 with hlt | hge
    · exact (decimal2_append_lt hpos hlt x y).le
    · rw [decimal2_of_hundred hge, List.append_assoc]
      exact (decimal2_append_lt (by omega) (by omega) x _).le

theorem decimal2_zero_le (b : UInt8) : decimal2 0 ≤ decimal2 b.toNat := by
  have hle := decimal2_zero_append_le b (le_refl [])
  rwa [List.append_nil, List.append_nil] at hle

/-- Behind two digits a separator comes first: before a third digit, and before every other text
that goes on with the same separator from the same place on. -/
theorem decimal2_append_le_of_le {m : ℕ} (hm : m < 100) (b : UInt8) {u x y : List UInt8}
    (hx : ∀ c ∈ x.head?, c < 0x30) (hxy : x ≤ y) (hle : decimal2 m ++ u ≤ decimal2 b.toNat ++ y) :
    decimal2 m ++ x ≤ decimal2 b.toNat ++ y := by
  have hbyte := b.toNat_lt
  rcases lt_or_ge b.toNat 100 with hlt | hge
  · rw [decimal2_append_le_iff hm hlt] at hle ⊢
    exact hle.imp_right fun h ↦ ⟨h.1, hxy⟩
  · rw [decimal2_of_hundred hge, List.append_assoc, decimal2_append_le_iff hm (by omega)] at hle ⊢
    refine hle.imp_right fun h ↦ ⟨h.1, ?_⟩
    cases x with
    | nil => exact not_lt.1 (List.not_lt_nil _)
    | cons c x =>
      refine Positional.cons_le_cons_iff.2 (.inl ?_)
      have hc : c.toNat < 48 := UInt8.lt_iff_toNat_lt.1 (hx c rfl)
      rw [UInt8.lt_iff_toNat_lt, toNat_digit (by omega)]
      omega

/-- What is printed behind zero and in front of one is nothing. -/
theorem eq_zero_of_lt_one (b : UInt8) {x y : List UInt8} (hle : y ≤ x)
    (hlt : decimal2 b.toNat ++ x < decimal2 1 ++ y) : b.toNat = 0 := by
  have hbyte := b.toNat_lt
  by_contra hne
  refine absurd hlt (not_lt.2 ?_)
  rcases eq_or_ne b.toNat 1 with hone | hne'
  · rw [hone]
    exact append_left_le_iff.2 hle
  · rcases lt_or_ge b.toNat 100 with hlt' | hge
    · exact (decimal2_append_lt (by omega) hlt' y x).le
    · rw [decimal2_of_hundred hge, List.append_assoc]
      exact (decimal2_append_lt (by omega) (by omega) y _).le

/-- **Digits that are read as one** come behind the two zeros and a separator. -/
theorem zero_lt_of_value_one {ds rest x : List UInt8} (hds : Digits ds) (hne : ds ≠ [])
    (hvalue : digitsValue ds = 1) (hx : ∀ c ∈ x.head?, c < 0x30) :
    decimal2 0 ++ x < ds ++ rest := by
  rw [← not_le]
  intro hle
  rcases digits_cases hds hne (by omega) with ⟨c, rfl, hc⟩ | heq | ⟨c, es, rfl, hes, hc⟩
  · rw [hvalue] at hc
    rcases (cons_le_decimal2_append_iff (by decide)).1 hle with h | ⟨h, -⟩ <;> omega
  · rw [heq, hvalue] at hle
    exact absurd (decimal2_append_lt (by decide) (by decide) x rest) (not_lt.2 hle)
  · rw [hvalue] at hc
    have hdigit := (isDigit_iff.1 (hds c (List.mem_cons_of_mem _ List.mem_cons_self))).1
    obtain ⟨e, es, rfl⟩ := List.exists_cons_of_ne_nil hes
    have he := (isDigit_iff.1 (hds e (by simp))).1
    have hc0 : c = 0x30 := by
      rw [← UInt8.toNat_inj]
      show c.toNat = 48
      omega
    rw [hc0] at hle
    have htail : e :: (es ++ rest) ≤ x :=
      append_left_le_iff.1 (show [0x30, 0x30] ++ e :: (es ++ rest) ≤ [0x30, 0x30] ++ x from hle)
    cases x with
    | nil => exact absurd (List.nil_lt_cons _ _) (not_lt.2 htail)
    | cons d x =>
      have hd : d.toNat < 48 := UInt8.lt_iff_toNat_lt.1 (hx d rfl)
      rw [Positional.cons_le_cons_iff, UInt8.lt_iff_toNat_lt, ← UInt8.toNat_inj] at htail
      omega

end Text
