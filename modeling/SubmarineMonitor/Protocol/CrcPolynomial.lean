import SubmarineMonitor.Foundation.BigEndian
import SubmarineMonitor.Foundation.BitPolynomial
import SubmarineMonitor.Protocol.ErrorDetection

/-!
# The frame checksum as a remainder

CRC-16/CCITT-FALSE by its definition: bytes read as polynomials over the field of two elements, most
significant bit first, and divided by `x^16 + x^12 + x^5 + 1`. In the quotient by that polynomial
one turn of the bit loop is multiplication by `x`, so a byte folded in multiplies what was there by
`x^8` and adds its own bits at `x^16`, where the sixteen places for the checksum itself begin. Since
the word has sixteen bits, it is the remainder and not merely congruent to it.

## Why the quotient

A remainder is unique only together with its degree, and the quotient forgets the degree. It is used
all the same, because the bit loop shifts before it reduces, so that what is in the register after a
turn is a different representative with every input; in the quotient by the generator both branches
of the turn are the same multiplication (`residue_tlvCrc16Bit`), and a fold is a sum of powers of
`x`. The degree comes back once, at the end: two polynomials of degree below sixteen that agree in
the quotient are equal, and a word of sixteen bits is such a polynomial.

## The initial word

The register starts with `0xFFFF`. The standard describes that as ones exclusive-ored onto the first
sixteen bits of the message; here it is a summand in front of the message, shifted up by its length,
so a message shorter than two bytes needs no special treatment.

## Where this stands

Nothing that is said about damage or about the decoder rests on this module. It answers one question
only, whether the loop computes the checksum that its comment names, and imports
`Protocol.ErrorDetection` for the residue of a message with its checksum. The polynomials are those
of Mathlib over `ZMod 2`; how bits are read as one is `Foundation.BitPolynomial`, which knows
neither the generator nor the width of the register.
-/

open BigEndian BitPolynomial Polynomial

namespace SubmarineMonitor

/-! ### The polynomial -/

/-- `x^16 + x^12 + x^5 + 1`. -/
noncomputable def crcPolynomial : (ZMod 2)[X] :=
  X ^ 16 + (X ^ 12 + X ^ 5 + 1)

/-- A word read as a polynomial. -/
noncomputable def wordPolynomial (w : UInt16) : (ZMod 2)[X] :=
  ofNat w.toNat

/-- A message read as a polynomial, its first byte and of each byte the topmost bit first. -/
noncomputable def messagePolynomial (message : List UInt8) : (ZMod 2)[X] :=
  ofNat (number message)

/-- The constant of the source, with the term that it leaves out. -/
theorem ofNat_0x11021 : ofNat 0x11021 = crcPolynomial := by
  rw [show 0x11021 = 2 ^ 16 ^^^ (2 ^ 12 ^^^ 2 ^ 5 ^^^ 2 ^ 0) from rfl, ofNat_xor, ofNat_xor,
    ofNat_xor, ofNat_two_pow, ofNat_two_pow, ofNat_two_pow, ofNat_two_pow, pow_zero]
  rfl

theorem degree_crcPolynomial_tail : (X ^ 12 + X ^ 5 + 1 : (ZMod 2)[X]).degree < (16 : ℕ) := by
  have h : ofNat 0x1021 = X ^ 12 + X ^ 5 + 1 := by
    rw [show 0x1021 = 2 ^ 12 ^^^ 2 ^ 5 ^^^ 2 ^ 0 from rfl, ofNat_xor, ofNat_xor, ofNat_two_pow,
      ofNat_two_pow, ofNat_two_pow, pow_zero]
  rw [← h]
  exact degree_ofNat_lt (by decide)

theorem monic_crcPolynomial : crcPolynomial.Monic :=
  monic_X_pow_add degree_crcPolynomial_tail

theorem degree_crcPolynomial : crcPolynomial.degree = (16 : ℕ) := by
  rw [crcPolynomial, degree_add_eq_left_of_degree_lt, degree_X_pow]
  rw [degree_X_pow]
  exact degree_crcPolynomial_tail

/-! ### In the quotient -/

/-- A word in the quotient by the polynomial. -/
noncomputable def residue (w : UInt16) : AdjoinRoot crcPolynomial :=
  AdjoinRoot.mk crcPolynomial (wordPolynomial w)

theorem residue_xor (a b : UInt16) : residue (a ^^^ b) = residue a + residue b := by
  rw [residue, wordPolynomial, UInt16.toNat_xor, ofNat_xor, map_add]
  rfl

/-- **One turn of the bit loop is multiplication by `x`.** -/
theorem residue_tlvCrc16Bit (w : UInt16) :
    residue (tlvCrc16Bit w) = AdjoinRoot.root crcPolynomial * residue w := by
  have hreduce : AdjoinRoot.mk crcPolynomial
      (ofNat (if w.toNat.testBit 15 then 0x11021 else 0)) = 0 := by
    split
    · rw [ofNat_0x11021, AdjoinRoot.mk_self]
    · rw [ofNat_zero, map_zero]
  rw [residue, wordPolynomial, toNat_tlvCrc16Bit, ofNat_xor, ofNat_two_mul, map_add, hreduce,
    add_zero, map_mul, AdjoinRoot.mk_X]
  rfl

theorem residue_iterate_tlvCrc16Bit (w : UInt16) (n : ℕ) :
    residue (tlvCrc16Bit^[n] w) = AdjoinRoot.root crcPolynomial ^ n * residue w := by
  induction n with
  | zero => rw [Function.iterate_zero, id, pow_zero, one_mul]
  | succ n ih => rw [Function.iterate_succ_apply', residue_tlvCrc16Bit, ih, pow_succ', mul_assoc]

/-- A byte in the upper half of a word. -/
theorem residue_shiftLeft (b : UInt8) :
    residue (b.toUInt16 <<< 8) =
      AdjoinRoot.root crcPolynomial ^ 8 * AdjoinRoot.mk crcPolynomial (ofNat b.toNat) := by
  have hb : b.toNat < 256 := b.toNat_lt
  have hnat : (b.toUInt16 <<< 8).toNat = 2 ^ 8 * b.toNat + 0 := by
    rw [UInt16.toNat_shiftLeft, UInt8.toNat_toUInt16, Nat.shiftLeft_eq, Nat.mul_comm]
    exact Nat.mod_eq_of_lt (by show 2 ^ 8 * b.toNat < 65536; omega)
  rw [residue, wordPolynomial, hnat, ofNat_two_pow_mul_add _ (Nat.two_pow_pos 8), ofNat_zero,
    add_zero, map_mul, map_pow, AdjoinRoot.mk_X]

/-- **Folding in a byte.** -/
theorem residue_tlvCrc16Update (crc : UInt16) (byte : UInt8) :
    residue (tlvCrc16Update crc byte) = AdjoinRoot.root crcPolynomial ^ 8 * residue crc +
      AdjoinRoot.root crcPolynomial ^ 16 * AdjoinRoot.mk crcPolynomial (ofNat byte.toNat) := by
  rw [tlvCrc16Update, residue_iterate_tlvCrc16Bit, residue_xor, residue_shiftLeft]
  ring

/-- One more byte moves a message up by eight places. -/
theorem messagePolynomial_concat (message : List UInt8) (byte : UInt8) :
    messagePolynomial (message ++ [byte]) =
      X ^ 8 * messagePolynomial message + ofNat byte.toNat := by
  have hlt : byte.toNat < 2 ^ 8 := byte.toNat_lt
  rw [messagePolynomial, number_append_singleton, Nat.mul_comm, show 256 = 2 ^ 8 from rfl,
    ofNat_two_pow_mul_add _ hlt, messagePolynomial]

/-- What is divided by the polynomial: the message with sixteen places added, and what the register
held at first in front of it. -/
noncomputable def dividend (crc : UInt16) (message : List UInt8) : (ZMod 2)[X] :=
  messagePolynomial message * X ^ 16 + wordPolynomial crc * X ^ (8 * message.length)

/-- **The register behind a message** in the quotient, by induction on the bytes folded in. -/
theorem residue_foldl (crc : UInt16) (message : List UInt8) :
    residue (message.foldl tlvCrc16Update crc) =
      AdjoinRoot.mk crcPolynomial (dividend crc message) := by
  induction message using List.reverseRecOn with
  | nil =>
    have hempty : messagePolynomial [] = 0 := ofNat_zero
    rw [dividend, hempty, zero_mul, zero_add, List.length_nil, Nat.mul_zero, pow_zero, mul_one]
    rfl
  | append_singleton message byte ih =>
    have hlen : 8 * (message ++ [byte]).length = 8 + 8 * message.length := by
      rw [List.length_append, List.length_singleton]
      omega
    rw [List.foldl_append, List.foldl_cons, List.foldl_nil, residue_tlvCrc16Update, ih, dividend,
      dividend, messagePolynomial_concat, hlen]
    simp only [map_add, map_mul, map_pow, AdjoinRoot.mk_X]
    ring

/-- **The register holds the remainder.** -/
theorem wordPolynomial_foldl (crc : UInt16) (message : List UInt8) :
    wordPolynomial (message.foldl tlvCrc16Update crc) = dividend crc message %ₘ crcPolynomial := by
  have hdegree : (wordPolynomial (message.foldl tlvCrc16Update crc)).degree <
      crcPolynomial.degree := by
    rw [degree_crcPolynomial]
    exact degree_ofNat_lt (message.foldl tlvCrc16Update crc).toNat_lt
  exact eq_modByMonic monic_crcPolynomial hdegree (residue_foldl crc message)

/-- **The bit loop computes the standard checksum**: the remainder of the message, sixteen places up
and with the initial word in front, divided by the polynomial. So a message with its checksum behind
it, high byte first, has the checksum 0. -/
theorem tlvCrc16_isRemainder (message : List UInt8) :
    wordPolynomial (tlvCrc16 message) =
      (messagePolynomial message * X ^ 16 + wordPolynomial 0xFFFF * X ^ (8 * message.length)) %ₘ
        (X ^ 16 + (X ^ 12 + X ^ 5 + 1)) ∧
    tlvCrc16 (message ++ [(tlvCrc16 message).hi, (tlvCrc16 message).lo]) = 0 := by
  constructor
  · have h := wordPolynomial_foldl 0xFFFF message
    rwa [← tlvCrc16, dividend, crcPolynomial] at h
  · rw [tlvCrc16_append_eq_zero, UInt16.join_hi_lo]

end SubmarineMonitor
