import Mathlib.Data.Nat.Bits

/-!
# Two-byte words

Splitting a 16-bit word into its bytes and putting it together again. Which byte comes first is the
user's business: the frame checksum travels high byte first, the records in flash and the payloads
on the wire low byte first.

## How the lemmas are used

Both directions are stated through natural numbers, where the high byte is a quotient by 256 and the
low byte a remainder. That is what arithmetic and a decision procedure can use. The equations that
say that splitting and joining cancel are simp lemmas, so that a word which was taken apart and put
together on the way is seen to be itself without a proof.

`join_eq_xor` is for those who take the exclusive or of words. The two halves have no bit in common,
so either way of joining is the same.

The functions are in the namespace `UInt16`, to be written behind a dot. They are only names for
what programs write as a shift and a mask; a definition that follows a program keeps the shift, and
a lemma brings it into this form.
-/

namespace UInt16

/-- The high byte. -/
def hi (x : UInt16) : UInt8 :=
  (x >>> 8).toUInt8

/-- The low byte. -/
def lo (x : UInt16) : UInt8 :=
  (x &&& 0xFF).toUInt8

/-- The word with these two bytes. -/
def join (hi lo : UInt8) : UInt16 :=
  (hi.toUInt16 <<< 8) ||| lo.toUInt16

theorem toNat_hi (x : UInt16) : x.hi.toNat = x.toNat / 256 := by
  have hlt : x.toNat < 65536 := x.toNat_lt
  simp only [hi, UInt16.toNat_toUInt8, UInt16.toNat_shiftRight, UInt16.reduceToNat, Nat.reduceMod,
    Nat.shiftRight_eq_div_pow]
  omega

theorem toNat_lo (x : UInt16) : x.lo.toNat = x.toNat % 256 := by
  simp only [lo, UInt16.toNat_toUInt8, UInt16.toNat_and, UInt16.reduceToNat]
  rw [show (255 : ℕ) = 2 ^ 8 - 1 from rfl, Nat.and_two_pow_sub_one_eq_mod]
  omega

theorem toNat_join (hi lo : UInt8) : (join hi lo).toNat = hi.toNat * 256 + lo.toNat := by
  have hhi : hi.toNat < 256 := hi.toNat_lt
  have hlo : lo.toNat < 2 ^ 8 := lo.toNat_lt
  have hshift : hi.toNat <<< 8 % 2 ^ 16 = hi.toNat <<< 8 := by
    rw [Nat.shiftLeft_eq]
    omega
  simp only [join, UInt16.toNat_or, UInt16.toNat_shiftLeft, UInt8.toNat_toUInt16,
    UInt16.reduceToNat, Nat.reduceMod]
  rw [hshift, ← Nat.shiftLeft_add_eq_or_of_lt hlo, Nat.shiftLeft_eq]

/-- The two halves do not overlap. -/
theorem join_eq_xor (hi lo : UInt8) : join hi lo = (hi.toUInt16 <<< 8) ^^^ lo.toUInt16 := by
  apply UInt16.toNat_inj.1
  rw [join, UInt16.toNat_or, UInt16.toNat_xor]
  apply Nat.eq_of_testBit_eq
  intro i
  have hdisjoint : (hi.toUInt16 <<< 8).toNat.testBit i = false ∨
      lo.toUInt16.toNat.testBit i = false := by
    rcases Nat.lt_or_ge i 8 with h | h
    · left
      rw [UInt16.toNat_shiftLeft, Nat.testBit_mod_two_pow, Nat.testBit_shiftLeft]
      simp [Nat.not_le.2 h]
    · right
      rw [UInt8.toNat_toUInt16]
      exact Nat.testBit_lt_two_pow
        (Nat.lt_of_lt_of_le lo.toNat_lt (Nat.pow_le_pow_right (by decide) h))
  rw [Nat.testBit_or, Nat.testBit_xor]
  rcases hdisjoint with h | h <;> rw [h] <;> simp

/-- A word is what its two bytes spell. -/
@[simp]
theorem join_hi_lo (x : UInt16) : join x.hi x.lo = x := by
  apply UInt16.toNat_inj.1
  rw [toNat_join, toNat_hi, toNat_lo]
  omega

@[simp]
theorem hi_join (hi lo : UInt8) : (join hi lo).hi = hi := by
  have hlt : lo.toNat < 256 := lo.toNat_lt
  apply UInt8.toNat_inj.1
  rw [toNat_hi, toNat_join]
  omega

@[simp]
theorem lo_join (hi lo : UInt8) : (join hi lo).lo = lo := by
  have hlt : lo.toNat < 256 := lo.toNat_lt
  apply UInt8.toNat_inj.1
  rw [toNat_lo, toNat_join]
  omega

end UInt16
