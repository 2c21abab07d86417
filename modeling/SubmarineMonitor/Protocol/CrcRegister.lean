import Mathlib.Algebra.BigOperators.Group.Finset.Basic
import Mathlib.Data.Nat.Bitwise
import SubmarineMonitor.Foundation.Bytes
import SubmarineMonitor.Foundation.ShiftRegister
import SubmarineMonitor.Protocol.Crc

/-!
# The frame checksum as a linear shift register

The bit loop of the checksum is additive over exclusive or, never loses information, and keeps the
parity of the word: the polynomial has four terms. Folding in a byte is feeding its eight bits, most
significant first, with the topmost bit of the word as the tap.

## From the loop to the register

`Foundation.ShiftRegister` speaks of an additive group with a shift, a tap and a parity, and proves
for any of these which patterns of bits leave something behind. Here the group is `CrcWord`, the
16-bit words under exclusive or; the shift is one turn of the loop, the tap is the topmost bit, and
the parity is the number of set bits modulo two. What the library asks of them is that the shift is
additive and injective, and that the parity is not changed by it.

`toNat_tlvCrc16Bit` is what makes these provable at the size of a word: one turn is doubling as a
natural number, reduced by the full polynomial with its seventeenth bit where it overflows.
Additivity and injectivity are then facts about numbers below `2 ^ 16`; they are proved by the
operations' own lemmas and not by trying all words.

## Two bits

Parity settles an odd number of damaged bits, and a burst is settled by the width of the word, which
it fits into. For two single bits one more fact is needed, that the tap does not come back within
the bits of a frame (`iterate_shift_tap_ne`). It is computed, over the list of the 2071 words in
question, and what is known about single bytes is computed over the 256 of them; everything about
words holds by the lemmas above.

## What is left out

Two bits that are further apart than the longest frame is long. The tap does come back at some time,
and then the checksum misses them; no frame is that long.
-/

open ShiftRegister

namespace SubmarineMonitor

/-! ### The bit loop -/

/-- The topmost bit of a word. -/
theorem and_0x8000_ne_zero (w : UInt16) : w &&& 0x8000 ≠ 0 ↔ w.toNat.testBit 15 = true := by
  have h : (w &&& 0x8000).toNat = (w.toNat.testBit 15).toNat * 2 ^ 15 := by
    rw [UInt16.toNat_and]
    exact Nat.and_two_pow _ 15
  rw [Ne, ← UInt16.toNat_inj, h]
  cases w.toNat.testBit 15 <;> simp

theorem testBit_15 (w : UInt16) : w.toNat.testBit 15 = decide (2 ^ 15 ≤ w.toNat) := by
  have hw : w.toNat < 2 ^ 16 := w.toNat_lt
  rw [Nat.testBit_eq_decide_div_mod_eq, decide_eq_decide]
  omega

/-- **One turn of the bit loop is doubling, reduced by the full polynomial.** -/
theorem toNat_tlvCrc16Bit (w : UInt16) :
    (tlvCrc16Bit w).toNat = 2 * w.toNat ^^^ if w.toNat.testBit 15 then 0x11021 else 0 := by
  have hw : w.toNat < 2 ^ 16 := w.toNat_lt
  have hshift : (w <<< 1).toNat = 2 * w.toNat % 2 ^ 16 := by
    rw [UInt16.toNat_shiftLeft, Nat.shiftLeft_eq, Nat.mul_comm]
    rfl
  rw [tlvCrc16Bit]
  by_cases htop : w.toNat.testBit 15 = true
  · have hlarge : 2 ^ 15 ≤ w.toNat := by simpa [testBit_15] using htop
    -- the bit that falls out is the polynomial's leading term
    have hdouble : (2 * w.toNat ^^^ 0x11021) / 2 ^ 16 = 0 := by
      rw [Nat.xor_div_two_pow, show 2 * w.toNat / 2 ^ 16 = 1 by omega]
      rfl
    have hlt : (2 * w.toNat ^^^ 0x11021) < 2 ^ 16 := (Nat.div_eq_zero_iff_lt (by decide)).1 hdouble
    rw [if_pos ((and_0x8000_ne_zero w).2 htop), if_pos htop, UInt16.toNat_xor, hshift,
      ← Nat.mod_eq_of_lt hlt, Nat.xor_mod_two_pow]
    rfl
  · have hsmall : w.toNat < 2 ^ 15 := by simpa [testBit_15] using htop
    rw [if_neg (mt (and_0x8000_ne_zero w).1 htop), if_neg htop, hshift, Nat.xor_zero]
    exact Nat.mod_eq_of_lt (by omega)

/-- While no bit falls out, the loop only doubles. -/
theorem toNat_iterate_tlvCrc16Bit {w : UInt16} {n : ℕ} (h : w.toNat * 2 ^ n < 2 ^ 16) :
    (tlvCrc16Bit^[n] w).toNat = w.toNat * 2 ^ n := by
  induction n with
  | zero => simp
  | succ n ih =>
    rw [pow_succ, ← Nat.mul_assoc] at h ⊢
    have hn := ih (by omega)
    have htop : (tlvCrc16Bit^[n] w).toNat.testBit 15 = false := by
      rw [testBit_15, hn, decide_eq_false_iff_not]
      omega
    rw [Function.iterate_succ_apply', toNat_tlvCrc16Bit, htop, hn]
    simp [Nat.mul_comm]

theorem tlvCrc16Bit_xor (a b : UInt16) :
    tlvCrc16Bit (a ^^^ b) = tlvCrc16Bit a ^^^ tlvCrc16Bit b := by
  have hdouble : 2 * (a.toNat ^^^ b.toNat) = 2 * a.toNat ^^^ 2 * b.toNat := by
    simpa [Nat.shiftLeft_eq, Nat.mul_comm] using
      Nat.shiftLeft_xor_distrib (i := 1) (a := a.toNat) (b := b.toNat)
  have hreduce : ∀ p q : Bool, (if p ^^ q then 0x11021 else 0) =
      (if p then 0x11021 else 0) ^^^ if q then 0x11021 else 0 := by decide
  apply UInt16.toNat_inj.1
  simp only [toNat_tlvCrc16Bit, UInt16.toNat_xor, Nat.testBit_xor, hdouble, hreduce]
  ac_rfl

theorem eq_zero_of_tlvCrc16Bit {w : UInt16} (h : tlvCrc16Bit w = 0) : w = 0 := by
  have hnat : 2 * w.toNat ^^^ (if w.toNat.testBit 15 then 0x11021 else 0) = 0 := by
    rw [← toNat_tlvCrc16Bit, h]
    rfl
  apply UInt16.toNat_inj.1
  rw [UInt16.toNat_zero]
  split at hnat
  · -- the polynomial is odd
    have hodd : (2 * w.toNat ^^^ 0x11021) % 2 = 1 := Nat.xor_mod_two_eq_one.2 (by omega)
    omega
  · rw [Nat.xor_zero] at hnat
    omega

/-! ### Parity -/

/-- The number of bits set among the lowest seventeen, modulo two. -/
def bitParity (n : ℕ) : ZMod 2 :=
  ∑ i ∈ Finset.range 17, if n.testBit i then 1 else 0

theorem bitParity_xor (m n : ℕ) : bitParity (m ^^^ n) = bitParity m + bitParity n := by
  have hxor : ∀ p q : Bool, (if p ^^ q then 1 else 0 : ZMod 2) =
      (if p then 1 else 0) + if q then 1 else 0 := by decide
  simp only [bitParity, Nat.testBit_xor, hxor, Finset.sum_add_distrib]

theorem bitParity_two_mul {n : ℕ} (h : n < 2 ^ 16) : bitParity (2 * n) = bitParity n := by
  have htop : n.testBit 16 = false := Nat.testBit_lt_two_pow h
  rw [bitParity, bitParity, Finset.sum_range_succ', Finset.sum_range_succ _ 16, htop]
  simp [Nat.testBit_succ]

/-- The polynomial has an even number of terms, so reducing by it keeps the parity. -/
theorem bitParity_tlvCrc16Bit (w : UInt16) :
    bitParity (tlvCrc16Bit w).toNat = bitParity w.toNat := by
  have hpoly : bitParity (if w.toNat.testBit 15 then 0x11021 else 0) = 0 := by
    cases w.toNat.testBit 15 <;> decide
  rw [toNat_tlvCrc16Bit, bitParity_xor, hpoly, add_zero, bitParity_two_mul w.toNat_lt]

/-! ### The group of words -/

/-- A 16-bit word under exclusive or. -/
@[ext]
structure CrcWord where
  word : UInt16
  deriving DecidableEq

namespace CrcWord

instance : Add CrcWord :=
  ⟨fun a b ↦ ⟨a.word ^^^ b.word⟩⟩

instance : Zero CrcWord :=
  ⟨⟨0⟩⟩

instance : Neg CrcWord :=
  ⟨id⟩

@[simp] theorem word_add (a b : CrcWord) : (a + b).word = a.word ^^^ b.word := rfl

@[simp] theorem word_zero : (0 : CrcWord).word = 0 := rfl

theorem add_self (w : CrcWord) : w + w = 0 :=
  CrcWord.ext UInt16.xor_self

instance : AddCommGroup CrcWord where
  add_assoc a b c := CrcWord.ext (UInt16.xor_assoc _ _ _)
  zero_add a := CrcWord.ext UInt16.zero_xor
  add_zero a := CrcWord.ext UInt16.xor_zero
  add_comm a b := CrcWord.ext (UInt16.xor_comm _ _)
  neg_add_cancel a := add_self a
  nsmul := nsmulRec
  zsmul := zsmulRec

/-- The bit loop, as a map of the group. -/
def shift : CrcWord →+ CrcWord where
  toFun w := ⟨tlvCrc16Bit w.word⟩
  map_zero' := rfl
  map_add' _ _ := CrcWord.ext (tlvCrc16Bit_xor _ _)

@[simp] theorem word_shift (w : CrcWord) : (shift w).word = tlvCrc16Bit w.word := rfl

theorem word_iterate_shift (w : CrcWord) (n : ℕ) : (shift^[n] w).word = tlvCrc16Bit^[n] w.word :=
  Function.Semiconj.iterate_right (f := word) (fun _ ↦ rfl) n w

/-- What a set bit adds: the topmost bit. -/
def tap : CrcWord :=
  ⟨0x8000⟩

theorem shift_injective : Function.Injective shift :=
  (injective_iff_map_eq_zero shift).2 fun _ h ↦
    CrcWord.ext (eq_zero_of_tlvCrc16Bit (congrArg word h))

/-- The parity of a word. -/
def parity : CrcWord →+ ZMod 2 where
  toFun w := bitParity w.word.toNat
  map_zero' := by decide
  map_add' a b := bitParity_xor a.word.toNat b.word.toNat

theorem parity_shift (w : CrcWord) : parity (shift w) = parity w :=
  bitParity_tlvCrc16Bit w.word

theorem parity_tap : parity tap = 1 := by
  decide

/-- The longest frame has 2072 bits under its checksum, the checksum included; the tap does not come
back within them. -/
theorem iterate_shift_tap_ne {m : ℕ} (hpos : 0 < m) (hlt : m < 2072) : shift^[m] tap ≠ tap := by
  have hnever : (0x8000 : UInt16) ∉ List.iterate tlvCrc16Bit (tlvCrc16Bit 0x8000) 2071 := by
    decide +kernel
  intro h
  refine hnever (List.mem_iterate.2 ⟨m - 1, by omega, ?_⟩)
  rw [← Function.iterate_succ_apply, Nat.succ_eq_add_one, Nat.sub_add_cancel hpos]
  exact (congrArg word h).symm.trans (word_iterate_shift tap m)

end CrcWord

/-! ### Updates -/

theorem iterate_tlvCrc16Bit_xor (n : ℕ) (a b : UInt16) :
    tlvCrc16Bit^[n] (a ^^^ b) = tlvCrc16Bit^[n] a ^^^ tlvCrc16Bit^[n] b := by
  have h := congrArg CrcWord.word (iterate_map_add CrcWord.shift n ⟨a⟩ ⟨b⟩)
  simpa only [CrcWord.word_iterate_shift, CrcWord.word_add] using h

/-- No information is lost in the bit loop. -/
theorem iterate_tlvCrc16Bit_eq_zero {w : UInt16} {n : ℕ} : tlvCrc16Bit^[n] w = 0 ↔ w = 0 := by
  constructor
  · intro h
    have hword : CrcWord.shift^[n] ⟨w⟩ = CrcWord.shift^[n] 0 := by
      apply CrcWord.ext
      rw [CrcWord.word_iterate_shift, iterate_map_zero]
      exact h
    exact congrArg CrcWord.word (CrcWord.shift_injective.iterate n hword)
  · rintro rfl
    exact Function.iterate_fixed rfl n

/-- The update in two parts: what becomes of the word, and what the byte adds. -/
theorem tlvCrc16Update_eq_xor (crc : UInt16) (b : UInt8) :
    tlvCrc16Update crc b = tlvCrc16Bit^[8] crc ^^^ tlvCrc16Update 0 b := by
  rw [tlvCrc16Update, tlvCrc16Update, UInt16.zero_xor, iterate_tlvCrc16Bit_xor]

/-- A byte in the upper half of the word is the byte after eight turns. -/
theorem iterate_tlvCrc16Bit_toUInt16 (b : UInt8) :
    tlvCrc16Bit^[8] b.toUInt16 = b.toUInt16 <<< 8 := by
  have hb : b.toUInt16.toNat * 2 ^ 8 < 2 ^ 16 := by
    have hlt : b.toNat < 256 := b.toNat_lt
    rw [UInt8.toNat_toUInt16]
    omega
  apply UInt16.toNat_inj.1
  rw [toNat_iterate_tlvCrc16Bit hb, UInt16.toNat_shiftLeft, Nat.shiftLeft_eq]
  exact (Nat.mod_eq_of_lt hb).symm

/-- Two updates are sixteen turns of the bit loop, on the word and the two bytes together. -/
theorem tlvCrc16Update_update (crc : UInt16) (hi lo : UInt8) :
    tlvCrc16Update (tlvCrc16Update crc hi) lo = tlvCrc16Bit^[16] (crc ^^^ UInt16.join hi lo) := by
  rw [tlvCrc16Update, tlvCrc16Update, ← iterate_tlvCrc16Bit_toUInt16 lo, ← iterate_tlvCrc16Bit_xor,
    ← Function.iterate_add_apply, UInt16.join_eq_xor, UInt16.xor_assoc]

/-! ### Bytes as bits -/

/-- The bits of a byte, most significant first. -/
def byteBits (b : UInt8) : List Bool :=
  [7, 6, 5, 4, 3, 2, 1, 0].map b.toNat.testBit

/-- The bits of a buffer. -/
def bitsOf (data : List UInt8) : List Bool :=
  data.flatMap byteBits

@[simp]
theorem length_byteBits (b : UInt8) : (byteBits b).length = 8 :=
  rfl

theorem length_bitsOf (data : List UInt8) : (bitsOf data).length = 8 * data.length := by
  rw [bitsOf, List.length_flatMap]
  simp [Nat.mul_comm]

theorem byteBits_xor (a b : UInt8) :
    byteBits (a ^^^ b) = List.zipWith xor (byteBits a) (byteBits b) := by
  simp only [byteBits, UInt8.toNat_xor, List.map_cons, List.map_nil, List.zipWith_cons_cons,
    List.zipWith_nil_left, Nat.testBit_xor]

theorem bitsOf_zipWith_xor {as bs : List UInt8} (h : as.length = bs.length) :
    bitsOf (List.zipWith (· ^^^ ·) as bs) = List.zipWith xor (bitsOf as) (bitsOf bs) := by
  induction as generalizing bs with
  | nil =>
    obtain rfl : bs = [] := List.eq_nil_of_length_eq_zero h.symm
    rfl
  | cons a as ih =>
    obtain _ | ⟨b, bs⟩ := bs
    · cases h
    · have hbits := ih (Nat.succ.inj h)
      rw [bitsOf, bitsOf, bitsOf] at hbits
      simp only [bitsOf, List.zipWith_cons_cons, List.flatMap_cons, byteBits_xor, hbits]
      exact (List.zipWith_append (by simp)).symm

/-- Eight bits are the bits of a byte. -/
theorem exists_byteBits {bits : List Bool} (h : bits.length = 8) : ∃ b, byteBits b = bits := by
  have hall : ∀ b₇ b₆ b₅ b₄ b₃ b₂ b₁ b₀ : Bool, byteBits (UInt8.ofNat
      (b₇.toNat * 128 + b₆.toNat * 64 + b₅.toNat * 32 + b₄.toNat * 16 + b₃.toNat * 8 +
        b₂.toNat * 4 + b₁.toNat * 2 + b₀.toNat)) = [b₇, b₆, b₅, b₄, b₃, b₂, b₁, b₀] := by
    decide +kernel
  match bits, h with
  | [b₇, b₆, b₅, b₄, b₃, b₂, b₁, b₀], _ => exact ⟨_, hall b₇ b₆ b₅ b₄ b₃ b₂ b₁ b₀⟩

/-- A byte with no bit set is zero. -/
theorem eq_zero_of_byteBits {b : UInt8} (h : true ∉ byteBits b) : b = 0 := by
  have hall : ∀ n < 256, true ∉ byteBits (UInt8.ofNat n) → UInt8.ofNat n = 0 := by
    decide +kernel
  have hb := hall b.toNat b.toNat_lt
  rw [UInt8.ofNat_toNat] at hb
  exact hb h

/-- Folding in a byte is feeding its bits. -/
theorem feed_byteBits (crc : UInt16) (b : UInt8) :
    (feed CrcWord.shift CrcWord.tap ⟨crc⟩ (byteBits b)).word = tlvCrc16Update crc b := by
  have hzero : ∀ n < 256, (feed CrcWord.shift CrcWord.tap 0 (byteBits (UInt8.ofNat n))).word =
      tlvCrc16Update 0 (UInt8.ofNat n) := by
    decide +kernel
  have hbyte := hzero b.toNat b.toNat_lt
  rw [UInt8.ofNat_toNat] at hbyte
  rw [feed_eq_add, CrcWord.word_add, CrcWord.word_iterate_shift, length_byteBits, hbyte,
    tlvCrc16Update_eq_xor crc]

/-- **The checksum of a buffer is the register fed with its bits.** -/
theorem feed_bitsOf (crc : UInt16) (data : List UInt8) :
    (feed CrcWord.shift CrcWord.tap ⟨crc⟩ (bitsOf data)).word = data.foldl tlvCrc16Update crc := by
  induction data generalizing crc with
  | nil => rfl
  | cons b data ih =>
    rw [bitsOf, List.flatMap_cons, feed_append, List.foldl_cons, ← ih, ← feed_byteBits]
    rfl

end SubmarineMonitor
