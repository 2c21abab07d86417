import Mathlib.Algebra.Order.Group.Nat
import SubmarineMonitor.Foundation.Bytes
import SubmarineMonitor.Foundation.Positional

/-!
# Big-endian numbers

Numbers as bytes, most significant byte first: `bytes k n` keeps the lowest `k` bytes of `n`, and
`number` reads any list of bytes back. The two cancel up to `256 ^ k`. The shifts and masks that
split a word, and the shifts that put one together, are shown to be these two at the widths of
`UInt16` and `UInt32`.

## Between words and numbers

Machine words have a width, and numbers do not. `bytes` takes the width as an argument and drops
what does not fit, and `number` takes any list, so that a split and a join of any width is one pair
of functions; what is specific to a width are the lemmas about the shifts at the end, one for
splitting and one for joining. With these a program that moves bytes by shifts is turned into the
two functions once, and everything after it is arithmetic.

A join by inclusive or is a sum, as long as the lower part has no bit where the upper one is placed
(`or_shiftLeft`). It is all that joining needs to know about bits.

`number` is `Positional.value` in base 256, so what is known about positional notation is known
about it: lists of the same length compare as their numbers do.

Little-endian data is the reversed list. Nothing is proved about it here, as reversing is a matter
of the layout and not of the numbers.
-/

namespace BigEndian

/-- The lowest `k` bytes of a number, most significant first. -/
def bytes : ℕ → ℕ → List UInt8
  | 0, _ => []
  | k + 1, n => bytes k (n / 256) ++ [UInt8.ofNat n]

/-- The number that these bytes spell. -/
def number (bs : List UInt8) : ℕ :=
  Positional.value 256 (bs.map UInt8.toNat)

@[simp]
theorem length_bytes (k n : ℕ) : (bytes k n).length = k := by
  induction k generalizing n with
  | zero => rfl
  | succ k ih => rw [bytes, List.length_append, ih, List.length_singleton]

@[simp]
theorem number_singleton (b : UInt8) : number [b] = b.toNat := by
  show 0 * 256 + b.toNat = _
  omega

theorem number_append_singleton (bs : List UInt8) (b : UInt8) :
    number (bs ++ [b]) = number bs * 256 + b.toNat := by
  rw [number, List.map_append, Positional.value, List.foldl_append]
  rfl

/-- **What was split is put together again**, up to what the width does not hold. -/
theorem number_bytes (k n : ℕ) : number (bytes k n) = n % 256 ^ k := by
  induction k generalizing n with
  | zero => exact (Nat.mod_one n).symm
  | succ k ih =>
    have hlow : (UInt8.ofNat n).toNat = n % 256 := UInt8.toNat_ofNat'
    rw [bytes, number_append_singleton, ih, hlow, Nat.pow_succ', Nat.mod_mul]
    omega

theorem number_bytes_of_lt {k n : ℕ} (h : n < 256 ^ k) : number (bytes k n) = n := by
  rw [number_bytes, Nat.mod_eq_of_lt h]

/-! ### Splitting words -/

theorem bytes_two (x : UInt16) : bytes 2 x.toNat = [x.hi, x.lo] := by
  show [UInt8.ofNat (x.toNat / 256), UInt8.ofNat x.toNat] = _
  have hhi : UInt8.ofNat (x.toNat / 256) = x.hi := by
    apply UInt8.toNat_inj.1
    have hlt : x.toNat < 65536 := x.toNat_lt
    rw [UInt16.toNat_hi, UInt8.toNat_ofNat_of_lt' (show x.toNat / 256 < 256 by omega)]
  have hlo : UInt8.ofNat x.toNat = x.lo := by
    apply UInt8.toNat_inj.1
    rw [UInt16.toNat_lo]
    exact UInt8.toNat_ofNat'
  rw [hhi, hlo]

/-- A byte of a word, cut out by a shift and a truncation. -/
theorem toUInt8_shiftRight (x s : UInt32) (hs : s.toNat < 32) :
    (x >>> s).toUInt8 = UInt8.ofNat (x.toNat / 2 ^ s.toNat) := by
  apply UInt8.toNat_inj.1
  rw [UInt32.toNat_toUInt8, UInt32.toNat_shiftRight, Nat.mod_eq_of_lt hs,
    Nat.shiftRight_eq_div_pow]
  exact UInt8.toNat_ofNat'.symm

/-- The last byte of a word, cut out by a mask. -/
theorem toUInt8_and (x : UInt32) : (x &&& 0xFF).toUInt8 = UInt8.ofNat x.toNat := by
  apply UInt8.toNat_inj.1
  rw [UInt32.toNat_toUInt8, UInt32.toNat_and, show UInt32.toNat 0xFF = 2 ^ 8 - 1 from rfl,
    Nat.and_two_pow_sub_one_eq_mod, Nat.mod_mod]
  exact UInt8.toNat_ofNat'.symm

theorem bytes_four (x : UInt32) :
    bytes 4 x.toNat =
      [(x >>> 24).toUInt8, (x >>> 16).toUInt8, (x >>> 8).toUInt8, (x &&& 0xFF).toUInt8] := by
  rw [toUInt8_shiftRight x 24 (by decide), toUInt8_shiftRight x 16 (by decide),
    toUInt8_shiftRight x 8 (by decide), toUInt8_and]
  show [UInt8.ofNat (x.toNat / 256 / 256 / 256), UInt8.ofNat (x.toNat / 256 / 256),
    UInt8.ofNat (x.toNat / 256), UInt8.ofNat x.toNat] = _
  rw [Nat.div_div_eq_div_mul x.toNat, Nat.div_div_eq_div_mul x.toNat]
  rfl

/-! ### Putting words together -/

theorem join_eq_ofNat (hi lo : UInt8) : UInt16.join hi lo = UInt16.ofNat (number [hi, lo]) := by
  have hnumber : number [hi, lo] = hi.toNat * 256 + lo.toNat := by
    show (0 * 256 + hi.toNat) * 256 + lo.toNat = _
    omega
  rw [hnumber, ← UInt16.toNat_join, UInt16.ofNat_toNat]

/-- A field below the bits that are set already is added by an exclusive or an inclusive one. -/
theorem or_shiftLeft {a b : ℕ} (s : ℕ) (h : b < 2 ^ s) : a * 2 ^ s ||| b = a * 2 ^ s + b := by
  rw [← Nat.shiftLeft_eq, Nat.shiftLeft_add_eq_or_of_lt h]

theorem join_four (b₀ b₁ b₂ b₃ : UInt8) :
    (b₀.toUInt32 <<< 24) ||| (b₁.toUInt32 <<< 16) ||| (b₂.toUInt32 <<< 8) ||| b₃.toUInt32 =
      UInt32.ofNat (number [b₀, b₁, b₂, b₃]) := by
  have hb : ∀ b : UInt8, b.toNat < 256 := fun b ↦ b.toNat_lt
  have h₀ := hb b₀
  have h₁ := hb b₁
  have h₂ := hb b₂
  have h₃ := hb b₃
  have hnumber : number [b₀, b₁, b₂, b₃] =
      ((b₀.toNat * 256 + b₁.toNat) * 256 + b₂.toNat) * 256 + b₃.toNat := by
    show (((0 * 256 + b₀.toNat) * 256 + b₁.toNat) * 256 + b₂.toNat) * 256 + b₃.toNat = _
    omega
  -- no shift pushes anything out of the word
  have hshift : ∀ (b : UInt8) (s : UInt32), s.toNat ≤ 24 →
      (b.toUInt32 <<< s).toNat = b.toNat * 2 ^ s.toNat := by
    intro b s hs
    have hsmall : b.toNat * 2 ^ s.toNat < 2 ^ 32 := by
      calc b.toNat * 2 ^ s.toNat < 2 ^ 8 * 2 ^ s.toNat :=
            Nat.mul_lt_mul_of_pos_right (hb b) (Nat.two_pow_pos _)
        _ = 2 ^ (8 + s.toNat) := (Nat.pow_add 2 8 s.toNat).symm
        _ ≤ 2 ^ 32 := Nat.pow_le_pow_right (by decide) (by omega)
    rw [UInt32.toNat_shiftLeft, UInt8.toNat_toUInt32, Nat.mod_eq_of_lt (show s.toNat < 32 by omega),
      Nat.shiftLeft_eq, Nat.mod_eq_of_lt hsmall]
  apply UInt32.toNat_inj.1
  rw [UInt32.toNat_or, UInt32.toNat_or, UInt32.toNat_or, hshift b₀ 24 (by decide),
    hshift b₁ 16 (by decide), hshift b₂ 8 (by decide), UInt8.toNat_toUInt32, hnumber,
    UInt32.toNat_ofNat_of_lt' (by show _ < 4294967296; omega)]
  show b₀.toNat * 2 ^ 24 ||| b₁.toNat * 2 ^ 16 ||| b₂.toNat * 2 ^ 8 ||| b₃.toNat = _
  rw [or_shiftLeft 24 (by omega),
    show b₀.toNat * 2 ^ 24 + b₁.toNat * 2 ^ 16 = (b₀.toNat * 256 + b₁.toNat) * 2 ^ 16 by omega,
    or_shiftLeft 16 (by omega),
    show (b₀.toNat * 256 + b₁.toNat) * 2 ^ 16 + b₂.toNat * 2 ^ 8 =
      ((b₀.toNat * 256 + b₁.toNat) * 256 + b₂.toNat) * 2 ^ 8 by omega,
    or_shiftLeft 8 h₃]
  rfl

end BigEndian
