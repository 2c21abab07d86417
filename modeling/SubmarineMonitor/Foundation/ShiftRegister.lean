import Mathlib.Algebra.Field.ZMod
import Mathlib.Algebra.Group.Hom.Basic
import Mathlib.Data.List.Iterate

/-!
# Linear shift registers

A register over an additive group in which everything is its own negative. Feeding a bit adds the
`tap` if the bit is set and then shifts, and the shift is additive; so the register is linear in what
it held and in what it is fed (`feed_add`), and two streams of bits leave the same behind just when
feeding their difference to an empty register leaves nothing.

Which differences leave nothing is therefore all there is to know about the register as a checksum.
Three observations settle it for small ones and for short bursts:

* zeros before and after a difference do not matter, if the shift is injective (`feed_window`);
* if some parity survives the shift and is odd for the tap, an odd number of bits is never missed
  (`map_feed`);
* two bits at a distance `m` are missed only if shifting the tap `m` times returns it
  (`feed_pair_ne_zero`).

## Any group

The register is an element of an additive group, the shift an additive map, and a bit adds the tap.
No width and no polynomial occur. A check by exclusive or over the words of a type is an instance
with that type as the group; so are registers that shift the other way, and several registers side
by side.

What an instance has to supply is small: that everything is its own negative, that the shift is
injective, a parity that it keeps, and how long the tap stays away. Each theorem names what it uses.
The first three are proved by algebra in an instance, the last one by looking, since it depends on
the polynomial.

## Length

Only the statement about two bits has a bound on the length, and it enters through the tap: after as
many shifts as the register has states, it must have come back. The statement about three bits rests
on parity alone, and the one about bursts on what a window of the register's own width can hold,
which is a hypothesis because the group has no width.
-/

namespace ShiftRegister

variable {V : Type*} [AddCommGroup V]

/-- Feed a stream of bits to a register that holds `v`. -/
def feed (shift : V →+ V) (tap : V) (v : V) (bits : List Bool) : V :=
  bits.foldl (fun v b ↦ shift (v + if b then tap else 0)) v

variable {shift : V →+ V} {tap : V}

@[simp]
theorem feed_nil (v : V) : feed shift tap v [] = v :=
  rfl

@[simp]
theorem feed_cons (v : V) (b : Bool) (bits : List Bool) :
    feed shift tap v (b :: bits) = feed shift tap (shift (v + if b then tap else 0)) bits :=
  rfl

theorem feed_append (v : V) (as bs : List Bool) :
    feed shift tap v (as ++ bs) = feed shift tap (feed shift tap v as) bs :=
  List.foldl_append

/-- Zeros only shift. -/
theorem feed_replicate_false (v : V) (n : ℕ) :
    feed shift tap v (List.replicate n false) = shift^[n] v := by
  induction n generalizing v with
  | zero => rfl
  | succ n ih => simp [List.replicate_succ, ih]

/-! ### Superposition -/

section Superposition

variable (two : ∀ v : V, v + v = 0)

include two

/-- What two bits add is what their difference adds. -/
theorem tap_xor (a b : Bool) :
    ((if a ^^ b then tap else 0 : V)) = (if a then tap else 0) + if b then tap else 0 := by
  cases a <;> cases b <;> simp [two]

/-- **The register is linear** in what it holds and in what it is fed. -/
theorem feed_add (v w : V) {as bs : List Bool} (h : as.length = bs.length) :
    feed shift tap (v + w) (List.zipWith xor as bs) =
      feed shift tap v as + feed shift tap w bs := by
  induction as generalizing v w bs with
  | nil =>
    obtain rfl : bs = [] := List.eq_nil_of_length_eq_zero h.symm
    rfl
  | cons a as ih =>
    obtain _ | ⟨b, bs⟩ := bs
    · cases h
    · rw [List.zipWith_cons_cons, feed_cons, feed_cons, feed_cons, ← ih _ _ (Nat.succ.inj h),
        tap_xor two, ← map_add, add_add_add_comm]

end Superposition

/-- What the register held and what it is fed do not interact. -/
theorem feed_eq_add (v : V) (bits : List Bool) :
    feed shift tap v bits = shift^[bits.length] v + feed shift tap 0 bits := by
  induction bits generalizing v with
  | nil => simp
  | cons b bits ih =>
    rw [feed_cons, ih, feed_cons, ih (shift (0 + _)), ← add_assoc, List.length_cons,
      Function.iterate_succ_apply, ← iterate_map_add, ← map_add, zero_add]

/-! ### What is never missed -/

/-- Zeros around a difference do not hide it. -/
theorem feed_window (hshift : Function.Injective shift) {w : List Bool}
    (hw : feed shift tap 0 w ≠ 0) (i j : ℕ) :
    feed shift tap 0 (List.replicate i false ++ (w ++ List.replicate j false)) ≠ 0 := by
  rw [feed_append, feed_append, feed_replicate_false, feed_replicate_false, iterate_map_zero]
  intro h
  exact hw (hshift.iterate j (h.trans (iterate_map_zero shift j).symm))

/-- **A parity that survives the shift counts the bits.** -/
theorem map_feed {parity : V →+ ZMod 2} (hshift : ∀ v, parity (shift v) = parity v)
    (htap : parity tap = 1) (v : V) (bits : List Bool) :
    parity (feed shift tap v bits) = parity v + bits.count true := by
  induction bits generalizing v with
  | nil => simp
  | cons b bits ih =>
    rw [feed_cons, ih, hshift, map_add]
    cases b
    · simp
    · rw [if_pos rfl, htap, List.count_cons_self, Nat.cast_add, Nat.cast_one, add_assoc,
        add_comm 1]

/-- Two bits, with zeros between and after them. -/
theorem feed_pair_ne_zero (two : ∀ v : V, v + v = 0) (hshift : Function.Injective shift) {k : ℕ}
    (hk : shift^[k + 1] tap ≠ tap) (j : ℕ) :
    feed shift tap 0 (true :: (List.replicate k false ++ true :: List.replicate j false)) ≠ 0 := by
  have hpair : feed shift tap 0 (true :: (List.replicate k false ++ true :: List.replicate j false)) =
      shift^[j + 1] (shift^[k + 1] tap + tap) := by
    rw [feed_cons, feed_append, feed_cons, feed_replicate_false, feed_replicate_false]
    simp [Function.iterate_succ_apply]
  rw [hpair]
  intro h
  have hsum : shift^[k + 1] tap + tap = 0 :=
    hshift.iterate (j + 1) (h.trans (iterate_map_zero shift _).symm)
  exact hk (add_right_cancel (hsum.trans (two tap).symm))

/-! ### Up to three bits -/

theorem eq_replicate_false {bits : List Bool} (h : true ∉ bits) :
    bits = List.replicate bits.length false :=
  List.eq_replicate_iff.2 ⟨rfl, fun _ hb ↦ Bool.eq_false_iff.2 fun ht ↦ h (ht ▸ hb)⟩

/-- A stream with a bit set begins with zeros up to the first one. -/
theorem exists_first_set {bits : List Bool} (h : true ∈ bits) :
    ∃ (i : ℕ) (rest : List Bool), bits = List.replicate i false ++ true :: rest := by
  obtain ⟨zeros, rest, rfl, hzeros⟩ := List.eq_append_cons_of_mem h
  exact ⟨zeros.length, rest, by rw [← eq_replicate_false hzeros]⟩

/-- **No one, two or three bits are missed** in a stream that is too short for the tap to come back,
if there is a parity that survives the shift. -/
theorem feed_ne_zero_of_count_le (two : ∀ v : V, v + v = 0) (hinj : Function.Injective shift)
    {parity : V →+ ZMod 2} (hshift : ∀ v, parity (shift v) = parity v) (htap : parity tap = 1)
    {n : ℕ} (horder : ∀ m, 0 < m → m < n → shift^[m] tap ≠ tap) {bits : List Bool}
    (hlen : bits.length ≤ n) (hset : true ∈ bits) (hcount : bits.count true ≤ 3) :
    feed shift tap 0 bits ≠ 0 := by
  have hpos : 0 < bits.count true := List.count_pos_iff.2 hset
  by_cases heven : bits.count true = 2
  · obtain ⟨i, rest, rfl⟩ := exists_first_set hset
    have hrest : rest.count true = 1 := by
      simpa [List.count_append, List.count_replicate] using heven
    obtain ⟨k, rest, rfl⟩ := exists_first_set (List.count_pos_iff.1 (by omega : 0 < rest.count true))
    have hzeros : true ∉ rest := by
      rw [← List.count_eq_zero]
      simpa [List.count_append, List.count_replicate] using hrest
    rw [eq_replicate_false hzeros] at hlen ⊢
    simp only [List.length_append, List.length_cons, List.length_replicate] at hlen
    rw [← List.append_nil (List.replicate rest.length false)]
    have hpair := feed_pair_ne_zero two hinj (horder (k + 1) (by omega) (by omega)) rest.length
    simpa using feed_window hinj hpair i 0
  · -- an odd number of bits
    have hodd : bits.count true = 1 ∨ bits.count true = 3 := by omega
    intro hzero
    have hparity := map_feed hshift htap 0 bits
    rw [hzero, map_zero, zero_add] at hparity
    rcases hodd with h | h <;> rw [h] at hparity <;> exact absurd hparity (by decide)

/-! ### Bursts -/

/-- Every bit set lies within `n` consecutive places. -/
def Burst (n : ℕ) (bits : List Bool) : Prop :=
  ∃ i, ∀ j, bits[j]? = some true → i ≤ j ∧ j < i + n

/-- A burst is a window with zeros around it. -/
theorem Burst.exists_window {n : ℕ} {bits : List Bool} (h : Burst n bits) (hn : n ≤ bits.length) :
    ∃ (i j : ℕ) (w : List Bool), w.length = n ∧
      bits = List.replicate i false ++ (w ++ List.replicate j false) := by
  obtain ⟨i, hi⟩ := h
  -- a burst at the end of the stream has its window moved back into it
  set k := min i (bits.length - n) with hk
  have hbefore : true ∉ bits.take k := by
    intro hmem
    obtain ⟨j, hj⟩ := List.mem_iff_getElem?.1 hmem
    rw [List.getElem?_take] at hj
    split at hj
    · have := (hi j hj).1
      omega
    · cases hj
  have hafter : true ∉ (bits.drop k).drop n := by
    intro hmem
    obtain ⟨j, hj⟩ := List.mem_iff_getElem?.1 hmem
    rw [List.getElem?_drop, List.getElem?_drop] at hj
    have hlt := (List.getElem?_eq_some_iff.1 hj).1
    have := (hi _ hj).2
    omega
  refine ⟨(bits.take k).length, ((bits.drop k).drop n).length, (bits.drop k).take n, ?_, ?_⟩
  · rw [List.length_take, List.length_drop]
    omega
  · rw [← eq_replicate_false hbefore, ← eq_replicate_false hafter, List.take_append_drop,
      List.take_append_drop]

/-- **No burst is missed** that is not longer than what the register can hold. -/
theorem feed_ne_zero_of_burst (hinj : Function.Injective shift) {n : ℕ}
    (hword : ∀ w : List Bool, w.length = n → true ∈ w → feed shift tap 0 w ≠ 0) {bits : List Bool}
    (hn : n ≤ bits.length) (hset : true ∈ bits) (hburst : Burst n bits) :
    feed shift tap 0 bits ≠ 0 := by
  obtain ⟨i, j, w, hw, rfl⟩ := hburst.exists_window hn
  have hmem : true ∈ w := by simpa using hset
  exact feed_window hinj (hword w hw hmem) i j

end ShiftRegister
