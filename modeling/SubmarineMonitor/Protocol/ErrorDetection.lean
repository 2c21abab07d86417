import SubmarineMonitor.Protocol.CrcRegister
import SubmarineMonitor.Protocol.RoundTrip

/-!
# What the checksum catches

A frame passes when the checksum over everything behind its sync bytes, the two checksum bytes
included, comes out as zero (`valid_iff_residue`). The checksum is linear, so a damaged frame of
unchanged length passes just when the damage on its own leaves nothing behind, whatever the frame
said; and what is known about the shift register says which damage that cannot be.

The length byte is under the same checksum but has no protection of its own: when it is damaged, the
checksum is looked for in another place, and what stands there may be right by accident or by
choice.

## What is damaged

`Damage` is a pattern over everything behind the sync bytes, of the same length as that, which is
zero at the length byte. The sync bytes are excluded because damage to them is of another kind: the
decoder then does not see a frame at all, and the receiver hunts on through it. The length byte is
excluded because with it the place of the checksum moves; `tlvDecode_flipBit` says exactly what
happens when one of its bits flips, and `mimic` is a frame for which that goes wrong.

Two families are covered, up to three bits anywhere and any number within sixteen bits in a row.
About other damage nothing is said, although parity alone would exclude every odd number of flipped
bits as well.

## Decoder and receiver

The statement is about both. For the block decoder it is a computation with the residue; for the
receiver it follows, since a hunting receiver decides on a buffer what the decoder decides
(`feedUntil_iff_tlvDecode`). What a receiver does that is not hunting when the damaged frame arrives
is a question of recovery.

## What is left out

Bits that are lost or inserted. They shift what follows, and a serial line that loses a byte makes
the receiver take the beginning of the next frame for the end of this one; the bound on what that
costs is `Protocol.Recovery`.
-/

open FrameFormat ShiftRegister

namespace SubmarineMonitor

/-! ### The residue -/

/-- **A buffer and its checksum have the checksum zero**, and only these. -/
theorem tlvCrc16_append_eq_zero (data : List UInt8) (hi lo : UInt8) :
    tlvCrc16 (data ++ [hi, lo]) = 0 ↔ tlvCrc16 data = UInt16.join hi lo := by
  rw [tlvCrc16, List.foldl_append, ← tlvCrc16]
  show tlvCrc16Update (tlvCrc16Update (tlvCrc16 data) hi) lo = 0 ↔ _
  rw [tlvCrc16Update_update, iterate_tlvCrc16Bit_eq_zero, UInt16.xor_eq_zero_iff]

theorem valid_iff_residue (s : TlvSegment) :
    TlvSegment.Valid s ↔ tlvCrc16 (s.tag :: s.len :: s.body) = 0 := by
  rw [TlvSegment.body_eq, ← List.cons_append, ← List.cons_append, tlvCrc16_append_eq_zero]
  exact eq_comm

/-! ### Damage -/

/-- The checksum of a damaged buffer: what it was, and what the damage adds. -/
theorem tlvCrc16_zipWith_xor {data pattern : List UInt8} (h : data.length = pattern.length) :
    tlvCrc16 (List.zipWith (· ^^^ ·) data pattern) =
      tlvCrc16 data ^^^ pattern.foldl tlvCrc16Update 0 := by
  have hbits : (bitsOf data).length = (bitsOf pattern).length := by
    rw [length_bitsOf, length_bitsOf, h]
  have hfeed : feed CrcWord.shift CrcWord.tap (⟨0xFFFF⟩ + 0)
      (List.zipWith xor (bitsOf data) (bitsOf pattern)) = _ :=
    feed_add CrcWord.add_self _ _ hbits
  rw [← bitsOf_zipWith_xor h] at hfeed
  have hword := congrArg CrcWord.word hfeed
  rwa [add_zero, CrcWord.word_add, feed_bitsOf, feed_bitsOf, show (0 : CrcWord) = ⟨0⟩ from rfl,
    feed_bitsOf] at hword

/-- A damage the checksum is made for: up to three bits, or sixteen bits in a row. -/
def Small (pattern : List UInt8) : Prop :=
  (bitsOf pattern).count true ≤ 3 ∨ Burst 16 (bitsOf pattern)

/-- Two bytes that are not both zero are not missed. -/
theorem feed_word_ne_zero {w : List Bool} (hw : w.length = 16) (hset : true ∈ w) :
    feed CrcWord.shift CrcWord.tap 0 w ≠ 0 := by
  obtain ⟨hi, hhi⟩ : ∃ b, byteBits b = w.take 8 :=
    exists_byteBits (by rw [List.length_take, hw]; rfl)
  obtain ⟨lo, hlo⟩ : ∃ b, byteBits b = w.drop 8 :=
    exists_byteBits (by rw [List.length_drop, hw])
  have hbits : w = bitsOf [hi, lo] := by
    rw [← List.take_append_drop 8 w, ← hhi, ← hlo]
    simp [bitsOf]
  intro hzero
  have hword := congrArg CrcWord.word hzero
  rw [hbits, show (0 : CrcWord) = ⟨0⟩ from rfl, feed_bitsOf] at hword
  have hjoin : UInt16.join hi lo = 0 := by
    have h := (tlvCrc16Update_update 0 hi lo).symm.trans hword
    rwa [iterate_tlvCrc16Bit_eq_zero, UInt16.zero_xor] at h
  have hhi₀ : hi = 0 := by rw [← UInt16.hi_join hi lo, hjoin]; rfl
  have hlo₀ : lo = 0 := by rw [← UInt16.lo_join hi lo, hjoin]; rfl
  rw [hbits, hhi₀, hlo₀] at hset
  exact absurd hset (by decide)

/-- **Small damage leaves something behind.** -/
theorem foldl_ne_zero_of_small {pattern : List UInt8} (hmin : 2 ≤ pattern.length)
    (hmax : pattern.length ≤ tlvMaxFrame - 2) (hne : ∃ b ∈ pattern, b ≠ 0) (hsmall : Small pattern) :
    pattern.foldl tlvCrc16Update 0 ≠ 0 := by
  have hset : true ∈ bitsOf pattern := by
    obtain ⟨b, hb, hb₀⟩ := hne
    by_contra hnone
    exact hb₀ (eq_zero_of_byteBits fun h ↦ hnone (List.mem_flatMap.2 ⟨b, hb, h⟩))
  have hlen := length_bitsOf pattern
  have hmax' : pattern.length ≤ 259 := hmax
  have hfeed : feed CrcWord.shift CrcWord.tap 0 (bitsOf pattern) ≠ 0 := by
    rcases hsmall with hcount | hburst
    · exact feed_ne_zero_of_count_le CrcWord.add_self CrcWord.shift_injective CrcWord.parity_shift
        CrcWord.parity_tap (fun m ↦ CrcWord.iterate_shift_tap_ne) (by omega) hset hcount
    · exact feed_ne_zero_of_burst CrcWord.shift_injective (fun w ↦ feed_word_ne_zero) (by omega)
        hset hburst
  intro hzero
  apply hfeed
  apply CrcWord.ext
  rw [show (0 : CrcWord) = ⟨0⟩ from rfl, feed_bitsOf, hzero]

/-- Damage to a frame behind its sync bytes that leaves its length byte alone. -/
structure Damage (o : Outgoing) where
  /-- Which bits of TAG, LEN, VALUE and CRC are flipped. -/
  pattern : List UInt8
  length_eq : pattern.length = o.value.length + 4
  len_intact : pattern[1]? = some 0

/-- The damaged frame. -/
def Damage.bytes {o : Outgoing} (d : Damage o) : List UInt8 :=
  tlvSof0 :: tlvSof1 :: List.zipWith (· ^^^ ·) (o.bytes.drop 2) d.pattern

/-- The damaged frame is still a segment; its checksum is what the damage leaves behind. -/
theorem Damage.exists_segment {o : Outgoing} (d : Damage o) :
    ∃ s : TlvSegment, s.bytes = d.bytes ∧
      tlvCrc16 (s.tag :: s.len :: s.body) = d.pattern.foldl tlvCrc16Update 0 := by
  obtain ⟨pattern, hlength, hlen⟩ := d
  obtain _ | ⟨t, _ | ⟨l, rest⟩⟩ := pattern
  · cases hlen
  · cases hlen
  obtain rfl : l = 0 := Option.some.inj hlen
  have hbody : o.segment.body.length = rest.length := by
    have h : o.segment.body.length = o.len.toNat + 2 := o.segment.body_length
    rw [Outgoing.toNat_len] at h
    simp only [List.length_cons] at hlength
    omega
  have hsegment : tlvCrc16 (o.tag :: o.len :: o.segment.body) = 0 :=
    (valid_iff_residue o.segment).1 o.valid_segment
  have hcrc : tlvCrc16 (List.zipWith (· ^^^ ·) (o.tag :: o.len :: o.segment.body)
      (t :: 0 :: rest)) = _ := tlvCrc16_zipWith_xor (by simpa using hbody)
  rw [hsegment, UInt16.zero_xor] at hcrc
  have hsame : o.len ^^^ 0 = o.len := UInt8.xor_zero
  refine ⟨⟨o.tag ^^^ t, o.len, List.zipWith (· ^^^ ·) o.segment.body rest, ?_⟩, ?_, ?_⟩
  · rw [List.length_zipWith, ← hbody, Nat.min_self]
    exact o.segment.body_length
  · show _ = tlvSof0 :: tlvSof1 :: (o.tag ^^^ t) :: (o.len ^^^ 0) :: _
    rw [hsame]
    rfl
  · rw [← hcrc, List.zipWith_cons_cons, List.zipWith_cons_cons, hsame]

/-- Small damage leaves a segment whose checksum is wrong. -/
theorem Damage.exists_not_valid {o : Outgoing} (d : Damage o) (hne : ∃ b ∈ d.pattern, b ≠ 0)
    (hsmall : Small d.pattern) : ∃ s : TlvSegment, s.bytes = d.bytes ∧ ¬TlvSegment.Valid s := by
  have hvalue : o.value.length ≤ 255 := o.value_le
  have hlength := d.length_eq
  have hmax : d.pattern.length ≤ tlvMaxFrame - 2 := by
    show _ ≤ 259
    omega
  have hcrc := foldl_ne_zero_of_small (by omega) hmax hne hsmall
  obtain ⟨s, hs, hresidue⟩ := d.exists_segment
  refine ⟨s, hs, ?_⟩
  rw [valid_iff_residue, hresidue]
  exact hcrc

/-- **Small damage is caught.** Whatever the frame says, up to three flipped bits behind its sync
bytes, or any number of them within sixteen bits in a row, make the block decoder return
`TLV_ERR_CRC`, provided the length byte is intact; and a hunting receiver delivers nothing and
returns the same on the last byte. -/
theorem tlvDecode_damage {o : Outgoing} (d : Damage o) (hne : ∃ b ∈ d.pattern, b ≠ 0)
    (hsmall : Small d.pattern) :
    tlvDecode d.bytes = (.errCrc, none) ∧
      ∀ recv : TlvReceiver, recv.state = stSof0 →
        (tlvReceiverTrace recv d.bytes).2 =
          List.replicate (d.bytes.length - 1) (.incomplete, none) ++ [(.errCrc, none)] := by
  obtain ⟨s, hs, hbad⟩ := d.exists_not_valid hne hsmall
  rw [← hs]
  refine ⟨?_, fun recv hrecv ↦ ?_⟩
  · have hdec := tlvDecode_segment s []
    rwa [List.append_nil, if_neg hbad] at hdec
  · have htrace := trace_segment (show Tracks recv .hunt from hrecv) s []
    rw [List.append_nil, TlvSegment.verdict, if_neg hbad] at htrace
    exact htrace

/-- A keep-alive with a bit of its tag flipped. -/
theorem tlvDecode_damage_keepAlive :
    tlvDecode [0xA5, 0x5A, 0x15, 0x00, 0xD2, 0xB8] = (.errCrc, none) ∧
      ∀ recv : TlvReceiver, recv.state = stSof0 →
        (tlvReceiverTrace recv [0xA5, 0x5A, 0x15, 0x00, 0xD2, 0xB8]).2 =
          List.replicate 5 (.incomplete, none) ++ [(.errCrc, none)] := by
  have hdamage : Damage.bytes (⟨[0x01, 0, 0, 0], rfl, rfl⟩ : Damage keepAliveOutgoing) =
      [0xA5, 0x5A, 0x15, 0x00, 0xD2, 0xB8] := by decide +kernel
  have h := tlvDecode_damage (⟨[0x01, 0, 0, 0], rfl, rfl⟩ : Damage keepAliveOutgoing)
    ⟨0x01, by decide, by decide⟩ (.inl (by decide))
  rwa [hdamage] at h

/-! ### A single bit -/

/-- Flip bit `k` of byte `i`. -/
def flipBit (data : List UInt8) (i k : ℕ) : List UInt8 :=
  data.modify i (· ^^^ UInt8.ofNat (2 ^ k))

theorem zipWith_xor_zero (data : List UInt8) :
    List.zipWith (· ^^^ ·) data (List.replicate data.length 0) = data := by
  induction data with
  | nil => rfl
  | cons b data ih => rw [List.length_cons, List.replicate_succ, List.zipWith_cons_cons, ih,
      UInt8.xor_zero]

/-- Flipping a bit is adding a pattern with only that bit set. -/
theorem zipWith_xor_flipBit (data : List UInt8) (i k : ℕ) :
    List.zipWith (· ^^^ ·) data (flipBit (List.replicate data.length 0) i k) =
      flipBit data i k := by
  induction data generalizing i with
  | nil => cases i <;> rfl
  | cons b data ih =>
    obtain _ | i := i
    · simp [flipBit, List.replicate_succ, zipWith_xor_zero]
    · simpa [flipBit, List.replicate_succ] using ih i

theorem count_flipBit {k : ℕ} (hk : k < 8) (n i : ℕ) :
    (bitsOf (flipBit (List.replicate n 0) i k)).count true ≤ 1 := by
  have hzero : ∀ n, (bitsOf (List.replicate n 0)).count true = 0 := by
    intro n
    rw [List.count_eq_zero]
    simp [bitsOf, byteBits]
  have hone : ∀ k < 8, (byteBits (0 ^^^ UInt8.ofNat (2 ^ k))).count true = 1 := by decide
  induction n generalizing i with
  | zero => cases i <;> simp [flipBit, bitsOf]
  | succ n ih =>
    obtain _ | i := i
    · rw [List.replicate_succ, flipBit, List.modify_zero_cons, bitsOf, List.flatMap_cons,
        List.count_append, hone k hk, ← bitsOf, hzero]
    · rw [List.replicate_succ, flipBit, List.modify_succ_cons, bitsOf, List.flatMap_cons,
        List.count_append]
      simpa [flipBit, bitsOf, byteBits] using ih i

/-- A flipped bit behind the sync bytes and outside the length byte is damage. -/
theorem exists_damage_flipBit (o : Outgoing) {i k : ℕ} (hk : k < 8)
    (hi : i + 2 < o.bytes.length) (hlen : i ≠ 1) :
    ∃ d : Damage o, d.bytes = flipBit o.bytes (i + 2) k ∧ (∃ b ∈ d.pattern, b ≠ 0) ∧
      Small d.pattern := by
  have hlength : (o.bytes.drop 2).length = o.value.length + 4 := by
    rw [List.length_drop, o.length_bytes]
    omega
  have hi' : i < o.value.length + 4 := by
    rw [o.length_bytes] at hi
    omega
  have hpow : ∀ k < 8, (0 : UInt8) ^^^ UInt8.ofNat (2 ^ k) ≠ 0 := by decide
  have hflip := zipWith_xor_flipBit (o.bytes.drop 2) i k
  rw [hlength] at hflip
  refine ⟨⟨flipBit (List.replicate (o.value.length + 4) 0) i k, ?_, ?_⟩, ?_,
    ⟨0 ^^^ UInt8.ofNat (2 ^ k), ?_, hpow k hk⟩, .inl ?_⟩
  · rw [flipBit, List.length_modify, List.length_replicate]
  · simp [flipBit, hlen]
  · exact congrArg (tlvSof0 :: tlvSof1 :: ·) hflip
  · refine List.mem_iff_getElem?.2 ⟨i, ?_⟩
    simp [flipBit, hi']
  · exact (count_flipBit hk _ i).trans (by decide)

/-- It is caught. -/
theorem tlvDecode_flipBit_ne_ok (o : Outgoing) {i k : ℕ} (hk : k < 8)
    (hi : i + 2 < o.bytes.length) (hlen : i ≠ 1) :
    (tlvDecode (flipBit o.bytes (i + 2) k)).1 ≠ .ok := by
  obtain ⟨d, hd, hne, hsmall⟩ := exists_damage_flipBit o hk hi hlen
  obtain ⟨s, hs, hbad⟩ := d.exists_not_valid hne hsmall
  have hdec := tlvDecode_segment_ok s []
  rw [List.append_nil, hs, hd] at hdec
  exact fun hok ↦ hbad (hdec.1 hok)

/-- Flipping a bit of the length byte: a set bit shortens the value, a clear one lengthens it. -/
theorem toNat_flip_len (l : UInt8) {k : ℕ} (hk : k < 8) :
    (l ^^^ UInt8.ofNat (2 ^ k)).toNat =
      if l.toNat.testBit k then l.toNat - 2 ^ k else l.toNat + 2 ^ k := by
  have hall : ∀ n < 256, ∀ k < 8, (UInt8.ofNat n ^^^ UInt8.ofNat (2 ^ k)).toNat =
      if n.testBit k then n - 2 ^ k else n + 2 ^ k := by decide +kernel
  have h := hall l.toNat l.toNat_lt k hk
  rwa [UInt8.ofNat_toNat] at h

/-- A frame whose length byte is replaced by a smaller one is accepted just when the two bytes that
now stand behind the value are the checksum. -/
theorem tlvDecode_shortened (o : Outgoing) {l : UInt8} (hl : l.toNat ≤ o.value.length) :
    (tlvDecode (tlvSof0 :: tlvSof1 :: o.tag :: l :: (o.value ++ [o.crc.hi, o.crc.lo]))).1 = .ok ↔
      tlvCrc16 (o.tag :: l :: o.value.take l.toNat) =
        UInt16.join ((o.value ++ [o.crc.hi, o.crc.lo]).getD l.toNat 0)
          ((o.value ++ [o.crc.hi, o.crc.lo]).getD (l.toNat + 1) 0) := by
  set body := o.value ++ [o.crc.hi, o.crc.lo] with hbody
  have hlength : body.length = o.value.length + 2 := by
    rw [hbody, List.length_append]
    rfl
  have hroom : l.toNat + 2 ≤ body.length := by omega
  obtain ⟨s, htag, hlen, hs⟩ : ∃ s : TlvSegment, s.tag = o.tag ∧ s.len = l ∧
      s.body = body.take (l.toNat + 2) :=
    ⟨⟨o.tag, l, body.take (l.toNat + 2), List.length_take_of_le hroom⟩, rfl, rfl, rfl⟩
  have hvalue : TlvSegment.value s = o.value.take l.toNat := by
    rw [TlvSegment.value, hs, hlen, List.take_take, Nat.min_eq_left (Nat.le_add_right _ _), hbody,
      List.take_append_of_le_length hl]
  have hget : ∀ i < l.toNat + 2, s.body.getD i 0 = body.getD i 0 := by
    intro i hi
    rw [hs, List.getD_eq_getElem?_getD, List.getElem?_take_of_lt hi,
      ← List.getD_eq_getElem?_getD]
  have hvalid : TlvSegment.Valid s ↔ tlvCrc16 (o.tag :: l :: o.value.take l.toNat) =
      UInt16.join (body.getD l.toNat 0) (body.getD (l.toNat + 1) 0) := by
    rw [← hget _ (by omega), ← hget _ (by omega), ← hvalue, ← htag, ← hlen]
    exact eq_comm
  have hbytes : tlvSof0 :: tlvSof1 :: o.tag :: l :: body = s.bytes ++ body.drop (l.toNat + 2) := by
    rw [Segment.bytes, htag, hlen, hs, List.cons_append, List.cons_append, List.cons_append,
      List.cons_append, List.take_append_drop]
    rfl
  rw [hbytes, tlvDecode_segment_ok, hvalid]

/-- **A single flipped bit is caught, or it is in the length byte.** The decoder accepts a frame
with one bit flipped just when that bit was set in the length byte and the two bytes behind the
shortened value happen to be the checksum of the tag, the shortened length and the shortened value.
-/
theorem tlvDecode_flipBit (o : Outgoing) {i k : ℕ} (hi : i < o.bytes.length) (hk : k < 8) :
    (tlvDecode (flipBit o.bytes i k)).1 = .ok ↔
      i = 3 ∧ o.len.toNat.testBit k = true ∧
        tlvCrc16 (o.tag :: (o.value.length - 2 ^ k).toUInt8 ::
            o.value.take (o.value.length - 2 ^ k)) =
          UInt16.join ((o.value ++ [o.crc.hi, o.crc.lo]).getD (o.value.length - 2 ^ k) 0)
            ((o.value ++ [o.crc.hi, o.crc.lo]).getD (o.value.length - 2 ^ k + 1) 0) := by
  match i, hi with
  | 0, _ =>
    have hne : ∀ k < 8, tlvSof0 ^^^ UInt8.ofNat (2 ^ k) ≠ tlvSof0 := by decide
    have hdec : tlvDecode (flipBit o.bytes 0 k) = (.errNoSof, none) :=
      if_pos ⟨Nat.succ_pos _, hne k hk⟩
    simp [hdec]
  | 1, _ =>
    have hne : ∀ k < 8, tlvSof1 ^^^ UInt8.ofNat (2 ^ k) ≠ tlvSof1 := by decide
    have hdec : tlvDecode (flipBit o.bytes 1 k) = (.errNoSof, none) :=
      (if_neg fun h ↦ h.2 rfl).trans (if_pos ⟨Nat.succ_le_succ (Nat.succ_pos _), hne k hk⟩)
    simp [hdec]
  | 3, _ =>
    have hflip : flipBit o.bytes 3 k = tlvSof0 :: tlvSof1 :: o.tag ::
        (o.len ^^^ UInt8.ofNat (2 ^ k)) :: (o.value ++ [o.crc.hi, o.crc.lo]) := rfl
    have hlen := toNat_flip_len o.len hk
    rw [hflip]
    generalize o.len ^^^ UInt8.ofNat (2 ^ k) = l at hlen
    split at hlen
    · rename_i hbit
      rw [o.toNat_len] at hlen
      have hl : (o.value.length - 2 ^ k).toUInt8 = l := by
        rw [← hlen]
        exact UInt8.ofNat_toNat
      rw [tlvDecode_shortened o (hlen.trans_le (Nat.sub_le _ _)), hl, hlen]
      simp [hbit]
    · rename_i hbit
      have hshort : (o.value ++ [o.crc.hi, o.crc.lo]).length < tlvFormat.bodyLength l := by
        have hpos : 0 < 2 ^ k := Nat.two_pow_pos k
        show _ < l.toNat + 2
        rw [hlen, o.toNat_len, List.length_append, List.length_cons, List.length_singleton]
        omega
      rw [tlvDecode_short hshort]
      simp [hbit]
  | 2, hi =>
    have hbad := tlvDecode_flipBit_ne_ok o hk hi (by decide)
    simp [hbad]
  | i + 4, hi =>
    have hbad := tlvDecode_flipBit_ne_ok o hk hi (by omega)
    simp [hbad]

/-- A value of two bytes that are the checksum of the tag and an empty value. -/
def mimic : Outgoing :=
  ⟨0x14, [0xD2, 0xB8], by decide⟩

/-- One flipped bit makes a keep-alive without payload of it. -/
theorem tlvDecode_flipBit_mimic : (tlvDecode (flipBit mimic.bytes 3 1)).1 = .ok :=
  (tlvDecode_flipBit mimic (by decide) (by decide)).2 ⟨rfl, by decide, by decide +kernel⟩

theorem not_forall_flipBit_rejected :
    ¬∀ (o : Outgoing) (i k : ℕ), i < o.bytes.length → k < 8 →
      (tlvDecode (flipBit o.bytes i k)).1 ≠ .ok :=
  fun h ↦ h mimic 3 1 (by decide) (by decide) (by decide +kernel)

end SubmarineMonitor
