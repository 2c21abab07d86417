import SubmarineMonitor.Foundation.Bytes
import SubmarineMonitor.Foundation.Framing
import SubmarineMonitor.Protocol.Crc

/-!
# TLV frames: layout, encoder, block decoder

```
+------+------+------+------+-----------+--------+--------+
| SOF0 | SOF1 | TAG  | LEN  |   VALUE   | CRC hi | CRC lo |
+------+------+------+------+-----------+--------+--------+
```

`tlvEncode` and `tlvDecode` follow `tlv.c`. A pointer parameter that callers do pass as NULL is an
`Option`; the bytes behind a pointer are the list from the pointer on. The layout itself is an
instance of the general framed format (`tlvFormat`), whose segments `A5 5A tag len v c1 c2` are
what the streaming receiver is measured against.

## Pointers

A `tlv_frame_t` is a view: tag, length, and a pointer into memory that somebody else owns. The model
keeps it so, with `value` the memory from the pointer on. It is longer than the value as a rule,
since behind a frame in a buffer stands the next one, and in the receiver's array whatever the
longer frames before have left. A function that reads further than `len` therefore reads something
definite here, as it would there, and *what a frame says* is a definition of its own,
`TlvFrame.message`. The distinction matters for the handlers, which lay structures over the value
and have to check the length first.

## Two descriptions of one layout

The encoder and the decoder are translated from the source. `tlvFormat` says the same layout once
more, declaratively, as two different sync bytes, a tag, a length and a body whose length the length
byte determines. It is what the library on framed formats needs, and the two are connected here: a
segment is valid when its last two bytes are its checksum, the decoder accepts exactly these, and
what the encoder writes is one (`valid_of_tlvEncode`).

## What is left out

`TLV_ERR_NULL` for an output, frame or input pointer that is NULL, since every caller passes the
address of an object of its own. `*out_len` is the length of the list that `tlvEncode` returns, and
bytes of the output buffer behind the frame are not touched by the code and not part of the model.
`TLV_ERR_TOO_LONG` is reserved in the source and cannot occur.
-/

namespace SubmarineMonitor

/-! ### Constants -/

/-- First sync byte, `TLV_SOF0`. -/
def tlvSof0 : UInt8 := 0xA5

/-- Second sync byte, `TLV_SOF1`. -/
def tlvSof1 : UInt8 := 0x5A

/-- SOF0, SOF1, TAG and LEN. -/
def tlvHeaderSize : ℕ := 4

def tlvCrcSize : ℕ := 2

/-- LEN is one byte. -/
def tlvMaxValue : ℕ := 255

def tlvMinFrame : ℕ := tlvHeaderSize + tlvCrcSize

def tlvMaxFrame : ℕ := tlvHeaderSize + tlvMaxValue + tlvCrcSize

/-- Return codes, `tlv_status_t`. -/
inductive TlvStatus
  | ok
  | incomplete
  | errNull
  | errSpace
  | errTooLong
  | errNoSof
  | errCrc
  | errRange
  deriving DecidableEq, Repr

/-- A decoded frame, `tlv_frame_t`. `value` is a view: the memory from the pointer on, which may
run past the value; `none` is NULL. -/
structure TlvFrame where
  tag : UInt8
  len : UInt8
  value : Option (List UInt8)
  deriving DecidableEq, Repr

/-- What a frame says, independent of the memory it points into. -/
@[ext]
structure Message where
  tag : UInt8
  len : UInt8
  value : List UInt8
  deriving DecidableEq, Repr

/-- The message of a frame: exactly `len` bytes behind the value pointer. -/
def TlvFrame.message (f : TlvFrame) : Message :=
  ⟨f.tag, f.len, (f.value.getD []).take f.len.toNat⟩

/-! ### Encoder and block decoder -/

/-- `tlv_encode`: on success the bytes written at the start of the output buffer, whose number is
`*out_len`. `value` is the memory behind the value pointer. -/
def tlvEncode (tag : UInt8) (value : Option (List UInt8)) (valueLen : UInt8) (outCap : ℕ) :
    Except TlvStatus (List UInt8) :=
  if value = none ∧ valueLen > 0 then .error .errNull
  else
    let need := tlvHeaderSize + valueLen.toNat + tlvCrcSize
    if outCap < need then .error .errSpace
    else
      let body := tag :: valueLen :: (value.getD []).take valueLen.toNat
      let crc := tlvCrc16 body
      .ok (tlvSof0 :: tlvSof1 :: body ++ [(crc >>> 8).toUInt8, (crc &&& 0xFF).toUInt8])

/-- `tlv_decode` on the buffer `input`: the status, and on success the frame and `*consumed`. -/
def tlvDecode (input : List UInt8) : TlvStatus × Option (TlvFrame × ℕ) :=
  if input.length ≥ 1 ∧ input.getD 0 0 ≠ tlvSof0 then (.errNoSof, none)
  else if input.length ≥ 2 ∧ input.getD 1 0 ≠ tlvSof1 then (.errNoSof, none)
  else if input.length < tlvMinFrame then (.incomplete, none)
  else
    let len := input.getD 3 0
    let total := tlvHeaderSize + len.toNat + tlvCrcSize
    if input.length < total then (.incomplete, none)
    else
      let crcCalc := tlvCrc16 ((input.drop 2).take (len.toNat + 2))
      let crcRx := ((input.getD (tlvHeaderSize + len.toNat) 0).toUInt16 <<< 8) |||
        (input.getD (tlvHeaderSize + len.toNat + 1) 0).toUInt16
      if crcCalc ≠ crcRx then (.errCrc, none)
      else
        (.ok, some
          (⟨input.getD 2 0, len, if len > 0 then some (input.drop tlvHeaderSize) else none⟩, total))

/-! ### The wire format -/

/-- The TLV layout as a framed format: LEN is followed by that many value bytes and two checksum
bytes. -/
def tlvFormat : FrameFormat UInt8 where
  sync0 := tlvSof0
  sync1 := tlvSof1
  sync_ne := by decide
  bodyLength l := l.toNat + tlvCrcSize
  bodyLength_pos _ := Nat.succ_pos _

/-- A framed segment `A5 5A tag len v[0..len) c1 c2`, whatever its checksum bytes. -/
abbrev TlvSegment := tlvFormat.Segment

namespace TlvSegment

/-- Assemble a segment from its fields. -/
def make (tag len : UInt8) (v : List UInt8) (c1 c2 : UInt8) (hv : v.length = len.toNat) :
    TlvSegment :=
  ⟨tag, len, v ++ [c1, c2], by simp [tlvFormat, tlvCrcSize, hv]⟩

/-- The value bytes. -/
def value (s : TlvSegment) : List UInt8 :=
  s.body.take s.len.toNat

/-- The first trailing byte. -/
def c1 (s : TlvSegment) : UInt8 :=
  s.body.getD s.len.toNat 0

/-- The second trailing byte. -/
def c2 (s : TlvSegment) : UInt8 :=
  s.body.getD (s.len.toNat + 1) 0

/-- What the segment says. -/
def message (s : TlvSegment) : Message :=
  ⟨s.tag, s.len, s.value⟩

/-- The checksum of the tag, the length and the value. -/
def crcCalc (s : TlvSegment) : UInt16 :=
  tlvCrc16 (s.tag :: s.len :: s.value)

/-- The checksum the two trailing bytes spell, high byte first. -/
def crcRx (s : TlvSegment) : UInt16 :=
  (s.c1.toUInt16 <<< 8) ||| s.c2.toUInt16

/-- The trailing bytes equal the checksum of tag, length and value. -/
def Valid (s : TlvSegment) : Prop :=
  s.crcRx = s.crcCalc

instance (s : TlvSegment) : Decidable s.Valid :=
  inferInstanceAs (Decidable (_ = _))

theorem length_value (s : TlvSegment) : s.value.length = s.len.toNat := by
  rw [value, List.length_take, s.body_length]
  exact Nat.min_eq_left (Nat.le_add_right _ _)

/-- A segment's body is its value and its two trailing bytes. -/
theorem body_eq (s : TlvSegment) : s.body = s.value ++ [s.c1, s.c2] := by
  have hlen : s.body.length = s.len.toNat + 2 := s.body_length
  have hdrop : s.body.drop s.len.toNat = [s.c1, s.c2] := by
    refine List.ext_getElem (by simp [hlen]) fun i h₁ h₂ ↦ ?_
    simp only [List.length_cons, List.length_nil] at h₂
    rw [List.getElem_drop]
    match i, h₂ with
    | 0, _ => simp [c1, List.getD_eq_getElem?_getD, List.getElem?_eq_getElem (by omega :
        s.len.toNat < s.body.length)]
    | 1, _ => simp [c2, List.getD_eq_getElem?_getD, List.getElem?_eq_getElem (by omega :
        s.len.toNat + 1 < s.body.length)]
  rw [value, ← hdrop, List.take_append_drop]

@[simp]
theorem tag_make {tag len : UInt8} {v : List UInt8} {a b : UInt8}
    (hv : v.length = len.toNat) : (make tag len v a b hv).tag = tag :=
  rfl

@[simp]
theorem len_make {tag len : UInt8} {v : List UInt8} {a b : UInt8}
    (hv : v.length = len.toNat) : (make tag len v a b hv).len = len :=
  rfl

@[simp]
theorem value_make {tag len : UInt8} {v : List UInt8} {a b : UInt8}
    (hv : v.length = len.toNat) : (make tag len v a b hv).value = v :=
  List.take_left' hv

@[simp]
theorem c1_make {tag len : UInt8} {v : List UInt8} {a b : UInt8}
    (hv : v.length = len.toNat) : (make tag len v a b hv).c1 = a := by
  simp [make, c1, ← hv]

@[simp]
theorem c2_make {tag len : UInt8} {v : List UInt8} {a b : UInt8}
    (hv : v.length = len.toNat) : (make tag len v a b hv).c2 = b := by
  simp [make, c2, ← hv]

end TlvSegment

/-! ### What the encoder produces -/

/-- With a value and a buffer for the longest frame, the encoder succeeds. -/
theorem tlvEncode_maxFrame (tag : UInt8) (value : List UInt8) (valueLen : UInt8) :
    ∃ frame, tlvEncode tag (some value) valueLen tlvMaxFrame = .ok frame := by
  have hlen : valueLen.toNat < 256 := valueLen.toNat_lt
  have hroom : ¬tlvMaxFrame < tlvHeaderSize + valueLen.toNat + tlvCrcSize := by
    rw [tlvMaxFrame, tlvMaxValue]
    omega
  rw [tlvEncode, if_neg (fun h ↦ by cases h.1)]
  exact ⟨_, if_neg hroom⟩

/-- **Whatever the encoder writes carries its own checksum.** -/
theorem valid_of_tlvEncode {tag valueLen : UInt8} {value : Option (List UInt8)} {outCap : ℕ}
    {s : TlvSegment} (h : tlvEncode tag value valueLen outCap = .ok s.bytes) : s.Valid := by
  rw [tlvEncode] at h
  split at h
  · cases h
  dsimp only at h
  split at h
  · cases h
  set v := (value.getD []).take valueLen.toNat with hv
  set crc := tlvCrc16 (tag :: valueLen :: v) with hcrc
  have hbytes : s.bytes = tlvSof0 :: tlvSof1 :: tag :: valueLen ::
      (v ++ [(crc >>> 8).toUInt8, (crc &&& 0xFF).toUInt8]) := (Except.ok.inj h).symm
  obtain ⟨t, l, body, hbody⟩ := s
  simp only [FrameFormat.Segment.bytes, List.cons.injEq] at hbytes
  obtain ⟨-, -, rfl, rfl, rfl⟩ := hbytes
  have hvlen : v.length = l.toNat := by
    simp only [List.length_append, List.length_cons, List.length_nil, tlvFormat, tlvCrcSize] at hbody
    omega
  show TlvSegment.Valid (TlvSegment.make t l v (crc >>> 8).toUInt8 (crc &&& 0xFF).toUInt8 hvlen)
  rw [TlvSegment.Valid, TlvSegment.crcRx, TlvSegment.crcCalc, TlvSegment.c1_make,
    TlvSegment.c2_make, TlvSegment.value_make, TlvSegment.tag_make, TlvSegment.len_make]
  exact UInt16.join_hi_lo crc

/-! ### What the block decoder accepts -/

/-- The decoder on a buffer that starts with a complete segment. -/
theorem tlvDecode_segment (s : TlvSegment) (rest : List UInt8) :
    tlvDecode (s.bytes ++ rest) =
      if s.Valid then
        (.ok, some (⟨s.tag, s.len, if s.len > 0 then some (s.body ++ rest) else none⟩,
          s.bytes.length))
      else (.errCrc, none) := by
  have hbody := s.body_eq
  have hval := s.length_value
  set v := s.value with hv
  have hbytes : s.bytes ++ rest =
      tlvSof0 :: tlvSof1 :: s.tag :: s.len :: (v ++ s.c1 :: s.c2 :: rest) := by
    rw [FrameFormat.Segment.bytes, hbody]
    simp [tlvFormat]
  have htotal : s.bytes.length = tlvHeaderSize + s.len.toNat + tlvCrcSize := by
    rw [FrameFormat.Segment.length_bytes, tlvHeaderSize, Nat.add_assoc, Nat.add_comm]
    rfl
  have hlen : (s.bytes ++ rest).length = s.len.toNat + 6 + rest.length := by
    rw [List.length_append, htotal, tlvHeaderSize, tlvCrcSize]
    omega
  have hc1 : (s.bytes ++ rest).getD (tlvHeaderSize + s.len.toNat) 0 = s.c1 := by
    rw [hbytes, ← hval, tlvHeaderSize]
    simp [Nat.add_comm 4]
  have hc2 : (s.bytes ++ rest).getD (tlvHeaderSize + s.len.toNat + 1) 0 = s.c2 := by
    rw [hbytes, ← hval, tlvHeaderSize]
    simp [Nat.add_comm 4]
  have hcover : ((s.bytes ++ rest).drop 2).take (s.len.toNat + 2) = s.tag :: s.len :: v := by
    rw [hbytes, ← hval]
    simp
  have hlen3 : (s.bytes ++ rest).getD 3 0 = s.len := by rw [hbytes]; rfl
  have htag : (s.bytes ++ rest).getD 2 0 = s.tag := by rw [hbytes]; rfl
  have hdrop : (s.bytes ++ rest).drop tlvHeaderSize = s.body ++ rest := by
    rw [FrameFormat.Segment.bytes]
    rfl
  have h0 : (s.bytes ++ rest).getD 0 0 = tlvSof0 := by rw [hbytes]; rfl
  have h1 : (s.bytes ++ rest).getD 1 0 = tlvSof1 := by rw [hbytes]; rfl
  rw [tlvDecode, if_neg (fun h ↦ h.2 h0), if_neg (fun h ↦ h.2 h1),
    if_neg (by rw [hlen, tlvMinFrame, tlvHeaderSize, tlvCrcSize]; omega)]
  simp only [hlen3, hc1, hc2, hcover, htag, hdrop]
  rw [if_neg (by rw [hlen, tlvHeaderSize, tlvCrcSize]; omega), htotal]
  show (if s.crcCalc ≠ s.crcRx then _ else _) = _
  by_cases hs : s.Valid
  · rw [if_neg (fun h ↦ h (Eq.symm hs)), if_pos hs]
  · rw [if_pos (fun h ↦ hs (Eq.symm h)), if_neg hs]

theorem tlvDecode_segment_ok (s : TlvSegment) (rest : List UInt8) :
    (tlvDecode (s.bytes ++ rest)).1 = .ok ↔ s.Valid := by
  rw [tlvDecode_segment]
  by_cases hs : s.Valid <;> simp [hs]

/-- The decoder on a buffer that ends before its segment does. -/
theorem tlvDecode_short {t l : UInt8} {body : List UInt8}
    (h : body.length < tlvFormat.bodyLength l) :
    tlvDecode (tlvSof0 :: tlvSof1 :: t :: l :: body) = (.incomplete, none) := by
  have hbody : tlvFormat.bodyLength l = l.toNat + 2 := rfl
  rw [tlvDecode, if_neg (fun h ↦ h.2 rfl), if_neg (fun h ↦ h.2 rfl)]
  by_cases hmin : (tlvSof0 :: tlvSof1 :: t :: l :: body).length < tlvMinFrame
  · rw [if_pos hmin]
  · rw [if_neg hmin]
    exact if_pos (by
      show body.length + 1 + 1 + 1 + 1 < 4 + l.toNat + 2
      omega)

/-- A buffer on which the decoder does not complain of the sync bytes either starts with a complete
segment, or is the beginning of one: the decoder reports it incomplete, and a scanner that starts
on it is left waiting, with nothing completed. -/
theorem tlvDecode_cases {input : List UInt8} (h : (tlvDecode input).1 ≠ .errNoSof) :
    (∃ (s : TlvSegment) (rest : List UInt8), input = s.bytes ++ rest) ∨
      (tlvDecode input = (.incomplete, none) ∧
        (FrameFormat.scan (.hunt : FrameFormat.Pending tlvFormat) input).2 = []) := by
  match input, h with
  | [], _ => exact .inr ⟨rfl, rfl⟩
  | [a], h =>
    obtain rfl : a = tlvSof0 := by
      by_contra ha
      exact h (by rw [tlvDecode, if_pos ⟨Nat.le_refl _, ha⟩])
    exact .inr ⟨rfl, rfl⟩
  | a :: b :: tl, h =>
    obtain rfl : a = tlvSof0 := by
      by_contra ha
      exact h (by rw [tlvDecode, if_pos ⟨Nat.succ_pos _, ha⟩])
    obtain rfl : b = tlvSof1 := by
      by_contra hb
      exact h (by
        rw [tlvDecode, if_neg (fun h ↦ h.2 rfl), if_pos ⟨Nat.succ_le_succ (Nat.succ_pos _), hb⟩])
    clear h
    match tl with
    | [] => exact .inr ⟨rfl, rfl⟩
    | [t] => exact .inr ⟨rfl, rfl⟩
    | t :: l :: body =>
      by_cases hlong : tlvFormat.bodyLength l ≤ body.length
      · refine .inl ⟨⟨t, l, body.take (tlvFormat.bodyLength l), List.length_take_of_le hlong⟩,
          body.drop (tlvFormat.bodyLength l), ?_⟩
        rw [FrameFormat.Segment.bytes, List.cons_append, List.cons_append, List.cons_append,
          List.cons_append, List.take_append_drop]
        rfl
      · refine .inr ⟨tlvDecode_short (Nat.lt_of_not_le hlong), ?_⟩
        show (FrameFormat.scan (.body t l [] (tlvFormat.bodyLength_pos l)) body).2 = []
        rw [FrameFormat.scan_body_unfinished (Nat.lt_of_not_le hlong)]

end SubmarineMonitor
