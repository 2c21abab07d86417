import SubmarineMonitor.Protocol.Stream

/-!
# The decoder undoes the encoder, and nothing else

A message to be sent (`Outgoing`) is a tag and at most 255 value bytes, the bound being part of the
message. Its frame is what `tlv_encode` writes, and that is a segment with the right checksum; the
other way round, every segment with the right checksum is some message's frame. So the block decoder
accepts exactly the encoder's image (`tlvDecode_iff_tlvEncode`), with whatever follows the frame
left alone.

## The bound in the type

`tlv_encode` takes the length as a byte, so a value of more than 255 bytes cannot be asked for.
`Outgoing` carries that as a field, and whoever forms one proves it there: a literal list by
computation, a record by the length of its line, a payload by the capacity of its writer. Every
theorem on frames that are sent is about a list of `Outgoing`, and none of them mentions a length
again.

## Image and preimage

The decoder reads a buffer that may go on behind the frame. What it accepts is therefore described
with the number of bytes consumed: these are there, and they are what the encoder writes for the tag
and the value. Both directions are proved through segments. A frame of the encoder is a segment with
the right checksum, by `valid_of_tlvEncode`; a segment with the right checksum is the frame of the
message it carries (`segment_ofSegment`), because the layout leaves no choice once tag, value and
checksum are known. That the length byte is the length of the value is in the segment's type.

## Room

The encoder refuses when the output buffer is too small. The statement quantifies over the capacity
and asks for as much as the frame needs, which the callers have: their buffers are of
`TLV_MAX_FRAME` bytes.

## What is left out

What the decoder returns for everything else. `TLV_ERR_CRC` and `TLV_INCOMPLETE` are told apart in
`Protocol.Stream`, where the receiver is compared with it, and damaged frames are the subject of
`Protocol.ErrorDetection`.
-/

open FrameFormat

namespace SubmarineMonitor

/-- What a caller hands to the encoder. -/
@[ext]
structure Outgoing where
  tag : UInt8
  value : List UInt8
  /-- The length of the value goes into one byte. -/
  value_le : value.length ≤ tlvMaxValue
  deriving DecidableEq

namespace Outgoing

/-- The length byte. -/
def len (o : Outgoing) : UInt8 :=
  o.value.length.toUInt8

theorem toNat_len (o : Outgoing) : o.len.toNat = o.value.length := by
  have hle : o.value.length ≤ 255 := o.value_le
  rw [len, Nat.toUInt8_eq, UInt8.toNat_ofNat']
  exact Nat.mod_eq_of_lt (by omega)

/-- What the frame says. -/
def message (o : Outgoing) : Message :=
  ⟨o.tag, o.len, o.value⟩

/-- The checksum in the frame. -/
def crc (o : Outgoing) : UInt16 :=
  tlvCrc16 (o.tag :: o.len :: o.value)

/-- The frame as a segment of the format. -/
def segment (o : Outgoing) : TlvSegment :=
  .make o.tag o.len o.value o.crc.hi o.crc.lo o.toNat_len.symm

/-- The frame on the wire. -/
def bytes (o : Outgoing) : List UInt8 :=
  o.segment.bytes

theorem length_bytes (o : Outgoing) : o.bytes.length = o.value.length + 6 := by
  rw [bytes, Segment.length_bytes]
  show o.len.toNat + 2 + 4 = _
  rw [toNat_len]

/-- **The frame is what the encoder writes**, given room for it. -/
theorem tlvEncode_eq (o : Outgoing) {outCap : ℕ} (hcap : o.value.length + 6 ≤ outCap) :
    tlvEncode o.tag (some o.value) o.len outCap = .ok o.bytes := by
  have hroom : ¬outCap < tlvHeaderSize + o.len.toNat + tlvCrcSize := by
    rw [toNat_len, tlvHeaderSize, tlvCrcSize]
    omega
  have hvalue : ((some o.value).getD []).take o.len.toNat = o.value :=
    List.take_of_length_le o.toNat_len.ge
  rw [tlvEncode, if_neg (fun h ↦ by cases h.1)]
  simp only [if_neg hroom, hvalue]
  rfl

theorem valid_segment (o : Outgoing) : TlvSegment.Valid o.segment :=
  valid_of_tlvEncode (o.tlvEncode_eq le_rfl)

theorem message_segment (o : Outgoing) : TlvSegment.message o.segment = o.message := by
  rw [TlvSegment.message, segment, TlvSegment.value_make]
  rfl

/-- The message that a segment carries. -/
def ofSegment (s : TlvSegment) : Outgoing :=
  ⟨s.tag, TlvSegment.value s, (TlvSegment.length_value s).trans_le
    (Nat.le_of_lt_succ s.len.toNat_lt)⟩

theorem len_ofSegment (s : TlvSegment) : (ofSegment s).len = s.len := by
  apply UInt8.toNat_inj.1
  rw [toNat_len]
  exact TlvSegment.length_value s

/-- **A segment with the right checksum is some message's frame.** -/
theorem segment_ofSegment {s : TlvSegment} (h : TlvSegment.Valid s) : (ofSegment s).segment = s := by
  have hcrc : (ofSegment s).crc = UInt16.join (TlvSegment.c1 s) (TlvSegment.c2 s) := by
    rw [crc, len_ofSegment]
    exact h.symm
  refine Segment.ext rfl (len_ofSegment s) ?_
  show TlvSegment.value s ++ [(ofSegment s).crc.hi, (ofSegment s).crc.lo] = s.body
  rw [hcrc, UInt16.hi_join, UInt16.lo_join, ← TlvSegment.body_eq]

end Outgoing

/-- A keep-alive without payload, to be sent. -/
def keepAliveOutgoing : Outgoing :=
  ⟨0x14, [], Nat.zero_le _⟩

/-- **The decoder accepts exactly what the encoder writes.** On any buffer it returns `TLV_OK` with
a tag, a value and a number of consumed bytes just when that number of bytes is there and is what
the encoder writes for that tag and value. -/
theorem tlvDecode_iff_tlvEncode {input v : List UInt8} {tag : UInt8} {c outCap : ℕ}
    (hv : v.length ≤ tlvMaxValue) (hcap : v.length + 6 ≤ outCap) :
    (∃ frame, tlvDecode input = (.ok, some (frame, c)) ∧
        frame.message = ⟨tag, v.length.toUInt8, v⟩) ↔
      c = v.length + 6 ∧ c ≤ input.length ∧
        tlvEncode tag (some v) v.length.toUInt8 outCap = .ok (input.take c) := by
  have hencode := Outgoing.tlvEncode_eq ⟨tag, v, hv⟩ hcap
  have hlength := Outgoing.length_bytes ⟨tag, v, hv⟩
  constructor
  · rintro ⟨frame, hdec, hmessage⟩
    rcases tlvDecode_cases (by rw [hdec]; simp) with ⟨s, rest, rfl⟩ | ⟨hincomplete, -⟩
    · rw [tlvDecode_segment] at hdec
      split at hdec
      · rename_i hs
        simp only [Prod.mk.injEq, Option.some.injEq, true_and] at hdec
        obtain ⟨rfl, rfl⟩ := hdec
        rw [message_of_segment, TlvSegment.message, Message.mk.injEq] at hmessage
        obtain ⟨rfl, -, rfl⟩ := hmessage
        have hbytes : s.bytes = Outgoing.bytes ⟨s.tag, TlvSegment.value s, hv⟩ :=
          congrArg Segment.bytes (Outgoing.segment_ofSegment hs).symm
        refine ⟨by rw [hbytes, hlength], by simp, ?_⟩
        rw [List.take_left, hbytes]
        exact hencode
      · cases hdec
    · rw [hincomplete] at hdec
      cases hdec
  · rintro ⟨rfl, -, henc⟩
    -- the buffer starts with the message's frame
    have htake : input.take (v.length + 6) = Outgoing.bytes ⟨tag, v, hv⟩ :=
      Except.ok.inj (henc.symm.trans hencode)
    have hinput : input = Outgoing.bytes ⟨tag, v, hv⟩ ++ input.drop (v.length + 6) := by
      rw [← htake, List.take_append_drop]
    generalize input.drop (v.length + 6) = rest at hinput
    rw [hinput, Outgoing.bytes, tlvDecode_segment, if_pos (Outgoing.valid_segment _),
      ← Outgoing.bytes, hlength]
    exact ⟨_, rfl, (message_of_segment _ rest).trans (Outgoing.message_segment _)⟩

/-- The request to keep the temperature between -10 and 30 degrees. -/
def tempRangeOutgoing : Outgoing :=
  ⟨0x20, [0xF6, 0x1E], by decide⟩

/-- It is decoded from a buffer with two bytes of something else behind it. -/
theorem tlvDecode_iff_tlvEncode_tempRange :
    ∃ frame, tlvDecode (tempRangeOutgoing.bytes ++ [0xA5, 0x00]) = (.ok, some (frame, 8)) ∧
      frame.message = ⟨0x20, 2, [0xF6, 0x1E]⟩ := by
  have hcap : ([0xF6, 0x1E] : List UInt8).length + 6 ≤ tlvMaxFrame := by decide
  exact (tlvDecode_iff_tlvEncode (by decide) hcap).2 ⟨rfl, by decide, by decide +kernel⟩

end SubmarineMonitor
