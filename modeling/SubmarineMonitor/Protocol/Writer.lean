import SubmarineMonitor.Foundation.Region
import SubmarineMonitor.Protocol.Payload

/-!
# The payload writer

`tlv_writer_t` of `tlv.c`: a cursor over a buffer of the caller, with a flag that the first byte
past the capacity clears for good. The functions return `none` where the C code has no defined
result, that is where it would dereference NULL or leave the memory behind a pointer; that they
never do so when the caller's buffer holds the capacity it was declared with is part of what is
proved. The writer itself is never NULL.

What a writer is after any calls depends only on the bytes passed in: `TlvWriter.holding` says how,
and `writerPutByte_holding` is the one step everything else repeats.

## The writer as the bytes it was given

`TlvWriter.holding` is the writer after any sequence of bytes, as a function of that sequence: the
buffer begins with as many as fit, the cursor is at their number, and the flag says whether all of
them did. The sticky flag needs no case of its own there. A byte that arrives after an overflow is
one more byte that does not fit, so a step never asks whether the writer is still good, and the
typed functions are byte sequences, `Field.put_eq`.

The capacity is a `uint16_t` and so is the cursor; since the cursor stops at the capacity it never
wraps, and that is part of the description. Memory is a list, from the buffer pointer on, of any
length that is at least the capacity. What stands at the capacity and behind it is shown to be what
it was.

## Partial results

A multi-byte field that meets the end is written in part. The header says that the flag is to be
checked once at the end, and a caller that does so never uses such a buffer. What it begins with is
said nevertheless: as much of the encoding as fits.

## What is left out

A NULL writer, for which the functions return at once. A NULL buffer is modelled, since
`tlv_writer_init` has a branch for it that clears the flag, and so is a NULL source of an array. A
source that overlaps the buffer is not: the loop over its bytes would then read what it has just
written.
-/

open Region

namespace SubmarineMonitor

/-! ### The writer -/

/-- `tlv_writer_t`. -/
structure TlvWriter where
  /-- The memory behind the pointer. -/
  buf : Option (List UInt8)
  cap : UInt16
  len : UInt16
  ok : Bool
  deriving DecidableEq, Repr

/-- `tlv_writer_init`. -/
def tlvWriterInit (buf : Option (List UInt8)) (cap : UInt16) : TlvWriter where
  buf := buf
  cap := cap
  len := 0
  ok := buf.isSome

def writerPutByte (writer : TlvWriter) (byte : UInt8) : Option TlvWriter :=
  if !writer.ok then
    some writer
  else if writer.len ≥ writer.cap then
    -- sticky: every later write is a no-op
    some { writer with ok := false }
  else do
    let buf ← writer.buf
    let buf ← store buf writer.len.toNat byte
    some { writer with buf := some buf, len := writer.len + 1 }

def tlvWriterPutU8 (writer : TlvWriter) (value : UInt8) : Option TlvWriter :=
  writerPutByte writer value

def tlvWriterPutU16 (writer : TlvWriter) (value : UInt16) : Option TlvWriter := do
  let writer ← writerPutByte writer (value >>> 8).toUInt8
  writerPutByte writer (value &&& 0xFF).toUInt8

def tlvWriterPutU32 (writer : TlvWriter) (value : UInt32) : Option TlvWriter := do
  let writer ← writerPutByte writer (value >>> 24).toUInt8
  let writer ← writerPutByte writer (value >>> 16).toUInt8
  let writer ← writerPutByte writer (value >>> 8).toUInt8
  writerPutByte writer (value &&& 0xFF).toUInt8

def tlvWriterPutI16 (writer : TlvWriter) (value : Int16) : Option TlvWriter :=
  tlvWriterPutU16 writer value.toUInt16

def tlvWriterPutI32 (writer : TlvWriter) (value : Int32) : Option TlvWriter :=
  tlvWriterPutU32 writer value.toUInt32

def tlvWriterPutBytes (writer : TlvWriter) (src : Option (List UInt8)) (n : UInt16) :
    Option TlvWriter :=
  match src with
  | none => if n > 0 then some { writer with ok := false } else some writer
  | some src =>
    (List.range n.toNat).foldlM (fun writer i ↦ do
      let byte ← src[i]?
      writerPutByte writer byte) writer

def tlvWriterOk (writer : TlvWriter) : Bool :=
  writer.ok

/-! ### Runs -/

/-- A field that can be written: `n` is a `uint16_t`. -/
abbrev Field : Type :=
  { v : Value // v.encode.length < UInt16.size }

/-- The call that writes a field. The source of an array is exactly its bytes. -/
def Field.put (writer : TlvWriter) (field : Field) : Option TlvWriter :=
  match field.val with
  | .u8 value => tlvWriterPutU8 writer value
  | .u16 value => tlvWriterPutU16 writer value
  | .u32 value => tlvWriterPutU32 writer value
  | .i16 value => tlvWriterPutI16 writer value
  | .i32 value => tlvWriterPutI32 writer value
  | .bytes block => tlvWriterPutBytes writer (some block) (UInt16.ofNat block.length)

/-- A sequence of calls on one writer. -/
def putFields (writer : TlvWriter) (fields : List Field) : Option TlvWriter :=
  fields.foldlM Field.put writer

/-- All the bytes passed in, one field after the other. -/
def encodeFields (fields : List Field) : List UInt8 :=
  fields.flatMap fun field ↦ field.val.encode

theorem encodeFields_append (fields more : List Field) :
    encodeFields (fields ++ more) = encodeFields fields ++ encodeFields more :=
  List.flatMap_append

/-! ### What a writer holds -/

/-- The writer over the buffer `mem` to which `bs` was written: as much of it as fits. -/
def TlvWriter.holding (mem : List UInt8) (cap : UInt16) (bs : List UInt8) : TlvWriter where
  buf := some (overlay (bs.take cap.toNat) mem)
  cap := cap
  len := UInt16.ofNat (min bs.length cap.toNat)
  ok := bs.length ≤ cap.toNat

variable {mem : List UInt8} {cap : UInt16}

theorem tlvWriterInit_eq_holding (mem : List UInt8) (cap : UInt16) :
    tlvWriterInit (some mem) cap = .holding mem cap [] := by
  simp [tlvWriterInit, TlvWriter.holding]

theorem TlvWriter.toNat_len_holding (mem : List UInt8) (cap : UInt16) (bs : List UInt8) :
    (holding mem cap bs).len.toNat = min bs.length cap.toNat :=
  UInt16.toNat_ofNat_of_lt' (Nat.lt_of_le_of_lt (Nat.min_le_right _ _) cap.toNat_lt)

/-- As long as everything fits, the buffer begins with it. -/
theorem TlvWriter.holding_of_le {bs : List UInt8} (h : bs.length ≤ cap.toNat) :
    holding mem cap bs = ⟨some (overlay bs mem), cap, UInt16.ofNat bs.length, true⟩ := by
  rw [holding, List.take_of_length_le h, Nat.min_eq_left h, decide_eq_true h]

/-- Once something does not fit, only the beginning counts. -/
theorem TlvWriter.holding_of_lt {bs : List UInt8} (h : cap.toNat < bs.length) :
    holding mem cap bs = ⟨some (overlay (bs.take cap.toNat) mem), cap, cap, false⟩ := by
  rw [holding, Nat.min_eq_right h.le, decide_eq_false (Nat.not_le.2 h), UInt16.ofNat_toNat]

/-- A writer that has overflowed looks at nothing any more. -/
theorem TlvWriter.holding_append_of_lt {bs : List UInt8} (h : cap.toNat < bs.length)
    (more : List UInt8) : holding mem cap (bs ++ more) = holding mem cap bs := by
  have hlen : cap.toNat < (bs ++ more).length := by
    rw [List.length_append]
    omega
  rw [holding_of_lt h, holding_of_lt hlen, List.take_append_of_le_length h.le]

/-- **One byte more.** It is stored, clears the flag or is ignored, and each time the writer is the
one that holds one byte more. -/
theorem writerPutByte_holding (hmem : cap.toNat ≤ mem.length) (bs : List UInt8) (b : UInt8) :
    writerPutByte (.holding mem cap bs) b = some (.holding mem cap (bs ++ [b])) := by
  have hcap : cap.toNat < 65536 := cap.toNat_lt
  have hlen : (bs ++ [b]).length = bs.length + 1 := List.length_append
  rcases Nat.lt_trichotomy bs.length cap.toNat with hlt | heq | hgt
  · -- there is room: the byte is stored behind the others
    have hpos : (UInt16.ofNat bs.length).toNat = bs.length :=
      UInt16.toNat_ofNat_of_lt' (show bs.length < 65536 by omega)
    have hroom : ¬UInt16.ofNat bs.length ≥ cap := by
      rw [ge_iff_le, UInt16.le_iff_toNat_le, hpos]
      omega
    have hstore : store (overlay bs mem) bs.length b = some (overlay (bs ++ [b]) mem) :=
      store_overlay b (by omega)
    have hnext : UInt16.ofNat bs.length + 1 = UInt16.ofNat (bs.length + 1) :=
      (UInt16.ofNat_add _ _).symm
    rw [TlvWriter.holding_of_le hlt.le, TlvWriter.holding_of_le (hlen.le.trans hlt), hlen]
    simp only [writerPutByte, Bool.not_true, Bool.false_eq_true, if_false, if_neg hroom, hpos,
      Option.bind_eq_bind, Option.bind_some, hstore, hnext]
  · -- the first byte that does not fit clears the flag
    have hfull : cap ≥ cap := UInt16.le_refl cap
    have htake : (bs ++ [b]).take cap.toNat = bs := by
      rw [← heq, List.take_left]
    rw [TlvWriter.holding_of_le heq.le, TlvWriter.holding_of_lt (by omega), htake]
    simp only [writerPutByte, Bool.not_true, Bool.false_eq_true, if_false, heq,
      UInt16.ofNat_toNat, if_pos hfull]
  · rw [TlvWriter.holding_append_of_lt hgt, TlvWriter.holding_of_lt hgt]
    rfl

/-- Bytes put one after the other. -/
theorem foldlM_writerPutByte (hmem : cap.toNat ≤ mem.length) (bs new : List UInt8) :
    new.foldlM writerPutByte (.holding mem cap bs) = some (.holding mem cap (bs ++ new)) := by
  induction new generalizing bs with
  | nil => rw [List.append_nil]; rfl
  | cons b new ih =>
    rw [List.foldlM_cons, writerPutByte_holding hmem]
    show new.foldlM writerPutByte (.holding mem cap (bs ++ [b])) = _
    rw [ih, List.append_assoc, List.singleton_append]

/-! ### One call -/

/-- The loop over a source array puts its bytes one after the other. -/
theorem tlvWriterPutBytes_some (writer : TlvWriter) {src : List UInt8}
    (h : src.length < UInt16.size) :
    tlvWriterPutBytes writer (some src) (UInt16.ofNat src.length) =
      src.foldlM writerPutByte writer := by
  show (List.range (UInt16.ofNat src.length).toNat).foldlM
    (fun writer i ↦ src[i]?.bind (writerPutByte writer)) writer = _
  rw [UInt16.toNat_ofNat_of_lt' h, foldlM_range_load]

theorem tlvWriterPutU16_eq (writer : TlvWriter) (value : UInt16) :
    tlvWriterPutU16 writer value = (BigEndian.bytes 2 value.toNat).foldlM writerPutByte writer := by
  rw [BigEndian.bytes_two]
  simp only [List.foldlM_cons, List.foldlM_nil, bind_pure]
  rfl

theorem tlvWriterPutU32_eq (writer : TlvWriter) (value : UInt32) :
    tlvWriterPutU32 writer value = (BigEndian.bytes 4 value.toNat).foldlM writerPutByte writer := by
  rw [BigEndian.bytes_four]
  simp only [List.foldlM_cons, List.foldlM_nil, bind_pure]
  rfl

/-- **A call puts the encoding of its field**, byte by byte. -/
theorem Field.put_eq (writer : TlvWriter) (field : Field) :
    Field.put writer field = field.val.encode.foldlM writerPutByte writer := by
  obtain ⟨v, hv⟩ := field
  cases v with
  | u8 value =>
    show writerPutByte writer value = [UInt8.ofNat value.toNat].foldlM writerPutByte writer
    rw [UInt8.ofNat_toNat]
    simp only [List.foldlM_cons, List.foldlM_nil, bind_pure]
  | u16 value => exact tlvWriterPutU16_eq writer value
  | u32 value => exact tlvWriterPutU32_eq writer value
  | i16 value =>
    show tlvWriterPutU16 writer value.toUInt16 =
      (BigEndian.bytes 2 (value.toInt % 65536).toNat).foldlM writerPutByte writer
    rw [toNat_toUInt16, tlvWriterPutU16_eq]
  | i32 value =>
    show tlvWriterPutU32 writer value.toUInt32 =
      (BigEndian.bytes 4 (value.toInt % 4294967296).toNat).foldlM writerPutByte writer
    rw [toNat_toUInt32, tlvWriterPutU32_eq]
  | bytes block => exact tlvWriterPutBytes_some writer hv

/-! ### All calls -/

/-- **Any calls**: the writer holds the bytes of its fields, one field after the other. -/
theorem putFields_holding (hmem : cap.toNat ≤ mem.length) (bs : List UInt8)
    (fields : List Field) :
    putFields (.holding mem cap bs) fields =
      some (.holding mem cap (bs ++ encodeFields fields)) := by
  induction fields generalizing bs with
  | nil => rw [encodeFields, List.flatMap_nil, List.append_nil]; rfl
  | cons field fields ih =>
    rw [putFields, List.foldlM_cons, Field.put_eq, foldlM_writerPutByte hmem]
    show putFields (.holding mem cap (bs ++ field.val.encode)) fields = _
    rw [ih, List.append_assoc]
    rfl

theorem putFields_init (hmem : cap.toNat ≤ mem.length) (fields : List Field) :
    putFields (tlvWriterInit (some mem) cap) fields =
      some (.holding mem cap (encodeFields fields)) := by
  rw [tlvWriterInit_eq_holding, putFields_holding hmem, List.nil_append]

/-- The buffer of a writer: it begins with what fits, and nothing behind that has changed. -/
theorem TlvWriter.buf_holding (hmem : cap.toNat ≤ mem.length) (bs : List UInt8) :
    ∃ buf, (holding mem cap bs).buf = some buf ∧ buf.length = mem.length ∧
      buf.take (holding mem cap bs).len.toNat = bs.take (holding mem cap bs).len.toNat ∧
      buf.drop cap.toNat = mem.drop cap.toNat := by
  have hfit : (bs.take cap.toNat).length ≤ cap.toNat := List.length_take_le _ _
  have htake : bs.take (bs.take cap.toNat).length = bs.take cap.toNat := by
    rw [List.length_take, ← List.take_take, List.take_length]
  refine ⟨overlay (bs.take cap.toNat) mem, rfl, length_overlay (hfit.trans hmem), ?_,
    drop_overlay hfit⟩
  rw [toNat_len_holding, Nat.min_comm, ← List.length_take, take_overlay, htake]

/-- **The writer is safe and its one check is sound.** Whatever is put into a buffer of the declared
capacity, no byte at the capacity or behind it is written, the buffer begins with as much of the
encoding as fits, the flag says whether all of it did, and after an overflow nothing changes. -/
theorem putFields_spec (hmem : cap.toNat ≤ mem.length) (fields : List Field) :
    ∃ (writer : TlvWriter) (buf : List UInt8),
      putFields (tlvWriterInit (some mem) cap) fields = some writer ∧
      writer.buf = some buf ∧
      writer.len.toNat = min (encodeFields fields).length cap.toNat ∧
      buf.take writer.len.toNat = (encodeFields fields).take writer.len.toNat ∧
      buf.length = mem.length ∧ buf.drop cap.toNat = mem.drop cap.toNat ∧
      (tlvWriterOk writer = true ↔ (encodeFields fields).length ≤ cap.toNat) ∧
      (cap.toNat < (encodeFields fields).length →
        ∀ more : List Field, putFields writer more = some writer) := by
  obtain ⟨buf, hbuf, hlen, htake, hdrop⟩ := TlvWriter.buf_holding hmem (encodeFields fields)
  refine ⟨.holding mem cap (encodeFields fields), buf, putFields_init hmem fields, hbuf,
    TlvWriter.toNat_len_holding _ _ _, htake, hlen, hdrop, decide_eq_true_iff, ?_⟩
  intro hover more
  rw [putFields_holding hmem, TlvWriter.holding_append_of_lt hover]

/-- A buffer with room for one byte, in a memory of three, and a number of two bytes. -/
theorem putFields_spec_straddling :
    ∃ (writer : TlvWriter) (buf : List UInt8),
      putFields (tlvWriterInit (some [1, 2, 3]) 1) [⟨.u16 0xABCD, by decide⟩] = some writer ∧
      writer.buf = some buf ∧
      writer.len.toNat = min (encodeFields [⟨.u16 0xABCD, by decide⟩]).length 1 ∧
      buf.take writer.len.toNat =
        (encodeFields [⟨.u16 0xABCD, by decide⟩]).take writer.len.toNat ∧
      buf.length = 3 ∧ buf.drop 1 = [2, 3] ∧
      (tlvWriterOk writer = true ↔ (encodeFields [⟨.u16 0xABCD, by decide⟩]).length ≤ 1) ∧
      (1 < (encodeFields [⟨.u16 0xABCD, by decide⟩]).length →
        ∀ more : List Field, putFields writer more = some writer) :=
  @putFields_spec [1, 2, 3] 1 (by decide) [⟨.u16 0xABCD, by decide⟩]

end SubmarineMonitor
