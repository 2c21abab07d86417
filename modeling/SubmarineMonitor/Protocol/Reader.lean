import SubmarineMonitor.Foundation.Region
import SubmarineMonitor.Protocol.Payload

/-!
# The payload reader

`tlv_reader_t` of `tlv.c`: a cursor over a received payload, with a flag that the first byte
requested past its end clears for good; from then on every byte is zero. As for the writer, `none`
is what has no defined result: here a load outside the payload or a store outside the destination.

What a reader returns is what decoding the payload with zeros behind it without end gives
(`zeroExtended`), and what it is depends only on how many bytes were requested (`TlvReader.after`).

## Zeros behind the end

The flag is sticky so that a caller can read several fields and ask for it once, at the end. What
the calls return after it has been cleared is therefore seen by the caller first and disowned later,
and has to be said. It is described without the flag: the payload continued with zeros for ever is
decoded, at the place where the requested bytes begin. That is one specification for the good case
and the bad one, and the flag is said to be set just when no byte of the continuation was requested.

A call that crosses the end is the interesting case. `tlv_reader_get_u32` with two bytes left
returns these two in the upper half and clears the flag with the third; the cursor stays at the end.
After that a call returns zero without looking at the cursor, which is the same by the description
above.

## Undefined behaviour

`none` is a load behind the payload's memory or a store behind the destination's. That it never
happens is part of `getFields_spec`, under the one condition that the payload behind the pointer has
the length the reader was initialised with. That condition is the caller's to meet.

## What is left out

NULL readers, for which all functions return zero. The code that uses readers passes the address of
a variable.
-/

open Region

namespace SubmarineMonitor

open BigEndian (number)

/-! ### The reader -/

/-- `tlv_reader_t`. -/
structure TlvReader where
  /-- The memory behind the pointer: exactly the payload. -/
  buf : Option (List UInt8)
  len : UInt16
  pos : UInt16
  ok : Bool
  deriving DecidableEq, Repr

/-- `tlv_reader_init`. A payload of length 0 may be NULL. -/
def tlvReaderInit (buf : Option (List UInt8)) (len : UInt16) : TlvReader where
  buf := buf
  len := len
  pos := 0
  ok := buf.isSome || len == 0

def readerGetByte (reader : TlvReader) : Option (UInt8 × TlvReader) :=
  if !reader.ok then
    some (0, reader)
  else if reader.pos ≥ reader.len then
    some (0, { reader with ok := false })
  else do
    let buf ← reader.buf
    let byte ← buf[reader.pos.toNat]?
    some (byte, { reader with pos := reader.pos + 1 })

def tlvReaderGetU8 (reader : TlvReader) : Option (UInt8 × TlvReader) :=
  readerGetByte reader

def tlvReaderGetU16 (reader : TlvReader) : Option (UInt16 × TlvReader) := do
  let (hi, reader) ← readerGetByte reader
  let (lo, reader) ← readerGetByte reader
  some ((hi.toUInt16 <<< 8) ||| lo.toUInt16, reader)

def tlvReaderGetU32 (reader : TlvReader) : Option (UInt32 × TlvReader) := do
  let (byte₀, reader) ← readerGetByte reader
  let (byte₁, reader) ← readerGetByte reader
  let (byte₂, reader) ← readerGetByte reader
  let (byte₃, reader) ← readerGetByte reader
  some ((byte₀.toUInt32 <<< 24) ||| (byte₁.toUInt32 <<< 16) ||| (byte₂.toUInt32 <<< 8) |||
    byte₃.toUInt32, reader)

def tlvReaderGetI16 (reader : TlvReader) : Option (Int16 × TlvReader) := do
  let (value, reader) ← tlvReaderGetU16 reader
  some (value.toInt16, reader)

def tlvReaderGetI32 (reader : TlvReader) : Option (Int32 × TlvReader) := do
  let (value, reader) ← tlvReaderGetU32 reader
  some (value.toInt32, reader)

/-- The destination with the next byte of the reader stored in one of its cells. -/
def getInto (dst : List UInt8) (reader : TlvReader) (i : ℕ) : Option (List UInt8 × TlvReader) := do
  let (byte, reader) ← readerGetByte reader
  let dst ← store dst i byte
  some (dst, reader)

/-- `tlv_reader_get_bytes`: what the destination holds afterwards, and the reader. -/
def tlvReaderGetBytes (reader : TlvReader) (dst : Option (List UInt8)) (n : UInt16) :
    Option (Option (List UInt8) × TlvReader) :=
  match dst with
  | none => if n > 0 then some (none, { reader with ok := false }) else some (none, reader)
  | some dst => do
    let (dst, reader) ← (List.range n.toNat).foldlM (fun (dst, reader) i ↦ getInto dst reader i)
      (dst, reader)
    some (some dst, reader)

def tlvReaderOk (reader : TlvReader) : Bool :=
  reader.ok

def tlvReaderDone (reader : TlvReader) : Bool :=
  reader.ok && reader.pos == reader.len

/-! ### Runs -/

/-- A call that reads a field; for an array, with the memory it is read into, exactly as long as
the array. -/
inductive GetCall
  | u8
  | u16
  | u32
  | i16
  | i32
  | bytes (dst : { bs : List UInt8 // bs.length < UInt16.size })

def GetCall.type : GetCall → FieldType
  | .u8 => .u8
  | .u16 => .u16
  | .u32 => .u32
  | .i16 => .i16
  | .i32 => .i32
  | .bytes dst => .bytes dst.val.length

/-- The value a call returns, for an array what its destination holds afterwards. -/
def GetCall.get (reader : TlvReader) : GetCall → Option (Value × TlvReader)
  | .u8 => do
    let (value, reader) ← tlvReaderGetU8 reader
    some (.u8 value, reader)
  | .u16 => do
    let (value, reader) ← tlvReaderGetU16 reader
    some (.u16 value, reader)
  | .u32 => do
    let (value, reader) ← tlvReaderGetU32 reader
    some (.u32 value, reader)
  | .i16 => do
    let (value, reader) ← tlvReaderGetI16 reader
    some (.i16 value, reader)
  | .i32 => do
    let (value, reader) ← tlvReaderGetI32 reader
    some (.i32 value, reader)
  | .bytes dst => do
    let (dst, reader) ← tlvReaderGetBytes reader (some dst.val) (UInt16.ofNat dst.val.length)
    some (.bytes (dst.getD []), reader)

/-- A sequence of calls on one reader: the values returned, and the reader. -/
def getFields (reader : TlvReader) : List GetCall → Option (List Value × TlvReader)
  | [] => some ([], reader)
  | call :: calls => do
    let (value, reader) ← call.get reader
    let (values, reader) ← getFields reader calls
    some (value :: values, reader)

/-- How many bytes a sequence of calls asks for. -/
def requested (calls : List GetCall) : ℕ :=
  (calls.map fun call ↦ call.type.size).sum

/-! ### Decoding a stream without end -/

/-- A payload with zeros behind it. -/
def zeroExtended (payload : List UInt8) (i : ℕ) : UInt8 :=
  payload.getD i 0

/-- Some bytes of a stream, from an offset on. -/
def window (stream : ℕ → UInt8) (offset n : ℕ) : List UInt8 :=
  (List.range n).map fun i ↦ stream (offset + i)

/-- The fields that a stream holds from an offset on. -/
def decodeFields (stream : ℕ → UInt8) (offset : ℕ) : List FieldType → List Value
  | [] => []
  | type :: types =>
    type.decode (window stream offset type.size) ::
      decodeFields stream (offset + type.size) types

theorem window_succ (stream : ℕ → UInt8) (offset n : ℕ) :
    window stream offset (n + 1) = window stream offset n ++ [stream (offset + n)] := by
  rw [window, List.range_succ, List.map_append]
  rfl

@[simp]
theorem length_window (stream : ℕ → UInt8) (offset n : ℕ) :
    (window stream offset n).length = n := by
  rw [window, List.length_map, List.length_range]

/-- Filling a region with the bytes of a stream. -/
theorem store_window (stream : ℕ → UInt8) (offset : ℕ) {dst : List UInt8} {n : ℕ}
    (h : n < dst.length) :
    store (overlay (window stream offset n) dst) n (stream (offset + n)) =
      some (overlay (window stream offset (n + 1)) dst) := by
  have hlen : (window stream offset n).length < dst.length := by rwa [length_window]
  have hstore := store_overlay (stream (offset + n)) hlen
  rwa [length_window, ← window_succ] at hstore

/-! ### One call -/

/-- The reader after `k` bytes were requested. -/
def TlvReader.after (buf : Option (List UInt8)) (len : UInt16) (k : ℕ) : TlvReader where
  buf := buf
  len := len
  pos := UInt16.ofNat (min k len.toNat)
  ok := k ≤ len.toNat

variable {buf : Option (List UInt8)} {len : UInt16}

theorem tlvReaderInit_eq_after (hbuf : (buf.getD []).length = len.toNat) :
    tlvReaderInit buf len = .after buf len 0 := by
  have hok : (buf.isSome || len == 0) = true := by
    cases buf with
    | none =>
      have hzero : len = 0 := UInt16.toNat_inj.1 hbuf.symm
      rw [hzero]
      rfl
    | some mem => rfl
  rw [tlvReaderInit, hok, TlvReader.after, Nat.zero_min, decide_eq_true (Nat.zero_le _)]
  rfl

theorem TlvReader.toNat_pos_after (buf : Option (List UInt8)) (len : UInt16) (k : ℕ) :
    (after buf len k).pos.toNat = min k len.toNat :=
  UInt16.toNat_ofNat_of_lt' (Nat.lt_of_le_of_lt (Nat.min_le_right _ _) len.toNat_lt)

theorem TlvReader.after_of_le {k : ℕ} (h : k ≤ len.toNat) :
    after buf len k = ⟨buf, len, UInt16.ofNat k, true⟩ := by
  rw [after, Nat.min_eq_left h, decide_eq_true h]

theorem TlvReader.after_of_lt {k : ℕ} (h : len.toNat < k) :
    after buf len k = ⟨buf, len, len, false⟩ := by
  rw [after, Nat.min_eq_right h.le, decide_eq_false (Nat.not_le.2 h), UInt16.ofNat_toNat]

/-- **One byte more**: the next one of the payload, or zero from its end on. -/
theorem readerGetByte_after (hbuf : (buf.getD []).length = len.toNat) (k : ℕ) :
    readerGetByte (.after buf len k) =
      some (zeroExtended (buf.getD []) k, .after buf len (k + 1)) := by
  have hlen : len.toNat < 65536 := len.toNat_lt
  have hzero : len.toNat ≤ k → zeroExtended (buf.getD []) k = 0 := by
    intro hk
    rw [zeroExtended, List.getD_eq_getElem?_getD, List.getElem?_eq_none (hbuf.le.trans hk)]
    rfl
  rcases Nat.lt_trichotomy k len.toNat with hlt | heq | hgt
  · -- a byte of the payload, which is not NULL since it is not empty
    have hpos : (UInt16.ofNat k).toNat = k := UInt16.toNat_ofNat_of_lt' (show k < 65536 by omega)
    have hleft : ¬UInt16.ofNat k ≥ len := by
      rw [ge_iff_le, UInt16.le_iff_toNat_le, hpos]
      omega
    have hnext : UInt16.ofNat k + 1 = UInt16.ofNat (k + 1) := (UInt16.ofNat_add _ _).symm
    obtain _ | mem := buf
    · exact absurd hbuf (by simp; omega)
    have hmem : mem.length = len.toNat := hbuf
    have hload : mem[k]? = some (zeroExtended mem k) := by
      rw [zeroExtended, List.getD_eq_getElem?_getD, List.getElem?_eq_getElem (by omega)]
      rfl
    rw [TlvReader.after_of_le hlt.le, TlvReader.after_of_le hlt]
    simp only [readerGetByte, Bool.not_true, Bool.false_eq_true, if_false, if_neg hleft, hpos,
      Option.bind_eq_bind, Option.bind_some, hload, hnext, Option.getD_some]
  · -- the first byte that is not there clears the flag
    have hend : len ≥ len := UInt16.le_refl len
    rw [hzero heq.ge, TlvReader.after_of_le heq.le, TlvReader.after_of_lt (by omega)]
    simp only [readerGetByte, Bool.not_true, Bool.false_eq_true, if_false, heq,
      UInt16.ofNat_toNat, if_pos hend]
  · rw [hzero hgt.le, TlvReader.after_of_lt hgt, TlvReader.after_of_lt (by omega)]
    rfl

theorem tlvReaderGetU16_after (hbuf : (buf.getD []).length = len.toNat) (k : ℕ) :
    tlvReaderGetU16 (.after buf len k) =
      some (UInt16.ofNat (number (window (zeroExtended (buf.getD [])) k 2)),
        .after buf len (k + 2)) := by
  simp only [tlvReaderGetU16, readerGetByte_after hbuf, Option.bind_eq_bind, Option.bind_some]
  show some (UInt16.join (zeroExtended (buf.getD []) k) (zeroExtended (buf.getD []) (k + 1)), _) = _
  rw [BigEndian.join_eq_ofNat]
  rfl

theorem tlvReaderGetU32_after (hbuf : (buf.getD []).length = len.toNat) (k : ℕ) :
    tlvReaderGetU32 (.after buf len k) =
      some (UInt32.ofNat (number (window (zeroExtended (buf.getD [])) k 4)),
        .after buf len (k + 4)) := by
  simp only [tlvReaderGetU32, readerGetByte_after hbuf, Option.bind_eq_bind, Option.bind_some]
  rw [BigEndian.join_four]
  rfl

/-- The loop over a destination fills it with the bytes that come next. -/
theorem foldlM_getInto_after (hbuf : (buf.getD []).length = len.toNat) (k : ℕ)
    {dst : List UInt8} {n : ℕ} (hn : n ≤ dst.length) :
    (List.range n).foldlM (fun (dst, reader) i ↦ getInto dst reader i) (dst, .after buf len k) =
      some (overlay (window (zeroExtended (buf.getD [])) k n) dst, .after buf len (k + n)) := by
  induction n with
  | zero => rfl
  | succ n ih =>
    rw [List.range_succ, List.foldlM_append, ih (Nat.le_of_succ_le hn)]
    simp only [List.foldlM_cons, List.foldlM_nil, getInto, readerGetByte_after hbuf,
      store_window _ k hn, Option.bind_eq_bind, Option.bind_some]
    rfl

theorem tlvReaderGetBytes_after (hbuf : (buf.getD []).length = len.toNat) (k : ℕ)
    {dst : List UInt8} (hdst : dst.length < UInt16.size) :
    tlvReaderGetBytes (.after buf len k) (some dst) (UInt16.ofNat dst.length) =
      some (some (window (zeroExtended (buf.getD [])) k dst.length),
        .after buf len (k + dst.length)) := by
  have hall : overlay (window (zeroExtended (buf.getD [])) k dst.length) dst =
      window (zeroExtended (buf.getD [])) k dst.length :=
    overlay_of_length_le (length_window _ _ _).ge
  simp only [tlvReaderGetBytes, UInt16.toNat_ofNat_of_lt' hdst, foldlM_getInto_after hbuf k le_rfl,
    hall, Option.bind_eq_bind, Option.bind_some]

/-- **A call decodes the bytes that come next**, with zeros for those that are not there. -/
theorem GetCall.get_after (hbuf : (buf.getD []).length = len.toNat) (k : ℕ) (call : GetCall) :
    call.get (.after buf len k) =
      some (call.type.decode (window (zeroExtended (buf.getD [])) k call.type.size),
        .after buf len (k + call.type.size)) := by
  cases call with
  | u8 =>
    simp only [GetCall.get, tlvReaderGetU8, readerGetByte_after hbuf, Option.bind_eq_bind,
      Option.bind_some]
    show _ = some (Value.u8 (UInt8.ofNat (number [zeroExtended (buf.getD []) k])), _)
    rw [BigEndian.number_singleton, UInt8.ofNat_toNat]
    rfl
  | u16 =>
    simp only [GetCall.get, tlvReaderGetU16_after hbuf, Option.bind_eq_bind, Option.bind_some]
    rfl
  | u32 =>
    simp only [GetCall.get, tlvReaderGetU32_after hbuf, Option.bind_eq_bind, Option.bind_some]
    rfl
  | i16 =>
    simp only [GetCall.get, tlvReaderGetI16, tlvReaderGetU16_after hbuf, Option.bind_eq_bind,
      Option.bind_some]
    show some (Value.i16 (UInt16.ofNat _).toInt16, _) = some (Value.i16 (Int16.ofInt _), _)
    rw [UInt16.toInt16_ofNat', Int16.ofInt_eq_ofNat]
    rfl
  | i32 =>
    simp only [GetCall.get, tlvReaderGetI32, tlvReaderGetU32_after hbuf, Option.bind_eq_bind,
      Option.bind_some]
    show some (Value.i32 (UInt32.ofNat _).toInt32, _) = some (Value.i32 (Int32.ofInt _), _)
    rw [UInt32.toInt32_ofNat', Int32.ofInt_eq_ofNat]
    rfl
  | bytes dst =>
    simp only [GetCall.get, tlvReaderGetBytes_after hbuf k dst.property, Option.bind_eq_bind,
      Option.bind_some]
    rfl

/-! ### All calls -/

theorem requested_cons (call : GetCall) (calls : List GetCall) :
    requested (call :: calls) = call.type.size + requested calls :=
  List.sum_cons

/-- **Any calls** decode the payload with zeros behind it, one field after the other. -/
theorem getFields_after (hbuf : (buf.getD []).length = len.toNat) (k : ℕ) (calls : List GetCall) :
    getFields (.after buf len k) calls =
      some (decodeFields (zeroExtended (buf.getD [])) k (calls.map GetCall.type),
        .after buf len (k + requested calls)) := by
  induction calls generalizing k with
  | nil => rfl
  | cons call calls ih =>
    simp only [getFields, GetCall.get_after hbuf, ih, Option.bind_eq_bind, Option.bind_some]
    rw [requested_cons, ← Nat.add_assoc]
    rfl

theorem tlvReaderDone_after (buf : Option (List UInt8)) (len : UInt16) (k : ℕ) :
    tlvReaderDone (.after buf len k) = true ↔ k = len.toNat := by
  rw [tlvReaderDone, Bool.and_eq_true, beq_iff_eq, ← UInt16.toNat_inj,
    TlvReader.toNat_pos_after]
  show decide (k ≤ len.toNat) = true ∧ min k len.toNat = len.toNat ↔ k = len.toNat
  rw [decide_eq_true_iff]
  omega

/-- **The reader is safe and its two checks are sound.** Whatever is read from a payload, the reader
stays inside it, every value is what the payload with zeros behind it decodes to, and the flag and
the position say whether too much was asked for, or all of it and nothing else. -/
theorem getFields_spec (hbuf : (buf.getD []).length = len.toNat) (calls : List GetCall) :
    ∃ reader : TlvReader,
      getFields (tlvReaderInit buf len) calls =
        some (decodeFields (zeroExtended (buf.getD [])) 0 (calls.map GetCall.type), reader) ∧
      reader.pos.toNat = min len.toNat (requested calls) ∧
      (tlvReaderOk reader = true ↔ requested calls ≤ len.toNat) ∧
      (tlvReaderDone reader = true ↔ requested calls = len.toNat) := by
  refine ⟨.after buf len (requested calls), ?_, ?_, decide_eq_true_iff,
    tlvReaderDone_after buf len _⟩
  · rw [tlvReaderInit_eq_after hbuf, getFields_after hbuf, Nat.zero_add]
  · rw [TlvReader.toNat_pos_after, Nat.min_comm]

/-- A payload of one byte, of which two numbers of two bytes each are asked for. -/
theorem getFields_spec_short :
    ∃ reader : TlvReader,
      getFields (tlvReaderInit (some [0xAB]) 1) [.u16, .i16] =
        some (decodeFields (zeroExtended [0xAB]) 0 [.u16, .i16], reader) ∧
      reader.pos.toNat = min 1 (requested [.u16, .i16]) ∧
      (tlvReaderOk reader = true ↔ requested [.u16, .i16] ≤ 1) ∧
      (tlvReaderDone reader = true ↔ requested [.u16, .i16] = 1) :=
  @getFields_spec (some [0xAB]) 1 rfl [.u16, .i16]

end SubmarineMonitor
