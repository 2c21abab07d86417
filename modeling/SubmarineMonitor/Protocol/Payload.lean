import SubmarineMonitor.Foundation.BigEndian

/-!
# Payload fields

What the value of a frame is made of: unsigned and signed integers, big-endian and in two's
complement, and arrays of bytes of a length both ends know. This is the meaning of the bytes, with
no cursor and no buffer; the writer and the reader of `tlv.c` are measured against it.

## Sequences of fields

The header says why there is a writer and a reader at all: a structure copied onto the wire would
depend on the padding and the byte order of one compiler. With them a payload is a sequence of
fields, and has no type of its own; so it has none here either. The types of the fields are known to
both ends and are not on the wire. (The modules of the node and of the central computer lay packed
structures over their payloads all the same; these layouts are translated where they are used, and
do not pass through this module.)

`Value` has one constructor for each function of the writer, and carries a machine integer of that
width. A value that does not fit its field cannot be formed, so nothing has to be said about
truncation. Signed integers go through the unsigned ones of the same width, as the casts of the
source do, which is two's complement.

The length of an array is part of its type, since the caller of the reader passes the number of
bytes it wants and there is nothing on the wire that would tell it.

## What is left out

The cursor, the capacity and the flag, which are the writer's and the reader's. That decoding takes
back encoding is proved here for one value; for sequences in a buffer it is
`Protocol.PayloadRoundTrip`.
-/

namespace SubmarineMonitor

open BigEndian (number number_bytes_of_lt)

/-- The type of a field; an array of bytes with its length. -/
inductive FieldType
  | u8
  | u16
  | u32
  | i16
  | i32
  | bytes (n : ℕ)
  deriving DecidableEq, Repr

/-- How many bytes a field of this type takes. -/
def FieldType.size : FieldType → ℕ
  | .u8 => 1
  | .u16 | .i16 => 2
  | .u32 | .i32 => 4
  | .bytes n => n

/-- The value of a field. -/
inductive Value
  | u8 (value : UInt8)
  | u16 (value : UInt16)
  | u32 (value : UInt32)
  | i16 (value : Int16)
  | i32 (value : Int32)
  | bytes (block : List UInt8)
  deriving DecidableEq, Repr

namespace Value

def type : Value → FieldType
  | .u8 _ => .u8
  | .u16 _ => .u16
  | .u32 _ => .u32
  | .i16 _ => .i16
  | .i32 _ => .i32
  | .bytes block => .bytes block.length

/-- The bytes of a value on the wire: most significant first, negative numbers in two's
complement. -/
def encode : Value → List UInt8
  | .u8 value => BigEndian.bytes 1 value.toNat
  | .u16 value => BigEndian.bytes 2 value.toNat
  | .u32 value => BigEndian.bytes 4 value.toNat
  | .i16 value => BigEndian.bytes 2 (value.toInt % 65536).toNat
  | .i32 value => BigEndian.bytes 4 (value.toInt % 4294967296).toNat
  | .bytes block => block

theorem length_encode (v : Value) : v.encode.length = v.type.size := by
  cases v <;> simp [encode, type, FieldType.size]

end Value

/-- The value of this type that these bytes stand for. -/
def FieldType.decode : FieldType → List UInt8 → Value
  | .u8, bs => .u8 (UInt8.ofNat (number bs))
  | .u16, bs => .u16 (UInt16.ofNat (number bs))
  | .u32, bs => .u32 (UInt32.ofNat (number bs))
  | .i16, bs => .i16 (Int16.ofInt (number bs))
  | .i32, bs => .i32 (Int32.ofInt (number bs))
  | .bytes _, bs => .bytes bs

/-! ### Two's complement -/

/-- The two's complement of a signed number is the unsigned one with the same bits. -/
theorem toNat_toInt_emod {w : ℕ} (x : BitVec w) :
    (x.toInt % ((2 ^ w : ℕ) : ℤ)).toNat = x.toNat := by
  rw [BitVec.toInt_eq_toNat_bmod, Int.bmod_emod, ← Int.natCast_emod, Int.toNat_natCast,
    Nat.mod_eq_of_lt x.isLt]

theorem toNat_toUInt16 (x : Int16) : (x.toInt % 65536).toNat = x.toUInt16.toNat :=
  toNat_toInt_emod x.toBitVec

theorem toNat_toUInt32 (x : Int32) : (x.toInt % 4294967296).toNat = x.toUInt32.toNat :=
  toNat_toInt_emod x.toBitVec

/-- **Decoding takes back what encoding did**, for every value of every type. -/
theorem Value.decode_encode (v : Value) : v.type.decode v.encode = v := by
  cases v with
  | u8 x =>
    show Value.u8 (UInt8.ofNat (number (BigEndian.bytes 1 x.toNat))) = _
    rw [number_bytes_of_lt x.toNat_lt, UInt8.ofNat_toNat]
  | u16 x =>
    show Value.u16 (UInt16.ofNat (number (BigEndian.bytes 2 x.toNat))) = _
    rw [number_bytes_of_lt x.toNat_lt, UInt16.ofNat_toNat]
  | u32 x =>
    show Value.u32 (UInt32.ofNat (number (BigEndian.bytes 4 x.toNat))) = _
    rw [number_bytes_of_lt x.toNat_lt, UInt32.ofNat_toNat]
  | i16 x =>
    show Value.i16 (Int16.ofInt (number (BigEndian.bytes 2 (x.toInt % 65536).toNat))) = _
    rw [toNat_toUInt16, number_bytes_of_lt x.toUInt16.toNat_lt]
    show Value.i16 (UInt16.ofNat x.toUInt16.toNat).toInt16 = _
    rw [UInt16.ofNat_toNat, Int16.toInt16_toUInt16]
  | i32 x =>
    show Value.i32 (Int32.ofInt (number (BigEndian.bytes 4 (x.toInt % 4294967296).toNat))) = _
    rw [toNat_toUInt32, number_bytes_of_lt x.toUInt32.toNat_lt]
    show Value.i32 (UInt32.ofNat x.toUInt32.toNat).toInt32 = _
    rw [UInt32.ofNat_toNat, Int32.toInt32_toUInt32]
  | bytes block => rfl

end SubmarineMonitor
