import Mathlib.Logic.Function.Iterate

/-!
# The frame checksum

CRC-16/CCITT-FALSE as the protocol library computes it: bit by bit, one byte folded into a running
16-bit word at a time. The receiver folds the bytes as they arrive while the encoder and the block
decoder fold a whole buffer; `tlvCrc16_concat` is what makes the two agree.

## Design

The bit loop is an iterate of one turn, `tlvCrc16Bit`, and not a loop with a counter: nothing in a
turn depends on which turn it is. A buffer is folded from the left, as the running form needs it.
Machine words are `UInt16` and `UInt8`, whose shifts drop the bits that fall out just as the casts
of the source do, so no modulus is written anywhere.

Three further readings of the same function are proved in modules of their own, each for one
purpose. `Protocol.CrcRegister` makes it a shift register over an additive group, from which follows
what damage it catches; `Protocol.CrcPolynomial` makes it the remainder of a polynomial division,
which is what the standard says it is; and `Protocol.ErrorDetection` uses that a buffer with its own
checksum behind it folds to zero. None of them is needed to follow the encoder and the decoder.

## What is left out

`tlv_crc16` returns the initial word when its pointer is NULL. Its two callers in the library pass
an address inside a buffer they have checked already, so the buffer is a list and not an optional
one. Time is left out too: the comment in the source weighs the loop against a table of 512 bytes,
and both compute the same word.
-/

namespace SubmarineMonitor

/-- One turn of the bit loop: shift left, and reduce by the polynomial if a bit fell out. -/
def tlvCrc16Bit (crc : UInt16) : UInt16 :=
  if crc &&& 0x8000 ≠ 0 then (crc <<< 1) ^^^ 0x1021 else crc <<< 1

/-- Fold one byte into a running checksum. -/
def tlvCrc16Update (crc : UInt16) (byte : UInt8) : UInt16 :=
  tlvCrc16Bit^[8] (crc ^^^ (byte.toUInt16 <<< 8))

/-- The checksum of a whole buffer. -/
def tlvCrc16 (data : List UInt8) : UInt16 :=
  data.foldl tlvCrc16Update 0xFFFF

/-- The published check value of the algorithm, over the bytes of `123456789`. -/
example : tlvCrc16 [0x31, 0x32, 0x33, 0x34, 0x35, 0x36, 0x37, 0x38, 0x39] = 0x29B1 := by
  decide +kernel

@[simp]
theorem tlvCrc16_nil : tlvCrc16 [] = 0xFFFF :=
  rfl

/-- The running form: one more byte is one more update. -/
theorem tlvCrc16_concat (data : List UInt8) (byte : UInt8) :
    tlvCrc16 (data ++ [byte]) = tlvCrc16Update (tlvCrc16 data) byte := by
  rw [tlvCrc16, tlvCrc16, List.foldl_append]
  rfl

end SubmarineMonitor
