import Duplex.Wire.Cursor
import Duplex.Wire.Writer

/-!
# Variable-length integers

An integer of up to 62 bits takes 1, 2, 4 or 8 bytes. The two top bits of the first byte are
the class of the length, the rest is the number, most significant byte first. The writer takes
the shortest class that holds the value (`encodedLength`); the reader accepts every class
(`read`).
-/

namespace Duplex.Wire.Varint

open scoped Numbers

/-- The largest value that can be written. -/
def maxValue : UInt64 := 0x3fffffffffffffff

/-- The length class in the two top bits of a first byte. -/
def classOf (first : UInt8) : Nat := first.toNat / 64

/-- The number of bytes in an integer of a length class. -/
def lengthOf (lengthClass : Nat) : Nat := 2 ^ lengthClass

/-- The bits of the value that a first byte holds. -/
def topBits (first : UInt8) : UInt8 := first % 64

/-- The value of the bytes read so far, followed by one more byte. -/
def shiftIn (value : UInt64) (byte : UInt8) : UInt64 := value * 256 + byte.toUInt64

/-- Reads one integer. When the bytes after the first are missing, the first is consumed. -/
def read : Cursor UInt64 := do
  Cursor.need 1
  let head ← Cursor.take 1
  let first := head.headD 0
  let more := lengthOf (classOf first) - 1
  Cursor.need more
  let tail ← Cursor.take more
  return tail.foldl shiftIn (topBits first).toUInt64

/-- The class of the shortest encoding of `value`. -/
def shortestClass (value : UInt64) : Except Error Nat :=
  if value < 0x40 then .ok 0
  else if value < 0x4000 then .ok 1
  else if value < 0x40000000 then .ok 2
  else if value ≤ maxValue then .ok 3
  else .error (.valueTooLarge value)

/-- The number of bytes in the shortest encoding of `value`. -/
def encodedLength (value : UInt64) : Except Error Nat :=
  lengthOf <$> shortestClass value

/-- The bytes of `value` in a length class: the class stands above the value's bits. -/
def encode (lengthClass : Nat) (value : UInt64) : Bytes :=
  let width := lengthOf lengthClass
  Bytes.ofNat width (lengthClass * 2 ^ (8 * width - 2) + value.toNat)

/-- Appends the shortest encoding of `value`, and returns how many bytes that are. -/
def put (value : UInt64) : Writer Nat := do
  let lengthClass ← Writer.check (shortestClass value)
  Writer.put (encode lengthClass value)
  return lengthOf lengthClass

/-- The shortest encoding of `value`. -/
def write (value : UInt64) : Except Error Bytes := (put value).bytes

end Duplex.Wire.Varint
