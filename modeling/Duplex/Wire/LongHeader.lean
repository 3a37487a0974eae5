import Duplex.ConnectionId
import Duplex.Wire.Varint

/-!
# Long headers

A long header carries the version, the ids of both ends, the length of the payload and the
packet number. One byte holds the lengths of both ids as length codes: code 0 is the empty id
and code `c` an id of `c + 3` bytes, so that lengths 1 to 3 cannot be written
(`idLengthOfCode`, `codeOfIdLength`).
-/

namespace Duplex.Wire

/-- The header that a long-form packet starts with, after its control byte. -/
structure LongHeader where
  version : UInt32
  destination : ConnectionId
  source : ConnectionId
  payloadLength : UInt64
  packetNumber : UInt32
deriving DecidableEq

namespace LongHeader

/-- The id length of a length code, of which the low four bits count. -/
def idLengthOfCode (code : UInt8) : Nat :=
  let low := code.toNat % 16
  if low = 0 then 0 else low + 3

/-- The length code of an id length. -/
def codeOfIdLength (length : Nat) : Except Error Nat :=
  if length = 0 then .ok 0
  else if 4 ≤ length ∧ length ≤ ConnectionId.maxLength then .ok (length - 3)
  else .error (.invalidConnectionIdLength length)

/-- Reads a header. -/
def read : Cursor LongHeader := do
  Cursor.need 5
  let version ← Cursor.take 4
  let lengths := (← Cursor.take 1).headD 0
  let destination ← ConnectionId.read (idLengthOfCode (lengths / 16))
  let source ← ConnectionId.read (idLengthOfCode lengths)
  let payloadLength ← Varint.read
  Cursor.need 4
  let packetNumber ← Cursor.take 4
  return {
    version := UInt32.ofNat version.toNat
    destination
    source
    payloadLength
    packetNumber := UInt32.ofNat packetNumber.toNat }

/-- Appends a header. The destination id is checked first, then the source id, then the payload
length, and nothing is appended before all three have passed. -/
def put (h : LongHeader) : Writer Unit := do
  let destinationCode ← Writer.check (codeOfIdLength h.destination.length)
  let sourceCode ← Writer.check (codeOfIdLength h.source.length)
  let _ ← Writer.check (Varint.encodedLength h.payloadLength)
  Writer.put (Bytes.ofNat 4 h.version.toNat)
  Writer.put [UInt8.ofNat (destinationCode * 16 + sourceCode)]
  Writer.put h.destination.bytes
  Writer.put h.source.bytes
  let _ ← Varint.put h.payloadLength
  Writer.put (Bytes.ofNat 4 h.packetNumber.toNat)

/-- The bytes of a header. -/
def write (h : LongHeader) : Except Error Bytes := h.put.bytes

/-- The header on one line: who sends to whom, the packet number and the payload length. -/
def text (h : LongHeader) : String :=
  s!"{h.source.text} -> {h.destination.text} pn={h.packetNumber} len={h.payloadLength}"

end LongHeader

end Duplex.Wire
