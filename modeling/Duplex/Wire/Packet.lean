import Duplex.Wire.LongHeader

/-!
# Packets

A packet is a control byte, a long header if the control byte announces one, and a payload.
Only packets of type `PacketType.initial` are read; the header of any packet is read before its
type is looked at, so a broken header wins over an unknown type.
-/

namespace Duplex.Wire

/-- What the front of a datagram says about it. -/
structure Packet where
  type : PacketType
  header : Option LongHeader
  /-- Where the payload starts in the datagram, control byte included. -/
  headerLength : Nat
deriving DecidableEq

namespace Packet

/-- Reads the control byte and the header it announces. -/
def readFront : Cursor (UInt8 × Option LongHeader) := do
  Cursor.need 1
  let control := (← Cursor.take 1).headD 0
  if control &&& longHeaderFlag != 0 then
    let header ← LongHeader.read
    return (control, some header)
  else
    return (control, none)

/-- The packet at the front of a datagram. -/
def parse (datagram : Bytes) : Except Error Packet :=
  match readFront.read datagram with
  | (.error cause, _) => .error cause
  | (.ok (control, header), rest) =>
    match PacketType.ofControl? control with
    | some .initial =>
      .ok { type := .initial, header, headerLength := datagram.length - rest.length }
    | some type => .error (.unimplementedPacketType type)
    | none => .error (.unrecognizedPacketType control)

/-- The id that the packet is addressed to. -/
def destination? (p : Packet) : Option ConnectionId :=
  p.header.map (·.destination)

/-- The packet on one line. -/
def text (p : Packet) : String :=
  (p.header.elim "" fun h => h.text ++ " ") ++
    p.type.name ++ "(0x" ++ Bytes.hexByte p.type.code ++ ")"

end Packet

end Duplex.Wire
