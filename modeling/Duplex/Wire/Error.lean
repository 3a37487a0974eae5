import Duplex.Wire.PacketType

/-!
# What can go wrong on the wire

The causes for which bytes are not read or a value is not written, and their messages.
-/

namespace Duplex.Wire

/-- Why bytes could not be read, or a value could not be written. -/
inductive Error where
  /-- A field of `needed` bytes starts where only `remaining` bytes are left. -/
  | unexpectedEnd (needed remaining : Nat)
  /-- The control byte announces no known packet type. -/
  | unrecognizedPacketType (control : UInt8)
  /-- The packet type is known, but its packets are not read. -/
  | unimplementedPacketType (type : PacketType)
  /-- The value has more than 62 bits. -/
  | valueTooLarge (value : UInt64)
  /-- A connection id of this length has no length code in a long header. -/
  | invalidConnectionIdLength (length : Nat)
deriving DecidableEq, Repr

/-- The message of an error. -/
def Error.message : Error → String
  | unexpectedEnd needed remaining =>
    s!"unexpected end of buffer: {needed} bytes needed, {remaining} remaining"
  | unrecognizedPacketType control =>
    "unrecognized packet type in control byte 0x" ++ Bytes.hexByte control
  | unimplementedPacketType type => "packet type " ++ type.name ++ " is not implemented"
  | valueTooLarge value => s!"value {value} does not fit in a variable-length integer"
  | invalidConnectionIdLength length =>
    s!"connection id length {length} cannot be encoded in a long header"

end Duplex.Wire
