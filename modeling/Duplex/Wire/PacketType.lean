import Duplex.Bytes

/-!
# Packet types

The low seven bits of a packet's control byte hold a type code. The codes overlap as bit
sets, so a code matches when all of its bits are set and the first match in
`PacketType.all` wins (`PacketType.ofControl?`).
-/

namespace Duplex.Wire

/-- The bit of the control byte that announces a long header. -/
def longHeaderFlag : UInt8 := 0x08

/-- The kinds of packet a control byte can announce. -/
inductive PacketType where
  | initial
  | retry
  | handshake
  | zeroRttProtected
deriving DecidableEq, Repr

namespace PacketType

/-- Every type, in the order in which codes are tried. -/
def all : List PacketType := [initial, retry, handshake, zeroRttProtected]

/-- The bits a control byte must have set to announce the type. -/
def code : PacketType → UInt8
  | initial => 0x7f
  | retry => 0x7e
  | handshake => 0x7d
  | zeroRttProtected => 0x7c

/-- The name of the type, as it stands in messages. -/
def name : PacketType → String
  | initial => "Initial"
  | retry => "Retry"
  | handshake => "Handshake"
  | zeroRttProtected => "ZeroRttProtected"

/-- The first type all of whose code's bits are set in `control`. -/
def ofControl? (control : UInt8) : Option PacketType :=
  all.find? fun type => control &&& type.code == type.code

end PacketType

end Duplex.Wire
