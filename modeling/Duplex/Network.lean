import Duplex.Configuration
import Duplex.IoError
import Duplex.Socket.Datagram
import Duplex.SocketAddress

/-!
# The network

What the network of a machine answers: whether a socket can be bound to an address, and whether
what is sent reaches anybody. The machine has one interface, which leads back to itself.

A bind asks first whether a socket can have the address at all (`Network.refusal?`), and then
whether an open socket is bound to an address that clashes with it. Port 0 asks for a port that
nobody has and nobody can ask for by number.
-/

namespace Duplex

/-- The network of a machine, and the sockets on it that are not the transport's. -/
structure Network where
  /-- Whether the interface is up. Then what is sent to the machine itself arrives. -/
  reachable : Bool := true
  /-- The addresses of open sockets outside the transport. -/
  others : List SocketAddress := []
  /-- The next port that is given to a socket that asked for any; ports that can be asked for are
  below 65536. -/
  nextPort : Nat := 65536

namespace SocketAddress

/-- Whether two sockets cannot be bound to these addresses at once. -/
def clashes (a b : SocketAddress) : Bool := a.port == b.port && a.host.overlaps b.host

/-- Where a peer on the same machine finds a socket bound to the address. -/
def asSeenLocally (a : SocketAddress) : SocketAddress :=
  if a.host.isUnspecified then { a with host := .localhost } else a

/-- Whether the port is reserved for the system. -/
def isReserved (a : SocketAddress) : Bool := 0 < a.port && a.port < 1024

end SocketAddress

namespace Network

/-! ## Binding -/

/-- The number of the machine's one interface. -/
def interface : Nat := 1

/-- Whether a socket can be bound to the address of version 4. Before the interface has been up the
machine knows of no address that is another's. -/
def ownsV4 (n : Network) (bits : BitVec 32) : Bool :=
  !n.reachable || bits >>> 24 == 127#32 || bits >>> 28 == 0xe#32 || bits >>> 24 == 0#32
    || bits == 0xffffffff#32

/-- Whether the address of version 6 is the interface's. -/
def ownsV6 (n : Network) (bits : BitVec 128) : Bool := n.reachable && bits == 1

/-- Why no socket can be bound to the address of version 6, whatever its mode and port. -/
def refusalV6? (n : Network) (bits : BitVec 128) (zone : Nat) : Option IoError :=
  match IpAddress.mapped? bits with
  | some bits => if n.ownsV4 bits then none else some .addressNotAvailable
  | none =>
    if bits = 0 then none
    else if IpAddress.needsZone bits ∧ zone = 0 then some .invalidArgument
    else if IpAddress.needsZone bits ∧ zone ≠ interface then some .noSuchDevice
    else if IpAddress.isMulticast bits || n.ownsV6 bits then none
    else some .addressNotAvailable

/-- Why no socket of that mode can be bound to the address. Streams do not join groups. -/
def refusal? (n : Network) (mode : ListenMode) (a : SocketAddress) : Option IoError :=
  match a.host with
  | .v4 bits =>
    if !n.ownsV4 bits then some .addressNotAvailable
    else if a.isReserved then some .permissionDenied
    else none
  | .v6 bits zone =>
    if IpAddress.isMulticast bits && mode = .stream then some .invalidArgument
    else if a.isReserved then some .permissionDenied
    else n.refusalV6? bits zone

/-- A port that nobody has. -/
def freePort (n : Network) : Nat × Network :=
  (n.nextPort, { n with nextPort := n.nextPort + 1 })

/-- Binds a socket to an address, next to the open sockets in `taken` and those of others. -/
def bind (n : Network) (mode : ListenMode) (address : SocketAddress) (taken : List SocketAddress) :
    Except IoError SocketAddress × Network :=
  match n.refusal? mode address with
  | some error => (.error error, n)
  | none =>
    if address.port = 0 then
      let (port, n) := n.freePort
      (.ok { address with port }, n)
    else if (taken ++ n.others).any address.clashes then (.error .addressInUse, n)
    else (.ok address, n)

/-! ## Sending -/

/-- No socket sends a longer datagram, whatever the network. -/
def maxDatagram : Nat := 65535

/-- The length of the longest datagram that fits into a packet. -/
def maxPayload : Nat := 65507

/-- Connects to a peer. -/
def carry (n : Network) : Except IoError Unit :=
  if n.reachable then .ok () else .error .networkUnreachable

/-- Sends a datagram of that length. -/
def carryDatagram (n : Network) (length : Nat) : Except IoError Unit :=
  if maxDatagram < length then .error .messageTooLong
  else if !n.reachable then .error .networkUnreachable
  else if maxPayload < length then .error .messageTooLong
  else .ok ()

/-- What becomes of the datagrams that a socket sends. -/
def link (n : Network) : Socket.Link := fun length =>
  match n.carryDatagram length with
  | .ok () => .taken
  | .error error => .failed error

end Network

end Duplex
