import Duplex.IpAddress

/-!
# Socket addresses

An address of a machine and a port on it. Port 0 asks for any free port. In text a colon stands
between the two (`SocketAddress.text`, `SocketAddress.ofText?`), and brackets stand around an
address of version 6.
-/

namespace Duplex

/-- Where a socket is bound. -/
structure SocketAddress where
  host : IpAddress
  port : Nat
deriving DecidableEq

namespace SocketAddress

/-- A port of the machine itself. -/
def ofPort (port : Nat) : SocketAddress := ⟨.localhost, port⟩

/-- The host, as it stands in front of a port. -/
def hostText (a : SocketAddress) : String :=
  match a.host with
  | .v4 _ => a.host.text
  | .v6 .. => "[" ++ a.host.text ++ "]"

/-- The address as `host:port`. -/
def text (a : SocketAddress) : String := a.hostText ++ ":" ++ toString a.port

/-- Reads a port. -/
def readPort? (text : String) : Option Nat := (IpAddress.number? 10 text).filter (· < 65536)

/-- Reads `host:port`. -/
def ofText? (text : String) : Option SocketAddress :=
  match text.toList with
  | '[' :: rest =>
    match (String.ofList rest).splitOn "]:" with
    | [host, port] => do return ⟨← IpAddress.readZoned? host, ← readPort? port⟩
    | _ => none
  | _ =>
    match text.splitOn ":" with
    | [host, port] => do return ⟨.v4 (← IpAddress.readV4? host), ← readPort? port⟩
    | _ => none

end SocketAddress

end Duplex
