import Duplex.Bytes
import Duplex.IoError
import Duplex.Progress

/-!
# Sockets

What a connection needs of a socket: receives into a buffer, sends of one region or of several,
a graceful shutdown and a forced disposal. A receive or send is a call that takes several looks.

A socket that has only single sends sends several regions one after the other
(`Socket.SendEach`).
-/

namespace Duplex

/-- The operations of a socket on its state. -/
structure Socket where
  State : Type
  /-- Where an unfinished receive stands. -/
  Receive : Type
  /-- Where an unfinished send stands. -/
  Send : Type
  /-- Begins a receive into a buffer of that length. -/
  receive : (room : Nat) → State → Receive × State
  /-- One look at a receive, which ends with the bytes it put at the front of the buffer. -/
  pollReceive : Receive → State → Progress Receive (Except IoError Bytes) × State
  /-- Begins a send of one region. -/
  send : Bytes → State → Send × State
  /-- Begins a send of several regions. -/
  sendVectored : List Bytes → State → Send × State
  /-- One look at a send, which ends with the number of bytes sent. -/
  pollSend : Send → State → Progress Send (Except IoError Nat) × State
  /-- Shuts both directions down. -/
  shutdown : State → Except IoError Unit × State
  /-- Closes the socket by force; pending calls end. -/
  dispose : State → State

namespace Socket

/-- A send of several regions by one single send each. -/
structure SendEach (τ : Type) where
  /-- The send of the region in flight. -/
  current : Option τ := none
  /-- The regions whose sends have not begun. -/
  waiting : List Bytes
  /-- The bytes sent by the sends that ended. -/
  total : Nat := 0

/-- One look at a send of several regions; the first failure ends it. -/
def SendEach.poll (send : Bytes → σ → τ × σ)
    (look : τ → σ → Progress τ (Except IoError Nat) × σ) (call : SendEach τ) (s : σ) :
    Progress (SendEach τ) (Except IoError Nat) × σ :=
  match call.current, call.waiting with
  | none, [] => (.done (.ok call.total), s)
  | none, region :: waiting =>
    let (current, s) := send region s
    (.again { call with current := some current, waiting }, s)
  | some current, _ =>
    match look current s with
    | (.pending, s) => (.pending, s)
    | (.again current, s) => (.again { call with current := some current }, s)
    | (.done (.ok sent), s) => (.again { call with current := none, total := call.total + sent }, s)
    | (.done (.error error), s) => (.done (.error error), s)

end Socket

end Duplex
