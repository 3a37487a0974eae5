import Duplex.Socket.Datagram

/-!
# A datagram socket in scripted use

One datagram socket with any number of named receives outstanding. After every action the
receives are looked at, in the order in which they began, until none can move.
-/

namespace Duplex.Socket.Datagram

open scoped Numbers

/-- A socket and its outstanding receives, oldest first. -/
structure Session where
  socket : Datagram
  receives : List (String × Receive) := []

/-- What a script does to a datagram socket. -/
inductive Action where
  | deliver (datagram : Bytes)
  /-- No more datagrams come. -/
  | endFeed
  | receive (name : String) (room : Nat)
  | cancelReceive (name : String)
  | send (region : Bytes)
  | sendVectored (regions : List Bytes)
  | shutdown
  | dispose

/-- What an action answers. -/
inductive Reply where
  | done
  | offered (offer : Offer)
  /-- The feed has ended. -/
  | unavailable
  | dropped (existed : Bool)
  /-- How many bytes were sent, and the datagrams in which they left. -/
  | sent (count : Nat) (datagrams : List Bytes)
  | failed (error : IoError)
  /-- The network does not move, and the send hangs. -/
  | stalled
  | ok

namespace Session

/-- Gives up the receive of a name. -/
def cancel (s : Session) (name : String) : Session where
  socket := (s.receives.filter (·.1 == name)).foldl (fun t p => t.abandonReceive p.2) s.socket
  receives := s.receives.filter (·.1 != name)

/-- A bound on the looks at a send: each region takes three and each datagram one. -/
def sendLooks (regions : List Bytes) : Nat :=
  4 + 3 * regions.length + (regions.map List.length).sum

/-- Sends regions to the end. -/
def send (s : Session) (regions : List Bytes) : Reply × Session :=
  let before := s.socket.emitted.length
  let (call, socket) := Datagram.send regions s.socket
  match Progress.poll pollSend (sendLooks regions) call socket with
  | (.inr (.ok count), socket) => (.sent count (socket.emitted.drop before), { s with socket })
  | (.inr (.error error), socket) => (.failed error, { s with socket })
  | (.inl _, socket) => (.stalled, { s with socket })

/-- Performs an action. -/
def perform (s : Session) : Action → Reply × Session
  | .deliver datagram =>
    if s.socket.fed then
      let (offer, socket) := s.socket.offer datagram
      (.offered offer, { s with socket })
    else (.unavailable, s)
  | .endFeed => (.done, { s with socket := { s.socket with fed := false } })
  | .receive name room =>
    let s := s.cancel name
    (.done, { s with receives := s.receives ++ [(name, .entering room)] })
  | .cancelReceive name => (.dropped (s.receives.any (·.1 == name)), s.cancel name)
  | .send region => s.send [region]
  | .sendVectored regions => s.send regions
  | .shutdown =>
    let (_, socket) := s.socket.shutdown
    (.ok, { s with socket })
  | .dispose => (.done, { s with socket := s.socket.dispose })

/-- Looks at every receive in order, each as often as it moves. A receive that ends hands the
turn to a later one, so that one round is enough. -/
def settle : List (String × Receive) → Datagram →
    List (String × Except IoError Bytes) × List (String × Receive) × Datagram
  | [], t => ([], [], t)
  | (name, call) :: receives, t =>
    match Progress.poll pollReceive 3 call t with
    | (.inl call, t) =>
      let (ended, waiting, t) := settle receives t
      (ended, (name, call) :: waiting, t)
    | (.inr result, t) =>
      let (ended, waiting, t) := settle receives t
      ((name, result) :: ended, waiting, t)

/-- Performs an action and lets every receive move as far as it can. The results are those of the
receives that ended. -/
def advance (s : Session) (action : Action) :
    Reply × List (String × Except IoError Bytes) × Session :=
  let (reply, s) := s.perform action
  let (ended, receives, socket) := settle s.receives s.socket
  (reply, ended, { socket, receives })

end Session

end Duplex.Socket.Datagram
