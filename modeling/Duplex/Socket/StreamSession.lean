import Duplex.Socket.Loopback

/-!
# A stream socket in scripted use

One stream socket, connected in memory, with any number of named receives outstanding. After
every action the receives are looked at, in the order in which they began; a result is kept until
someone awaits it. While a send is in flight the peer takes what arrives, unless it is told not
to read.
-/

namespace Duplex.Socket.Stream

open scoped Numbers

/-- A socket, its outstanding receives, oldest first, and the results that nobody has awaited. -/
structure Session where
  socket : State Loopback.kernel
  receives : List (String × Nat) := []
  results : List (String × Except IoError Bytes) := []

/-- What a script does to a stream socket and to its peer. -/
inductive Action where
  | receive (name : String) (room : Nat)
  | await (name : String)
  /-- Sends one region; `unread` tells the peer not to read. -/
  | send (region : Bytes) (unread : Bool)
  | sendVectored (regions : List Bytes) (unread : Bool)
  | shutdown
  | dispose
  | peerSend (data : Bytes)
  /-- The peer ends its direction. -/
  | peerShutdown
  | peerReset
  /-- The peer waits for the end of what it receives. -/
  | peerEnd

/-- What an action answers. -/
inductive Reply where
  | done
  | received (result : Except IoError Bytes)
  /-- How many bytes were sent, and what the peer has read. -/
  | sent (count : Nat) (taken : Option Bytes)
  | failed (error : IoError)
  | ok
  /-- The peer has seen the end of the stream, or a failure. -/
  | over (failure : Option IoError)
  /-- The call cannot end. -/
  | stalled
  /-- There is no receive of that name. -/
  | unavailable

namespace Session

/-- Changes the stream. -/
def onStream (s : Session) (f : Loopback → Loopback) : Session :=
  { s with socket := { s.socket with kernel := f s.socket.kernel } }

/-- The peer takes everything that has arrived, if it reads. -/
def peerReads (unread : Bool) (taken : Bytes) (s : State Loopback.kernel) :
    Bytes × State Loopback.kernel :=
  if unread then (taken, s)
  else
    let stream : Loopback := s.kernel
    let (more, stream) := stream.peerTake stream.departing.length
    (taken ++ more, { s with kernel := stream })

/-- Looks at a send until it has ended, at most `looks` times. -/
def runSend (unread : Bool) : (looks : Nat) → Send → Bytes → State Loopback.kernel →
    Option (Except IoError Nat) × Bytes × State Loopback.kernel
  | 0, _, taken, s => (none, taken, s)
  | looks + 1, call, taken, s =>
    let (progress, s) := pollSend call s
    let (taken, s) := peerReads unread taken s
    match progress with
    | .done result => (some result, taken, s)
    | .again call => runSend unread looks call taken s
    | .pending => runSend unread looks call taken s

/-- Runs a send of regions. Every look takes a byte, a region or the window, and the peer empties
the window after it. -/
def send (s : Session) (call : Send) (regions : List Bytes) (unread : Bool) : Reply × Session :=
  let looks := 4 + 2 * (regions.length + (regions.map List.length).sum)
  let (result, taken, socket) := runSend unread looks call [] s.socket
  let reply := match result with
    | none => .stalled
    | some (.ok count) => .sent count (if unread then none else some taken)
    | some (.error error) => .failed error
  (reply, { s with socket })

/-- Performs an action. -/
def perform (s : Session) : Action → Reply × Session
  | .receive name room => (.done, { s with receives := s.receives ++ [(name, room)] })
  | .await name =>
    match s.results.lookup name with
    | some result => (.received result, { s with results := s.results.filter (·.1 != name) })
    | none => if s.receives.any (·.1 == name) then (.stalled, s) else (.unavailable, s)
  | .send region unread => s.send (.writing region region.length) [region] unread
  | .sendVectored regions unread => s.send (.gathering regions) regions unread
  | .shutdown =>
    let (result, socket) := Stream.shutdown s.socket
    match result with
    | .ok _ => (.ok, { s with socket })
    | .error error => (.failed error, { s with socket })
  | .dispose => (.done, { s with socket := Stream.dispose s.socket })
  | .peerSend data => (.done, s.onStream (·.peerSend data))
  | .peerShutdown => (.done, s.onStream (·.peerEnd))
  | .peerReset => (.done, s.onStream (·.peerReset))
  | .peerEnd =>
    let stream : Loopback := s.socket.kernel
    if stream.ended then (.over none, s)
    else if stream.reset then (.over (some .connectionReset), s)
    else (.stalled, s)

/-- Looks at every receive in order. -/
def settle : List (String × Nat) → State Loopback.kernel →
    List (String × Except IoError Bytes) × List (String × Nat) × State Loopback.kernel
  | [], t => ([], [], t)
  | (name, room) :: receives, t =>
    match pollReceive room t with
    | (.done result, t) =>
      let (ended, waiting, t) := settle receives t
      ((name, result) :: ended, waiting, t)
    | (_, t) =>
      let (ended, waiting, t) := settle receives t
      (ended, (name, room) :: waiting, t)

/-- Performs an action and lets every receive move as far as it can. -/
def advance (s : Session) (action : Action) : Reply × Session :=
  let (reply, s) := s.perform action
  let (ended, receives, socket) := settle s.receives s.socket
  (reply, { socket, receives, results := s.results ++ ended })

end Session

end Duplex.Socket.Stream
