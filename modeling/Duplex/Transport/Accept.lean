import Duplex.Transport.Basic
import Duplex.Wire.Packet

/-!
# The accept loop

What arrives is looked up in the routing table. An id that is not there gets a new connection,
which is inserted before the dispatcher is asked and taken out again if it is refused; a refusal
ends the loop with an error, and so does a panic of the dispatcher. A datagram is offered to its
connection at the end, whole, once. Before all this the loop makes the buffer that it receives
into, and ends at once if no buffer can be as long.

A datagram that is empty or cannot be read changes nothing (`Transport.arrivalOf?`).
-/

namespace Duplex.Transport

open scoped Numbers

/-- A new connection for what has arrived, on the next queue. -/
def newRoute (t : Transport C) (a : Arrival C) (queueIndex : Nat) : Route C where
  connection := Connection.create C.socket a.key a.localAddress a.peer queueIndex
    t.configuration.minimumReceive t.configuration.pipeOptions a.socket

/-- Makes a route for what has arrived: draws a queue, and appends the route. -/
def makeRoute (t : Transport C) (a : Arrival C) (s : QueuePool × List (Route C)) :
    Option (Entry Unit) × QueuePool × List (Route C) :=
  let (index, queues) := s.1.assign
  (some ⟨s.2.length, ()⟩, queues, s.2 ++ [t.newRoute a index])

/-- What a dispatcher answers. -/
inductive Answer where
  | accept
  | refuse (reason : String)
  /-- The dispatcher panics, with a text or with something else. -/
  | panic (message : Option String)

/-- No buffer is longer. -/
def maxBuffer : Nat := 2 ^ (63 : Nat) - 1

/-- How the accept loop ends if its buffer would be too long. -/
def bufferTooLong : TransportError := .panic "capacity overflow"

/-- The text of a panic. -/
def panicMessage (message : Option String) : String := message.getD "unknown panic"

/-- Something arrives while the accept loop is waiting and was not signalled to end. -/
def arrive (t : Transport C) (a : Arrival C) : Option (Transport C) :=
  match t.acceptor with
  | .waiting => if t.signalled then none else some { t with acceptor := .routing a }
  | _ => none

/-- The listening socket fails while the accept loop is waiting and was not signalled to end. That a
peer has reset is nothing; any other failure ends the loop if unbinding is in progress. -/
def listenError (t : Transport C) (error : IoError) : Option (Transport C) :=
  match t.acceptor with
  | .waiting =>
    if t.signalled then none
    else if error.kind ≠ .connectionReset ∧ t.unbinding then some { t with acceptor := .ended none }
    else some t
  | _ => none

/-- The dispatcher answers. -/
def answer (t : Transport C) (answer : Answer) : Option (Transport C) :=
  match t.acceptor with
  | .dispatching route payload =>
    match answer with
    | .accept =>
      some { t.onConnection route (·.accept) with acceptor := .concluding route payload }
    | .refuse reason =>
      some { t.onConnection route (·.refuse reason) with acceptor := .concluding route payload }
    | .panic message =>
      some { t.onConnection route (·.panicStart) with
        acceptor := .ended (some (.panic (panicMessage message))) }
  | _ => none

/-- Where the accept loop goes once the start of a connection has gone as far as it can. -/
def afterStart (route : Nat) (payload : Option Bytes) : Starter → Acceptor C
  | .over (some reason) => .withdrawing route (.dispatch reason)
  | _ => .offering route payload

/-- One step of the accept loop, if it can move. -/
def stepAcceptor (t : Transport C) : Option (Transport C) :=
  match t.acceptor with
  | .unborn | .dispatching .. | .ended _ => none
  | .opening =>
    let tooLong := maxBuffer < C.receiveBuffer t.configuration
    some { t with acceptor := if tooLong then .ended (some bufferTooLong) else .waiting }
  | .waiting => if t.signalled then some { t with acceptor := .ended none } else none
  | .routing a =>
    match t.table.get? a.key with
    | some entry => some { t with acceptor := .offering entry.identity a.payload }
    | none => some { t with acceptor := .claiming a }
  | .claiming a =>
    match t.table.claim a.key (t.makeRoute a) (t.queues, t.routes) with
    | (.created entry, table, queues, routes) =>
      some { t with table, queues, routes, acceptor := .starting entry.identity a.payload }
    | (.existing entry, _, _) =>
      some { t with acceptor := .offering entry.identity a.payload }
    | (.failed, _, _) => some { t with acceptor := .waiting }
  | .starting route payload =>
    match t.routes[route]? with
    | none => some { t with acceptor := .waiting }
    | some r =>
      match r.connection.beginStart with
      | .ok c =>
        some { t.onConnection route (fun _ => c) with
          dispatched := t.dispatched + 1
          acceptor := .dispatching route payload }
      | .error error => some { t with acceptor := .withdrawing route error }
  | .concluding route payload =>
    match t.routes[route]? with
    | none => some { t with acceptor := .waiting }
    | some r =>
      match r.connection.stepStarter with
      | some c => some (t.onConnection route fun _ => c)
      | none =>
        let acceptor := afterStart route payload r.connection.starter
        let routes := match acceptor with
          | .offering .. => t.routes.modify route fun r => { r with removal := .waiting }
          | _ => t.routes
        some { t with routes, acceptor }
  | .withdrawing route error =>
    match t.routes[route]? with
    | none => some { t with acceptor := .ended (some error) }
    | some r =>
      let (_, table) := t.table.removeIfSame r.connection.id route
      some { t.onSocket route C.endFeed with table, acceptor := .ended (some error) }
  | .offering route payload =>
    match payload with
    | some datagram =>
      some { t.onSocket route (C.offer datagram) with acceptor := .waiting }
    | none => some { t with acceptor := .waiting }

/-- The removal of a connection, once it is closed. Nothing is offered to it any more. -/
def stepRemoval (t : Transport C) (route : Nat) : Option (Transport C) :=
  match t.routes[route]? with
  | none => none
  | some r =>
    match r.removal with
    | .unborn | .done => none
    | .waiting =>
      if r.connection.closed then
        let (_, table) := t.table.removeIfSame r.connection.id route
        let t := t.onSocket route C.endFeed
        some { t with table, routes := t.routes.modify route fun r => { r with removal := .done } }
      else none

/-! ## Datagrams -/

/-- What a datagram on the listening socket is, if it can be read: its front is cut off at the
largest datagram size, and it is for the connection that it names, or for the one with the empty
id. -/
def arrivalOf? (t : Transport .datagram) (datagram : Bytes) (peer : SocketAddress)
    (link : Socket.Link) : Option (Arrival .datagram) :=
  let received := datagram.take t.configuration.datagramBuffer
  if received.isEmpty then none
  else
    match Wire.Packet.parse received with
    | .error _ => none
    | .ok packet =>
      let socket := Socket.Datagram.create t.configuration.maxDatagramSize
        t.configuration.datagramChannelCapacity
      some {
        key := packet.destination?.getD .empty
        peer
        localAddress := t.listenAddress
        socket := { socket with link }
        payload := some received }

/-- A datagram arrives on the listening socket. -/
def receive (t : Transport .datagram) (datagram : Bytes) (peer : SocketAddress)
    (link : Socket.Link) : Transport .datagram :=
  match t.arrivalOf? datagram peer link with
  | some arrival => (t.arrive arrival).getD t
  | none => t

end Duplex.Transport
