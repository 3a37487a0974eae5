import Duplex.Pipe.Handle
import Duplex.Transport.Run

/-!
# A transport in scripted use

A transport on a network, its host, its dispatcher, and the application of every connection that
the dispatcher has kept. The tasks run, until none can move, during every action that waits for
something; the dispatcher answers as soon as it is asked. What the peers do is in
`Duplex.Transport.Clients`.
-/

namespace Duplex.Transport

open scoped Numbers

/-- What the dispatcher of a script does with a connection. -/
inductive Dispatching where
  | accept
  /-- Accepts, and drops the ends that it was given. -/
  | drop
  | refuse (reason : String)
  | panic (message : Option String)

/-- A connection that the dispatcher has kept, with the application's ends. -/
structure Kept where
  /-- The place of the connection among the transport's routes. -/
  route : Nat
  /-- The number of connections that the dispatcher saw in the table. -/
  connectionCount : Nat
  output : Pipe.WriterHandle := {}
  input : Pipe.ReaderHandle := {}

/-- A peer. -/
structure Client where
  name : String
  address : SocketAddress
  /-- The datagrams that have reached it and that it has not received. -/
  inbox : List Bytes := []

/-- A transport and everyone around it. -/
structure Session (C : Carrier) where
  transport : Transport C
  network : Network
  /-- How many bytes and events a socket holds for its connection. -/
  waiting : C.socket.State → Nat
  dispatching : Dispatching := .accept
  kept : List Kept := []
  /-- The peers that send datagrams. -/
  datagramClients : List Client := []
  /-- The peers that have connected. -/
  streamClients : List Client := []

/-- What is done with a connection that was kept. -/
inductive ConnectionAction where
  | output (action : Pipe.WriterAction)
  | input (action : Pipe.ReaderAction)
  /-- Reads chunks until there are so many bytes. -/
  | readExactly (count : Nat)
  | abort
  | shutdown
  | awaitClosed
  | awaitSent
  | inspect

/-- What the host does. -/
inductive Action where
  | bind
  | unbind
  | stop
  | setAddress (address : SocketAddress)
  /-- Another socket takes a port, and the endpoint is pointed at it. -/
  | occupy
  /-- The other socket is closed. -/
  | vacate
  | setDispatching (mode : Dispatching)
  /-- Counts the connections, once there are as many as expected or nothing moves. -/
  | count (expected : Nat)
  /-- Counts the requests to stop and the calls of the dispatcher. -/
  | stops
  | connection (index : Nat) (action : ConnectionAction)

/-- What an action answers. -/
inductive Reply where
  | done
  | bound (endpoint : Endpoint)
  | failed (error : TransportError)
  | connections (count : Nat)
  | stops (requests dispatched : Nat)
  | pipe (reply : Pipe.Reply)
  | closed (phase : Phase) (aborted : Bool)
  | sent (count : Nat)
  | inspected (phase : Phase) (aborted : Bool) (inbound outbound : Pipe)
  /-- The bytes that were read, and what ended the input before there were enough. -/
  | readExactly (data : Bytes) (ending : Option Pipe.Reply)
  /-- There is no connection of that number. -/
  | unavailable
  /-- Nobody listens for datagrams. -/
  | notListening
  /-- The datagram was empty. -/
  | empty
  /-- Whether the datagram could be read, and whether the accept loop is still running. -/
  | delivered (readable listening : Bool)
  | datagrams (received : List Bytes)
  | refused (error : IoError)
  | connected
  | received (data : Bytes)
  /-- The peer has seen the end of the stream. -/
  | ended
  /-- The peer waits for something that does not come. -/
  | stalled

namespace Session

/-- A bound on the steps of the tasks before they wait for someone else. -/
def workLeft (s : Session C) : Nat :=
  let work (r : Route C) : Nat :=
    64 + 16 * (s.waiting r.connection.socket + r.connection.outbound.buffered)
  64 + (s.transport.routes.map work).sum

/-- The dispatcher answers, if it was asked. -/
def dispatch (s : Session C) : Session C :=
  match s.transport.acceptor with
  | .dispatching route _ =>
    let t := s.transport
    let dropped := t.onConnection route (·.dropApplicationEnds)
    match s.dispatching with
    | .accept =>
      { s with
        transport := (t.answer .accept).getD t
        kept := s.kept ++ [{ route, connectionCount := t.connectionCount }] }
    | .drop => { s with transport := (dropped.answer .accept).getD t }
    | .refuse reason => { s with transport := (dropped.answer (.refuse reason)).getD t }
    | .panic message => { s with transport := (t.answer (.panic message)).getD t }
  | _ => s

/-- Runs the tasks until none can move and nobody is asked. -/
def run (s : Session C) : Session C :=
  let tasks (s : Session C) : Session C :=
    { s with transport := s.transport.settle s.workLeft }
  tasks (tasks s).dispatch

/-! ## The host -/

/-- What a call that unbinds answers. -/
def unbound (result : Option TransportError × Transport C) (s : Session C) : Reply × Session C :=
  let reply := match result.1 with
    | some error => .failed error
    | none => .done
  (reply, { s with transport := result.2 })

/-- Binds the transport. -/
def bind (s : Session C) : Reply × Session C :=
  match s.transport.bind s.network with
  | (.ok transport, network) => (.bound transport.endpoint, { s with transport, network })
  | (.error error, network) => (.failed error, { s with network })

/-- Another socket takes a port, in place of the one that had one before. -/
def occupy (s : Session C) : Session C :=
  let (port, network) := s.network.freePort
  let address := SocketAddress.ofPort port
  { s with
    network := { network with others := [address] }
    transport := { s.transport with endpoint := { s.transport.endpoint with address } } }

/-! ## The applications -/

/-- Changes a connection that was kept, and its application. -/
def onKept (s : Session C) (index : Nat)
    (f : Kept → Connection C.socket → Reply × Kept × Connection C.socket) : Reply × Session C :=
  match s.kept[index]? with
  | none => (.unavailable, s)
  | some kept =>
    match s.transport.routes[kept.route]? with
    | none => (.unavailable, s)
    | some r =>
      let (reply, kept, connection) := f kept r.connection
      (reply, { s with
        kept := s.kept.set index kept
        transport := s.transport.onConnection kept.route fun _ => connection })

/-- An action on the application's output. -/
def onOutput (s : Session C) (index : Nat) (action : Pipe.WriterAction) : Reply × Session C :=
  s.onKept index fun kept c =>
    let (reply, output, outbound) := kept.output.perform s.transport.pool action c.outbound
    (.pipe reply, { kept with output }, { c with outbound })

/-- An action on the application's input. -/
def onInput (s : Session C) (index : Nat) (action : Pipe.ReaderAction) : Reply × Session C :=
  s.onKept index fun kept c =>
    let (reply, input, inbound) := kept.input.perform action c.inbound
    (.pipe reply, { kept with input }, { c with inbound })

/-- Looks at the outstanding calls of an application. -/
def poll (s : Session C) (index : Nat) : Reply × Session C :=
  s.onKept index fun kept c =>
    let (flushed, output, outbound) := kept.output.poll c.outbound
    let (read, input, inbound) := kept.input.poll c.inbound
    (.pipe ((flushed.or read).getD .pending), { kept with output, input },
      { c with outbound, inbound })

/-- Waits for a call that could not end at once. -/
def await (s : Session C) (index : Nat) (reply : Reply) : Reply × Session C :=
  match reply with
  | .pipe .pending => s.run.poll index
  | _ => (reply, s)

/-- Reads chunks until there are `count` bytes more, in at most `chunks` chunks. -/
def readExactly (index : Nat) : (chunks count : Nat) → Bytes → Session C → Reply × Session C
  | 0, _, data, s => (.readExactly data none, s)
  | chunks + 1, count, data, s =>
    if count = 0 then (.readExactly data none, s)
    else
      let (reply, s) := s.onInput index (.readChunk false)
      let (reply, s) := s.run.await index reply
      match reply with
      | .pipe (.chunk (.ok (some chunk))) =>
        readExactly index chunks (count - chunk.length) (data ++ chunk) s
      | .pipe ending => (.readExactly data (some ending), s)
      | reply => (reply, s)

/-- Performs an action on a connection. -/
def performOn (s : Session C) (index : Nat) : ConnectionAction → Reply × Session C
  | .output action =>
    let (reply, s) := s.onOutput index action
    s.run.await index reply
  | .input action =>
    let (reply, s) := s.onInput index action
    s.run.await index reply
  | .readExactly count => readExactly index count count [] s
  | .abort => s.onKept index fun kept c => (.done, kept, c.abort)
  | .shutdown => s.onKept index fun kept c => (.done, kept, c.shutdown)
  | .awaitClosed => s.onKept index fun kept c =>
    (if c.closed then .closed c.phase c.aborted else .stalled, kept, c)
  | .awaitSent => s.onKept index fun kept c => (.sent c.bytesSent, kept, c)
  | .inspect => s.onKept index fun kept c =>
    (.inspected c.phase c.aborted c.inbound c.outbound, kept, c)

/-- Performs an action on a connection that was kept, and lets everything move. -/
def onConnection (s : Session C) (index : Nat) (action : ConnectionAction) : Reply × Session C :=
  if index < s.kept.length then
    let (reply, s) := s.performOn index action
    (reply, s.run)
  else (.unavailable, s)

/-- Performs an action of the host, or of an application. -/
def perform (s : Session C) : Action → Reply × Session C
  | .bind => s.bind
  | .unbind => unbound (s.transport.unbind s.workLeft) s
  | .stop => unbound (s.transport.stop s.workLeft) s
  | .setAddress address =>
    (.done, { s with transport := { s.transport with
      endpoint := { s.transport.endpoint with address } } })
  | .occupy => (.done, s.occupy)
  | .vacate => (.done, { s with network := { s.network with others := [] } })
  | .setDispatching dispatching => (.done, { s with dispatching })
  | .count expected =>
    let s := if s.transport.connectionCount = expected then s else s.run
    (.connections s.transport.connectionCount, s)
  | .stops =>
    let s := s.run
    (.stops s.transport.stopRequests s.transport.dispatched, s)
  | .connection index action => s.onConnection index action

end Session

end Duplex.Transport
