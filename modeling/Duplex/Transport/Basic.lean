import Duplex.BufferPool
import Duplex.Configuration
import Duplex.Connection.Drive
import Duplex.QueuePool
import Duplex.RoutingTable
import Duplex.Socket.Datagram
import Duplex.Socket.Stream
import Duplex.Transport.Error

/-!
# Transports

A transport listens at an endpoint, routes what arrives to connections and starts a connection
for every id that it does not know. The accept loop does this; a supervisor waits until the loop
has ended and reports a failure, once, to the host and to the next caller that unbinds.

As in a connection, every task has a place in its code (`Acceptor`, `Supervisor`, `Unbinder`,
`Removal`) and every step takes one task over one atomic access. Traffic, the answers of the
dispatcher and the calls of the host happen between the steps.
-/

namespace Duplex

/-- The kind of connection that a transport makes. -/
structure Carrier where
  socket : Socket
  /-- Offers a datagram to the socket of a connection. -/
  offer : Bytes → socket.State → socket.State
  /-- No more datagrams will be offered. -/
  endFeed : socket.State → socket.State
  /-- The length of the buffer that the accept loop receives into. -/
  receiveBuffer : Configuration → Nat

namespace Carrier

/-- Connections that share the datagram channel of the listener. -/
def datagram : Carrier where
  socket := Socket.datagram
  offer bytes s := (Socket.Datagram.offer bytes s).2
  endFeed := fun (s : Socket.Datagram) => { s with fed := false }
  receiveBuffer := Configuration.datagramBuffer

/-- Connections that each have an accepted stream. -/
def stream (K : Socket.Kernel) : Carrier where
  socket := Socket.stream K
  offer _ s := s
  endFeed s := s
  receiveBuffer _ := 0

end Carrier

/-- What has arrived for a connection: a datagram, or a new stream. -/
structure Arrival (C : Carrier) where
  /-- The connection that it is for. -/
  key : ConnectionId
  peer : SocketAddress
  /-- The local address of the connection, if it is new. -/
  localAddress : SocketAddress
  /-- The socket of the connection, if it is new. -/
  socket : C.socket.State
  /-- The datagram, which is offered to the connection, new or not. -/
  payload : Option Bytes

/-- Where the task stands that takes a closed connection out of the routing table. -/
inductive Removal where
  /-- Not spawned: the connection was not started. -/
  | unborn
  /-- Waiting for the closed signal. -/
  | waiting
  | done
deriving DecidableEq

/-- A connection that the transport has made. -/
structure Route (C : Carrier) where
  connection : Connection C.socket
  removal : Removal := .unborn

/-- Where the accept loop stands. A route is named by its place among the transport's routes. -/
inductive Acceptor (C : Carrier) where
  | unborn
  /-- About to make the buffer that it receives into. -/
  | opening
  /-- Waiting for traffic, or for the signal to end. -/
  | waiting
  /-- About to look the connection up. -/
  | routing (arrival : Arrival C)
  /-- The connection was not known; about to look once more and to insert it. -/
  | claiming (arrival : Arrival C)
  /-- The connection was inserted and is about to be started. -/
  | starting (route : Nat) (payload : Option Bytes)
  /-- The dispatcher has the connection and has not answered. -/
  | dispatching (route : Nat) (payload : Option Bytes)
  /-- The dispatcher has answered, and the start of the connection goes on. -/
  | concluding (route : Nat) (payload : Option Bytes)
  /-- About to take the connection out, because it was refused. -/
  | withdrawing (route : Nat) (error : TransportError)
  /-- About to offer the datagram to the connection. -/
  | offering (route : Nat) (payload : Option Bytes)
  | ended (failure : Option TransportError)

/-- Where the supervisor of the accept loop stands. -/
inductive Supervisor where
  | unborn
  /-- Waiting until the accept loop has ended. -/
  | watching
  /-- About to keep the failure for the next caller that unbinds. -/
  | keeping (error : TransportError)
  /-- About to tell the host to stop. -/
  | stopping
  | done
deriving DecidableEq

/-- Where the call stands that unbinds; `stopping` tells whether it goes on to stop. -/
inductive Unbinder where
  | idle
  /-- The listener was taken; about to note that unbinding is in progress. -/
  | marking (stopping : Bool)
  /-- About to signal the accept loop to end. -/
  | signalling (stopping : Bool)
  /-- Waiting until the supervisor has ended. -/
  | joining (stopping : Bool)
  /-- About to note that unbinding is over. -/
  | unmarking (stopping : Bool)
  /-- About to take the failure that was kept. -/
  | collecting (stopping : Bool)
  /-- Unbound; about to list the connections in the routing table. -/
  | listing (failure : Option TransportError)
  /-- About to abort the connections of these routes. -/
  | aborting (routes : List Nat) (failure : Option TransportError)
  /-- About to dispose of the buffer pool. -/
  | disposing (failure : Option TransportError)
  | returned (failure : Option TransportError)
deriving DecidableEq

/-- A transport. -/
structure Transport (C : Carrier) where
  configuration : Configuration
  endpoint : Endpoint
  queues : QueuePool
  pool : BufferPool := { blockSize := BufferPool.defaultBlockSize }
  table : RoutingTable Unit := {}
  /-- Every connection made so far, oldest first. An entry of the table has the place of its
  route as its identity. -/
  routes : List (Route C) := []
  /-- Whether a listener is installed. -/
  installed : Bool := false
  /-- The address that the listening socket of the accept loop is bound to. -/
  listenAddress : SocketAddress := endpoint.address
  /-- Whether the accept loop was signalled to end. -/
  signalled : Bool := false
  /-- Whether unbinding is in progress. -/
  unbinding : Bool := false
  /-- The failure of an accept loop that no caller was told of. -/
  fatal : Option TransportError := none
  acceptor : Acceptor C := .unborn
  supervisor : Supervisor := .unborn
  unbinder : Unbinder := .idle
  /-- How often the dispatcher was called. -/
  dispatched : Nat := 0
  /-- How often the host was told to stop. -/
  stopRequests : Nat := 0

namespace Transport

/-- A transport that is not bound. -/
def create (C : Carrier) (configuration : Configuration) (endpoint : Endpoint) : Transport C where
  configuration
  endpoint
  queues := QueuePool.create configuration.queueCount configuration.inlineQueues

/-- The number of connections in the routing table. -/
def connectionCount (t : Transport C) : Nat := t.table.size

/-- Changes a connection. -/
def onConnection (t : Transport C) (route : Nat)
    (f : Connection C.socket → Connection C.socket) : Transport C :=
  { t with routes := t.routes.modify route fun r => { r with connection := f r.connection } }

/-- Changes the socket of a connection, if the connection still has it. -/
def onSocket (t : Transport C) (route : Nat) (f : C.socket.State → C.socket.State) :
    Transport C :=
  t.onConnection route fun c => if c.socketHeld then { c with socket := f c.socket } else c

/-- Whether the accept loop holds the listening socket. -/
def isListening (t : Transport C) : Bool :=
  match t.acceptor with
  | .unborn | .ended _ => false
  | _ => true

/-- The addresses that sockets of the transport are bound to. The listening socket is open while
the accept loop runs. The socket of a connection stays on the address on which it arrived until
the connection lets go of it. -/
def openAddresses (t : Transport C) : List SocketAddress :=
  let connected := (t.routes.filter (·.connection.socketHeld)).map (·.connection.localAddress)
  if t.isListening then t.listenAddress :: connected else connected

end Transport

end Duplex
