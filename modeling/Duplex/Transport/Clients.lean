import Duplex.Socket.Loopback
import Duplex.Transport.Session

/-!
# The peers of a transport in scripted use

Named clients on the same network send datagrams to the transport, or connect to it. A client of
datagrams comes into being when it first sends, whether anybody listens or not; a client of
streams, when it connects.

A step of a client may be impossible (`Obstacle`): its network carries nothing, or there is no
such client.
-/

namespace Duplex

open scoped Numbers

/-- Connections that each have a stream in memory. -/
abbrev Carrier.loopback : Carrier := .stream Socket.Loopback.kernel

namespace Transport

/-- What a client does. -/
inductive ClientAction where
  | sendDatagram (data : Bytes)
  /-- Receives datagrams until they hold so many bytes. -/
  | receiveDatagrams (count : Nat)
  | connect
  | send (data : Bytes)
  | receive (count : Nat)
  /-- Waits for the end of what it receives. -/
  | awaitEnd
  /-- Ends its direction. -/
  | finish
  | reset

/-- Why a step of a client is impossible. -/
inductive Obstacle where
  | network (error : IoError)
  | noSuchClient

namespace Session

/-- A session at the start of a script. -/
def start {C : Carrier} (configuration : Configuration) (endpoint : Endpoint) (network : Network)
    (waiting : C.socket.State → Nat) : Session C where
  transport := .create C configuration endpoint
  network
  waiting

/-- The address of a new client. -/
def newAddress (s : Session C) : SocketAddress × Session C :=
  let (port, network) := s.network.freePort
  (.ofPort port, { s with network })

/-- The client at an address. -/
def clientAt? (s : Session C) (address : SocketAddress) : Option Client :=
  (s.datagramClients ++ s.streamClients).find? (·.address == address)

/-! ## Clients of datagrams -/

/-- A transport that takes datagrams. -/
def startDatagram (configuration : Configuration) (endpoint : Endpoint) (network : Network) :
    Session .datagram :=
  start configuration endpoint network fun (s : Socket.Datagram) =>
    ((s.queue ++ s.remainder.toList).map (·.length + 1)).sum

/-- Hands what the transport has sent to the clients. -/
def deliver (s : Session .datagram) : Session .datagram :=
  let sent (client : Client) : List Bytes :=
    (s.transport.routes.filter (·.connection.remoteAddress == client.address)).flatMap fun r =>
      let socket : Socket.Datagram := r.connection.socket
      socket.emitted
  let emptied (r : Route .datagram) : Route .datagram :=
    let socket : Socket.Datagram := r.connection.socket
    { r with connection := { r.connection with socket := { socket with emitted := [] } } }
  { s with
    datagramClients := s.datagramClients.map fun c => { c with inbox := c.inbox ++ sent c }
    transport := { s.transport with routes := s.transport.routes.map emptied } }

/-- The client of datagrams of that name, a new one if there is none. -/
def datagramSender (s : Session C) (name : String) : Client × Session C :=
  match s.datagramClients.find? (·.name == name) with
  | some client => (client, s)
  | none =>
    let (address, s) := s.newAddress
    let client : Client := { name, address }
    (client, { s with datagramClients := client :: s.datagramClients })

/-- A client sends a datagram. What the transport makes of it is up to `receive`, which also tells
whether the datagram can be read. -/
def sendDatagram (receive : Bytes → SocketAddress → Session C → Bool × Session C)
    (s : Session C) (name : String) (data : Bytes) : Except Obstacle Reply × Session C :=
  let (client, s) := s.datagramSender name
  if !s.transport.isListening then (.ok .notListening, s)
  else
    match s.network.carryDatagram data.length with
    | .error error => (.error (.network error), s)
    | .ok () =>
      let (readable, s) := receive data client.address s.run
      let s := s.run
      (.ok (if data.isEmpty then .empty else .delivered readable s.transport.isListening), s)

/-- The transport receives a datagram. -/
def receiveDatagram (data : Bytes) (peer : SocketAddress) (s : Session .datagram) :
    Bool × Session .datagram :=
  let link := s.network.link
  ((s.transport.arrivalOf? data peer link).isSome,
    { s with transport := s.transport.receive data peer link })

/-- The front datagrams that hold `count` bytes together, and the rest. -/
def splitDatagrams : (count : Nat) → List Bytes → List Bytes × List Bytes
  | _, [] => ([], [])
  | 0, datagrams => ([], datagrams)
  | count, datagram :: datagrams =>
    let (front, rest) := splitDatagrams (count - datagram.length) datagrams
    (datagram :: front, rest)

/-- A client receives datagrams. -/
def receiveDatagrams (s : Session C) (name : String) (count : Nat) :
    Except Obstacle Reply × Session C :=
  match s.datagramClients.find? (·.name == name) with
  | none => (.error .noSuchClient, s)
  | some client =>
    let (received, inbox) := splitDatagrams count client.inbox
    let datagramClients :=
      s.datagramClients.map fun c => if c.name == name then { c with inbox } else c
    (.ok (.datagrams received), { s with datagramClients })

/-- What a client does to a transport that takes datagrams. Nobody listens for streams. -/
def datagramClient (s : Session .datagram) (name : String) :
    ClientAction → Except Obstacle Reply × Session .datagram
  | .sendDatagram data =>
    let (reply, s) := s.sendDatagram receiveDatagram name data
    (reply, s.deliver)
  | .receiveDatagrams count => s.deliver.receiveDatagrams name count
  | .connect =>
    match s.network.carry with
    | .error error => (.ok (.refused error), s)
    | .ok () => (.ok (.refused .connectionRefused), s)
  | _ => (.error .noSuchClient, s)

/-! ## Clients of streams -/

/-- The stream that a socket works on. -/
def streamOf (s : Socket.Stream.State Socket.Loopback.kernel) : Socket.Loopback := s.kernel

/-- A transport that takes streams. -/
def startStream (configuration : Configuration) (endpoint : Endpoint) (network : Network) :
    Session .loopback :=
  start configuration endpoint network fun s => (streamOf s).arriving.length + 1

/-- The connection of a client. -/
def routeOf? (s : Session .loopback) (client : Client) : Option Nat :=
  s.transport.routes.findIdx? (·.connection.remoteAddress == client.address)

/-- A client connects. -/
def connect (s : Session .loopback) (name : String) : Reply × Session .loopback :=
  match s.network.carry with
  | .error error => (.refused error, s)
  | .ok () =>
    if !s.transport.isListening then (.refused .connectionRefused, s)
    else
      let s := s.run
      let (address, s) := s.newAddress
      let client : Client := { name, address }
      let stream : Socket.Loopback := {}
      let arrival : Arrival .loopback := {
        key := .random 8 fun i => UInt8.ofNat (address.port / 256 ^ i)
        peer := address
        localAddress := s.transport.listenAddress.asSeenLocally
        socket := { kernel := stream }
        payload := none }
      let s := { s with
        streamClients := client :: s.streamClients.filter (·.name != name)
        transport := (s.transport.arrive arrival).getD s.transport }
      (.connected, s.run)

/-- Changes the stream of a client, or looks at it. -/
def onStream (s : Session .loopback) (name : String)
    (f : Socket.Loopback → Reply × Socket.Loopback) :
    Except Obstacle Reply × Session .loopback :=
  match (s.streamClients.find? (·.name == name)).bind s.routeOf? with
  | none => (.error .noSuchClient, s)
  | some route =>
    match s.transport.routes[route]? with
    | none => (.error .noSuchClient, s)
    | some r =>
      let (reply, stream) := f (streamOf r.connection.socket)
      let transport := s.transport.onConnection route fun c =>
        { c with socket := { c.socket with kernel := stream } }
      (.ok reply, { s with transport }.run)

/-- What a client does to a transport that takes streams. Nobody listens for datagrams. -/
def streamClient (s : Session .loopback) (name : String) :
    ClientAction → Except Obstacle Reply × Session .loopback
  | .sendDatagram data =>
    s.sendDatagram (fun data _ s => ((Wire.Packet.parse data).isOk, s)) name data
  | .receiveDatagrams count => s.receiveDatagrams name count
  | .connect =>
    let (reply, s) := s.connect name
    (.ok reply, s)
  | .send data => s.onStream name fun t => (.done, t.peerSend data)
  | .receive count => s.onStream name fun t =>
    let (data, t) := t.peerTake count
    (.received data, t)
  | .awaitEnd => s.onStream name fun t => (if t.ended then .ended else .stalled, t)
  | .finish => s.onStream name fun t => (.done, t.peerEnd)
  | .reset => s.onStream name fun t => (.done, t.peerReset)

end Session

end Transport

end Duplex
