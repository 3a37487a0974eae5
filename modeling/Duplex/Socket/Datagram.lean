import Duplex.Socket.Basic

/-!
# Datagram sockets

Many connections share one datagram channel of the network. The socket of one of them receives
the datagrams that are offered to it, through a queue of bounded capacity, and sends to one peer,
in datagrams of bounded size.

A receive takes one datagram, or the rest of one that was partly read. Several receives may be
outstanding: they are served in the order in which they began (`Datagram.turns`). A send cuts its
region into datagrams (`cut`); it looks once, at its start, whether the socket was shut down, and
before each datagram whether the socket was disposed of.
-/

namespace Duplex.Socket

/-- What the network does with a datagram that is sent. -/
inductive Delivery where
  | taken
  /-- The send waits. -/
  | stalled
  | failed (error : IoError)

/-- What the network does with datagrams, by their length. -/
abbrev Link := (length : Nat) → Delivery

/-- The state of a datagram socket. -/
structure Datagram where
  /-- The largest datagram that is sent. -/
  maxSize : Nat
  /-- How many datagrams may wait to be received. -/
  capacity : Nat
  /-- The datagrams that wait to be received. -/
  queue : List Bytes := []
  /-- Whether more datagrams can come. -/
  fed : Bool := true
  /-- The rest of the datagram that was last received in part. -/
  remainder : Option Bytes := none
  /-- The receives that wait for their turn, by ticket; the first has it. -/
  turns : List Nat := []
  /-- The ticket of the next receive. -/
  nextTicket : Nat := 0
  /-- Shut down, or disposed of. -/
  closed : Bool := false
  disposed : Bool := false
  link : Link := fun _ => .taken
  /-- The datagrams that the network has taken, oldest first. -/
  emitted : List Bytes := []

namespace Datagram

/-- A socket with a queue of that capacity; neither the capacity nor the size of a datagram is
less than 1. -/
def create (maxSize capacity : Nat) : Datagram where
  maxSize := max maxSize 1
  capacity := max capacity 1

/-! ## Offering -/

/-- What became of an offered datagram. -/
inductive Offer where
  | accepted
  /-- The queue was full and the datagram is lost. -/
  | full
deriving DecidableEq

/-- Offers a datagram. -/
def offer (datagram : Bytes) (s : Datagram) : Offer × Datagram :=
  if s.queue.length < s.capacity then (.accepted, { s with queue := s.queue ++ [datagram] })
  else (.full, s)

/-! ## Receiving -/

/-- An unfinished receive into `room` bytes. -/
inductive Receive where
  /-- About to look whether the socket is disposed of. -/
  | entering (room : Nat)
  /-- Waiting for its turn, or at its turn for a datagram. -/
  | queued (ticket room : Nat)

/-- Gives up the turn of a receive. -/
def leave (ticket : Nat) (s : Datagram) : Datagram :=
  { s with turns := s.turns.filter (· != ticket) }

/-- Gives an unfinished receive up. Whatever it might have received stays. -/
def abandonReceive (call : Receive) (s : Datagram) : Datagram :=
  match call with
  | .entering _ => s
  | .queued ticket _ => s.leave ticket

/-- Hands the front of a datagram out and keeps the rest. -/
def serve (room : Nat) (datagram : Bytes) (s : Datagram) : Bytes × Datagram :=
  let rest := datagram.drop room
  (datagram.take room, { s with remainder := if rest.isEmpty then none else some rest })

/-- What a receive finds at its turn, unless it has to wait. -/
def take (room : Nat) (s : Datagram) : Option (Except IoError Bytes × Datagram) :=
  match s.remainder with
  | some rest =>
    let (received, s) := s.serve room rest
    some (.ok received, s)
  | none =>
    if s.disposed then some (.error .socketDisposed, s)
    else if s.closed then some (.ok [], s)
    else
      match s.queue with
      | datagram :: queue =>
        let (received, s) := { s with queue }.serve room datagram
        some (.ok received, s)
      | [] => if s.fed then none else some (.ok [], s)

/-- One look at a receive. -/
def pollReceive (call : Receive) (s : Datagram) :
    Progress Receive (Except IoError Bytes) × Datagram :=
  match call with
  | .entering room =>
    if s.disposed then (.done (.error .socketDisposed), s)
    else
      (.again (.queued s.nextTicket room),
        { s with turns := s.turns ++ [s.nextTicket], nextTicket := s.nextTicket + 1 })
  | .queued ticket room =>
    if s.turns.head? = some ticket then
      match s.take room with
      | some (result, s) => (.done result, s.leave ticket)
      | none => (.pending, s)
    else (.pending, s)

/-! ## Sending -/

/-- A byte string cut into pieces of `size` bytes, the last of which may be shorter. -/
def cut (size : Nat) (bs : Bytes) : List Bytes :=
  if size = 0 ∨ bs = [] then []
  else bs.take size :: cut size (bs.drop size)
termination_by bs.length
decreasing_by
  have : 0 < bs.length := List.length_pos_iff.2 (by simp_all)
  simp only [List.length_drop]
  omega

/-- An unfinished send of one region. -/
inductive Send where
  /-- About to look whether the socket is shut down. -/
  | entering (region : Bytes)
  /-- The datagrams still to be sent, out of a region of `length` bytes. -/
  | emitting (waiting : List Bytes) (length : Nat)

/-- One look at a send of one region. -/
def pollOne (call : Send) (s : Datagram) : Progress Send (Except IoError Nat) × Datagram :=
  match call with
  | .entering region =>
    if s.closed then (.done (.error .socketShutDown), s)
    else (.again (.emitting (cut s.maxSize region) region.length), s)
  | .emitting [] length => (.done (.ok length), s)
  | .emitting (datagram :: waiting) length =>
    if s.disposed then (.done (.error .socketDisposed), s)
    else
      match s.link datagram.length with
      | .taken => (.again (.emitting waiting length), { s with emitted := s.emitted ++ [datagram] })
      | .stalled => (.pending, s)
      | .failed error => (.done (.error error), s)

/-- Begins a send of regions, one after the other. -/
def send (regions : List Bytes) (s : Datagram) : SendEach Send × Datagram :=
  ({ waiting := regions }, s)

/-- One look at a send. -/
def pollSend (call : SendEach Send) (s : Datagram) :
    Progress (SendEach Send) (Except IoError Nat) × Datagram :=
  call.poll (fun region s => (.entering region, s)) pollOne s

/-! ## Ending -/

/-- From now on receives yield nothing and sends fail. -/
def shutdown (s : Datagram) : Except IoError Unit × Datagram :=
  (.ok (), { s with closed := true })

/-- From now on receives and sends fail. -/
def dispose (s : Datagram) : Datagram :=
  { s with closed := true, disposed := true }

end Datagram

/-- The datagram socket. -/
def datagram : Socket where
  State := Datagram
  Receive := Datagram.Receive
  Send := SendEach Datagram.Send
  receive room s := (.entering room, s)
  pollReceive := Datagram.pollReceive
  send region s := Datagram.send [region] s
  sendVectored := Datagram.send
  pollSend := Datagram.pollSend
  shutdown := Datagram.shutdown
  dispose := Datagram.dispose

end Duplex.Socket
