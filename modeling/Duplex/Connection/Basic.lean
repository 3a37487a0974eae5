import Duplex.ConnectionId
import Duplex.Pipe.Call
import Duplex.Socket.Basic
import Duplex.SocketAddress

/-!
# Connections

A connection moves bytes between a socket and an application through two pipes. The receive loop
writes what the socket receives to the inbound pipe, the send loop sends what the application
wrote to the outbound pipe, and the driver waits until one loop ends, makes the other end and lets
go of the socket. A last task fires the closed signal.

Each of them is a task of its own: its place in its code is a value (`Receiver`, `Sender`,
`Driver`, `Closer`), and each step takes one task over one atomic access. The application, and
whoever else holds the connection, act between the steps.
-/

namespace Duplex

/-- The life of a connection. -/
inductive Phase where
  | created
  | active
  /-- One of the loops has ended. -/
  | draining
  | closed
deriving DecidableEq

/-- The name of a phase. -/
def Phase.name : Phase → String
  | created => "Created"
  | active => "Active"
  | draining => "Draining"
  | closed => "Closed"

/-- Where the call that starts a connection stands. -/
inductive Starter where
  /-- Not started: the connection holds the ends of both pipes. -/
  | waiting
  /-- The application's ends are with the dispatcher, which has not answered. -/
  | dispatching
  /-- The dispatcher accepted; the driver is about to be spawned. -/
  | spawning
  /-- The dispatcher refused; the socket is about to be taken and disposed of. -/
  | releasing (reason : String)
  | closing (reason : String)
  | signalling (reason : String)
  /-- About to drop the ends that the loops would have had. -/
  | returning (reason : String)
  /-- The call has returned. -/
  | over (refusal : Option String)
  /-- The dispatcher panicked, and the call has ended without an answer. -/
  | panicked
deriving DecidableEq

/-- Where the receive loop stands. -/
inductive Receiver (ρ : Type) where
  /-- Not spawned. -/
  | unborn
  /-- About to ask for a region and begin a receive into it. -/
  | staging
  | receiving (call : ρ)
  /-- The socket has filled that many bytes of the region. -/
  | committing (count : Nat)
  | flushing (call : Pipe.Await)
  /-- Failed, and about to look whether the connection was aborted to tell what that means. -/
  | classifying (error : IoError)
  /-- Ended, and about to look whether the connection was aborted if there is no error. -/
  | confirming (error : Option ConnectionError)
  /-- About to complete the inbound pipe. -/
  | completing (error : Option ConnectionError)
  | finished

/-- Where the send loop stands. -/
inductive Sender (τ : Type) where
  /-- Not spawned. -/
  | unborn
  | reading (call : Pipe.Await)
  /-- A read has found bytes; the segments are about to be listed. -/
  | listing (last : Bool)
  /-- A send of `length` bytes is in flight; `last` tells whether the read reported completion. -/
  | sending (call : τ) (length : Nat) (last : Bool)
  /-- About to add what the socket sent to the total. -/
  | counting (sent length : Nat) (last : Bool)
  /-- About to release the bytes that were sent. -/
  | consuming (length : Nat) (last : Bool)
  /-- Failed, and about to look whether the connection was aborted to tell what that means. -/
  | classifying (error : IoError)
  /-- About to shut the socket down. -/
  | shuttingDown (error : Option ConnectionError)
  | finished (error : Option ConnectionError)

/-- Where the driver stands. -/
inductive Driver where
  /-- Not spawned. -/
  | unborn
  /-- About to take a reference to the socket and to spawn both loops. -/
  | launching
  /-- Waiting until one of the loops has ended. -/
  | watching
  /-- About to dispose of the socket. -/
  | disposing
  /-- About to cancel the read of the send loop. -/
  | canceling
  /-- Waiting until both loops have ended. -/
  | joining
  /-- About to complete the outbound pipe. -/
  | completing (error : Option ConnectionError)
  /-- About to let go of the socket. -/
  | releasing
  /-- About to enter the last phase. -/
  | closing
  /-- About to spawn the task that fires the closed signal. -/
  | announcing
  | done
deriving DecidableEq

/-- Where the task stands that fires the closed signal. -/
inductive Closer where
  | unborn
  | armed
  | done
deriving DecidableEq

/-- A connection over a socket. -/
structure Connection (S : Socket) where
  id : ConnectionId
  localAddress : SocketAddress
  remoteAddress : SocketAddress
  queueIndex : Nat
  /-- The least buffer that is offered to a receive. -/
  minimumReceive : Nat
  inbound : Pipe
  outbound : Pipe
  socket : S.State
  /-- Whether the connection still has its socket. -/
  socketHeld : Bool := true
  phase : Phase := .created
  /-- Whether someone has shut the connection down. -/
  aborted : Bool := false
  /-- Whether the closed signal has fired. -/
  closed : Bool := false
  /-- The sum of what the socket said it sent, in a counter of 64 bits that wraps. -/
  sentCounter : UInt64 := 0
  starter : Starter := .waiting
  receiver : Receiver S.Receive := .unborn
  sender : Sender S.Send := .unborn
  driver : Driver := .unborn
  closer : Closer := .unborn

namespace Connection

/-- A connection that has not been started. -/
def create (S : Socket) (id : ConnectionId) (localAddress remoteAddress : SocketAddress)
    (queueIndex minimumReceive : Nat) (options : PipeOptions) (socket : S.State) :
    Connection S :=
  { id, localAddress, remoteAddress, queueIndex, minimumReceive, socket
    inbound := .create options
    outbound := .create options }

/-- How many bytes were sent in all, as far as the counter tells. -/
def bytesSent (c : Connection S) : Nat := c.sentCounter.toNat

/-- The connection on one line, for logs. -/
def describe (c : Connection S) : String :=
  "QuicConnection \x7b connection_id: " ++ c.id.text
    ++ ", local_addr: " ++ c.localAddress.text
    ++ ", remote_addr: " ++ c.remoteAddress.text
    ++ s!", queue_index: {c.queueIndex}, state: {c.phase.name} "
    ++ "\x7d"

/-- Shuts the socket down, unless someone has done so before. A failure is ignored. -/
def shutdown (c : Connection S) : Connection S :=
  if c.aborted then c
  else
    { c with
      aborted := true
      socket := if c.socketHeld then (S.shutdown c.socket).2 else c.socket }

/-- Cuts the read of the send loop short. -/
def cancelOutput (c : Connection S) : Connection S :=
  { c with outbound := c.outbound.cancelPendingRead }

/-- Shuts the socket down and stops the send loop from waiting for output. -/
def abort (c : Connection S) : Connection S := c.shutdown.cancelOutput

/-- Fires the closed signal. The result says whether it had not fired before. -/
def fireClosed (c : Connection S) : Bool × Connection S :=
  (!c.closed, { c with closed := true })

end Connection

end Duplex
