import Duplex.Connection.Basic

/-!
# The receive loop

The loop asks the inbound pipe for a region, receives into it, commits what was received and
flushes. It ends when a receive fails or yields nothing, or when a flush fails or reports that
the application is gone. How it ended becomes the error with which the inbound pipe is completed
(`receiveFailure`): an end without an error is one only if nobody has aborted the connection.

A loop that asks for a region for which the pool has no memory panics (`starves`, `starve`).
-/

namespace Duplex.Connection

/-- What a failure of the receive loop means to the application. Giving up the connection is the
cause of some failures, and then there is no error to report yet. -/
def receiveFailure (error : IoError) (aborted : Bool) : Option ConnectionError :=
  match error.kind with
  | .connectionReset => some (.reset error)
  | .connectionAborted | .invalidInput | .interrupted =>
    if aborted then none else some (.aborted error.message)
  | _ => some (.io error)

/-- One step of the receive loop, if it can move. -/
def stepReceiver (pool : BufferPool) (c : Connection S) : Option (Connection S) :=
  match c.receiver with
  | .unborn | .finished => none
  | .staging =>
    let inbound := c.inbound.getMemory pool c.minimumReceive
    let (call, socket) := S.receive inbound.region.length c.socket
    some { c with inbound, socket, receiver := .receiving call }
  | .receiving call =>
    match S.pollReceive call c.socket with
    | (.pending, _) => none
    | (.again call, socket) => some { c with socket, receiver := .receiving call }
    | (.done (.error error), socket) => some { c with socket, receiver := .classifying error }
    | (.done (.ok received), socket) =>
      if received.isEmpty then some { c with socket, receiver := .confirming none }
      else
        some { c with
          socket
          inbound := c.inbound.fill 0 received
          receiver := .committing received.length }
  | .committing count =>
    some { c with inbound := c.inbound.advance count, receiver := .flushing .checking }
  | .flushing call =>
    match c.inbound.flush call with
    | (.pending, _) => none
    | (.again call, inbound) => some { c with inbound, receiver := .flushing call }
    | (.done (.error error), inbound) =>
      some { c with inbound, receiver := .classifying error.toIoError }
    | (.done (.ok result), inbound) =>
      some { c with inbound, receiver := if result.completed then .confirming none else .staging }
  | .classifying error =>
    some { c with receiver := .confirming (receiveFailure error c.aborted) }
  | .confirming (some error) => some { c with receiver := .completing (some error) }
  | .confirming none =>
    some { c with
      receiver := .completing (if c.aborted then some .abortedLocally else none) }
  | .completing error =>
    some { c with inbound := c.inbound.completeWriter error, receiver := .finished }

/-- The pool has no memory for the region that the receive loop is about to ask for. -/
def starves (pool : BufferPool) (c : Connection S) : Bool :=
  match c.receiver with
  | .staging => (c.inbound.getMemory? pool c.minimumReceive).isNone
  | _ => false

/-- The receive loop panics, which drops its end of the inbound pipe. -/
def starve (c : Connection S) : Connection S :=
  { c with inbound := c.inbound.completeWriter none, receiver := .finished }

end Duplex.Connection
