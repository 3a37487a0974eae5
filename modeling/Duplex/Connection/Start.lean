import Duplex.Connection.Basic
import Duplex.Transport.Error

/-!
# Starting a connection

A start takes the ends of both pipes, hands the application's ends to the dispatcher and, if the
dispatcher accepts, spawns the driver. If it refuses, the connection is closed on the spot. Only
the first start gets past the check (`Connection.beginStart`).
-/

namespace Duplex.Connection

/-- Takes the ends of the pipes; only one start ever does. -/
def beginStart (c : Connection S) : Except TransportError (Connection S) :=
  match c.starter with
  | .waiting => .ok { c with starter := .dispatching }
  | _ => .error .alreadyStarted

/-- The dispatcher accepts. -/
def accept (c : Connection S) : Connection S :=
  match c.starter with
  | .dispatching => { c with phase := .active, starter := .spawning }
  | _ => c

/-- The dispatcher refuses. -/
def refuse (c : Connection S) (reason : String) : Connection S :=
  match c.starter with
  | .dispatching => { c with starter := .releasing reason }
  | _ => c

/-- The ends that the loops would have had are dropped. -/
def dropLoopEnds (c : Connection S) : Connection S :=
  { c with
    inbound := c.inbound.completeWriter none
    outbound := c.outbound.completeReader none }

/-- The application's ends are dropped. -/
def dropApplicationEnds (c : Connection S) : Connection S :=
  { c with
    inbound := c.inbound.completeReader none
    outbound := c.outbound.completeWriter none }

/-- The dispatcher panics: every end that was taken is dropped on the way out, and nothing else
is done. -/
def panicStart (c : Connection S) : Connection S :=
  match c.starter with
  | .dispatching => { c.dropApplicationEnds.dropLoopEnds with starter := .panicked }
  | _ => c

/-- One step of the start after the dispatcher has answered. -/
def stepStarter (c : Connection S) : Option (Connection S) :=
  match c.starter with
  | .spawning => some { c with driver := .launching, starter := .over none }
  | .releasing reason =>
    some { c with
      socket := if c.socketHeld then S.dispose c.socket else c.socket
      socketHeld := false
      starter := .closing reason }
  | .closing reason => some { c with phase := .closed, starter := .signalling reason }
  | .signalling reason => some { c with closed := true, starter := .returning reason }
  | .returning reason => some { c.dropLoopEnds with starter := .over (some reason) }
  | .waiting | .dispatching | .over _ | .panicked => none

/-- The rest of a start that is not interrupted: the most steps that a start takes after the
dispatcher has answered is four. -/
def finishStart (c : Connection S) : Connection S :=
  let step (c : Connection S) := c.stepStarter.getD c
  step (step (step (step c)))

end Duplex.Connection
