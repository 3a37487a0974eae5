import Duplex.Connection.Basic

/-!
# The send loop

The loop reads from the outbound pipe, lists the buffered segments, hands all of them to the
socket and releases them. It ends when a read is cut short, fails or reports that the application
has completed its output, or when a send fails. Before it is over it shuts the connection down.
-/

namespace Duplex.Connection

open scoped Numbers

/-- What a failure of the send loop means to the application. -/
def sendFailure (error : IoError) (aborted : Bool) : Option ConnectionError :=
  match error.kind with
  | .connectionAborted => none
  | .notConnected | .brokenPipe => if aborted then none else some (.io error)
  | _ => some (.io error)

/-- Where the send loop goes after a read, or after what a read found has been sent. -/
def nextRead (last : Bool) : Sender τ :=
  if last then .shuttingDown none else .reading .checking

/-- One step of the send loop, if it can move. -/
def stepSender (c : Connection S) : Option (Connection S) :=
  match c.sender with
  | .unborn | .finished _ => none
  | .reading call =>
    match c.outbound.read call with
    | (.pending, _) => none
    | (.again call, outbound) => some { c with outbound, sender := .reading call }
    | (.done (.error error), outbound) =>
      some { c with outbound, sender := .classifying error.toIoError }
    | (.done (.ok result), outbound) =>
      if result.canceled then some { c with outbound, sender := .shuttingDown none }
      else if result.isEmpty then some { c with outbound, sender := nextRead result.completed }
      else some { c with outbound, sender := .listing result.completed }
  | .listing last =>
    let regions := c.outbound.regions
    let length := (regions.map List.length).sum
    let (call, socket) := match regions with
      | [region] => S.send region c.socket
      | regions => S.sendVectored regions c.socket
    some { c with socket, sender := .sending call length last }
  | .sending call length last =>
    match S.pollSend call c.socket with
    | (.pending, _) => none
    | (.again call, socket) => some { c with socket, sender := .sending call length last }
    | (.done (.error error), socket) => some { c with socket, sender := .classifying error }
    | (.done (.ok sent), socket) => some { c with socket, sender := .counting sent length last }
  | .counting sent length last =>
    some { c with
      sentCounter := c.sentCounter + UInt64.ofNat sent
      sender := .consuming length last }
  | .consuming length last =>
    some { c with outbound := c.outbound.consume length, sender := nextRead last }
  | .classifying error =>
    some { c with sender := .shuttingDown (sendFailure error c.aborted) }
  | .shuttingDown error => some { c.shutdown with sender := .finished error }

end Duplex.Connection
