import Duplex.Network
import Duplex.Transport.Accept

/-!
# Binding and unbinding

`Transport.bind` opens the listening socket and installs a listener: the accept loop and its
supervisor. Unbinding takes the listener out, signals the accept loop to end, waits for the
supervisor and returns the failure that was kept, if there is one; stopping goes on and aborts
every connection in the routing table and disposes of the buffer pool.

A bind, an unbind or a stop waits until an unbinding in progress has returned.
-/

namespace Duplex.Transport

/-- Whether an unbinding is in progress. -/
def isUnbinding (t : Transport C) : Bool :=
  match t.unbinder with
  | .idle | .returned _ => false
  | _ => true

/-- Binds the listening socket and starts the accept loop. A port that the network chose is
written back to the endpoint. -/
def bind (t : Transport C) (n : Network) : Except TransportError (Transport C) × Network :=
  if t.installed then (.error .alreadyBound, n)
  else
    let address := t.endpoint.address
    match n.bind t.configuration.mode address t.openAddresses with
    | (.error source, n) =>
      let error := if source.kind = .addrInUse then .addressInUse address source else .io source
      (.error error, n)
    | (.ok bound, n) =>
      let endpoint := if address.port = 0 then { t.endpoint with address := bound } else t.endpoint
      (.ok { t with
        endpoint
        installed := true
        listenAddress := bound
        signalled := false
        acceptor := .opening
        supervisor := .watching }, n)

/-- Begins an unbind, or a stop. -/
def beginUnbind (t : Transport C) (stopping : Bool) : Transport C :=
  if t.installed then { t with installed := false, unbinder := .marking stopping }
  else if stopping then { t with unbinder := .listing none }
  else { t with unbinder := .returned none }

/-- One step of the call that unbinds, if it can move. -/
def stepUnbinder (t : Transport C) : Option (Transport C) :=
  match t.unbinder with
  | .idle | .returned _ => none
  | .marking stopping => some { t with unbinding := true, unbinder := .signalling stopping }
  | .signalling stopping => some { t with signalled := true, unbinder := .joining stopping }
  | .joining stopping =>
    if t.supervisor = .done then some { t with unbinder := .unmarking stopping } else none
  | .unmarking stopping => some { t with unbinding := false, unbinder := .collecting stopping }
  | .collecting stopping =>
    some { t with
      fatal := none
      unbinder := if stopping then .listing t.fatal else .returned t.fatal }
  | .listing failure =>
    some { t with unbinder := .aborting (t.table.snapshot.map (·.identity)) failure }
  | .aborting [] failure => some { t with unbinder := .disposing failure }
  | .aborting (route :: routes) failure =>
    some { t.onConnection route (·.abort) with unbinder := .aborting routes failure }
  | .disposing failure => some { t with pool := t.pool.dispose, unbinder := .returned failure }

/-- One step of the supervisor, if it can move. A failure seen during unbinding is dropped; a
failure that nobody was told of is not overwritten. -/
def stepSupervisor (t : Transport C) : Option (Transport C) :=
  match t.supervisor with
  | .unborn | .done => none
  | .watching =>
    match t.acceptor with
    | .ended none => some { t with supervisor := .done }
    | .ended (some error) =>
      some { t with supervisor := if t.unbinding then .done else .keeping error }
    | _ => none
  | .keeping error => some { t with fatal := t.fatal.or (some error), supervisor := .stopping }
  | .stopping => some { t with stopRequests := t.stopRequests + 1, supervisor := .done }

end Duplex.Transport
