import Duplex.Socket.Basic

/-!
# A socket played by a script

A socket in memory: what it receives, whether its sends fail, are short or hang, and whether a
shutdown closes it are all set from outside. It records the length of every buffer offered to a
receive and the regions of every send when the call begins.
-/

namespace Duplex.Socket

open scoped Numbers

/-- What a scripted socket receives. -/
inductive Incoming where
  | data (chunk : Bytes)
  | failure (error : IoError)
  | finish

/-- A send that a scripted socket was given. -/
inductive Outgoing where
  | single (region : Bytes)
  | vectored (regions : List Bytes)

/-- The state of a scripted socket. -/
structure Scripted where
  /-- Whether several regions are sent by one call of its own. -/
  vectored : Bool := true
  /-- Whether a shutdown ends the receives. -/
  closeOnShutdown : Bool := true
  incoming : List Incoming := []
  sendError : Option IoError := none
  shutdownError : Option IoError := none
  /-- The most bytes that a send claims to have sent. -/
  shortSend : Option Nat := none
  blocked : Bool := false
  closed : Bool := false
  disposed : Bool := false
  shutdowns : Nat := 0
  disposes : Nat := 0
  /-- The lengths of the buffers offered to receives. -/
  offered : List Nat := []
  /-- The sends that have begun. -/
  sends : List Outgoing := []

namespace Scripted

/-- A send in flight: of that many bytes, or of one region after the other. -/
inductive Send where
  | whole (length : Nat)
  | each (call : SendEach Nat)

/-- The error of calls on a disposed socket. -/
def disposedError : IoError := ⟨.connectionAborted, "disposed", false⟩

def receive (room : Nat) (s : Scripted) : Nat × Scripted :=
  (room, { s with offered := s.offered ++ [room] })

/-- Disposal comes first, then closing, then what the script has put in. -/
def pollReceive (room : Nat) (s : Scripted) :
    Progress Nat (Except IoError Bytes) × Scripted :=
  if s.disposed then (.done (.error disposedError), s)
  else if s.closed then (.done (.ok []), s)
  else
    match s.incoming with
    | [] => (.pending, s)
    | .failure error :: incoming => (.done (.error error), { s with incoming })
    | .finish :: _ => (.done (.ok []), s)
    | .data chunk :: incoming =>
      let rest := chunk.drop room
      let incoming := if rest.isEmpty then incoming else .data rest :: incoming
      (.done (.ok (chunk.take room)), { s with incoming })

/-- Begins a single send. -/
def sendOne (region : Bytes) (s : Scripted) : Nat × Scripted :=
  (region.length, { s with sends := s.sends ++ [.single region] })

/-- One look at a send of `length` bytes. -/
def pollOne (length : Nat) (s : Scripted) : Progress Nat (Except IoError Nat) × Scripted :=
  if s.disposed then (.done (.error disposedError), s)
  else
    match s.sendError with
    | some error => (.done (.error error), s)
    | none =>
      if s.blocked then (.pending, s)
      else (.done (.ok (s.shortSend.elim length (min length))), s)

def sendVectored (regions : List Bytes) (s : Scripted) : Send × Scripted :=
  if s.vectored then
    (.whole (regions.map List.length).sum, { s with sends := s.sends ++ [.vectored regions] })
  else (.each { waiting := regions }, s)

def pollSend (call : Send) (s : Scripted) : Progress Send (Except IoError Nat) × Scripted :=
  match call with
  | .whole length =>
    let (progress, s) := pollOne length s
    (progress.map .whole id, s)
  | .each call =>
    let (progress, s) := call.poll sendOne pollOne s
    (progress.map .each id, s)

def shutdown (s : Scripted) : Except IoError Unit × Scripted :=
  let result := match s.shutdownError with
    | some error => .error error
    | none => .ok ()
  (result, { s with shutdowns := s.shutdowns + 1, closed := s.closed || s.closeOnShutdown })

def dispose (s : Scripted) : Scripted :=
  { s with disposes := s.disposes + 1, closed := true, disposed := true }

/-- Takes the records of calls out. -/
def clearRecords (s : Scripted) : Scripted := { s with offered := [], sends := [] }

/-- The bytes and events waiting to be received. -/
def waiting (s : Scripted) : Nat :=
  (s.incoming.map fun | .data chunk => chunk.length + 1 | _ => 1).sum

end Scripted

/-- The scripted socket. -/
def scripted : Socket where
  State := Scripted
  Receive := Nat
  Send := Scripted.Send
  receive := Scripted.receive
  pollReceive := Scripted.pollReceive
  send region s :=
    let (call, s) := Scripted.sendOne region s
    (.whole call, s)
  sendVectored := Scripted.sendVectored
  pollSend := Scripted.pollSend
  shutdown := Scripted.shutdown
  dispose := Scripted.dispose

end Duplex.Socket
