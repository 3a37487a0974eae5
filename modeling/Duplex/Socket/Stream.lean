import Duplex.Socket.Basic

/-!
# Stream sockets

A stream socket works on a connected stream of the kernel, whose attempts to read and write come
to nothing, to part of what was offered, or to a failure (`Attempt`). Every attempt is preceded
by a look whether the socket was disposed of.

A send of several regions offers all of them in one attempt (`Stream.Send.gathering`), and what
that attempt left is written region by region (`Stream.Send.finishing`).
-/

namespace Duplex.Socket

open scoped Numbers

/-- What an attempt on a kernel stream comes to. -/
inductive Attempt (α : Type) where
  /-- Nothing can be done now. -/
  | blocked
  | accomplished (result : α)
  | failed (error : IoError)

/-- A connected stream of the kernel. -/
structure Kernel where
  State : Type
  /-- Reads at most `room` bytes; none means that the stream has ended. -/
  tryRead : (room : Nat) → State → Attempt Bytes × State
  /-- Writes a front of the regions, and says how many bytes. -/
  tryWrite : List Bytes → State → Attempt Nat × State
  /-- Ends both directions. -/
  shutdown : State → Except IoError Unit × State

namespace Stream

/-- The state of a stream socket on a kernel stream. -/
structure State (K : Kernel) where
  kernel : K.State
  disposed : Bool := false

/-- An unfinished send. -/
inductive Send where
  /-- What is left of the region in flight, out of `total` bytes in all. -/
  | writing (left : Bytes) (total : Nat)
  /-- About to offer all regions at once. -/
  | gathering (regions : List Bytes)
  /-- The regions that are left, the first without what was already written of it. -/
  | finishing (regions : List Bytes) (total : Nat)

/-- What is left of regions after their first `count` bytes; regions with nothing left go. -/
def leftAfter : (count : Nat) → List Bytes → List Bytes
  | _, [] => []
  | count, region :: regions =>
    if region.length ≤ count then leftAfter (count - region.length) regions
    else region.drop count :: regions.filter (· ≠ [])

variable {K : Kernel}

/-- One look at a receive into `room` bytes. -/
def pollReceive (room : Nat) (s : State K) : Progress Nat (Except IoError Bytes) × State K :=
  if s.disposed then (.done (.error .socketDisposed), s)
  else
    let (attempt, kernel) := K.tryRead room s.kernel
    let s := { s with kernel }
    match attempt with
    | .blocked => (.pending, s)
    | .accomplished received => (.done (.ok received), s)
    | .failed error => (.done (.error error), s)

/-- One attempt to write a region, and where its send goes with what is left. -/
def writeSome (region : Bytes) (next : Bytes → Send) (s : State K) :
    Progress Send (Except IoError Nat) × State K :=
  if s.disposed then (.done (.error .socketDisposed), s)
  else
    let (attempt, kernel) := K.tryWrite [region] s.kernel
    let s := { s with kernel }
    match attempt with
    | .blocked => (.pending, s)
    | .accomplished 0 => (.done (.error .wroteNothing), s)
    | .accomplished written => (.again (next (region.drop written)), s)
    | .failed error => (.done (.error error), s)

/-- One look at a send. -/
def pollSend (call : Send) (s : State K) : Progress Send (Except IoError Nat) × State K :=
  match call with
  | .writing [] total => (.done (.ok total), s)
  | .writing left total => writeSome left (.writing · total) s
  | .gathering regions =>
    if s.disposed then (.done (.error .socketDisposed), s)
    else
      let (attempt, kernel) := K.tryWrite regions s.kernel
      let s := { s with kernel }
      match attempt with
      | .blocked => (.pending, s)
      | .accomplished written =>
        (.again (.finishing (leftAfter written regions) (regions.map List.length).sum), s)
      | .failed error => (.done (.error error), s)
  | .finishing [] total => (.done (.ok total), s)
  | .finishing ([] :: regions) total => (.again (.finishing regions total), s)
  | .finishing (region :: regions) total =>
    writeSome region (fun left => .finishing (left :: regions) total) s

/-- Ends both directions. -/
def shutdown (s : State K) : Except IoError Unit × State K :=
  let (result, kernel) := K.shutdown s.kernel
  (result, { s with kernel })

/-- Ends both directions, once, and makes pending calls fail. -/
def dispose (s : State K) : State K :=
  if s.disposed then s
  else { kernel := (K.shutdown s.kernel).2, disposed := true }

end Stream

/-- The stream socket on a kernel stream. -/
def stream (K : Kernel) : Socket where
  State := Stream.State K
  Receive := Nat
  Send := Stream.Send
  receive room s := (room, s)
  pollReceive := Stream.pollReceive
  send region s := (.writing region region.length, s)
  sendVectored regions s := (.gathering regions, s)
  pollSend := Stream.pollSend
  shutdown := Stream.shutdown
  dispose := Stream.dispose

end Duplex.Socket
