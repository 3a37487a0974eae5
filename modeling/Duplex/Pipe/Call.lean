import Duplex.Pipe.Reader
import Duplex.Pipe.Writer
import Duplex.Progress

/-!
# Calls that wait on a pipe

A flush and a read look at the pipe (`checkFlush`, `checkRead`), and if they have to wait they
go to sleep and look again once they are woken. Going to sleep is a step of its own, after the
look: a wake-up in between leaves a permit, which the call then finds.

`readChunk` is a read followed by taking the front segment out, again if there was none.
-/

namespace Duplex.Pipe

/-- Where a call stands that waits on a pipe. -/
inductive Await where
  /-- About to look at the pipe. -/
  | checking
  /-- Has looked and is about to go to sleep. -/
  | parking
  /-- Asleep, or woken and not yet running. -/
  | parked
deriving DecidableEq

/-- What a sleeping place makes of a call: the permit lets it look again. -/
private def park (n : Notify) : Await × Notify :=
  let (permitted, n) := n.enter
  (if permitted then .checking else .parked, n)

/-- One look at a flush. -/
def flush (call : Await) (p : Pipe) :
    Progress Await (Except ConnectionError FlushResult) × Pipe :=
  match call with
  | .checking =>
    match p.checkFlush with
    | (some result, p) => (.done result, p)
    | (none, p) => (.again .parking, p)
  | .parking =>
    let (call, writable) := park p.writable
    (.again call, { p with writable })
  | .parked =>
    match p.writable.resume? with
    | some writable => (.again .checking, { p with writable })
    | none => (.pending, p)

/-- One look at a read. -/
def read (call : Await) (p : Pipe) :
    Progress Await (Except ConnectionError ReadResult) × Pipe :=
  match call with
  | .checking =>
    match p.checkRead with
    | (some result, p) => (.done result, p)
    | (none, p) => (.again .parking, p)
  | .parking =>
    let (call, readable) := park p.readable
    (.again call, { p with readable })
  | .parked =>
    match p.readable.resume? with
    | some readable => (.again .checking, { p with readable })
    | none => (.pending, p)

/-- One look at the reading of a segment: nothing is left once the writer has completed and
everything is consumed. -/
def readChunk (call : Await) (p : Pipe) :
    Progress Await (Except ConnectionError (Option Bytes)) × Pipe :=
  match p.read call with
  | (.pending, p) => (.pending, p)
  | (.again call, p) => (.again call, p)
  | (.done (.error error), p) => (.done (.error error), p)
  | (.done (.ok result), p) =>
    let (chunk, p) := if result.isEmpty then (none, p) else p.takeFront
    match chunk with
    | some chunk => (.done (.ok (some chunk)), p)
    | none => if result.completed then (.done (.ok none), p) else (.again .checking, p)

/-- Gives a flush up. -/
def abandonFlush (call : Await) (p : Pipe) : Pipe :=
  match call with
  | .checking | .parking => p
  | .parked => { p with writable := p.writable.abandon }

/-- Gives a read up. -/
def abandonRead (call : Await) (p : Pipe) : Pipe :=
  match call with
  | .checking | .parking => p
  | .parked => { p with readable := p.readable.abandon }

/-- A bound on the looks at a call before it ends or sleeps. It sleeps once its permit and one
cancellation are used up. -/
def maxLooks : Nat := 16

end Duplex.Pipe
