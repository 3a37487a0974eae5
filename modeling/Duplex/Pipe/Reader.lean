import Duplex.Pipe.Basic

/-!
# The reading end of a pipe

`checkRead` is one look of a read at the pipe, `regions` lists what is buffered and `consume`
releases it from the front; `takeFront` does both for one segment. `cancelPendingRead` cuts a
read short from outside.
-/

namespace Duplex.Pipe

/-- One look of a read: the result, unless the read has to wait. The error of the writer comes
first, then a cancellation, then data and completion. -/
def checkRead (p : Pipe) : Option (Except ConnectionError ReadResult) × Pipe :=
  match p.writerError with
  | some error => (some (.error error), { p with writerError := none })
  | none =>
    if p.readCanceled then
      (some (.ok ⟨p.buffered, true, p.writerCompleted⟩), { p with readCanceled := false })
    else if 0 < p.buffered ∨ p.writerCompleted then
      (some (.ok ⟨p.buffered, false, p.writerCompleted⟩), p)
    else (none, p)

/-- The buffered segments, front first. -/
def regions (p : Pipe) : List Bytes := p.segments.toList

/-- Releases the first `count` buffered bytes, all of them if there are fewer. -/
def consume (p : Pipe) (count : Nat) : Pipe :=
  if count = 0 then p
  else
    let count := min count p.buffered
    { p with
      segments := p.segments.dropBytes count
      buffered := p.buffered - count
      writable := p.writable.notifyOne }

/-- Takes the front segment out. -/
def takeFront (p : Pipe) : Option Bytes × Pipe :=
  match p.segments.head? with
  | none => (none, p)
  | some segment => (some segment, p.consume segment.length)

/-- Makes the pending read, or the next one, return at once. -/
def cancelPendingRead (p : Pipe) : Pipe :=
  { p with readCanceled := true, readable := p.readable.notifyOne }

/-- Ends the reading and drops what is buffered. Only the first completion counts. -/
def completeReader (p : Pipe) (error : Option ConnectionError) : Pipe :=
  if p.readerCompleted then p
  else
    { p with
      readerCompleted := true
      readerError := error
      segments := {}
      buffered := 0
      writable := p.writable.notifyOne }

end Duplex.Pipe
