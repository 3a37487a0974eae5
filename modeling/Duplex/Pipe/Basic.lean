import Duplex.Configuration
import Duplex.Connection.Error
import Duplex.Notify
import Duplex.Pipe.Region
import Duplex.Pipe.Segments

/-!
# Pipes

A pipe carries bytes from one writer to one reader. The writer fills a region and commits its
front; what is committed and not yet consumed is the queue of segments. Either end completes
once, with or without an error that the other end sees once. A writer that flushes while too
much is buffered is marked paused until the reader has caught up.

Every operation below is one access under the pipe's lock. `Duplex.Pipe.Writer` and
`Duplex.Pipe.Reader` hold the operations of the two ends, `Duplex.Pipe.Call` the calls that
wait.
-/

namespace Duplex

/-- What a flush reports. -/
structure FlushResult where
  /-- The reader has completed: nothing written from now on will be consumed. -/
  completed : Bool
deriving DecidableEq

/-- What a read reports. -/
structure ReadResult where
  /-- How many bytes are buffered. -/
  length : Nat
  /-- The read was cut short by a cancellation. -/
  canceled : Bool
  /-- The writer has completed. -/
  completed : Bool
deriving DecidableEq

def ReadResult.isEmpty (r : ReadResult) : Bool := r.length == 0

/-- A pipe: what both ends share, and the region of the writer. -/
structure Pipe where
  options : PipeOptions
  /-- The committed bytes that are not yet consumed. -/
  segments : Pipe.Segments := {}
  /-- How many bytes the segments hold. -/
  buffered : Nat := 0
  writerPaused : Bool := false
  writerCompleted : Bool := false
  /-- The error of the writer's completion, until a read has returned it. -/
  writerError : Option ConnectionError := none
  readerCompleted : Bool := false
  /-- The error of the reader's completion, until a flush has returned it. -/
  readerError : Option ConnectionError := none
  readCanceled : Bool := false
  pauses : Nat := 0
  resumes : Nat := 0
  /-- Where a read sleeps. -/
  readable : Notify := {}
  /-- Where a flush sleeps. -/
  writable : Notify := {}
  /-- The writer's region: bytes it may fill and then commit. -/
  region : Pipe.Region := {}

namespace Pipe

/-- A pipe that nothing has gone through. -/
def create (options : PipeOptions) : Pipe := { options }

/-- The committed bytes that are not yet consumed. -/
def content (p : Pipe) : Bytes := p.segments.toList.flatten

end Pipe

end Duplex
