import Duplex.Pipe.Handle

/-!
# A pipe in scripted use

One pipe, its pool and a handle for each end. After every action the outstanding calls are
looked at until none can move.
-/

namespace Duplex.Pipe

/-- A pipe with both its ends. -/
structure Session where
  pipe : Pipe
  pool : BufferPool
  writer : WriterHandle := {}
  reader : ReaderHandle := {}

/-- What a script does to a pipe. -/
inductive Action where
  | writer (action : WriterAction)
  | reader (action : ReaderAction)
  /-- Cuts the pending read, or the next one, short. -/
  | cancel
  | disposePool

namespace Session

/-- Performs an action. -/
def perform (s : Session) : Action → Reply × Session
  | .writer action =>
    let (reply, writer, pipe) := s.writer.perform s.pool action s.pipe
    (reply, { s with writer, pipe })
  | .reader action =>
    let (reply, reader, pipe) := s.reader.perform action s.pipe
    (reply, { s with reader, pipe })
  | .cancel => (.done, { s with pipe := s.pipe.cancelPendingRead })
  | .disposePool => (.done, { s with pool := s.pool.dispose })

/-- Looks at the outstanding calls once. -/
def poll (s : Session) : Woken × Session :=
  let (flushed, writer, pipe) := s.writer.poll s.pipe
  let (read, reader, pipe) := s.reader.poll pipe
  (⟨flushed, read⟩, { s with pipe, writer, reader })

/-- Looks at the outstanding calls until none can move. Each end has at most one call, and a
call that ends can let the other one move: three rounds reach the end. -/
def settle (s : Session) : Woken × Session :=
  let (a, s) := s.poll
  let (b, s) := s.poll
  let (c, s) := s.poll
  (a.merge (b.merge c), s)

/-- Performs an action and lets every call move as far as it can. -/
def advance (s : Session) (action : Action) : Reply × Woken × Session :=
  let (reply, s) := s.perform action
  let (woken, s) := s.settle
  (reply, woken, s)

end Session

end Duplex.Pipe
