import Duplex.Pipe.Call

/-!
# Ends of a pipe in scripted use

A handle stands for one end of a pipe and carries at most one unfinished call. An action on an
end that was dropped, or that has a call outstanding, does nothing; dropping an end gives its
call up. A call for which there is no memory panics, and drops its end on the way out.
-/

namespace Duplex.Pipe

/-- A finished call or another answer of a pipe's end. -/
inductive Reply where
  | done
  /-- The length of the writer's region. -/
  | region (length : Nat)
  | flushed (result : Except ConnectionError FlushResult)
  | read (result : Except ConnectionError ReadResult)
  | chunk (result : Except ConnectionError (Option Bytes))
  | regions (segments : List Bytes)
  /-- The call is outstanding. -/
  | pending
  /-- The call could not end at once and was given up. -/
  | cancelled
  /-- The end was dropped or has a call outstanding. -/
  | unavailable

/-! ## The writing end -/

/-- The writing end. -/
structure WriterHandle where
  held : Bool := true
  /-- Where the outstanding flush stands. -/
  call : Option Await := none

/-- What is done at the writing end. -/
inductive WriterAction where
  | stage (request offset : Nat) (data : Bytes)
  | advance (count : Nat)
  | put (chunks : List Bytes)
  | flush (once : Bool)
  | write (data : Bytes) (once : Bool)
  | complete (error : Option ConnectionError)
  | drop

namespace WriterHandle

/-- Looks at the outstanding flush until it sleeps or has ended. -/
def poll (h : WriterHandle) (p : Pipe) : Option Reply × WriterHandle × Pipe :=
  match h.call with
  | none => (none, h, p)
  | some call =>
    match Progress.poll Pipe.flush maxLooks call p with
    | (.inl call, p) => (none, { h with call := some call }, p)
    | (.inr result, p) => (some (.flushed result), { h with call := none }, p)

/-- Gives the outstanding flush up. -/
def abandon (h : WriterHandle) (p : Pipe) : WriterHandle × Pipe :=
  ({ h with call := none }, h.call.elim p (abandonFlush · p))

/-- Starts a flush. -/
def startFlush (h : WriterHandle) (once : Bool) (p : Pipe) : Reply × WriterHandle × Pipe :=
  match { h with call := some .checking : WriterHandle }.poll p with
  | (some reply, h, p) => (reply, h, p)
  | (none, h, p) => if once then (.cancelled, h.abandon p) else (.pending, h, p)

/-- Drops the end, which completes the writing. -/
def drop (h : WriterHandle) (p : Pipe) : WriterHandle × Pipe :=
  let (_, p) := h.abandon p
  ({ held := false }, p.completeWriter none)

/-- Ends a call by a panic, which drops the end. -/
def unwind (h : WriterHandle) (p : Pipe) : Reply × WriterHandle × Pipe := (.unavailable, h.drop p)

/-- Commits chunks without flushing, for as long as there is memory for them. -/
def put (h : WriterHandle) (pool : BufferPool) (p : Pipe) :
    List Bytes → Reply × WriterHandle × Pipe
  | [] => (.done, h, p)
  | chunk :: chunks =>
    match p.getMemory? pool chunk.length with
    | some p => h.put pool ((p.fill 0 chunk).advance chunk.length) chunks
    | none => h.unwind p

/-- Performs an action. -/
def perform (h : WriterHandle) (pool : BufferPool) (action : WriterAction) (p : Pipe) :
    Reply × WriterHandle × Pipe :=
  match h.held, h.call, action with
  | true, _, .drop => (.done, h.drop p)
  | true, none, .stage request offset data =>
    match p.getMemory? pool request with
    | some p => (.region p.region.length, h, p.fill offset data)
    | none => h.unwind p
  | true, none, .advance count => (.done, h, p.advance count)
  | true, none, .put chunks => h.put pool p chunks
  | true, none, .flush once => h.startFlush once p
  | true, none, .write data once =>
    match p.copy pool data with
    | (p, []) => h.startFlush once p
    | (p, _) => h.unwind p
  | true, none, .complete error => (.done, h, p.completeWriter error)
  | _, _, _ => (.unavailable, h, p)

end WriterHandle

/-! ## The reading end -/

/-- An outstanding call of the reading end. -/
inductive ReadCall where
  | read (call : Await)
  | chunk (call : Await)

/-- The reading end. -/
structure ReaderHandle where
  held : Bool := true
  call : Option ReadCall := none

/-- What is done at the reading end. -/
inductive ReaderAction where
  | read (once : Bool)
  | readChunk (once : Bool)
  | regions
  | consume (count : Nat)
  | complete (error : Option ConnectionError)
  | drop

namespace ReaderHandle

/-- Looks at the outstanding call until it sleeps or has ended. -/
def poll (h : ReaderHandle) (p : Pipe) : Option Reply × ReaderHandle × Pipe :=
  match h.call with
  | none => (none, h, p)
  | some (.read call) =>
    match Progress.poll Pipe.read maxLooks call p with
    | (.inl call, p) => (none, { h with call := some (.read call) }, p)
    | (.inr result, p) => (some (.read result), { h with call := none }, p)
  | some (.chunk call) =>
    match Progress.poll Pipe.readChunk maxLooks call p with
    | (.inl call, p) => (none, { h with call := some (.chunk call) }, p)
    | (.inr result, p) => (some (.chunk result), { h with call := none }, p)

/-- Gives the outstanding call up. -/
def abandon (h : ReaderHandle) (p : Pipe) : ReaderHandle × Pipe :=
  let p := match h.call with
    | none => p
    | some (.read call) | some (.chunk call) => abandonRead call p
  ({ h with call := none }, p)

/-- Starts a call. -/
def start (h : ReaderHandle) (call : ReadCall) (once : Bool) (p : Pipe) :
    Reply × ReaderHandle × Pipe :=
  match { h with call := some call : ReaderHandle }.poll p with
  | (some reply, h, p) => (reply, h, p)
  | (none, h, p) => if once then (.cancelled, h.abandon p) else (.pending, h, p)

/-- Drops the end, which completes the reading. -/
def drop (h : ReaderHandle) (p : Pipe) : ReaderHandle × Pipe :=
  let (_, p) := h.abandon p
  ({ held := false }, p.completeReader none)

/-- Performs an action. -/
def perform (h : ReaderHandle) (action : ReaderAction) (p : Pipe) :
    Reply × ReaderHandle × Pipe :=
  match h.held, h.call, action with
  | true, _, .drop => (.done, h.drop p)
  | true, none, .read once => h.start (.read .checking) once p
  | true, none, .readChunk once => h.start (.chunk .checking) once p
  | true, none, .regions => (.regions p.regions, h, p)
  | true, none, .consume count => (.done, h, p.consume count)
  | true, none, .complete error => (.done, h, p.completeReader error)
  | _, _, _ => (.unavailable, h, p)

end ReaderHandle

/-! ## Both ends -/

/-- The answers of calls that ended after others had moved. -/
structure Woken where
  writer : Option Reply := none
  reader : Option Reply := none

/-- Keeps the answers found so far and adds those found later. -/
def Woken.merge (a b : Woken) : Woken := ⟨a.writer.or b.writer, a.reader.or b.reader⟩

end Duplex.Pipe
