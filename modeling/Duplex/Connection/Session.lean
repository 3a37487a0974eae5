import Duplex.Connection.Drive
import Duplex.Pipe.Handle
import Duplex.Socket.Scripted

/-!
# A connection in scripted use

One connection over a scripted socket, with handles for the application's ends. After every
action the tasks run until none can move; only then are the application's outstanding calls
looked at, and so on until nothing moves.
-/

namespace Duplex.Connection

/-- A connection, its pool and its application. -/
structure Session where
  connection : Connection Socket.scripted
  pool : BufferPool
  /-- Whether the application has its ends. -/
  accepted : Bool := false
  output : Pipe.WriterHandle := {}
  input : Pipe.ReaderHandle := {}

/-- What a script does to a connection. -/
inductive Action where
  /-- An action on the application's output. -/
  | output (action : Pipe.WriterAction)
  /-- An action on the application's input. -/
  | input (action : Pipe.ReaderAction)
  /-- A start whose dispatcher may abort the connection before it answers, and may refuse. -/
  | start (abortInside : Bool) (refusal : Option String)
  | feed (chunks : List Bytes)
  | feedFailure (error : IoError)
  | feedFinish
  | setSendError (error : Option IoError)
  | setShutdownError (error : Option IoError)
  | setShortSend (limit : Option Nat)
  | blockSend (on : Bool)
  | shutdown
  | abort
  | fireClosed
  | disposePool

/-- What an action answers. -/
inductive Reply where
  | pipe (reply : Pipe.Reply)
  /-- The connection was started; its description is that of this moment. -/
  | started (description : String)
  | notStarted (error : TransportError)
  | fired (first : Bool)

namespace Session

/-- Changes the socket. -/
def onSocket (s : Session) (f : Socket.Scripted → Socket.Scripted) : Reply × Session :=
  (.pipe .done, { s with connection := { s.connection with socket := f s.connection.socket } })

/-- Starts the connection. -/
def start (s : Session) (abortInside : Bool) (refusal : Option String) : Reply × Session :=
  match s.connection.beginStart with
  | .error error => (.notStarted error, s)
  | .ok c =>
    let c := if abortInside then c.abort else c
    match refusal with
    | some reason =>
      (.notStarted (.dispatch reason),
        { s with connection := (c.dropApplicationEnds.refuse reason).finishStart })
    | none =>
      let c := c.accept.finishStart
      (.started c.describe, { s with connection := c, accepted := true })

/-- Performs an action. -/
def perform (s : Session) (action : Action) : Reply × Session :=
  match action with
  | .output action =>
    if s.accepted then
      let (reply, output, outbound) := s.output.perform s.pool action s.connection.outbound
      (.pipe reply, { s with output, connection := { s.connection with outbound } })
    else (.pipe .unavailable, s)
  | .input action =>
    if s.accepted then
      let (reply, input, inbound) := s.input.perform action s.connection.inbound
      (.pipe reply, { s with input, connection := { s.connection with inbound } })
    else (.pipe .unavailable, s)
  | .start abortInside refusal => s.start abortInside refusal
  | .feed chunks =>
    s.onSocket fun t => { t with incoming := t.incoming ++ chunks.map .data }
  | .feedFailure error => s.onSocket fun t => { t with incoming := t.incoming ++ [.failure error] }
  | .feedFinish => s.onSocket fun t => { t with incoming := t.incoming ++ [.finish] }
  | .setSendError error => s.onSocket fun t => { t with sendError := error }
  | .setShutdownError error => s.onSocket fun t => { t with shutdownError := error }
  | .setShortSend limit => s.onSocket fun t => { t with shortSend := limit }
  | .blockSend on => s.onSocket fun t => { t with blocked := on }
  | .shutdown => (.pipe .done, { s with connection := s.connection.shutdown })
  | .abort => (.pipe .done, { s with connection := s.connection.abort })
  | .fireClosed =>
    let (first, connection) := s.connection.fireClosed
    (.fired first, { s with connection })
  | .disposePool => (.pipe .done, { s with pool := s.pool.dispose })

/-- A bound on the steps of the tasks before they wait for someone else. Every receive takes a
byte or an event, every send takes a byte, and either is followed by a bounded number of steps. -/
def workLeft (s : Session) : Nat :=
  64 + 16 * (s.connection.socket.waiting + s.connection.outbound.buffered)

/-- Runs the tasks until none can move. -/
def run (s : Session) : Session :=
  { s with connection := s.connection.settle s.pool s.workLeft }

/-- Looks at the application's outstanding calls once. -/
def poll (s : Session) : Pipe.Woken × Session :=
  let (flushed, output, outbound) := s.output.poll s.connection.outbound
  let (read, input, inbound) := s.input.poll s.connection.inbound
  (⟨flushed, read⟩, { s with output, input, connection := { s.connection with outbound, inbound } })

/-- Lets everything move as far as it can. Each of the two calls ends at most once, so that
three rounds reach the end. -/
def settle (s : Session) : Pipe.Woken × Session :=
  let (a, s) := s.run.poll
  let (b, s) := s.run.poll
  let (c, s) := s.run.poll
  (a.merge (b.merge c), s.run)

/-- Performs an action and lets everything move as far as it can. The records of the socket are
those of this action. -/
def advance (s : Session) (action : Action) : Reply × Pipe.Woken × Session :=
  let (_, s) := s.onSocket (·.clearRecords)
  let (reply, s) := s.perform action
  let (woken, s) := s.settle
  (reply, woken, s)

/-- Whether the driver has ended, once there is one. -/
def driverDone? (s : Session) : Option Bool :=
  match s.connection.driver with
  | .unborn => none
  | .done => some true
  | _ => some false

end Session

end Duplex.Connection
