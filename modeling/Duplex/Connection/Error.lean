import Duplex.IoError

/-!
# Why a connection ended

The error with which one end of a pipe completes, seen once by the other end.
-/

namespace Duplex

/-- The terminal error of one direction of a connection. -/
inductive ConnectionError where
  /-- The peer reset the connection. -/
  | reset (source : IoError)
  /-- The connection was given up. -/
  | aborted (reason : String)
  /-- Any other failure of the socket. -/
  | io (source : IoError)
deriving DecidableEq

namespace ConnectionError

/-- The error of a connection that this side gave up. -/
def abortedLocally : ConnectionError := .aborted "the connection was aborted locally"

/-- The message of an error. -/
def message : ConnectionError → String
  | reset _ => "connection reset by peer"
  | aborted reason => "connection aborted: " ++ reason
  | io source => "unexpected I/O failure: " ++ source.message

/-- The I/O failure behind an error. -/
def source? : ConnectionError → Option IoError
  | reset source => some source
  | aborted _ => none
  | io source => some source

/-- A connection error met by an I/O loop, as the failure of that loop. -/
def toIoError (e : ConnectionError) : IoError := ⟨.other, e.message, false⟩

end ConnectionError

end Duplex
