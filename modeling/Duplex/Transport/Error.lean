import Duplex.IoError
import Duplex.SocketAddress

/-!
# Why a transport call failed

The errors of binding, starting a connection and unbinding, and their messages.
-/

namespace Duplex

/-- Why a call on a transport, or the start of a connection, failed. -/
inductive TransportError where
  /-- A listener is already installed. -/
  | alreadyBound
  /-- The connection's pipeline was launched before. -/
  | alreadyStarted
  /-- Another socket is bound to the address. -/
  | addressInUse (address : SocketAddress) (source : IoError)
  /-- The listening socket failed otherwise. -/
  | io (source : IoError)
  /-- The dispatcher refused the connection. -/
  | dispatch (reason : String)
  /-- The accept loop panicked. -/
  | panic (reason : String)
deriving DecidableEq

namespace TransportError

/-- The message of an error. -/
def message : TransportError → String
  | alreadyBound => "transport already bound"
  | alreadyStarted => "connection already started"
  | addressInUse address _ => "address " ++ address.text ++ " already in use"
  | io source => source.message
  | dispatch reason => "connection dispatcher failed: " ++ reason
  | panic reason => "accept loop panicked: " ++ reason

/-- Whether a further error stands behind this one. The text of an I/O failure is already the
text of the error itself, and nothing stands behind it. -/
def hasSource : TransportError → Bool
  | addressInUse .. => true
  | dispatch _ => true
  | _ => false

/-- The I/O failure behind an error. -/
def source? : TransportError → Option IoError
  | addressInUse _ source => some source
  | io source => some source
  | _ => none

end TransportError

end Duplex
