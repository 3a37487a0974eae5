/-!
# Failures of input and output

An `IoError` is a kind and a text. Errors of the operating system carry the system's own text
and are marked, so that a report can leave that text out.
-/

namespace Duplex

/-- The kinds of I/O failure. -/
inductive IoKind where
  | notFound
  | permissionDenied
  | connectionRefused
  | connectionReset
  | hostUnreachable
  | networkUnreachable
  | connectionAborted
  | notConnected
  | addrInUse
  | addrNotAvailable
  | networkDown
  | brokenPipe
  | alreadyExists
  | wouldBlock
  | notADirectory
  | isADirectory
  | directoryNotEmpty
  | readOnlyFilesystem
  | staleNetworkFileHandle
  | invalidInput
  | invalidData
  | timedOut
  | writeZero
  | storageFull
  | notSeekable
  | quotaExceeded
  | fileTooLarge
  | resourceBusy
  | executableFileBusy
  | deadlock
  | crossesDevices
  | tooManyLinks
  | invalidFilename
  | argumentListTooLong
  | interrupted
  | unsupported
  | unexpectedEof
  | outOfMemory
  | other
  /-- A failure of the operating system that has no kind of its own. -/
  | uncategorized
deriving DecidableEq, Repr

namespace IoKind

/-- Every kind. -/
def all : List IoKind := [
  notFound, permissionDenied, connectionRefused, connectionReset, hostUnreachable,
  networkUnreachable, connectionAborted, notConnected, addrInUse, addrNotAvailable, networkDown,
  brokenPipe, alreadyExists, wouldBlock, notADirectory, isADirectory, directoryNotEmpty,
  readOnlyFilesystem, staleNetworkFileHandle, invalidInput, invalidData, timedOut, writeZero,
  storageFull, notSeekable, quotaExceeded, fileTooLarge, resourceBusy, executableFileBusy,
  deadlock, crossesDevices, tooManyLinks, invalidFilename, argumentListTooLong, interrupted,
  unsupported, unexpectedEof, outOfMemory, other, uncategorized]

/-- The name of a kind, as reports show it. -/
def name : IoKind → String
  | notFound => "NotFound"
  | permissionDenied => "PermissionDenied"
  | connectionRefused => "ConnectionRefused"
  | connectionReset => "ConnectionReset"
  | hostUnreachable => "HostUnreachable"
  | networkUnreachable => "NetworkUnreachable"
  | connectionAborted => "ConnectionAborted"
  | notConnected => "NotConnected"
  | addrInUse => "AddrInUse"
  | addrNotAvailable => "AddrNotAvailable"
  | networkDown => "NetworkDown"
  | brokenPipe => "BrokenPipe"
  | alreadyExists => "AlreadyExists"
  | wouldBlock => "WouldBlock"
  | notADirectory => "NotADirectory"
  | isADirectory => "IsADirectory"
  | directoryNotEmpty => "DirectoryNotEmpty"
  | readOnlyFilesystem => "ReadOnlyFilesystem"
  | staleNetworkFileHandle => "StaleNetworkFileHandle"
  | invalidInput => "InvalidInput"
  | invalidData => "InvalidData"
  | timedOut => "TimedOut"
  | writeZero => "WriteZero"
  | storageFull => "StorageFull"
  | notSeekable => "NotSeekable"
  | quotaExceeded => "QuotaExceeded"
  | fileTooLarge => "FileTooLarge"
  | resourceBusy => "ResourceBusy"
  | executableFileBusy => "ExecutableFileBusy"
  | deadlock => "Deadlock"
  | crossesDevices => "CrossesDevices"
  | tooManyLinks => "TooManyLinks"
  | invalidFilename => "InvalidFilename"
  | argumentListTooLong => "ArgumentListTooLong"
  | interrupted => "Interrupted"
  | unsupported => "Unsupported"
  | unexpectedEof => "UnexpectedEof"
  | outOfMemory => "OutOfMemory"
  | other => "Other"
  | uncategorized => "Uncategorized"

/-- The kind of that name. -/
def ofName? (name : String) : Option IoKind :=
  all.find? fun kind => kind.name == name

end IoKind

/-- A failure of an input or output operation. -/
structure IoError where
  kind : IoKind
  message : String
  /-- Whether the operating system reported the failure. -/
  fromSystem : Bool := false
deriving DecidableEq

namespace IoError

/-- The operating system has no route to the peer. -/
def networkUnreachable : IoError :=
  ⟨.networkUnreachable, "Network is unreachable (os error 101)", true⟩

/-- The operating system has another socket on the address. -/
def addressInUse : IoError :=
  ⟨.addrInUse, "Address already in use (os error 98)", true⟩

/-- No socket can have such an address. -/
def invalidArgument : IoError :=
  ⟨.invalidInput, "Invalid argument (os error 22)", true⟩

/-- The port is reserved for the system. -/
def permissionDenied : IoError :=
  ⟨.permissionDenied, "Permission denied (os error 13)", true⟩

/-- The address is not one of the machine's. -/
def addressNotAvailable : IoError :=
  ⟨.addrNotAvailable, "Cannot assign requested address (os error 99)", true⟩

/-- The machine has no interface of that number. -/
def noSuchDevice : IoError :=
  ⟨.uncategorized, "No such device (os error 19)", true⟩

/-- The datagram is longer than datagrams can be. -/
def messageTooLong : IoError :=
  ⟨.uncategorized, "Message too long (os error 90)", true⟩

/-- The operating system has no listener for the peer. -/
def connectionRefused : IoError :=
  ⟨.connectionRefused, "Connection refused (os error 111)", true⟩

/-- The peer has reset the connection. -/
def connectionReset : IoError :=
  ⟨.connectionReset, "Connection reset by peer (os error 104)", true⟩

/-- Written to a socket whose writing side has ended. -/
def brokenPipe : IoError :=
  ⟨.brokenPipe, "Broken pipe (os error 32)", true⟩

/-- The socket has been disposed of. -/
def socketDisposed : IoError := ⟨.connectionAborted, "socket disposed", false⟩

/-- The socket has been shut down. -/
def socketShutDown : IoError := ⟨.notConnected, "socket shut down", false⟩

/-- The kernel accepted none of the bytes it was offered. -/
def wroteNothing : IoError := ⟨.writeZero, "socket wrote 0 bytes", false⟩

end IoError

end Duplex
