import Duplex.SocketAddress

/-!
# Configuration

What a transport is configured with, and the defaults.
-/

namespace Duplex

/-- What the listening socket accepts. -/
inductive ListenMode where
  | datagram
  | stream
deriving DecidableEq

/-- The name of a mode. -/
def ListenMode.name : ListenMode → String
  | datagram => "Datagram"
  | stream => "Stream"

/-- The least size of the regions that pipes hand out. -/
def preferredSegmentSize : Nat := 4096

/-- The largest number of queues a transport takes by default. -/
def maxQueueCount : Nat := 16

/-- When a pipe holds its writer back, and how large its regions are. -/
structure PipeOptions where
  /-- A flush that finds this many bytes buffered waits; 0 means that no flush ever waits. -/
  pauseThreshold : Nat := 1024 * 1024
  /-- A waiting flush goes on once at most this many bytes are buffered. -/
  resumeThreshold : Nat := 512 * 1024
  /-- The least size of a region the writer is given. -/
  minimumSegment : Nat := preferredSegmentSize
deriving DecidableEq

/-- The number of queues on a machine that runs `parallelism` threads at once. -/
def defaultQueueCount (parallelism : Nat) : Nat :=
  max 1 (min parallelism maxQueueCount)

/-- The configuration of a transport. -/
structure Configuration where
  mode : ListenMode := .datagram
  queueCount : Nat := 1
  /-- Whether every queue runs its tasks on the caller's threads. -/
  inlineQueues : Bool := true
  maxDatagramSize : Nat := 4096
  pauseThreshold : Nat := 1024 * 1024
  resumeThreshold : Nat := 1024 * 1024 / 2
  datagramChannelCapacity : Nat := 256
  listenBacklog : Nat := 512
deriving DecidableEq

namespace Configuration

/-- The options of both pipes of a connection. -/
def pipeOptions (c : Configuration) : PipeOptions where
  pauseThreshold := c.pauseThreshold
  resumeThreshold := c.resumeThreshold
  minimumSegment := preferredSegmentSize

/-- The buffer that datagrams are received into, which is never empty. -/
def datagramBuffer (c : Configuration) : Nat := max c.maxDatagramSize 1

/-- The least buffer that a connection receives into. -/
def minimumReceive (_ : Configuration) : Nat := preferredSegmentSize / 2

end Configuration

/-- The address a transport listens on, and whether its streams send without delay. -/
structure Endpoint where
  address : SocketAddress
  noDelay : Bool := true
deriving DecidableEq

end Duplex
