import Duplex.Socket.Stream

/-!
# Streams in memory

Both ends of a connected stream on one machine. A stream socket works on one end, through
`Loopback.kernel`; the other end is the peer's, who sends, takes what has arrived, ends its
direction or resets the stream.

What arrived before the stream ended can still be read. Only so much may wait for the peer that
it fits the window.
-/

namespace Duplex.Socket

/-- A connected stream. -/
structure Loopback where
  /-- How many bytes may wait for the peer; any number if there is no bound. -/
  window : Option Nat := none
  /-- The bytes from the peer that were not read. -/
  arriving : Bytes := []
  /-- The bytes for the peer that it has not taken. -/
  departing : Bytes := []
  /-- Whether this side has ended both directions. -/
  ended : Bool := false
  /-- Whether the peer has ended its direction. -/
  peerEnded : Bool := false
  /-- Whether the peer has reset the stream. -/
  reset : Bool := false

namespace Loopback

/-! ## The socket's end -/

/-- Reads what has arrived, then a reset, then the end. -/
def tryRead (room : Nat) (s : Loopback) : Attempt Bytes × Loopback :=
  if s.arriving ≠ [] then
    (.accomplished (s.arriving.take room), { s with arriving := s.arriving.drop room })
  else if s.reset then (.failed .connectionReset, s)
  else if s.ended || s.peerEnded then (.accomplished [], s)
  else (.blocked, s)

/-- How many of `count` bytes the window has room for. -/
def room (s : Loopback) (count : Nat) : Nat :=
  s.window.elim count fun window => min count (window - s.departing.length)

/-- Writes as much as the window has room for. -/
def tryWrite (regions : List Bytes) (s : Loopback) : Attempt Nat × Loopback :=
  let offered := regions.flatten
  if s.reset then (.failed .connectionReset, s)
  else if s.ended then (.failed .brokenPipe, s)
  else if offered = [] then (.accomplished 0, s)
  else
    let count := s.room offered.length
    if count = 0 then (.blocked, s)
    else (.accomplished count, { s with departing := s.departing ++ offered.take count })

/-- Ends both directions. -/
def shutdown (s : Loopback) : Except IoError Unit × Loopback :=
  (.ok (), { s with ended := true })

/-- The end that a stream socket works on. -/
def kernel : Kernel where
  State := Loopback
  tryRead := tryRead
  tryWrite := tryWrite
  shutdown := shutdown

/-! ## The peer's end -/

/-- The peer sends. -/
def peerSend (data : Bytes) (s : Loopback) : Loopback :=
  { s with arriving := s.arriving ++ data }

/-- The peer takes at most `count` of the bytes that have arrived. -/
def peerTake (count : Nat) (s : Loopback) : Bytes × Loopback :=
  (s.departing.take count, { s with departing := s.departing.drop count })

/-- The peer ends its direction. -/
def peerEnd (s : Loopback) : Loopback := { s with peerEnded := true }

/-- The peer resets the stream. -/
def peerReset (s : Loopback) : Loopback := { s with reset := true }

end Loopback

end Duplex.Socket
