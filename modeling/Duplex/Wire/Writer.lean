import Duplex.Wire.Error

/-!
# Appending to a buffer

A `Writer` computation appends bytes to a buffer. A failure keeps what was in the buffer at that
point, so a writer that fails after its first byte has left that byte there.
-/

namespace Duplex.Wire

/-- A writer: its state is the buffer so far, also after a failure. -/
abbrev Writer := EStateM Error Bytes

namespace Writer

/-- Appends bytes. -/
def put (bytes : Bytes) : Writer Unit := fun buffer => .ok () (buffer ++ bytes)

/-- Goes on with the value of a check that has passed. Appends nothing. -/
def check : Except Error α → Writer α
  | .ok value => fun buffer => .ok value buffer
  | .error cause => fun buffer => .error cause buffer

/-- The outcome of a writer on a buffer, and the buffer after it. -/
def append (writer : Writer α) (buffer : Bytes) : Except Error α × Bytes :=
  match writer.run buffer with
  | .ok value buffer => (.ok value, buffer)
  | .error cause buffer => (.error cause, buffer)

/-- What a writer appends to an empty buffer, if it does not fail. -/
def bytes (writer : Writer α) : Except Error Bytes :=
  match writer.run [] with
  | .ok _ buffer => .ok buffer
  | .error cause _ => .error cause

end Writer

end Duplex.Wire
