import Duplex.Wire.Error

/-!
# Reading from the front of a byte string

A `Cursor` computation consumes bytes from the front of what is left. A failure keeps what
was left at that point, so a reader that fails after its first byte has consumed that byte.
`need` checks how much is left and `take` consumes it: a field is read by one after the other.
-/

namespace Duplex.Wire

/-- A reader of bytes: its state is what is left to read, also after a failure. -/
abbrev Cursor := EStateM Error Bytes

namespace Cursor

/-- Fails unless at least `n` bytes are left. Consumes nothing. -/
def need (n : Nat) : Cursor Unit := fun rest =>
  if rest.length < n then .error (.unexpectedEnd n rest.length) rest else .ok () rest

/-- Consumes the first `n` bytes, or all if fewer are left. -/
def take (n : Nat) : Cursor Bytes := fun rest =>
  .ok (rest.take n) (rest.drop n)

/-- The outcome of a reader on `input`, and the bytes it left. -/
def read (reader : Cursor α) (input : Bytes) : Except Error α × Bytes :=
  match reader.run input with
  | .ok value rest => (.ok value, rest)
  | .error cause rest => (.error cause, rest)

end Cursor

end Duplex.Wire
