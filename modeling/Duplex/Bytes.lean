import Duplex.Numbers

/-!
# Byte strings

A byte string is a list of bytes. Numbers are written most significant byte first
(`Bytes.ofNat`, `Bytes.toNat`), a region of memory is a byte string that is overwritten in
place (`Bytes.overwrite`), and bytes are shown as two lowercase hexadecimal digits each
(`Bytes.hex`).
-/

namespace Duplex

open scoped Numbers

/-- A byte string. -/
abbrev Bytes := List UInt8

namespace Bytes

/-- The number written by `bs`, most significant byte first. -/
def toNat (bs : Bytes) : Nat :=
  bs.foldl (fun n b => n * 256 + b.toNat) 0

/-- The low `width` bytes of `n`, most significant byte first. -/
def ofNat : (width : Nat) → (n : Nat) → Bytes
  | 0, _ => []
  | width + 1, n => UInt8.ofNat (n / 256 ^ width) :: ofNat width n

/-- A region of `n` bytes that nothing has written to. -/
def zeros (n : Nat) : Bytes :=
  List.replicate n 0

/-- The region with `data` copied in at `offset`, as much of it as the region has room for. -/
def overwrite (region : Bytes) (offset : Nat) (data : Bytes) : Bytes :=
  if offset < region.length then
    let copied := data.take (region.length - offset)
    region.take offset ++ copied ++ region.drop (offset + copied.length)
  else region

/-- The lowercase hexadecimal digit of a number below 16. -/
def hexDigit (n : Nat) : Char :=
  if n < 10 then Char.ofNat ('0'.toNat + n) else Char.ofNat ('a'.toNat + (n - 10))

/-- A byte as two lowercase hexadecimal digits. -/
def hexByte (b : UInt8) : String :=
  String.ofList [hexDigit (b.toNat / 16), hexDigit (b.toNat % 16)]

/-- A byte string in hexadecimal. -/
def hex (bs : Bytes) : String :=
  String.join (bs.map hexByte)

/-! ## Numbers -/

@[simp] theorem length_ofNat (width n : Nat) : (ofNat width n).length = width := by
  induction width with
  | zero => rfl
  | succ width ih => simp [ofNat, ih]

@[simp] theorem length_zeros (n : Nat) : (zeros n).length = n :=
  List.length_replicate

/-- Copying into a region never changes its length. -/
@[simp] theorem length_overwrite (region : Bytes) (offset : Nat) (data : Bytes) :
    (region.overwrite offset data).length = region.length := by
  unfold overwrite
  split
  · simp only [List.length_append, List.length_take, List.length_drop]
    omega
  · rfl

end Bytes

end Duplex
