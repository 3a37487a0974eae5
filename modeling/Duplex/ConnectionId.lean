import Duplex.Wire.Cursor

/-!
# Connection ids

A connection is named by up to 18 bytes. An id is kept in a fixed number of bytes, padded with
zeros past its length; equality and order compare the length first and then the padded bytes.
An id and an extension of it by zeros are different ids, because their lengths differ.
-/

namespace Duplex

/-- The name of a connection. -/
structure ConnectionId where
  /-- How many bytes the id has. -/
  length : Nat
  /-- The bytes of the id, padded with zeros. -/
  storage : Bytes
  length_le : length ≤ 18
  storage_length : storage.length = 18
  padding : storage.drop length = Bytes.zeros (18 - length)
deriving DecidableEq

namespace ConnectionId

/-- The largest number of bytes in an id. -/
def maxLength : Nat := 18

/-- The id made of the first 18 bytes of `bs`, of all of them if there are fewer. -/
def fit (bs : Bytes) : ConnectionId where
  length := (bs.take 18).length
  storage := bs.take 18 ++ Bytes.zeros (18 - (bs.take 18).length)
  length_le := by simp only [List.length_take]; omega
  storage_length := by simp only [List.length_append, Bytes.length_zeros, List.length_take]; omega
  padding := List.drop_left

/-- The id with the bytes `bs`, if there are at most 18. -/
def ofBytes? (bs : Bytes) : Option ConnectionId :=
  if bs.length ≤ maxLength then some (fit bs) else none

/-- The id of no bytes. -/
def empty : ConnectionId := fit []

instance : Inhabited ConnectionId := ⟨empty⟩

/-- The id of `length` bytes, at most 18, drawn from a source of bytes. -/
def random (length : Nat) (source : Nat → UInt8) : ConnectionId :=
  fit ((List.range (min length maxLength)).map source)

/-- The bytes of the id. -/
def bytes (id : ConnectionId) : Bytes := id.storage.take id.length

def isEmpty (id : ConnectionId) : Bool := id.length == 0

/-- The id in hexadecimal, after `0x`. -/
def text (id : ConnectionId) : String := "0x" ++ Bytes.hex id.bytes

/-- Order of byte strings: the first difference decides, a proper prefix comes first. -/
def compareBytes : Bytes → Bytes → Ordering
  | [], [] => .eq
  | [], _ :: _ => .lt
  | _ :: _, [] => .gt
  | a :: as, b :: bs => (compare a b).then (compareBytes as bs)

/-- Shorter ids come first; ids of one length are ordered by their padded bytes. -/
protected def compare (a b : ConnectionId) : Ordering :=
  (compare a.length b.length).then (compareBytes a.storage b.storage)

instance : Ord ConnectionId := ⟨ConnectionId.compare⟩

/-- Reads an id of `length` bytes. -/
def read (length : Nat) : Wire.Cursor ConnectionId := do
  Wire.Cursor.need length
  fit <$> Wire.Cursor.take length

/-! ## The bytes of an id -/

/-- An id holds the bytes it was made from. -/
theorem bytes_fit {bs : Bytes} (h : bs.length ≤ 18) : (fit bs).bytes = bs := by
  simp [fit, bytes, List.take_of_length_le h]

@[simp] theorem length_bytes (id : ConnectionId) : id.bytes.length = id.length := by
  rw [bytes, List.length_take, id.storage_length]
  exact Nat.min_eq_left id.length_le

theorem length_fit {bs : Bytes} (h : bs.length ≤ 18) : (fit bs).length = bs.length := by
  rw [← length_bytes, bytes_fit h]

/-- An id is made of its bytes alone. -/
@[simp] theorem fit_bytes (id : ConnectionId) : fit id.bytes = id := by
  obtain ⟨length, storage, length_le, storage_length, padding⟩ := id
  have hl : ((storage.take length).take 18).length = length := by
    rw [List.length_take, List.length_take, storage_length]; omega
  have hs : (storage.take length).take 18 ++ Bytes.zeros (18 - length) = storage := by
    rw [List.take_take, Nat.min_eq_right length_le, ← padding, List.take_append_drop]
  simp only [fit, bytes, hl, hs]

end ConnectionId

end Duplex
