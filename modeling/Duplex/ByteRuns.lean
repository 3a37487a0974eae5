import Duplex.Bytes

/-!
# Byte strings as runs

Memory that is mostly one byte over and over is kept as runs (`ByteRuns`): how many bytes, and
which. `ByteRuns.toBytes` is the byte string, and taking from the front, dropping from the front,
filling a range with one byte and comparing with one byte are what they are on that byte string
(`toBytes_take`, `toBytes_drop`, `toBytes_fill`, `isAll_iff`).
-/

namespace Duplex

open scoped Numbers

/-- A byte string: for every run how many bytes, and which. -/
structure ByteRuns where
  runs : List (Nat × UInt8) := []

namespace ByteRuns

/-- The byte string. -/
def toBytes (m : ByteRuns) : Bytes := m.runs.flatMap fun (count, byte) => List.replicate count byte

/-- One byte, over and over. -/
def replicate (count : Nat) (byte : UInt8) : ByteRuns := ⟨[(count, byte)]⟩

/-- The runs of the first `count` bytes. -/
def takeRuns : (count : Nat) → List (Nat × UInt8) → List (Nat × UInt8)
  | _, [] => []
  | count, (n, byte) :: rest =>
    if count ≤ n then [(count, byte)] else (n, byte) :: takeRuns (count - n) rest

/-- The runs of all but the first `count` bytes. -/
def dropRuns : (count : Nat) → List (Nat × UInt8) → List (Nat × UInt8)
  | _, [] => []
  | count, (n, byte) :: rest =>
    if count < n then (n - count, byte) :: rest else dropRuns (count - n) rest

/-- The first `count` bytes. -/
def take (m : ByteRuns) (count : Nat) : ByteRuns := ⟨takeRuns count m.runs⟩

/-- All but the first `count` bytes. -/
def drop (m : ByteRuns) (count : Nat) : ByteRuns := ⟨dropRuns count m.runs⟩

/-- The length of the byte string. -/
def length (m : ByteRuns) : Nat := (m.runs.map (·.1)).sum

/-- The byte string with `count` bytes from `start` on set to one byte, as many as there are. -/
def fill (m : ByteRuns) (start count : Nat) (byte : UInt8) : ByteRuns where
  runs :=
    (m.take start).runs ++ (min count (m.length - start), byte) :: (m.drop (start + count)).runs

/-- Whether every byte is that one. -/
def isAll (m : ByteRuns) (byte : UInt8) : Bool :=
  m.runs.all fun (count, b) => count == 0 || b == byte

theorem toBytes_replicate (count : Nat) (byte : UInt8) :
    (replicate count byte).toBytes = List.replicate count byte := by
  simp [replicate, toBytes]

theorem toBytes_take (m : ByteRuns) (count : Nat) :
    (m.take count).toBytes = m.toBytes.take count := by
  obtain ⟨runs⟩ := m
  simp only [take, toBytes]
  induction runs generalizing count with
  | nil => simp [takeRuns]
  | cons run rest ih =>
    unfold takeRuns
    split
    · simp [List.take_append, List.take_replicate, *]
    · simp [List.take_append, List.take_replicate, ih]
      omega

theorem toBytes_drop (m : ByteRuns) (count : Nat) :
    (m.drop count).toBytes = m.toBytes.drop count := by
  obtain ⟨runs⟩ := m
  simp only [drop, toBytes]
  induction runs generalizing count with
  | nil => simp [dropRuns]
  | cons run rest ih =>
    unfold dropRuns
    split
    · simp [List.drop_append, List.drop_replicate, Nat.sub_eq_zero_of_le (Nat.le_of_lt ‹_›)]
    · simp [List.drop_append, List.drop_replicate, ih]
      omega

@[simp] theorem length_toBytes (m : ByteRuns) : m.toBytes.length = m.length := by
  simp [toBytes, length, List.length_flatMap]

theorem toBytes_fill (m : ByteRuns) (start count : Nat) (byte : UInt8) :
    (m.fill start count byte).toBytes =
      m.toBytes.take start ++ List.replicate (min count (m.length - start)) byte
        ++ m.toBytes.drop (start + count) := by
  simp only [← toBytes_take, ← toBytes_drop]
  simp [toBytes, fill]

theorem isAll_iff (m : ByteRuns) (byte : UInt8) :
    m.isAll byte = true ↔ ∀ b ∈ m.toBytes, b = byte := by
  simp [isAll, toBytes, List.mem_replicate]
  grind

end ByteRuns

end Duplex
