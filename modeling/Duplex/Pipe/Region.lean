import Duplex.Bytes

/-!
# Regions

The memory that a writer may fill before it commits it. A fresh region is all zeros; only what
was written into it takes room, up to the last byte that was written. `Region.toBytes` is what
the region holds, and filling, taking from the front and dropping from the front are what they
are on that byte string (`toBytes_fill`, `take_eq`, `toBytes_drop`).
-/

namespace Duplex.Pipe

/-- A region of memory. -/
structure Region where
  /-- What the region holds up to the last byte that was written; zeros follow. -/
  written : Bytes := []
  length : Nat := 0
  written_le : written.length ≤ length := by simp

namespace Region

/-- A region of `length` bytes that nothing has written to. -/
def fresh (length : Nat) : Region where
  length := length

/-- What the region holds. -/
def toBytes (r : Region) : Bytes := r.written ++ Bytes.zeros (r.length - r.written.length)

/-- The region with `data` copied in at `offset`, as much of it as there is room for. -/
def fill (r : Region) (offset : Nat) (data : Bytes) : Region :=
  let copied := data.take (r.length - offset)
  if h : copied = [] then r
  else
    { r with
      written :=
        r.written.take offset ++ Bytes.zeros (offset - r.written.length) ++ copied
          ++ r.written.drop (offset + copied.length)
      written_le := by
        have := r.written_le
        have : 0 < copied.length := List.length_pos_iff.2 h
        simp only [copied, List.length_append, List.length_take, List.length_drop,
          Bytes.length_zeros] at *
        omega }

/-- The first `count` bytes, all of them if there are fewer. -/
def take (r : Region) (count : Nat) : Bytes :=
  r.written.take count ++ Bytes.zeros (min count r.length - r.written.length)

/-- The region without its first `count` bytes. -/
def drop (r : Region) (count : Nat) : Region where
  written := r.written.drop count
  length := r.length - count
  written_le := by
    have := r.written_le
    simp only [List.length_drop]
    omega

@[simp] theorem length_fresh (n : Nat) : (fresh n).length = n := rfl

@[simp] theorem length_toBytes (r : Region) : r.toBytes.length = r.length := by
  have := r.written_le
  simp only [toBytes, List.length_append, Bytes.length_zeros]
  omega

@[simp] theorem toBytes_fresh (n : Nat) : (fresh n).toBytes = Bytes.zeros n := rfl

@[simp] theorem length_fill (r : Region) (offset : Nat) (data : Bytes) :
    (r.fill offset data).length = r.length := by
  simp only [fill]
  split <;> rfl

@[simp] theorem length_drop (r : Region) (count : Nat) : (r.drop count).length = r.length - count :=
  rfl

theorem take_eq (r : Region) (count : Nat) : r.take count = r.toBytes.take count := by
  have := r.written_le
  simp only [take, toBytes, Bytes.zeros, List.take_append, List.take_replicate]
  congr 2
  omega

@[simp] theorem toBytes_drop (r : Region) (count : Nat) :
    (r.drop count).toBytes = r.toBytes.drop count := by
  have := r.written_le
  simp only [drop, toBytes, Bytes.zeros, List.drop_append, List.drop_replicate, List.length_drop]
  congr 2
  omega

theorem toBytes_fill (r : Region) (offset : Nat) (data : Bytes) :
    (r.fill offset data).toBytes = r.toBytes.overwrite offset data := by
  have := r.written_le
  simp only [fill, Bytes.overwrite, length_toBytes]
  split
  · rename_i nothing
    split
    · simp [nothing]
    · rfl
  · rename_i some
    have : 0 < (data.take (r.length - offset)).length := List.length_pos_iff.2 some
    rw [List.length_take] at this
    rw [if_pos (by omega)]
    simp only [toBytes, Bytes.zeros, List.take_append, List.drop_append, List.take_replicate,
      List.drop_replicate, List.length_append, List.length_take, List.length_replicate,
      List.length_drop, List.append_assoc]
    congr 2
    · congr 1; omega
    · congr 3; omega

end Region

end Duplex.Pipe
