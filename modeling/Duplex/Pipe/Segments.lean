import Duplex.Bytes

/-!
# Queues of segments

A queue of byte strings (`Segments`), seen front first as `Segments.toList`. A segment joins at
the back (`toList_push`), and bytes leave from the front, whole segments and a part of one
(`toList_dropBytes`). What joins late is kept last first, so that joining takes the same time
however long the queue is.
-/

namespace Duplex.Pipe

/-- A queue of byte strings. -/
structure Segments where
  /-- The segments at the front, front first. -/
  front : List Bytes := []
  /-- The segments behind them, last first. -/
  back : List Bytes := []

namespace Segments

/-- The segments, front first. -/
def toList : Segments → List Bytes
  | ⟨front, []⟩ => front
  | ⟨front, back⟩ => front ++ back.reverse

/-- The queue with one more segment at its back. -/
def push (q : Segments) (segment : Bytes) : Segments := { q with back := segment :: q.back }

/-- The segment at the front. -/
def head? (q : Segments) : Option Bytes := q.front.head?.or q.back.getLast?

/-- What is left of segments without their first `count` bytes. -/
def dropFrom : (count : Nat) → List Bytes → List Bytes
  | _, [] => []
  | count, segment :: rest =>
    if count = 0 then segment :: rest
    else if segment.length ≤ count then dropFrom (count - segment.length) rest
    else segment.drop count :: rest

/-- The queue without its first `count` bytes. -/
def dropBytes (q : Segments) (count : Nat) : Segments := { front := dropFrom count q.toList }

theorem toList_eq (q : Segments) : q.toList = q.front ++ q.back.reverse := by
  unfold toList
  split <;> simp

@[simp] theorem toList_empty : ({} : Segments).toList = [] := rfl

@[simp] theorem toList_push (q : Segments) (segment : Bytes) :
    (q.push segment).toList = q.toList ++ [segment] := by
  simp [toList_eq, push]

@[simp] theorem toList_dropBytes (q : Segments) (count : Nat) :
    (q.dropBytes count).toList = dropFrom count q.toList := rfl

theorem head?_eq (q : Segments) : q.head? = q.toList.head? := by
  simp [toList_eq, head?, List.head?_append]

/-- Dropping bytes from segments drops them from their concatenation. -/
theorem flatten_dropFrom (count : Nat) (segments : List Bytes) :
    (dropFrom count segments).flatten = segments.flatten.drop count := by
  induction segments generalizing count with
  | nil => simp [dropFrom]
  | cons segment rest ih =>
    unfold dropFrom
    split
    · simp_all
    · split
      · rename_i short
        rw [ih, List.flatten_cons, List.drop_append, List.drop_eq_nil_of_le short, List.nil_append]
      · rw [List.flatten_cons, List.flatten_cons, List.drop_append,
          Nat.sub_eq_zero_of_le (by omega), List.drop_zero]

end Segments

end Duplex.Pipe
