import Duplex.BufferPool

/-!
# A buffer pool in scripted use

A session fills every block it rents with one byte and keeps some of the blocks, so that it
shows whether a block was zero when it was handed out and whether the kept blocks stay as they
were filled.
-/

namespace Duplex.BufferPool

/-- A pool and the blocks that are kept. -/
structure Session where
  pool : BufferPool
  kept : List Block := []

/-- What a script does to a pool. -/
inductive Action where
  | rent (request : Nat) (keep : Bool)
  | release
  | dispose

/-- What an action answers. -/
inductive Reply where
  | rented (length : Nat) (zero : Bool)
  | done

namespace Session

/-- The byte that blocks are filled with. -/
def filling : UInt8 := 0xee

/-- Whether every kept block holds nothing but the filling. -/
def intact (s : Session) : Bool :=
  s.kept.all fun block => (s.pool.memory block).isAll filling

/-- Performs an action. A request for more memory than there can be is not answered. -/
def perform (s : Session) : Action → Reply × Session
  | .rent request keep =>
    match s.pool.rent? request with
    | some (block, pool) =>
      let zero := (pool.memory block).isAll 0
      (.rented block.length zero,
        { pool := pool.write block filling, kept := if keep then s.kept ++ [block] else s.kept })
    | none => (.done, s)
  | .release => (.done, { s with kept := [] })
  | .dispose => (.done, { s with pool := s.pool.dispose })

end Session

end Duplex.BufferPool
