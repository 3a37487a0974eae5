import Duplex.ByteRuns

/-!
# Buffer pool

A pool carves blocks of one size from the front of a slab: zeroed memory for 32 blocks. A
request that is larger than a block, and every request after the pool is disposed of, gets
zeroed memory of its own. A block is a range of a slab (`Block`), so that a write to one block
can be compared with what another block holds (`BufferPool.write`, `BufferPool.contents`).

`BufferPool.blockLength` is how long a block is that answers a request. Memory is not longer than
`BufferPool.maxAllocation`: a request that takes more is not answered (`BufferPool.rent?`), and one
of an ordinary size always is in a pool whose slabs are that short (`BufferPool.Fits`).
-/

namespace Duplex

open scoped Numbers

/-- A range of bytes of a slab. -/
structure Block where
  slab : Nat
  start : Nat
  length : Nat
deriving DecidableEq, Inhabited

/-- A slab allocator for I/O buffers. -/
structure BufferPool where
  blockSize : Nat
  /-- The memory of every slab allocated so far. -/
  slabs : Array ByteRuns := #[]
  /-- The part of the current slab that no block has been carved from. -/
  untouched : Block := ⟨0, 0, 0⟩
  disposed : Bool := false

namespace BufferPool

/-- The size of a block unless another size is asked for. -/
def defaultBlockSize : Nat := 4096

/-- The number of blocks in a slab. -/
def blocksPerSlab : Nat := 32

/-- The most bytes that one piece of memory has. -/
def maxAllocation : Nat := 2 ^ (63 : Nat) - 1

/-- The length of the block that answers a request for `request` bytes. -/
def blockLength (pool : BufferPool) (request : Nat) : Nat :=
  if pool.blockSize < request ∨ pool.disposed then max request pool.blockSize
  else pool.blockSize

/-- Allocates a slab of `n` zero bytes; all of it is the result. -/
def allocate (pool : BufferPool) (n : Nat) : Block × BufferPool :=
  (⟨pool.slabs.size, 0, n⟩, { pool with slabs := pool.slabs.push (.replicate n 0) })

/-- A current slab that a block can be carved from. -/
def refill (pool : BufferPool) : BufferPool :=
  if pool.untouched.length < pool.blockSize then
    let (slab, pool) := pool.allocate (pool.blockSize * blocksPerSlab)
    { pool with untouched := slab }
  else pool

/-- Takes a block off the front of the current slab. -/
def carve (pool : BufferPool) : Block × BufferPool :=
  let block := { pool.untouched with length := pool.blockSize }
  let rest : Block := {
    slab := block.slab
    start := block.start + pool.blockSize
    length := pool.untouched.length - pool.blockSize }
  (block, { pool with untouched := rest })

/-- Hands out a block of at least `request` bytes. -/
def rent (pool : BufferPool) (request : Nat) : Block × BufferPool :=
  if pool.blockSize < request ∨ pool.disposed then pool.allocate (max request pool.blockSize)
  else pool.refill.carve

/-- How much memory is allocated to answer a request: as much as the request takes if it gets
memory of its own, a slab if no block is left of the current one, and otherwise nothing. -/
def allocation (pool : BufferPool) (request : Nat) : Nat :=
  if pool.blockSize < request ∨ pool.disposed then max request pool.blockSize
  else if pool.untouched.length < pool.blockSize then pool.blockSize * blocksPerSlab
  else 0

/-- Hands out a block, unless that takes more memory than there can be in one piece. -/
def rent? (pool : BufferPool) (request : Nat) : Option (Block × BufferPool) :=
  if pool.allocation request ≤ maxAllocation then some (pool.rent request) else none

/-- A slab of the pool is no longer than memory can be. -/
def Fits (pool : BufferPool) : Prop := pool.blockSize * blocksPerSlab ≤ maxAllocation

instance (pool : BufferPool) : Decidable pool.Fits :=
  inferInstanceAs (Decidable (pool.blockSize * blocksPerSlab ≤ maxAllocation))

/-- Drops the current slab; blocks that were handed out stay valid. -/
def dispose (pool : BufferPool) : BufferPool :=
  if pool.disposed then pool else { pool with untouched := ⟨0, 0, 0⟩, disposed := true }

/-- The memory of a block. -/
def memory (pool : BufferPool) (block : Block) : ByteRuns :=
  ((pool.slabs.getD block.slab {}).drop block.start).take block.length

/-- The bytes of a block. -/
def contents (pool : BufferPool) (block : Block) : Bytes := (pool.memory block).toBytes

/-- Sets every byte of a block. -/
def write (pool : BufferPool) (block : Block) (byte : UInt8) : BufferPool :=
  { pool with slabs := pool.slabs.modify block.slab (·.fill block.start block.length byte) }

/-! ## Lengths -/

theorem length_rent (pool : BufferPool) (request : Nat) :
    (pool.rent request).1.length = pool.blockLength request := by
  unfold rent blockLength
  split
  · rfl
  · have : pool.refill.blockSize = pool.blockSize := by
      unfold refill
      split <;> rfl
    exact this

/-- A block is never shorter than what was asked for. -/
theorem le_blockLength (pool : BufferPool) (request : Nat) :
    request ≤ pool.blockLength request := by
  unfold blockLength
  split <;> omega

/-! ## Requests that are answered -/

theorem rent?_eq_some_iff {pool : BufferPool} {request : Nat} {rented : Block × BufferPool} :
    pool.rent? request = some rented ↔
      pool.allocation request ≤ maxAllocation ∧ pool.rent request = rented := by
  simp only [rent?, Option.ite_none_right_eq_some, Option.some.injEq]

/-- A pool whose slabs fit answers every request that fits. -/
theorem Fits.rent? {pool : BufferPool} (hf : pool.Fits) {request : Nat}
    (hr : request ≤ maxAllocation) : pool.rent? request = some (pool.rent request) := by
  have hs : pool.blockSize * 32 ≤ maxAllocation := hf
  refine rent?_eq_some_iff.mpr ⟨?_, rfl⟩
  unfold allocation
  split
  · omega
  · split
    · exact hs
    · exact Nat.zero_le _

end BufferPool

end Duplex
