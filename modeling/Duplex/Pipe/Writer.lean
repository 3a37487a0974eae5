import Duplex.BufferPool
import Duplex.Pipe.Basic

/-!
# The writing end of a pipe

The writer asks for a region (`getMemory?`), fills it (`fill`) and commits its front
(`advance`); `copy` does all three until its data is in the pipe, or the pool has no memory for a
region. What they do where there is memory is `getMemory` and `write` (`getMemory?_eq_some`,
`copy_of_fits`). `checkFlush` is one look of a flush at the pipe: it pauses the writer when too
much is buffered and lets it go on when the reader has caught up.
-/

namespace Duplex.Pipe

/-- Makes the region at least `request` bytes long, and at least one byte, unless the pool has no
memory for that. A region that is too short is replaced by a zeroed block of the pool, and what it
held is lost. -/
def getMemory? (p : Pipe) (pool : BufferPool) (request : Nat) : Option Pipe :=
  let request := max request 1
  if p.region.length < request then
    (pool.rent? (max request p.options.minimumSegment)).map fun (block, _) =>
      { p with region := .fresh block.length }
  else some p

/-- The pipe with such a region, where the pool has memory for it. -/
def getMemory (p : Pipe) (pool : BufferPool) (request : Nat) : Pipe :=
  let request := max request 1
  if p.region.length < request then
    { p with region := .fresh (pool.blockLength (max request p.options.minimumSegment)) }
  else p

/-- Copies `data` into the region at `offset`, as much of it as there is room for. -/
def fill (p : Pipe) (offset : Nat) (data : Bytes) : Pipe :=
  { p with region := p.region.fill offset data }

/-- Commits the first `count` bytes of the region, all of it if it is shorter. Once the reader
has completed, what is committed is dropped. -/
def advance (p : Pipe) (count : Nat) : Pipe :=
  let count := min count p.region.length
  if count = 0 then p
  else
    let segment := p.region.take count
    let p := { p with region := p.region.drop count }
    if p.readerCompleted then p
    else
      { p with
        segments := p.segments.push segment
        buffered := p.buffered + count
        readable := p.readable.notifyOne }

theorem one_le_region_getMemory (p : Pipe) (pool : BufferPool) (request : Nat) :
    max request 1 ≤ (p.getMemory pool request).region.length := by
  simp only [getMemory]
  split
  · have := pool.le_blockLength (max (max request 1) p.options.minimumSegment)
    simp only [Region.length_fresh]
    omega
  · omega

theorem getMemory?_eq_some {p q : Pipe} {pool : BufferPool} {request : Nat}
    (h : p.getMemory? pool request = some q) : q = p.getMemory pool request := by
  simp only [getMemory?] at h
  split at h
  · rename_i hl
    obtain ⟨rented, hr, rfl⟩ := Option.map_eq_some_iff.mp h
    simp only [getMemory, if_pos hl]
    rw [← (BufferPool.rent?_eq_some_iff.mp hr).2, BufferPool.length_rent]
  · rename_i hl
    simp only [getMemory, if_neg hl]
    exact (Option.some_inj.mp h).symm

/-- A pool whose slabs fit has memory for every region that fits. -/
theorem getMemory?_of_fits {p : Pipe} {pool : BufferPool} {request : Nat} (hf : pool.Fits)
    (hs : p.options.minimumSegment ≤ BufferPool.maxAllocation)
    (hr : request ≤ BufferPool.maxAllocation) :
    p.getMemory? pool request = some (p.getMemory pool request) := by
  have hm : max (max request 1) p.options.minimumSegment ≤ BufferPool.maxAllocation :=
    Nat.max_le.mpr ⟨Nat.max_le.mpr ⟨hr, by decide⟩, hs⟩
  simp only [getMemory?, getMemory]
  split
  · rw [hf.rent? hm, Option.map_some, BufferPool.length_rent]
  · rfl

/-- Copies `data` into the pipe, region by region, and commits it, for as long as the pool has
memory for a region. What is left of the data comes with the pipe. -/
def copy (p : Pipe) (pool : BufferPool) : (data : Bytes) → Pipe × Bytes
  | [] => (p, [])
  | byte :: rest =>
    let data := byte :: rest
    match _hq : p.getMemory? pool 1 with
    | none => (p, data)
    | some q =>
      let front := data.take q.region.length
      ((q.fill 0 front).advance front.length).copy pool (data.drop front.length)
termination_by data => data.length
decreasing_by
  have := one_le_region_getMemory p pool 1
  rw [← getMemory?_eq_some _hq] at this
  simp only [List.length_take, List.length_drop, List.length_cons]
  omega

/-- Copies all of `data` into the pipe, region by region, and commits it. -/
def write (p : Pipe) (pool : BufferPool) : (data : Bytes) → Pipe
  | [] => p
  | byte :: rest =>
    let data := byte :: rest
    let q := p.getMemory pool 1
    let front := data.take q.region.length
    ((q.fill 0 front).advance front.length).write pool (data.drop front.length)
termination_by data => data.length
decreasing_by
  have := one_le_region_getMemory p pool 1
  simp only [List.length_take, List.length_drop, List.length_cons]
  omega

/-- One look of a flush: the result, unless the flush has to wait. -/
def checkFlush (p : Pipe) : Option (Except ConnectionError FlushResult) × Pipe :=
  if p.readerCompleted then
    match p.readerError with
    | some error => (some (.error error), { p with readerError := none })
    | none => (some (.ok ⟨true⟩), p)
  else if !p.writerPaused
      && (p.options.pauseThreshold == 0 || p.buffered < p.options.pauseThreshold) then
    (some (.ok ⟨false⟩), p)
  else
    let p := if p.writerPaused then p else { p with writerPaused := true, pauses := p.pauses + 1 }
    if p.buffered ≤ p.options.resumeThreshold then
      (some (.ok ⟨false⟩), { p with writerPaused := false, resumes := p.resumes + 1 })
    else (none, p)

/-- Ends the writing. Only the first completion counts. -/
def completeWriter (p : Pipe) (error : Option ConnectionError) : Pipe :=
  if p.writerCompleted then p
  else
    { p with
      writerCompleted := true
      writerError := error
      readable := p.readable.notifyOne }

end Duplex.Pipe
