import Duplex.BufferPool
import Duplex.Proofs.Steps

/-!
# The blocks of a buffer pool

Memory is compared byte by byte (`byteAt?`): a write changes the bytes that its block covers, and a
new slab adds zeros to what there was. Two blocks are apart if no byte is part of both.

What has not been carved from the current slab is a whole number of blocks, all zeros, and apart
from every block that was ever handed out (`Tidy`). Every use of the pool keeps it so
(`Kept.perform`): renting takes one block off the front or leaves the slab alone, writing and
releasing concern blocks that were handed out, disposing leaves nothing. So whatever a pool is used
for, the blocks that it hands out are zero, as long as they should be, and apart from each other
(`blocks_lent`).
-/

namespace Duplex

/-! ## Bytes -/

theorem Bytes.getElem?_overwrite {region data : Bytes} {offset : Nat}
    (h : offset + data.length ≤ region.length) (i : Nat) :
    (region.overwrite offset data)[i]? =
      if offset ≤ i ∧ i < offset + data.length then data[i - offset]? else region[i]? := by
  by_cases ho : offset < region.length
  · rw [overwrite, if_pos ho, List.take_of_length_le (by omega), List.append_assoc,
      List.getElem?_append, List.getElem?_append, List.length_take, List.getElem?_take,
      List.getElem?_drop, Nat.min_eq_left (by omega)]
    by_cases hi : i < offset
    · rw [if_pos hi, if_pos hi, if_neg (by omega)]
    · rw [if_neg hi]
      by_cases hd : i < offset + data.length
      · rw [if_pos (by omega), if_pos (by omega)]
      · rw [if_neg (by omega), if_neg (by omega)]
        congr 1
        omega
  · rw [overwrite, if_neg ho, if_neg (by omega)]

theorem ByteRuns.getElem?_fill (m : ByteRuns) (start count : Nat) (byte : UInt8) (n : Nat) :
    (m.fill start count byte).toBytes[n]? =
      if start ≤ n ∧ n < start + count then m.toBytes[n]?.map fun _ => byte
      else m.toBytes[n]? := by
  have hl := m.length_toBytes
  rw [toBytes_fill, List.append_assoc, List.getElem?_append, List.getElem?_append,
    List.length_take, List.length_replicate, List.getElem?_take, List.getElem?_replicate,
    List.getElem?_drop]
  by_cases hn : n < m.toBytes.length
  · rw [List.getElem?_eq_getElem hn, Option.map_some]
    by_cases hs : n < start
    · rw [if_pos (by omega), if_pos hs, if_neg (by omega)]
    · rw [if_neg (by omega)]
      by_cases hc : n < start + count
      · rw [if_pos (by omega), if_pos (by omega), if_pos (by omega)]
      · rw [if_neg (by omega), if_neg (by omega), ← List.getElem?_eq_getElem hn]
        congr 1
        omega
  · have hnone : m.toBytes[n]? = none := List.getElem?_eq_none (by omega)
    simp only [hnone, Option.map_none, ite_self]
    rw [if_neg (by omega), if_neg (by omega)]
    refine List.getElem?_eq_none ?_
    omega

namespace Block

/-- Whether the byte `n` of a slab is part of the block. -/
def Covers (block : Block) (slab n : Nat) : Prop :=
  block.slab = slab ∧ block.start ≤ n ∧ n < block.start + block.length

instance (block : Block) (slab n : Nat) : Decidable (block.Covers slab n) :=
  inferInstanceAs (Decidable (_ ∧ _))

/-- No byte is part of both blocks. -/
def Apart (a b : Block) : Prop := ∀ slab n, a.Covers slab n → ¬ b.Covers slab n

theorem Apart.symm {a b : Block} (h : a.Apart b) : b.Apart a :=
  fun slab n hb ha => h slab n ha hb

/-- The `length` bytes of a block from `offset` on. -/
def part (block : Block) (offset length : Nat) : Block where
  slab := block.slab
  start := block.start + offset
  length := length

theorem covers_part_iff {block : Block} {offset length slab n : Nat} :
    (block.part offset length).Covers slab n ↔
      block.slab = slab ∧ block.start + offset ≤ n ∧ n < block.start + offset + length :=
  Iff.rfl

theorem Covers.of_part {block : Block} {offset length slab n : Nat}
    (h : (block.part offset length).Covers slab n) (hl : offset + length ≤ block.length) :
    block.Covers slab n := by
  obtain ⟨hs, hn, hn'⟩ := covers_part_iff.mp h
  exact ⟨hs, by omega, by omega⟩

theorem Apart.part {a b : Block} {offset length : Nat} (h : a.Apart b)
    (hl : offset + length ≤ b.length) : a.Apart (b.part offset length) :=
  fun slab n ha hb => h slab n ha (hb.of_part hl)

/-- A block and what follows it are apart. -/
theorem apart_parts (block : Block) (length length' : Nat) :
    (block.part 0 length).Apart (block.part length length') := by
  intro slab n h h'
  have hn := (covers_part_iff.mp h).2.2
  have hn' := (covers_part_iff.mp h').2.1
  omega

end Block

namespace BufferPool

variable {pool pool' : BufferPool} {block other : Block} {rented : List Block}
  {slab n offset length request : Nat} {data : Bytes}

/-- The byte `n` of a slab, if there is one. -/
def byteAt? (pool : BufferPool) (slab n : Nat) : Option UInt8 :=
  (pool.slabs.getD slab {}).toBytes[n]?

theorem getElem?_contents (pool : BufferPool) (block : Block) (i : Nat) :
    (pool.contents block)[i]? =
      if i < block.length then pool.byteAt? block.slab (block.start + i) else none := by
  rw [contents, memory, ByteRuns.toBytes_take, ByteRuns.toBytes_drop, List.getElem?_take,
    List.getElem?_drop, byteAt?]

/-- The contents of a block depend on the bytes that it covers. -/
theorem contents_congr (h : ∀ n, block.Covers block.slab n →
    pool'.byteAt? block.slab n = pool.byteAt? block.slab n) :
    pool'.contents block = pool.contents block := by
  refine List.ext_getElem? fun i => ?_
  rw [getElem?_contents, getElem?_contents]
  split
  · exact h _ ⟨rfl, by omega, by omega⟩
  · rfl

/-- All of the block is memory of a slab. -/
def Allocated (pool : BufferPool) (block : Block) : Prop :=
  (pool.contents block).length = block.length

theorem allocated_iff : pool.Allocated block ↔
    ∀ slab n, block.Covers slab n → pool.byteAt? slab n ≠ none := by
  constructor
  · rintro ha slab n ⟨rfl, hn, hn'⟩
    have hi : n - block.start < (pool.contents block).length := by rw [ha]; omega
    have he := pool.getElem?_contents block (n - block.start)
    rw [List.getElem?_eq_getElem hi, if_pos (by omega), Nat.add_sub_cancel' hn] at he
    rw [← he]
    exact Option.some_ne_none _
  · intro h
    have hl : (pool.contents block).length ≤ block.length := by
      rw [contents, memory, ByteRuns.toBytes_take, List.length_take]
      exact Nat.min_le_left _ _
    refine Nat.le_antisymm hl (Nat.le_of_not_lt fun hlt => ?_)
    have he := pool.getElem?_contents block (pool.contents block).length
    rw [List.getElem?_eq_none (Nat.le_refl _), if_pos hlt] at he
    exact h _ _ ⟨rfl, by omega, by omega⟩ he.symm

theorem Allocated.slab_lt (ha : pool.Allocated block) (hc : block.Covers slab n) :
    slab < pool.slabs.size := by
  by_cases hs : slab < pool.slabs.size
  · exact hs
  · refine absurd ?_ (allocated_iff.mp ha slab n hc)
    rw [byteAt?, Array.getD_eq_getD_getElem?, Array.getElem?_eq_none (by omega)]
    rfl

/-- What is zero is zero in every part. -/
theorem contents_part (h : pool.contents block = Bytes.zeros block.length)
    (hl : offset + length ≤ block.length) :
    pool.contents (block.part offset length) = Bytes.zeros length := by
  refine List.ext_getElem? fun i => ?_
  rw [getElem?_contents, Bytes.zeros, List.getElem?_replicate]
  show (if i < length then pool.byteAt? block.slab (block.start + offset + i) else none) = _
  split
  · have hb := pool.getElem?_contents block (offset + i)
    rw [h, Bytes.zeros, List.getElem?_replicate, if_pos (by omega), if_pos (by omega),
      ← Nat.add_assoc] at hb
    exact hb.symm
  · rfl

/-! ## Writing -/

theorem byteAt?_write (pool : BufferPool) (block : Block) (byte : UInt8) (slab n : Nat) :
    (pool.write block byte).byteAt? slab n =
      if block.Covers slab n then (pool.byteAt? slab n).map fun _ => byte
      else pool.byteAt? slab n := by
  simp only [byteAt?, write, Array.getD_eq_getD_getElem?, Array.getElem?_modify]
  by_cases hs : block.slab = slab
  · subst hs
    rw [if_pos rfl]
    cases pool.slabs[block.slab]? with
    | none => exact (ite_self _).symm
    | some m =>
      show (m.fill block.start block.length byte).toBytes[n]? = _
      rw [ByteRuns.getElem?_fill]
      simp only [Block.Covers, true_and]
      rfl
  · rw [if_neg hs, if_neg fun hc => hs hc.1]

/-- Copies `data` into a block at `offset`, byte by byte. -/
def copyInto (pool : BufferPool) (block : Block) : (offset : Nat) → Bytes → BufferPool
  | _, [] => pool
  | offset, byte :: data => (pool.write (block.part offset 1) byte).copyInto block (offset + 1) data

/-- Nothing but memory changes, and no memory is added. -/
theorem copyInto_frame (pool : BufferPool) (block : Block) (offset : Nat) (data : Bytes) :
    ∃ slabs : Array ByteRuns, slabs.size = pool.slabs.size ∧
      pool.copyInto block offset data = { pool with slabs } := by
  induction data generalizing pool offset with
  | nil => exact ⟨_, rfl, rfl⟩
  | cons byte data ih =>
    obtain ⟨slabs, hs, he⟩ := ih (pool.write (block.part offset 1) byte) (offset + 1)
    rw [write, Array.size_modify] at hs
    exact ⟨slabs, hs, he⟩

theorem byteAt?_copyInto (pool : BufferPool) (block : Block) (offset : Nat) (data : Bytes)
    (slab n : Nat) :
    (pool.copyInto block offset data).byteAt? slab n =
      if (block.part offset data.length).Covers slab n then
        (pool.byteAt? slab n).map fun old => data.getD (n - (block.start + offset)) old
      else pool.byteAt? slab n := by
  induction data generalizing pool offset with
  | nil =>
    rw [copyInto, if_neg]
    rw [Block.covers_part_iff, List.length_nil]
    omega
  | cons byte data ih =>
    rw [copyInto, ih, byteAt?_write]
    simp only [Block.covers_part_iff, List.length_cons]
    by_cases hs : block.slab = slab
    · by_cases hn : n = block.start + offset
      · -- The byte in front is written by the first write, and no other one touches it.
        rw [if_neg (by omega), if_pos (by omega), if_pos (by omega), hn, Nat.sub_self]
        rfl
      · rw [if_neg (by omega : ¬ (block.slab = slab ∧ block.start + offset ≤ n ∧
          n < block.start + offset + 1))]
        by_cases hc : block.start + (offset + 1) ≤ n ∧ n < block.start + (offset + 1) + data.length
        · rw [if_pos ⟨hs, hc⟩, if_pos (by omega),
            show n - (block.start + offset) = n - (block.start + (offset + 1)) + 1 by omega]
          rfl
        · rw [if_neg fun h => hc h.2, if_neg (by omega)]
    · rw [if_neg fun h => hs h.1, if_neg fun h => hs h.1, if_neg fun h => hs h.1]

/-- What is copied into a block overwrites what it held. -/
theorem contents_copyInto (ha : pool.Allocated block) (hl : offset + data.length ≤ block.length) :
    (pool.copyInto block offset data).contents block =
      (pool.contents block).overwrite offset data := by
  refine List.ext_getElem? fun i => ?_
  rw [Bytes.getElem?_overwrite (by rw [ha]; exact hl), getElem?_contents, getElem?_contents,
    byteAt?_copyInto]
  simp only [Block.covers_part_iff, true_and]
  by_cases hi : i < block.length
  · rw [if_pos hi, if_pos hi]
    by_cases hd : offset ≤ i ∧ i < offset + data.length
    · rw [if_pos (by omega), if_pos hd,
        show block.start + i - (block.start + offset) = i - offset by omega]
      obtain ⟨old, hb⟩ := Option.ne_none_iff_exists'.mp
        (allocated_iff.mp ha block.slab (block.start + i) ⟨rfl, by omega, by omega⟩)
      have hj : i - offset < data.length := by omega
      rw [hb, Option.map_some, List.getD_eq_getElem?_getD, List.getElem?_eq_getElem hj,
        Option.getD_some]
    · rw [if_neg (by omega), if_neg hd]
  · rw [if_neg hi, if_neg hi, if_neg (by omega)]

/-- A block that is apart holds what it held. -/
theorem contents_copyInto_of_apart (h : block.Apart other)
    (hl : offset + data.length ≤ block.length) :
    (pool.copyInto block offset data).contents other = pool.contents other := by
  refine contents_congr fun n hc => ?_
  rw [byteAt?_copyInto, if_neg fun hp => h _ n (hp.of_part hl) hc]

theorem Allocated.copyInto (ha : pool.Allocated other) (block : Block) (offset : Nat)
    (data : Bytes) : (pool.copyInto block offset data).Allocated other := by
  refine allocated_iff.mpr fun slab n hc => ?_
  have hb := allocated_iff.mp ha slab n hc
  rw [byteAt?_copyInto]
  split
  · rwa [ne_eq, Option.map_eq_none_iff]
  · exact hb

/-! ## New memory -/

theorem byteAt?_allocate (pool : BufferPool) (count slab n : Nat) :
    (pool.allocate count).2.byteAt? slab n =
      if slab = pool.slabs.size then if n < count then some 0 else none
      else pool.byteAt? slab n := by
  simp only [byteAt?, allocate, Array.getD_eq_getD_getElem?, Array.getElem?_push]
  split
  · rw [Option.getD_some, ByteRuns.toBytes_replicate, List.getElem?_replicate]
  · rfl

theorem contents_allocate_fst (pool : BufferPool) (count : Nat) :
    (pool.allocate count).2.contents (pool.allocate count).1 = Bytes.zeros count := by
  refine List.ext_getElem? fun i => ?_
  rw [getElem?_contents, byteAt?_allocate, Bytes.zeros, List.getElem?_replicate]
  show (if i < count then if pool.slabs.size = pool.slabs.size then if 0 + i < count then some 0
    else none else _ else none) = _
  rw [if_pos rfl, Nat.zero_add]
  split <;> rfl

theorem Allocated.apart_allocate (ha : pool.Allocated block) (count : Nat) :
    block.Apart (pool.allocate count).1 := by
  rintro slab n hc ⟨hs, -⟩
  have hlt := ha.slab_lt hc
  exact absurd hs.symm (Nat.ne_of_lt hlt)

theorem Allocated.contents_allocate (ha : pool.Allocated block) (count : Nat) :
    (pool.allocate count).2.contents block = pool.contents block := by
  refine contents_congr fun n hc => ?_
  rw [byteAt?_allocate, if_neg (Nat.ne_of_lt (ha.slab_lt hc))]

theorem refill_frame (pool : BufferPool) :
    pool.refill.blockSize = pool.blockSize ∧ pool.refill.disposed = pool.disposed := by
  rw [refill]
  split <;> exact ⟨rfl, rfl⟩

/-- A pool that was disposed of is left alone when a block is rented. -/
theorem rent_frame (pool : BufferPool) (request : Nat) :
    (pool.rent request).2.blockSize = pool.blockSize ∧
      (pool.rent request).2.disposed = pool.disposed ∧
      (pool.disposed = true → (pool.rent request).2.untouched = pool.untouched) := by
  obtain ⟨hs, hd⟩ := pool.refill_frame
  rw [rent]
  split
  · exact ⟨rfl, rfl, fun _ => rfl⟩
  · rename_i hn
    exact ⟨hs, hd, fun h => absurd (.inr h) hn⟩

/-- What a pool has left, beside the blocks that it has handed out. -/
structure Tidy (pool : BufferPool) (rented : List Block) : Prop where
  /-- Whole blocks are left, at most a slab of them, -/
  whole : ∃ k ≤ blocksPerSlab, pool.untouched.length = k * pool.blockSize
  /-- all zeros. -/
  zero : pool.contents pool.untouched = Bytes.zeros pool.untouched.length
  allocated : ∀ block ∈ rented, pool.Allocated block
  apart : rented.Pairwise Block.Apart
  /-- Nothing of what is left was handed out. -/
  unrented : ∀ block ∈ rented, block.Apart pool.untouched

/-- One more block has been handed out. -/
theorem Tidy.append (ht : pool.Tidy rented) (hb : pool.Allocated block)
    (ha : ∀ other ∈ rented, other.Apart block) (hu : block.Apart pool.untouched) :
    pool.Tidy (rented ++ [block]) where
  whole := ht.whole
  zero := ht.zero
  allocated := fun other ho => by
    rcases List.mem_append.mp ho with ho | ho
    · exact ht.allocated other ho
    · rw [List.mem_singleton.mp ho]; exact hb
  apart := by
    refine List.pairwise_append.mpr ⟨ht.apart, List.pairwise_singleton _ _, ?_⟩
    intro other ho new hn
    rw [List.mem_singleton.mp hn]
    exact ha other ho
  unrented := fun other ho => by
    rcases List.mem_append.mp ho with ho | ho
    · exact ht.unrented other ho
    · rw [List.mem_singleton.mp ho]; exact hu

theorem Tidy.untouched_allocated (ht : pool.Tidy rented) : pool.Allocated pool.untouched := by
  rw [Allocated, ht.zero, Bytes.length_zeros]

/-- More memory takes nothing away. -/
theorem Tidy.grow (ht : pool.Tidy rented) (count : Nat) :
    (pool.allocate count).2.Tidy rented where
  whole := ht.whole
  zero := (ht.untouched_allocated.contents_allocate count).trans ht.zero
  allocated := fun block hb => by
    rw [Allocated, (ht.allocated block hb).contents_allocate]
    exact ht.allocated block hb
  apart := ht.apart
  unrented := ht.unrented

theorem Tidy.allocate (ht : pool.Tidy rented) (count : Nat) :
    (pool.allocate count).2.Tidy (rented ++ [(pool.allocate count).1]) := by
  refine (ht.grow count).append ?_ ?_ ?_
  · rw [Allocated, contents_allocate_fst]
    exact Bytes.length_zeros _
  · exact fun block hb => (ht.allocated block hb).apart_allocate count
  · exact (ht.untouched_allocated.apart_allocate count).symm

theorem Tidy.refill (ht : pool.Tidy rented) :
    pool.refill.Tidy rented ∧ pool.blockSize ≤ pool.refill.untouched.length := by
  rw [BufferPool.refill]
  split
  · refine ⟨⟨?_, contents_allocate_fst .., (ht.grow _).allocated, ht.apart, ?_⟩,
      Nat.le_mul_of_pos_right _ (by decide)⟩
    · exact ⟨blocksPerSlab, Nat.le_refl _, Nat.mul_comm ..⟩
    · exact fun block hb => (ht.allocated block hb).apart_allocate _
  · rename_i hl
    exact ⟨ht, Nat.le_of_not_lt hl⟩

/-- A block off the front leaves the rest of the slab. -/
theorem Tidy.carve (ht : pool.Tidy rented) (hl : pool.blockSize ≤ pool.untouched.length) :
    pool.carve.2.Tidy (rented ++ [pool.carve.1]) ∧
      pool.carve.2.contents pool.carve.1 = Bytes.zeros pool.blockSize := by
  have hf : 0 + pool.blockSize ≤ pool.untouched.length := by omega
  have hr : pool.blockSize + (pool.untouched.length - pool.blockSize) ≤ pool.untouched.length := by
    omega
  have front : pool.contents (pool.untouched.part 0 pool.blockSize) = Bytes.zeros pool.blockSize :=
    contents_part ht.zero hf
  have back : pool.contents (pool.untouched.part pool.blockSize
      (pool.untouched.length - pool.blockSize)) =
      Bytes.zeros (pool.untouched.length - pool.blockSize) := contents_part ht.zero hr
  have rest : pool.carve.2.Tidy rented := by
    refine ⟨?_, back, ht.allocated, ht.apart, ?_⟩
    · obtain ⟨k, hk, he⟩ := ht.whole
      refine ⟨k - 1, by omega, ?_⟩
      show pool.untouched.length - pool.blockSize = (k - 1) * pool.blockSize
      rw [he, Nat.sub_mul, Nat.one_mul]
    · exact fun block hb => (ht.unrented block hb).part hr
  refine ⟨rest.append ?_ ?_ ?_, front⟩
  · exact (congrArg List.length front).trans (Bytes.length_zeros _)
  · exact fun block hb => (ht.unrented block hb).part hf
  · exact Block.apart_parts _ _ _

theorem Tidy.rent (ht : pool.Tidy rented) (request : Nat) :
    (pool.rent request).2.Tidy (rented ++ [(pool.rent request).1]) ∧
      (pool.rent request).2.contents (pool.rent request).1 =
        Bytes.zeros (pool.blockLength request) := by
  rw [BufferPool.rent, blockLength]
  split
  · exact ⟨ht.allocate _, contents_allocate_fst ..⟩
  · obtain ⟨hr, hl⟩ := ht.refill
    rw [← pool.refill_frame.1] at hl ⊢
    exact hr.carve hl

theorem Tidy.copyInto (ht : pool.Tidy rented) (hb : block ∈ rented)
    (hl : offset + data.length ≤ block.length) :
    (pool.copyInto block offset data).Tidy rented := by
  obtain ⟨slabs, -, he⟩ := pool.copyInto_frame block offset data
  have hu : (pool.copyInto block offset data).untouched = pool.untouched := by rw [he]
  have hs : (pool.copyInto block offset data).blockSize = pool.blockSize := by rw [he]
  refine ⟨?_, ?_, fun other ho => (ht.allocated other ho).copyInto block offset data, ht.apart, ?_⟩
  · rw [hu, hs]; exact ht.whole
  · rw [hu, contents_copyInto_of_apart (ht.unrented block hb) hl]; exact ht.zero
  · rw [hu]; exact ht.unrented

/-- A second disposal does nothing. -/
theorem dispose_cases (pool : BufferPool) :
    pool.disposed = true ∧ pool.dispose = pool ∨
      pool.dispose = { pool with untouched := ⟨0, 0, 0⟩, disposed := true } := by
  rw [dispose]
  split
  · exact .inl ⟨‹_›, rfl⟩
  · exact .inr rfl

theorem disposed_dispose (pool : BufferPool) : pool.dispose.disposed = true := by
  rcases pool.dispose_cases with ⟨hd, he⟩ | he <;> rw [he]
  exact hd

theorem Tidy.dispose (ht : pool.Tidy rented) : pool.dispose.Tidy rented := by
  rcases pool.dispose_cases with ⟨-, he⟩ | he <;> rw [he]
  · exact ht
  · refine ⟨⟨0, Nat.zero_le _, (Nat.zero_mul _).symm⟩, ?_, ht.allocated, ht.apart, ?_⟩
    · refine List.eq_nil_of_length_eq_zero ?_
      rw [contents, memory, ByteRuns.toBytes_take, List.length_take]
      exact Nat.zero_min _
    · rintro block - slab n - ⟨-, hn, hn'⟩
      exact Nat.not_lt_of_le hn hn'

/-! ## Whatever a pool is used for -/

/-- A pool, and the blocks that it has handed out. -/
structure Lending where
  pool : BufferPool
  /-- Every block so far, oldest first. -/
  rented : List Block := []
  /-- Those that somebody still holds. -/
  held : List Block := []

/-- What a pool is used for. -/
inductive Use where
  | rent (request : Nat)
  /-- Whoever holds a block writes into it. -/
  | write (block : Block) (offset : Nat) (data : Bytes)
  | release (block : Block)
  | dispose
deriving DecidableEq

/-- Uses the pool, if the block is held and has room for the data. -/
def Use.perform (use : Use) (s : Lending) : Option Lending :=
  match use with
  | rent request =>
    some {
      pool := (s.pool.rent request).2
      rented := s.rented ++ [(s.pool.rent request).1]
      held := s.held ++ [(s.pool.rent request).1] }
  | write block offset data =>
    if block ∈ s.held ∧ offset + data.length ≤ block.length then
      some { s with pool := s.pool.copyInto block offset data }
    else none
  | release block =>
    if block ∈ s.held then some { s with held := s.held.erase block } else none
  | dispose => some { s with pool := s.pool.dispose }

/-- `Run blockSize uses s`: a pool with blocks of that size was put to these uses. -/
abbrev Run (blockSize : Nat) : List Use → Lending → Prop :=
  Steps (fun s (use : Use) s' => use.perform s = some s') { pool := { blockSize } }

variable {s s' : Lending} {use : Use} {uses : List Use} {blockSize : Nat}

/-- What holds of a pool of blocks of that size after these uses. -/
structure Kept (blockSize : Nat) (uses : List Use) (s : Lending) : Prop where
  tidy : s.pool.Tidy s.rented
  blockSize : s.pool.blockSize = blockSize
  disposed : s.pool.disposed = true ↔ .dispose ∈ uses
  emptied : s.pool.disposed = true → s.pool.untouched.length = 0
  held : ∀ block ∈ s.held, block ∈ s.rented

theorem kept_nil (blockSize : Nat) : Kept blockSize [] { pool := { blockSize } } where
  tidy := ⟨⟨0, Nat.zero_le _, (Nat.zero_mul _).symm⟩, rfl, nofun, .nil, nofun⟩
  blockSize := rfl
  disposed := ⟨nofun, nofun⟩
  emptied := nofun
  held := nofun

theorem Kept.rent (hk : Kept blockSize uses s) (request : Nat)
    (hp : (Use.rent request).perform s = some s') :
    Kept blockSize (uses ++ [.rent request]) s' := by
  obtain ⟨hs, hd, hu⟩ := s.pool.rent_frame request
  obtain rfl := Option.some.inj hp
  refine ⟨(hk.tidy.rent request).1, hs.trans hk.blockSize, ?_, ?_, ?_⟩
  · show (s.pool.rent request).2.disposed = true ↔ _
    rw [hd, hk.disposed, List.mem_append, List.mem_singleton, or_iff_left fun h => by cases h]
  · show (s.pool.rent request).2.disposed = true → (s.pool.rent request).2.untouched.length = 0
    intro h
    rw [hd] at h
    rw [hu h]
    exact hk.emptied h
  · intro block hb
    rcases List.mem_append.mp hb with hb | hb
    · exact List.mem_append_left _ (hk.held block hb)
    · exact List.mem_append_right _ hb

theorem Kept.perform (hk : Kept blockSize uses s) (hp : use.perform s = some s') :
    Kept blockSize (uses ++ [use]) s' := by
  have other (h : use ≠ .dispose) : s.pool.disposed = true ↔ .dispose ∈ uses ++ [use] := by
    rw [List.mem_append, List.mem_singleton, or_iff_left h.symm, hk.disposed]
  cases use with
  | rent request => exact hk.rent request hp
  | write block offset data =>
    simp only [Use.perform] at hp
    split at hp
    · rename_i h
      cases hp
      obtain ⟨slabs, -, he⟩ := s.pool.copyInto_frame block offset data
      refine ⟨hk.tidy.copyInto (hk.held _ h.1) h.2, ?_, ?_, ?_, hk.held⟩
      · rw [he]; exact hk.blockSize
      · rw [he]; exact other nofun
      · rw [he]; exact hk.emptied
    · cases hp
  | release block =>
    simp only [Use.perform] at hp
    split at hp
    · cases hp
      exact ⟨hk.tidy, hk.blockSize, other nofun, hk.emptied,
        fun block hb => hk.held block (List.mem_of_mem_erase hb)⟩
    · cases hp
  | dispose =>
    obtain rfl := Option.some.inj hp
    have hd : Use.dispose ∈ uses ++ [.dispose] :=
      List.mem_append_right _ (List.mem_singleton_self _)
    refine ⟨hk.tidy.dispose, ?_, iff_of_true s.pool.disposed_dispose hd, fun _ => ?_, hk.held⟩
    · rcases s.pool.dispose_cases with ⟨-, he⟩ | he <;> rw [he]
      · exact hk.blockSize
      · exact hk.blockSize
    · rcases s.pool.dispose_cases with ⟨hd, he⟩ | he <;> rw [he]
      exact hk.emptied hd

theorem Run.kept (run : Run blockSize uses s) : Kept blockSize uses s := by
  induction run with
  | nil => exact kept_nil blockSize
  | snoc _ hp ih => exact ih.perform hp

theorem Tidy.apart_of_ne (ht : pool.Tidy rented) (hb : block ∈ rented) (ho : other ∈ rented)
    (hn : other ≠ block) : block.Apart other := by
  obtain ⟨i, hi, rfl⟩ := List.getElem_of_mem hb
  obtain ⟨j, hj, rfl⟩ := List.getElem_of_mem ho
  have hp := List.pairwise_iff_getElem.mp ht.apart
  rcases Nat.lt_trichotomy i j with h | rfl | h
  · exact hp i j hi hj h
  · exact absurd rfl hn
  · exact (hp j i hj hi h).symm

/-- Which block comes next does not depend on what is in memory. -/
theorem rent_copyInto (pool : BufferPool) (block : Block) (offset : Nat) (data : Bytes)
    (request : Nat) :
    ((pool.copyInto block offset data).rent request).1 = (pool.rent request).1 := by
  obtain ⟨slabs, hs, he⟩ := pool.copyInto_frame block offset data
  rw [he, rent, rent]
  split
  · exact congrArg (fun n => (⟨n, 0, _⟩ : Block)) hs
  · rw [refill, refill]
    split
    · exact congrArg (fun n => (⟨n, 0, _⟩ : Block)) hs
    · rfl

theorem Kept.written (hk : Kept blockSize uses s)
    (hp : (Use.write block offset data).perform s = some s') :
    s'.pool.contents block = (s.pool.contents block).overwrite offset data ∧
      (∀ other ∈ s.rented, other ≠ block → s'.pool.contents other = s.pool.contents other) ∧
      ∀ request, (s'.pool.rent request).1 = (s.pool.rent request).1 ∧
        (s'.pool.rent request).2.contents (s'.pool.rent request).1 =
          (s.pool.rent request).2.contents (s.pool.rent request).1 := by
  have hk' := hk.perform hp
  simp only [Use.perform] at hp
  split at hp
  · rename_i h
    cases hp
    have hb := hk.held block h.1
    refine ⟨contents_copyInto (hk.tidy.allocated block hb) h.2, fun other ho hn => ?_,
      fun request => ⟨rent_copyInto .., ?_⟩⟩
    · exact contents_copyInto_of_apart (hk.tidy.apart_of_ne hb ho hn) h.2
    · rw [(hk'.tidy.rent request).2, (hk.tidy.rent request).2, ← length_rent, ← length_rent,
        rent_copyInto]
  · cases hp

end BufferPool

end Duplex
