import Duplex.Proofs.BufferPool
import Duplex.Proofs.Pipe.Ledger

/-!
# The copy loop of a write

One round of the loop asks for a region, copies as much of the data into its front as it has room
for, and commits that (`copyRound`). Whatever was staged before and however large the blocks are, a
region that the pool supplies has at least one byte, so that a round copies something, within the
region and within the data (`copies_of_ne_nil`). Others get their turns between the rounds: the
reader may take bytes out or complete, the pool may be disposed of (`Copying`).

The pieces that the rounds copy make up the front of the data, and there are at most as many as it
has bytes (`Copying.whole`). What they commit is what the stream goes on with; if nobody else had a
turn, the pieces are the segments that were appended (`Copying.alone`). A write is such a loop,
carried on until nothing is left or the pool has no memory for a region (`Copying.finish`), and
where the slabs of the pool and the least segments fit into memory, nothing is left
(`copy_of_fits`).
-/

namespace Duplex.Pipe

open scoped Numbers

variable {p q : Pipe} {pool : BufferPool} {data rest : Bytes} {pieces : List Bytes}
  {h : List Event}

/-! ## One round -/

/-- How many bytes one round copies. -/
def portion (p : Pipe) (pool : BufferPool) (data : Bytes) : Nat :=
  min (p.getMemory pool 1).region.length data.length

/-- What the writer does in one round. -/
def roundAccesses (p : Pipe) (pool : BufferPool) (data : Bytes) : List Access :=
  [.writer (.getMemory pool 1), .writer (.fill 0 (data.take (p.portion pool data))),
    .writer (.advance (p.portion pool data))]

/-- The pipe before the commit of a round. -/
def staged (p : Pipe) (pool : BufferPool) (data : Bytes) : Pipe :=
  (p.getMemory pool 1).fill 0 (data.take (p.portion pool data))

/-- The pipe after one round. -/
def copyRound (p : Pipe) (pool : BufferPool) (data : Bytes) : Pipe :=
  (p.staged pool data).advance (p.portion pool data)

theorem staged_frame (p : Pipe) (pool : BufferPool) (data : Bytes) :
    ∃ region, p.staged pool data = { p with region } := by
  obtain ⟨_, hg⟩ := p.getMemory_frame pool 1
  rw [staged, Pipe.fill, hg]
  exact ⟨_, rfl⟩

/-- A loop that gets a region goes on after the round with what that has left. -/
theorem copy_eq_copyRound (hd : data ≠ []) (hg : (p.getMemory? pool 1).isSome = true) :
    p.copy pool data = (p.copyRound pool data).copy pool (data.drop (p.portion pool data)) := by
  cases data with
  | nil => exact absurd rfl hd
  | cons byte bytes =>
    have hl : ((byte :: bytes).take (p.getMemory pool 1).region.length).length =
        p.portion pool (byte :: bytes) := List.length_take
    have ht : (byte :: bytes).take (p.getMemory pool 1).region.length =
        (byte :: bytes).take (p.portion pool (byte :: bytes)) := List.take_eq_take_min
    rw [copy]
    split
    · rename_i hn
      rw [hn] at hg
      cases hg
    · rename_i q hq
      obtain rfl := getMemory?_eq_some hq
      simp only [hl]
      rw [ht]
      rfl

/-- A loop that gets no region ends where it is. -/
theorem copy_of_none (hg : p.getMemory? pool 1 = none) : p.copy pool data = (p, data) := by
  cases data with
  | nil => rw [copy]
  | cons byte bytes =>
    rw [copy]
    split
    · rfl
    · rename_i q hq
      rw [hg] at hq
      cases hq

/-- Where slabs and least segments fit into memory, the loop does what a write does, and nothing is
left. -/
theorem copy_of_fits (hf : pool.Fits) (hs : p.options.minimumSegment ≤ BufferPool.maxAllocation)
    (data : Bytes) : p.copy pool data = (p.write pool data, []) := by
  fun_induction write p pool data with
  | case1 => rw [copy]
  | case2 p byte rest data q front ih =>
    have ho : ((q.fill 0 front).advance front.length).options = p.options :=
      (run_trace p [.writer (.getMemory pool 1), .writer (.fill 0 front),
        .writer (.advance front.length)]).options_eq
    have hg := getMemory?_of_fits hf hs (by decide : 1 ≤ BufferPool.maxAllocation)
    rw [copy, ← ih (by rw [ho]; exact hs)]
    split
    · rename_i hn
      rw [hg] at hn
      cases hn
    · rename_i q hq
      obtain rfl := getMemory?_eq_some hq
      rfl

/-- What one round does while there is data left. -/
structure Copies (p : Pipe) (pool : BufferPool) (data : Bytes) : Prop where
  /-- Something is copied, -/
  progress : 0 < p.portion pool data
  /-- into the region and out of the data, -/
  inRegion : p.portion pool data ≤ (p.getMemory pool 1).region.length
  inData : p.portion pool data ≤ data.length
  /-- and that is what is committed, -/
  copied : (p.staged pool data).region.take (p.portion pool data) =
    data.take (p.portion pool data)
  /-- as one segment, unless the reader has completed. -/
  regions : (p.copyRound pool data).regions =
    p.regions ++ if p.readerCompleted = true then [] else [data.take (p.portion pool data)]
  buffered : (p.copyRound pool data).buffered =
    p.buffered + if p.readerCompleted = true then 0 else p.portion pool data
  readerCompleted : (p.copyRound pool data).readerCompleted = p.readerCompleted

theorem copies_of_ne_nil (p : Pipe) (pool : BufferPool) (hd : data ≠ []) :
    Copies p pool data := by
  have hm : 1 ≤ (p.getMemory pool 1).region.length := p.one_le_region_getMemory pool 1
  have hp : 0 < data.length := List.length_pos_iff.mpr hd
  have hr : p.portion pool data ≤ (p.getMemory pool 1).region.length := Nat.min_le_left _ _
  have hl : p.portion pool data ≤ data.length := Nat.min_le_right _ _
  have hn : 0 < p.portion pool data := by rw [portion]; omega
  have ht : (data.take (p.portion pool data)).length = p.portion pool data :=
    List.length_take_of_le hl
  have hne : data.take (p.portion pool data) ≠ [] := List.length_pos_iff.mp (by omega)
  have hf : (p.staged pool data).region.take (p.portion pool data) =
      data.take (p.portion pool data) := by
    have := take_fill (p.getMemory pool 1).region (data.take (p.portion pool data)) (by omega)
    rwa [ht] at this
  obtain ⟨hs, hb⟩ := (p.staged pool data).advance_segments (p.portion pool data)
  obtain ⟨_, _, _, _, ha⟩ := (p.staged pool data).advance_frame (p.portion pool data)
  obtain ⟨_, he⟩ := p.staged_frame pool data
  rw [hf, he] at hs hb
  simp only [hne, or_false, ht] at hs hb
  refine ⟨hn, hr, hl, hf, ?_, ?_, ?_⟩
  · rw [Pipe.regions, copyRound, he, hs]
    split
    · exact (List.append_nil _).symm
    · rfl
  · rw [copyRound, he, hb]
    split <;> rfl
  · rw [copyRound, ha, he]

/-! ## The loop -/

/-- Whether an access is one of the writing end. -/
def Access.ofWriter : Access → Bool
  | writer _ => true
  | _ => false

/-- `Copying p data h pieces q rest`: from `p`, the accesses of the history `h` have led to `q`.
They are rounds of the copy loop and what others did between them, each round with the pool as it
was then, which has supplied a region. The rounds have copied `pieces` of `data`, and `rest` is
left. -/
inductive Copying (p : Pipe) (data : Bytes) : List Event → List Bytes → Pipe → Bytes → Prop
  | start : Copying p data [] [] p data
  | round {h : List Event} {pieces : List Bytes} {q : Pipe} {rest : Bytes}
    (copying : Copying p data h pieces q rest) (pool : BufferPool) (hr : rest ≠ [])
    (hg : (q.getMemory? pool 1).isSome = true) :
    Copying p data (h ++ q.trace (q.roundAccesses pool rest))
      (pieces ++ [rest.take (q.portion pool rest)]) (q.copyRound pool rest)
      (rest.drop (q.portion pool rest))
  | aside {h : List Event} {pieces : List Bytes} {q : Pipe} {rest : Bytes}
    (copying : Copying p data h pieces q rest) (a : Access) (ha : a.ofWriter = false) :
    Copying p data (h ++ [⟨q, a⟩]) pieces (a.perform q) rest

theorem committed_round (p : Pipe) (pool : BufferPool) (hd : data ≠ []) :
    committed (p.trace (p.roundAccesses pool data)) = data.take (p.portion pool data) :=
  (List.append_nil _).trans (copies_of_ne_nil p pool hd).copied

theorem Copying.run (copying : Copying p data h pieces q rest) :
    Run p h q ∧ committed h = pieces.flatten := by
  induction copying with
  | start => exact ⟨.nil, rfl⟩
  | @round h pieces q rest _ pool hr _ ih =>
    refine ⟨ih.1.append (run_trace q (q.roundAccesses pool rest)), ?_⟩
    rw [committed_append, ih.2, committed_round q pool hr, List.flatten_append,
      List.flatten_singleton]
  | @aside h pieces q rest _ a ha ih =>
    refine ⟨ih.1.snoc a, ?_⟩
    rw [committed_append, ih.2]
    cases a with
    | writer => cases ha
    | _ => exact List.append_nil _

/-- The pieces make up the data, and every round takes at least a byte of it. -/
theorem Copying.whole (copying : Copying p data h pieces q rest) :
    pieces.flatten ++ rest = data ∧ (∀ piece ∈ pieces, piece ≠ []) ∧
      pieces.length + rest.length ≤ data.length := by
  induction copying with
  | start => exact ⟨rfl, nofun, Nat.le_of_eq (Nat.zero_add _)⟩
  | @round h pieces q rest _ pool hr _ ih =>
    obtain ⟨hw, hn, hl⟩ := ih
    have hc := copies_of_ne_nil q pool hr
    have hp := hc.progress
    have hi := hc.inData
    refine ⟨?_, ?_, ?_⟩
    · rw [List.flatten_append, List.flatten_singleton, List.append_assoc, List.take_append_drop, hw]
    · intro piece hm
      rcases List.mem_append.mp hm with hm | hm
      · exact hn piece hm
      · rw [List.mem_singleton.mp hm, ← List.length_pos_iff, List.length_take_of_le hi]
        exact hp
    · rw [List.length_append, List.length_singleton, List.length_drop]
      omega
  | aside _ _ _ ih => exact ih

/-- If nobody else had a turn, the pieces are the segments that were appended. -/
theorem Copying.alone (copying : Copying p data h pieces q rest)
    (hh : ∀ e ∈ h, e.access.ofWriter = true) :
    q.regions = p.regions ++ (if p.readerCompleted = true then [] else pieces) ∧
      q.buffered = p.buffered + (if p.readerCompleted = true then 0 else pieces.flatten.length) ∧
      q.readerCompleted = p.readerCompleted := by
  induction copying with
  | start => exact ⟨by simp, by simp, rfl⟩
  | @round h pieces q rest _ pool hr _ ih =>
    obtain ⟨hs, hb, hc⟩ := ih fun e he => hh e (List.mem_append_left _ he)
    have hx := copies_of_ne_nil q pool hr
    rw [hx.regions, hx.buffered, hx.readerCompleted, hs, hb, hc]
    have ht : (rest.take (q.portion pool rest)).length = q.portion pool rest :=
      List.length_take_of_le hx.inData
    cases p.readerCompleted <;>
      simp [ht, Nat.add_assoc]
  | aside _ a ha ih =>
    have hw : a.ofWriter = true := hh _ (List.mem_append_right _ (List.mem_singleton_self _))
    rw [ha] at hw
    cases hw

/-- A write takes all rounds that are still needed, as long as the pool supplies regions. -/
theorem Copying.finish (copying : Copying p data h pieces q rest) (pool : BufferPool) :
    ∃ g more, Copying p data (h ++ g) (pieces ++ more) (q.copy pool rest).1 (q.copy pool rest).2 ∧
      (∀ e ∈ g, e.access.ofWriter = true) ∧
      ((q.copy pool rest).2 ≠ [] → (q.copy pool rest).1.getMemory? pool 1 = none) := by
  induction hn : rest.length using Nat.strongRecOn generalizing h pieces q rest with
  | ind n ih =>
    by_cases hs : rest = [] ∨ q.getMemory? pool 1 = none
    · have hc : q.copy pool rest = (q, rest) := by
        rcases hs with rfl | hg
        · rw [copy]
        · exact copy_of_none hg
      rw [hc]
      refine ⟨[], [], ?_, fun _ he => absurd he List.not_mem_nil, fun hr => hs.resolve_left hr⟩
      rwa [List.append_nil, List.append_nil]
    · obtain ⟨hr, hg⟩ := not_or.mp hs
      have hg : (q.getMemory? pool 1).isSome = true := Option.isSome_iff_ne_none.mpr hg
      have hx := copies_of_ne_nil q pool hr
      have hp := hx.progress
      have hi := hx.inData
      have hl : (rest.drop (q.portion pool rest)).length < n := by
        rw [List.length_drop]
        omega
      obtain ⟨g, more, hc, ho, he⟩ := ih _ hl (copying.round pool hr hg) rfl
      rw [← copy_eq_copyRound hr hg] at hc he
      rw [List.append_assoc, List.append_assoc] at hc
      refine ⟨_, _, hc, fun e he => ?_, he⟩
      rcases List.mem_append.mp he with he | he
      · simp only [trace, roundAccesses, List.mem_cons, List.not_mem_nil, or_false] at he
        rcases he with rfl | rfl | rfl <;> rfl
      · exact ho e he

/-- What is left of the data becomes segments, unless the reader has completed. -/
theorem exists_pieces_copy (p : Pipe) (data : Bytes) (hf : pool.Fits)
    (hs : p.options.minimumSegment ≤ BufferPool.maxAllocation) :
    ∃ pieces : List Bytes, pieces.flatten = data ∧ (∀ piece ∈ pieces, piece ≠ []) ∧
      pieces.length ≤ data.length ∧
      (p.copy pool data).1.regions =
        p.regions ++ (if p.readerCompleted = true then [] else pieces) ∧
      (p.copy pool data).1.buffered =
        p.buffered + (if p.readerCompleted = true then 0 else data.length) := by
  have begun : Copying p data [] [] p data := .start
  obtain ⟨g, pieces, copying, hg, -⟩ := begun.finish pool
  rw [congrArg Prod.snd (copy_of_fits hf hs data)] at copying
  obtain ⟨hw, hn, hl⟩ := copying.whole
  obtain ⟨hs, hb, -⟩ := copying.alone hg
  rw [List.nil_append] at hw hn hl hs hb
  rw [List.append_nil] at hw
  rw [hw] at hb
  exact ⟨pieces, hw, hn, hl, hs, hb⟩

/-! ## Regions -/

/-- A region is refused if the one that is there is too short, and the pool would have to allocate
more than there can be. -/
theorem getMemory?_eq_none_iff {request : Nat} :
    p.getMemory? pool request = none ↔ p.region.length < max request 1 ∧
      BufferPool.maxAllocation <
        pool.allocation (max (max request 1) p.options.minimumSegment) := by
  simp only [getMemory?, BufferPool.rent?]
  split
  · rename_i hl
    rw [Option.map_eq_none_iff, ite_eq_right_iff]
    simp only [reduceCtorEq, imp_false, Nat.not_le, hl, true_and]
  · rename_i hl
    simp only [reduceCtorEq, hl, false_and]

/-- A region that a pool supplies is the block that the pool rents out. -/
theorem toBytes_getMemory_of_tidy {rented : List Block} (ht : pool.Tidy rented) {request : Nat}
    (hg : p.getMemory? pool request = some q) (hl : p.region.length < max request 1) :
    q.region.toBytes =
      (pool.rent (max (max request 1) p.options.minimumSegment)).2.contents
        (pool.rent (max (max request 1) p.options.minimumSegment)).1 := by
  rw [getMemory?_eq_some hg, toBytes_getMemory, supplied, Region.length_toBytes, if_pos hl,
    (ht.rent _).2]

/-- What holds of a copy loop that has come from `p` to `q`. -/
structure Copied (p : Pipe) (data : Bytes) (h : List Event) (pieces : List Bytes) (q : Pipe)
    (rest : Bytes) : Prop where
  /-- A region that is supplied is never empty and never shorter than it was asked to be, -/
  memory : ∀ {pool request q'}, q.getMemory? pool request = some q' →
    max request 1 ≤ q'.region.length
  /-- and one that is new is a block of the pool. -/
  rented : ∀ {pool : BufferPool} {blocks : List Block} {request : Nat} {q' : Pipe},
    pool.Tidy blocks → q.getMemory? pool request = some q' → q.region.length < max request 1 →
      q'.region.toBytes = (pool.rent (max (max request 1) q.options.minimumSegment)).2.contents
        (pool.rent (max (max request 1) q.options.minimumSegment)).1
  /-- It is supplied if the slabs of the pool, the least segment and the request fit into memory, -/
  supplied : ∀ pool request, pool.Fits →
    p.options.minimumSegment ≤ BufferPool.maxAllocation → request ≤ BufferPool.maxAllocation →
      ∃ q', q.getMemory? pool request = some q'
  /-- and is refused only where there is none yet and it takes more memory than there can be. -/
  refused : ∀ {pool : BufferPool} {request : Nat}, q.getMemory? pool request = none ↔
    q.region.length < max request 1 ∧ BufferPool.maxAllocation <
      pool.allocation (max (max request 1) q.options.minimumSegment)
  /-- The next round copies something, in range, and commits just that. -/
  next : ∀ pool, rest ≠ [] → Copies q pool rest
  /-- The rounds so far have copied the front of the data, each of them some of it. -/
  whole : pieces.flatten ++ rest = data
  progress : ∀ piece ∈ pieces, piece ≠ []
  bounded : pieces.length + rest.length ≤ data.length
  /-- What they have committed is in the stream, as long as the reader has not completed. -/
  run : Run p h q
  committed : Pipe.committed h = pieces.flatten
  stream : p.Sound → q.readerCompleted = false →
    taken h ++ q.content = p.content ++ pieces.flatten
  drained : p.Sound → q.readerCompleted = true → q.regions = []
  /-- Rounds that nobody interrupted have appended their pieces. -/
  alone : (∀ e ∈ h, e.access.ofWriter = true) →
    q.regions = p.regions ++ (if p.readerCompleted = true then [] else pieces) ∧
      q.buffered = p.buffered + (if p.readerCompleted = true then 0 else pieces.flatten.length) ∧
      q.readerCompleted = p.readerCompleted
  /-- To write what is left is to go on with the rounds, until nothing is left or a region is
  refused. -/
  finish : ∀ pool, ∃ g more,
    Copying p data (h ++ g) (pieces ++ more) (q.copy pool rest).1 (q.copy pool rest).2 ∧
      (∀ e ∈ g, e.access.ofWriter = true) ∧
      ((q.copy pool rest).2 ≠ [] → (q.copy pool rest).1.getMemory? pool 1 = none)
  /-- If slabs and least segments fit into memory, nothing is left, and all of it is appended. -/
  written : ∀ {pool : BufferPool}, pool.Fits →
    p.options.minimumSegment ≤ BufferPool.maxAllocation → (q.copy pool rest).2 = [] ∧
      ∃ more : List Bytes, more.flatten = rest ∧ (∀ piece ∈ more, piece ≠ []) ∧
        more.length ≤ rest.length ∧
        (q.copy pool rest).1.regions =
          q.regions ++ (if q.readerCompleted = true then [] else more) ∧
        (q.copy pool rest).1.buffered =
          q.buffered + (if q.readerCompleted = true then 0 else rest.length)

/-- **A write copies exactly its data, and comes to its end.** Take a pipe with any options, with
anything staged in any region, and any pool, its blocks of any size, disposed of or not. Every round
of the copy loop copies at least one byte, from within the data to within the region, and commits
just that as one segment, or nothing once the reader has completed. So the rounds are at most as
many as there are bytes, and copy the front of the data, whatever others do between them. If the
slabs of the pool and the least segments fit into memory, every region that fits is supplied, and
the rounds copy all of the data. The count of what is buffered is raised by as much as is
appended. -/
theorem copied_in_full (copying : Copying p data h pieces q rest) :
    Copied p data h pieces q rest := by
  obtain ⟨hw, hn, hl⟩ := copying.whole
  obtain ⟨run, hc⟩ := copying.run
  have ho : q.options = p.options := run.options_eq
  exact {
    memory := fun {pool request q'} hg => by
      rw [getMemory?_eq_some hg]
      exact q.one_le_region_getMemory pool request
    rented := fun ht hg hl => toBytes_getMemory_of_tidy ht hg hl
    supplied := fun _ _ hf hs hr => ⟨_, getMemory?_of_fits hf (ho ▸ hs) hr⟩
    refused := getMemory?_eq_none_iff
    next := fun pool hr => copies_of_ne_nil q pool hr
    whole := hw
    progress := hn
    bounded := hl
    run := run
    committed := hc
    stream := fun hs hr => by rw [← hc]; exact run.stream hs hr
    drained := fun hs hr => (run.sound hs).drained hr
    alone := copying.alone
    finish := copying.finish
    written := fun hf hs =>
      ⟨congrArg Prod.snd (copy_of_fits hf (ho ▸ hs) rest),
        exists_pieces_copy q rest hf (ho ▸ hs)⟩ }

/-- A region of four bytes in which two are committed, and one behind them is written. -/
def halfCommitted : Pipe :=
  performAll (create { minimumSegment := 0 })
    [.writer (.getMemory { blockSize := 4 } 1), .writer (.fill 1 [9, 9]), .writer (.advance 2)]

/-- A pool without blocks. -/
def blockless : BufferPool := { blockSize := 0 }

/-- The first round fills what is left of the region. Then the reader takes a byte, and the pool,
which has no blocks, is disposed of; it supplies one byte at a time. -/
theorem four_bytes_copied :
    ∃ h q, Copying halfCommitted [1, 2, 3, 4] h [[1, 2], [3]] q [4] ∧
      taken h ++ q.content = [0, 9, 1, 2, 3] ∧ q.regions = [[9], [1, 2], [3]] ∧
      (∃ q', q.getMemory? blockless.dispose 7 = some q' ∧ 7 ≤ q'.region.length) ∧
      (q.copy blockless.dispose [4]).2 = [] ∧
      (q.copy blockless.dispose [4]).1.buffered = 5 := by
  have begun : Copying halfCommitted [1, 2, 3, 4] _ [[1, 2]] _ [3, 4] :=
    .round .start blockless (by decide) rfl
  have readFrom := begun.aside (.reader (.consume 1)) rfl
  have copying : Copying halfCommitted [1, 2, 3, 4] _ [[1, 2], [3]] _ [4] :=
    .round readFrom blockless.dispose (by decide) rfl
  have hx := copied_in_full copying
  have hs : halfCommitted.Sound := (run_trace _ _).sound (sound_create _)
  have hf : blockless.dispose.Fits := by decide
  have hm : halfCommitted.options.minimumSegment ≤ BufferPool.maxAllocation := by decide
  obtain ⟨q', hq⟩ := hx.supplied _ 7 hf hm (by decide)
  obtain ⟨he, _, _, _, _, _, hb⟩ := hx.written hf hm
  exact ⟨_, _, copying, hx.stream hs rfl, rfl, ⟨q', hq, hx.memory hq⟩, he, hb⟩

/-- A pool whose slabs would be longer than memory can be. -/
def oversized : BufferPool := { blockSize := 2 ^ (60 : Nat) }

/-- Such a pool supplies no region at all, and a write commits nothing. -/
theorem oversized_supplies_nothing :
    (¬ ∃ q, (create {}).getMemory? oversized 1 = some q ∧ 1 ≤ q.region.length) ∧
      (create {}).copy oversized [7] = (create {}, [7]) := by
  have hg : (create {}).getMemory? oversized 1 = none := by
    rw [getMemory?_eq_none_iff]
    decide
  refine ⟨?_, copy_of_none hg⟩
  rintro ⟨q, hq, -⟩
  rw [hg] at hq
  cases hq

end Duplex.Pipe
