import Duplex.Proofs.Pipe.Stream

/-!
# A pipe and its ledger

A ledger is kept by someone who sees which operations are called on a pipe, and nothing of the
pipe itself: what the writer's region holds after the last fill, and every byte that a commit took
from its front. A pipe and its ledger never disagree:

* `Run.region_eq_ledger`: the region holds what the ledger says;
* `Run.committed_eq_ledger`: what is committed is what the ledger says;
* `runsOut_iff`, `regions_kept`: bytes leave the front segments, and none of them is ever
  missing, whatever the writer does in between;
* `Sound.read_eq`, `Sound.readChunk_eq`: what a read and the reading of a segment are answered;
* `stream_law`: all of it together.
-/

namespace Duplex.Pipe

open scoped Numbers

/-! ## The ledger -/

/-- What is known of a pipe from the operations that were called on it. -/
structure Ledger where
  /-- What the writer's region holds. -/
  region : Bytes := []
  /-- Everything that was committed, oldest first. -/
  committed : Bytes := []

/-- A region that is too short for a request is replaced by zeros. -/
def supplied (minimum : Nat) (pool : BufferPool) (request : Nat) (region : Bytes) : Bytes :=
  if region.length < max request 1 then
    Bytes.zeros (pool.blockLength (max (max request 1) minimum))
  else region

/-- Enters an operation. A write takes one byte of the region for each of its own, and a new region
whenever there is none left. -/
def Ledger.enter (minimum : Nat) (l : Ledger) : Access → Ledger
  | .writer (.getMemory pool request) => { l with region := supplied minimum pool request l.region }
  | .writer (.fill offset data) => { l with region := l.region.overwrite offset data }
  | .writer (.advance count) =>
    { region := l.region.drop count
      committed := l.committed ++ l.region.take (min count l.region.length) }
  | .writer (.write pool data) =>
    { region := data.foldl (fun region _ => (supplied minimum pool 1 region).tail) l.region
      committed := l.committed ++ data }
  | _ => l

/-- The ledger of a history. -/
def ledger (options : PipeOptions) (h : List Event) : Ledger :=
  h.foldl (fun l e => l.enter options.minimumSegment e.access) {}

theorem ledger_snoc (options : PipeOptions) (h : List Event) (e : Event) :
    ledger options (h ++ [e]) = (ledger options h).enter options.minimumSegment e.access :=
  List.foldl_append

/-! ## The region -/

theorem toBytes_getMemory (p : Pipe) (pool : BufferPool) (request : Nat) :
    (p.getMemory pool request).region.toBytes =
      supplied p.options.minimumSegment pool request p.region.toBytes := by
  simp only [getMemory, supplied, Region.length_toBytes]
  split
  · exact Region.toBytes_fresh _
  · rfl

theorem toBytes_advance (p : Pipe) (count : Nat) :
    (p.advance count).region.toBytes = p.region.toBytes.drop count := by
  have hd : p.region.toBytes.drop (min count p.region.length) = p.region.toBytes.drop count := by
    rw [List.drop_eq_drop_iff, Region.length_toBytes]
    omega
  simp only [advance]
  split
  · rename_i hz
    rw [← hd, hz, List.drop_zero]
  · split <;> exact (Region.toBytes_drop _ _).trans hd

/-- A fill from the start leaves what comes behind it. -/
theorem drop_overwrite (region data : Bytes) :
    (region.overwrite 0 data).drop data.length = region.drop data.length := by
  unfold Bytes.overwrite
  split
  · by_cases hl : data.length ≤ region.length
    · have ht : data.take (region.length - 0) = data := List.take_of_length_le hl
      simp only [ht, List.take_zero, List.nil_append, Nat.zero_add]
      rw [List.drop_left]
    · rw [List.drop_eq_nil_of_le, List.drop_eq_nil_of_le (by omega)]
      simp only [List.length_append, List.length_take, List.length_drop]
      omega
  · rfl

/-- Data that fits into the region takes its length off the front, byte by byte. -/
theorem foldl_supplied {minimum : Nat} {pool : BufferPool} {data : Bytes} (hd : data ≠ [])
    {region : Bytes} (hl : data.length ≤ (supplied minimum pool 1 region).length) :
    data.foldl (fun region _ => (supplied minimum pool 1 region).tail) region =
      (supplied minimum pool 1 region).drop data.length := by
  induction data generalizing region with
  | nil => exact absurd rfl hd
  | cons byte rest ih =>
    rw [List.foldl_cons, ← List.drop_one]
    by_cases hr : rest = []
    · rw [hr]; rfl
    · have hp : 0 < rest.length := List.length_pos_iff.mpr hr
      rw [List.length_cons] at hl
      -- What is left of the region is not empty, so that it stays.
      have hs : supplied minimum pool 1 ((supplied minimum pool 1 region).drop 1) =
          (supplied minimum pool 1 region).drop 1 := by
        refine if_neg ?_
        rw [List.length_drop]
        omega
      rw [ih hr (by rw [hs, List.length_drop]; omega), hs, List.drop_drop, List.length_cons,
        Nat.add_comm]

theorem toBytes_write (p : Pipe) (pool : BufferPool) (data : Bytes) :
    (p.write pool data).region.toBytes =
      data.foldl (fun region _ => (supplied p.options.minimumSegment pool 1 region).tail)
        p.region.toBytes := by
  fun_induction write p pool data with
  | case1 p => rfl
  | case2 p byte rest data q front ih =>
    obtain ⟨_, hq⟩ := p.getMemory_frame pool 1
    have hs : q.region.toBytes = supplied p.options.minimumSegment pool 1 p.region.toBytes :=
      p.toBytes_getMemory pool 1
    have ho : ((q.fill 0 front).advance front.length).options = p.options := by
      obtain ⟨_, _, _, _, e⟩ := (q.fill 0 front).advance_frame front.length
      rw [e]
      simp only [Pipe.fill, q, hq]
    have hr : ((q.fill 0 front).advance front.length).region.toBytes =
        q.region.toBytes.drop front.length := by
      rw [toBytes_advance, Pipe.fill, Region.toBytes_fill, drop_overwrite]
    have hm : 1 ≤ q.region.length := p.one_le_region_getMemory pool 1
    have hf : front.length = min q.region.length (rest.length + 1) := by
      simp only [front, data, List.length_take, List.length_cons]
    have hl : front.length ≤ q.region.length := by omega
    have hn : front ≠ [] := List.length_pos_iff.mp (by omega)
    have hc : front ++ data.drop front.length = data := by
      simp only [front, List.length_take]
      rw [List.take_eq_take_min, List.take_append_drop]
    have hp : front.length ≤
        (supplied p.options.minimumSegment pool 1 p.region.toBytes).length := by
      rw [← hs, Region.length_toBytes]; exact hl
    rw [ih, ho, hr, hs, ← foldl_supplied hn hp, ← List.foldl_append, hc]

/-- One access changes the region as the ledger says. -/
theorem region_perform {p : Pipe} {l : Ledger} (hl : p.region.toBytes = l.region) (a : Access) :
    (a.perform p).region.toBytes = (l.enter p.options.minimumSegment a).region := by
  rcases a with (⟨pool, request⟩ | ⟨offset, data⟩ | count | ⟨pool, data⟩ | call | call | _) | a | _
  case writer.getMemory =>
    have hr := p.toBytes_getMemory pool request
    rw [hl] at hr; exact hr
  case writer.fill =>
    have hr := Region.toBytes_fill p.region offset data
    rw [hl] at hr; exact hr
  case writer.advance =>
    have hr := p.toBytes_advance count
    rw [hl] at hr; exact hr
  case writer.write =>
    have hr := p.toBytes_write pool data
    rw [hl] at hr; exact hr
  case writer.flush =>
    obtain ⟨_, _, _, _, _, e⟩ := p.flush_frame call
    simp only [Access.perform, WriterAccess.perform, e]; exact hl
  case writer.abandonFlush =>
    obtain ⟨_, e⟩ := p.abandonFlush_frame call
    simp only [Access.perform, WriterAccess.perform, e]; exact hl
  case writer.complete =>
    simp only [Access.perform, WriterAccess.perform, completeWriter]
    split <;> exact hl
  case reader => exact (congrArg Region.toBytes (region_reader a p)).trans hl
  case cancel => exact hl

/-- One access commits what the ledger says. -/
theorem committed_perform {p : Pipe} {l : Ledger} (hl : p.region.toBytes = l.region) (a : Access) :
    (l.enter p.options.minimumSegment a).committed = l.committed ++ Event.committed ⟨p, a⟩ := by
  rcases a with (_ | _ | count | ⟨pool, data⟩ | _ | _ | _) | _ | _
  case writer.advance =>
    have ht : p.region.take count = l.region.take (min count l.region.length) := by
      rw [Region.take_eq, hl, List.take_eq_take_min]
    simp only [Ledger.enter, Event.committed, WriterAccess.committed, ht]
  case writer.write => rfl
  all_goals exact (List.append_nil _).symm

theorem Run.options_eq {p q : Pipe} {h : List Event} (run : Run p h q) : q.options = p.options := by
  induction run with
  | nil => rfl
  | snoc _ a ih => exact (options_perform a _).trans ih

section Run

variable {options : PipeOptions} {h : List Event} {p : Pipe}

theorem Run.region_eq_ledger (run : Run (create options) h p) :
    p.region.toBytes = (ledger options h).region := by
  induction run with
  | nil => rfl
  | snoc run a ih =>
    rw [ledger_snoc, region_perform ih, run.options_eq]
    rfl

theorem Run.committed_eq_ledger (run : Run (create options) h p) :
    committed h = (ledger options h).committed := by
  induction run with
  | nil => rfl
  | @snoc h q run a ih =>
    have hc := committed_perform run.region_eq_ledger a
    rw [run.options_eq] at hc
    rw [ledger_snoc, committed_append, ih]
    exact (congrArg _ (List.append_nil _)).trans hc.symm

end Run

/-! ## Segments at the front -/

/-- Dropping that many bytes comes to the end of the segments with bytes still to drop. -/
def Segments.RunsOut : (count : Nat) → List Bytes → Prop
  | count, [] => 0 < count
  | count, segment :: rest =>
    0 < count ∧ segment.length ≤ count ∧ RunsOut (count - segment.length) rest

theorem runsOut_iff (count : Nat) (segments : List Bytes) :
    Segments.RunsOut count segments ↔ segments.flatten.length < count := by
  induction segments generalizing count with
  | nil => rfl
  | cons segment rest ih =>
    rw [Segments.RunsOut, ih, List.flatten_cons, List.length_append]
    omega

/-- Whether an access is one of the reading end. -/
def Access.ofReader : Access → Bool
  | reader _ => true
  | _ => false

theorem regions_advance (p : Pipe) (count : Nat) : p.regions <+: (p.advance count).regions := by
  rw [regions, regions, (p.advance_segments count).1]
  split
  · exact List.prefix_rfl
  · exact List.prefix_append _ _

/-- Whoever does not read leaves the buffered segments where they are. -/
theorem regions_kept {a : Access} (ha : a.ofReader = false) (p : Pipe) :
    p.regions <+: (a.perform p).regions := by
  rcases a with (⟨pool, request⟩ | _ | count | ⟨pool, data⟩ | call | call | _) | _ | _
  case writer.getMemory =>
    obtain ⟨_, e⟩ := p.getMemory_frame pool request
    simp only [Access.perform, WriterAccess.perform, e]; exact List.prefix_rfl
  case writer.fill => exact List.prefix_rfl
  case writer.advance => exact p.regions_advance count
  case writer.write =>
    refine write_induct (P := fun q => p.regions <+: q.regions) pool ?_ ?_ ?_ p data List.prefix_rfl
    · intro q request hq
      obtain ⟨_, e⟩ := q.getMemory_frame pool request
      rw [e]; exact hq
    · exact fun q offset data hq => hq
    · exact fun q count hq => hq.trans (q.regions_advance count)
  case writer.flush =>
    obtain ⟨_, _, _, _, _, e⟩ := p.flush_frame call
    simp only [Access.perform, WriterAccess.perform, e]; exact List.prefix_rfl
  case writer.abandonFlush =>
    obtain ⟨_, e⟩ := p.abandonFlush_frame call
    simp only [Access.perform, WriterAccess.perform, e]; exact List.prefix_rfl
  case writer.complete =>
    simp only [Access.perform, WriterAccess.perform, completeWriter]
    split <;> exact List.prefix_rfl
  case reader => cases ha
  case cancel => exact List.prefix_rfl

theorem regions_kept_all {between : List Access} (hb : ∀ a ∈ between, a.ofReader = false)
    (p : Pipe) : p.regions <+: (p.performAll between).regions :=
  performAll_induct (P := fun q => p.regions <+: q.regions)
    (fun a ha q hq => hq.trans (regions_kept (hb a ha) q)) List.prefix_rfl

theorem regions_read (call : Await) (p : Pipe) : (p.read call).2.regions = p.regions := by
  obtain ⟨_, _, _, e⟩ := p.read_frame call
  rw [e]; rfl

/-- The reading of a segment is a read, and then the release of the front segment if it ends with
one. -/
theorem readChunk_cases (call : Await) (p : Pipe) :
    (∃ chunk, (p.readChunk call).1 = .done (.ok (some chunk)) ∧ p.regions.head? = some chunk ∧
      (p.readChunk call).2 = (p.read call).2.consume chunk.length) ∨
    (∀ chunk, (p.readChunk call).1 ≠ .done (.ok (some chunk))) ∧
      (p.readChunk call).2 = (p.read call).2 := by
  have hr := regions_read call p
  simp only [readChunk]
  generalize p.read call = x at hr ⊢
  obtain ⟨_ | _ | _ | r, q⟩ := x
  case done.ok =>
    have hh : q.segments.head? = p.regions.head? := by
      rw [Segments.head?_eq, ← hr]; rfl
    cases he : r.isEmpty with
    | true =>
      right; simp only [he, if_true]
      cases r.completed <;> exact ⟨fun _ h => (by cases h), rfl⟩
    | false =>
      simp only [he, Bool.false_eq_true, if_false, takeFront, hh]
      cases hf : p.regions.head? with
      | none => right; cases r.completed <;> exact ⟨fun _ h => (by cases h), rfl⟩
      | some front => exact .inl ⟨front, rfl, rfl, rfl⟩
  all_goals exact .inr ⟨fun _ h => (by cases h), rfl⟩

theorem readChunk_some {call : Await} {p : Pipe} {chunk : Bytes}
    (h : (p.readChunk call).1 = .done (.ok (some chunk))) :
    p.regions.head? = some chunk ∧
      (p.readChunk call).2 = (p.read call).2.consume chunk.length := by
  rcases p.readChunk_cases call with ⟨chunk', hc, hf, hq⟩ | ⟨hn, -⟩
  · rw [h] at hc; cases hc
    exact ⟨hf, hq⟩
  · exact absurd h (hn chunk)

theorem Sound.regions_eq_nil_iff {p : Pipe} (hs : p.Sound) : p.regions = [] ↔ p.buffered = 0 := by
  constructor
  · intro hr
    rw [hs.buffered, content, show p.segments.toList = [] from hr]
    rfl
  · intro hb
    cases hr : p.regions with
    | nil => rfl
    | cons segment rest =>
      have hm : segment ∈ p.regions := hr ▸ List.mem_cons_self
      have hp : 0 < segment.length := List.length_pos_iff.mpr (hs.segments segment hm)
      have hl : p.buffered = (segment :: rest).flatten.length := by rw [hs.buffered, ← hr]; rfl
      rw [List.flatten_cons, List.length_append] at hl
      omega

/-! ## What the reading end is answered -/

/-- What a look at the pipe answers a read, by the segments, the completion and the error of the
writer, and the mark of a cancellation. -/
def readAnswer (p : Pipe) : Progress Await (Except ConnectionError ReadResult) :=
  match p.writerError with
  | some error => .done (.error error)
  | none =>
    if p.readCanceled = true ∨ p.regions ≠ [] ∨ p.writerCompleted = true then
      .done (.ok ⟨(p.regions.map List.length).sum, p.readCanceled, p.writerCompleted⟩)
    else .again .parking

/-- What the reading of a segment answers, by the segments and what its read answers: the front
segment, and no segment only if there is none and the writer has completed. -/
def chunkAnswer (segments : List Bytes) :
    Progress Await (Except ConnectionError ReadResult) →
      Progress Await (Except ConnectionError (Option Bytes))
  | .pending => .pending
  | .again call => .again call
  | .done (.error error) => .done (.error error)
  | .done (.ok r) =>
    match segments with
    | segment :: _ => .done (.ok (some segment))
    | [] => if r.completed then .done (.ok none) else .again .checking

theorem Sound.read_eq {p : Pipe} (hs : p.Sound) : (p.read .checking).1 = p.readAnswer := by
  have hl : (p.regions.map List.length).sum = p.buffered := by
    rw [hs.buffered, content, List.length_flatten]; rfl
  have hz := hs.regions_eq_nil_iff
  simp only [Pipe.read, checkRead, readAnswer, hl]
  cases p.writerError with
  | some error => rfl
  | none =>
    cases hc : p.readCanceled with
    | true => simp
    | false =>
      by_cases hb : 0 < p.buffered ∨ p.writerCompleted = true
      · have hn : p.regions ≠ [] ∨ p.writerCompleted = true :=
          hb.imp_left fun hb hr => Nat.ne_of_gt hb (hz.mp hr)
        simp [hb, hn]
      · have hn : ¬ (p.regions ≠ [] ∨ p.writerCompleted = true) := fun h => hb
          (h.imp_left fun hr => Nat.pos_of_ne_zero fun hz' => hr (hz.mpr hz'))
        simp [hb, hn]

theorem Sound.readChunk_eq {p : Pipe} (hs : p.Sound) (call : Await) :
    (p.readChunk call).1 = chunkAnswer p.regions (p.read call).1 := by
  have hr := regions_read call p
  have hok : ∀ r, (p.read call).1 = .done (.ok r) →
      r = ⟨p.buffered, p.readCanceled, p.writerCompleted⟩ := fun r h => (read_ok h).1
  simp only [readChunk]
  generalize p.read call = x at hr hok ⊢
  obtain ⟨_ | _ | _ | r, q⟩ := x
  case done.ok =>
    have hl := hok r rfl
    have hh : q.segments.head? = p.regions.head? := by
      rw [Segments.head?_eq, ← hr]; rfl
    by_cases hn : p.regions = []
    · have he : r.isEmpty = true := by
        rw [hl]
        exact beq_iff_eq.mpr (hs.regions_eq_nil_iff.mp hn)
      simp only [he, if_true, chunkAnswer, hn]
      split <;> rfl
    · obtain ⟨segment, rest, hl'⟩ := List.exists_cons_of_ne_nil hn
      have he : r.isEmpty = false := by
        rw [hl]
        exact beq_eq_false_iff_ne.mpr fun hz => hn (hs.regions_eq_nil_iff.mpr hz)
      simp only [he, Bool.false_eq_true, if_false, takeFront, hh, hl', List.head?_cons, chunkAnswer]
  all_goals rfl

/-! ## The law -/

/-- What the history `h` and the operations called in it say about the pipe `p`. -/
structure Lawful (options : PipeOptions) (h : List Event) (p : Pipe) : Prop where
  buffered : p.buffered = (p.regions.map List.length).sum
  segments : ∀ segment ∈ p.regions, segment ≠ []
  region : p.region.toBytes = (ledger options h).region
  stream : p.readerCompleted = false → taken h ++ p.regions.flatten = (ledger options h).committed
  drained : p.readerCompleted = true → p.buffered = 0 ∧ p.regions = []
  /-- A look at the pipe answers a read if there are bytes, the writer has completed, or the read
  was canceled, and otherwise not; an error of the writer comes first. -/
  answer : (p.read .checking).1 = p.readAnswer
  /-- A read reports the length of all segments. -/
  read : ∀ {call r}, (p.read call).1 = .done (.ok r) → r.length = (p.regions.map List.length).sum
  /-- Who lists the segments and then releases bytes gets those that were listed, whatever others do
  in between. -/
  listed : ∀ {between count}, (∀ a ∈ between, Access.ofReader a = false) → count ≤ p.buffered →
    Event.taken ⟨p.performAll between, .reader (.consume count)⟩ = p.regions.flatten.take count
  /-- The reading of a segment answers as its read does, with the front segment if there is one. It
  reports the end only if there is none and the writer has completed. -/
  chunkAnswer : ∀ call, (p.readChunk call).1 = Pipe.chunkAnswer p.regions (p.read call).1 ∧
    ((∀ chunk, (p.readChunk call).1 ≠ .done (.ok (some chunk))) →
      (p.readChunk call).2 = (p.read call).2)
  /-- The reading of a segment is a release of the front segment. -/
  chunk : ∀ {call chunk}, (p.readChunk call).1 = .done (.ok (some chunk)) →
    p.regions.head? = some chunk ∧
      (p.readChunk call).2 = (p.read call).2.consume chunk.length ∧
      Event.taken ⟨p, .reader (.readChunk call)⟩ =
        Event.taken ⟨p, .reader (.consume chunk.length)⟩
  /-- A read that found bytes is followed by a front segment, whatever others do in between. -/
  front : ∀ {call r between}, (p.read call).1 = .done (.ok r) → r.isEmpty = false →
    (∀ a ∈ between, Access.ofReader a = false) →
    ((p.read call).2.performAll between).takeFront.1 = p.regions.head? ∧ p.regions.head? ≠ none
  /-- A release never comes to the end of the segments with bytes still to release. -/
  release : ∀ count, ¬ Segments.RunsOut (min count p.buffered) p.regions

theorem Sound.listed {p : Pipe} (hs : p.Sound) {between : List Access} {count : Nat}
    (hb : ∀ a ∈ between, a.ofReader = false) (hc : count ≤ p.buffered) :
    Event.taken ⟨p.performAll between, .reader (.consume count)⟩ =
      p.regions.flatten.take count := by
  obtain ⟨behind, hq⟩ := regions_kept_all hb p
  have hl : count ≤ p.regions.flatten.length := hs.buffered ▸ hc
  show (p.performAll between).regions.flatten.take count = p.regions.flatten.take count
  rw [← hq, List.flatten_append, List.take_append_of_le_length hl]

theorem Sound.front {p : Pipe} (hs : p.Sound) {call : Await} {r : ReadResult}
    {between : List Access} (hr : (p.read call).1 = .done (.ok r)) (hn : r.isEmpty = false)
    (hb : ∀ a ∈ between, a.ofReader = false) :
    ((p.read call).2.performAll between).takeFront.1 = p.regions.head? ∧
      p.regions.head? ≠ none := by
  obtain ⟨rfl, -, -⟩ := read_ok hr
  obtain ⟨behind, hq⟩ := regions_kept_all hb (p.read call).2
  rw [regions_read] at hq
  have hne : p.regions ≠ [] := by
    intro he
    simp [ReadResult.isEmpty, hs.regions_eq_nil_iff.mp he] at hn
  obtain ⟨segment, rest, hl⟩ := List.exists_cons_of_ne_nil hne
  have hh : ((p.read call).2.performAll between).segments.head? = some segment := by
    rw [Segments.head?_eq]
    show ((p.read call).2.performAll between).regions.head? = some segment
    rw [← hq, hl]; rfl
  rw [hl, takeFront, hh]
  exact ⟨rfl, by simp⟩

/-- **The law of a pipe.** Take any operations on the two ends of a pipe, in any order, with any
options and blocks. The count of buffered bytes is that of the segments, none of which is empty.
The region holds what was last written to it, and a commit takes its front, all of it if it is
shorter. As long as the reader has not completed, what it took out and what is buffered are the
commits in their order; afterwards nothing is buffered. A look answers a read if there is anything
to report, and then with the length of all segments. The reading of a segment takes the front one
out, and reports the end only where there is none and the writer has completed. Both ways of reading
deliver the same bytes, and neither ever misses a segment. -/
theorem stream_law {options : PipeOptions} {h : List Event} {p : Pipe}
    (run : Run (create options) h p) : Lawful options h p := by
  have hs : p.Sound := run.sound (sound_create options)
  have hl : p.buffered = (p.regions.map List.length).sum := by
    rw [hs.buffered, content, List.length_flatten]; rfl
  exact {
    buffered := hl
    segments := hs.segments
    region := run.region_eq_ledger
    stream := fun hr => (run.stream (sound_create options) hr).trans run.committed_eq_ledger
    drained := fun hr => ⟨by rw [hl, regions, hs.drained hr]; rfl, hs.drained hr⟩
    read := fun hr => by
      obtain ⟨rfl, -, -⟩ := read_ok hr
      exact hl
    answer := hs.read_eq
    listed := hs.listed
    chunkAnswer := fun call => ⟨hs.readChunk_eq call, fun hn => by
      rcases p.readChunk_cases call with ⟨chunk, hc, -⟩ | ⟨-, hq⟩
      · exact absurd hc (hn chunk)
      · exact hq⟩
    chunk := fun {call chunk} hc => by
      obtain ⟨hf, hq⟩ := readChunk_some hc
      obtain ⟨rest, hr⟩ := List.head?_eq_some_iff.mp hf
      have ht : Event.taken ⟨p, .reader (.readChunk call)⟩ = chunk := by
        simp only [Event.taken, ReaderAccess.taken, hc]
      refine ⟨hf, hq, ht.trans ?_⟩
      show chunk = p.regions.flatten.take chunk.length
      rw [hr, List.flatten_cons, List.take_left]
    front := hs.front
    release := fun count => by
      rw [runsOut_iff, List.length_flatten, ← hl]
      omega }

/-- A region of four bytes is written twice and committed in two pieces, the second commit asking
for more than is left; the reader takes one byte. -/
def writtenTwice : List Access :=
  [.writer (.getMemory { blockSize := 4 } 1), .writer (.fill 0 [1, 2, 3]), .writer (.fill 1 [9]),
    .writer (.advance 2), .writer (.advance 10), .reader (.consume 1)]

/-- The pipe after `writtenTwice`. -/
def rewritten : Pipe := performAll (create { minimumSegment := 1 }) writtenTwice

theorem run_rewritten :
    Run (create { minimumSegment := 1 }) (trace (create { minimumSegment := 1 }) writtenTwice)
      rewritten := run_trace _ _

theorem written_twice_in_order :
    rewritten.regions = [[9], [3, 0]] ∧
      taken (trace (create { minimumSegment := 1 }) writtenTwice) ++ rewritten.regions.flatten =
        [1, 9, 3, 0] ∧
      (rewritten.read .checking).1 = .done (.ok ⟨3, false, false⟩) ∧
      (rewritten.readChunk .checking).1 = .done (.ok (some [9])) := by
  have hl : (ledger { minimumSegment := 1 }
      (trace (create { minimumSegment := 1 }) writtenTwice)).committed = [1, 9, 3, 0] := by decide
  have hs : rewritten.regions = [[9], [3, 0]] := by decide
  have law := stream_law run_rewritten
  have hr : (rewritten.read .checking).1 = .done (.ok ⟨3, false, false⟩) := law.answer.trans rfl
  refine ⟨hs, (law.stream (by decide)).trans hl, hr, ?_⟩
  rw [(law.chunkAnswer .checking).1, hs, hr]
  rfl

end Duplex.Pipe
