import Duplex.Pipe.Call

/-!
# Runs of a pipe

The two ends of a pipe take turns in any order, one access under the pipe's lock at a time
(`Access`). A run is a sequence of accesses; its history (`Run`) keeps the pipe as it was before
each of them, so that what the writing end committed and what the reading end took out are read
off the history (`committed`, `taken`). An access finds the memory that it asks for; a copy loop
that runs out of memory is a run all the same, of the rounds that it has made (`Copying.run`).

Most operations change a few fields and leave the bytes alone: `read_frame`, `flush_frame` and
their like say which fields those are, and later proofs use them in place of the definitions.
-/

namespace Duplex.Pipe

/-! ## Accesses -/

/-- What the writing end does to a pipe. Dropping the end is a completion without an error. -/
inductive WriterAccess where
  | getMemory (pool : BufferPool) (request : Nat)
  | fill (offset : Nat) (data : Bytes)
  | advance (count : Nat)
  /-- The whole copy loop of a write; a run may also take it region by region. -/
  | write (pool : BufferPool) (data : Bytes)
  /-- One look of a flush. -/
  | flush (call : Await)
  | abandonFlush (call : Await)
  | complete (error : Option ConnectionError)

/-- What the reading end does to a pipe. Dropping the end is a completion without an error. -/
inductive ReaderAccess where
  /-- One look of a read. -/
  | read (call : Await)
  /-- One look of the reading of a segment. -/
  | readChunk (call : Await)
  | abandonRead (call : Await)
  | consume (count : Nat)
  | complete (error : Option ConnectionError)

/-- One access to a pipe. -/
inductive Access where
  | writer (access : WriterAccess)
  | reader (access : ReaderAccess)
  /-- Someone cuts the pending read, or the next one, short. -/
  | cancel

def WriterAccess.perform : WriterAccess → Pipe → Pipe
  | getMemory pool request, p => p.getMemory pool request
  | fill offset data, p => p.fill offset data
  | advance count, p => p.advance count
  | write pool data, p => p.write pool data
  | flush call, p => (p.flush call).2
  | abandonFlush call, p => p.abandonFlush call
  | complete error, p => p.completeWriter error

def ReaderAccess.perform : ReaderAccess → Pipe → Pipe
  | read call, p => (p.read call).2
  | readChunk call, p => (p.readChunk call).2
  | abandonRead call, p => p.abandonRead call
  | consume count, p => p.consume count
  | complete error, p => p.completeReader error

def Access.perform : Access → Pipe → Pipe
  | writer access, p => access.perform p
  | reader access, p => access.perform p
  | cancel, p => p.cancelPendingRead

/-- The bytes that an access of the writing end commits. -/
def WriterAccess.committed : WriterAccess → Pipe → Bytes
  | advance count, p => p.region.take count
  | write _ data, _ => data
  | _, _ => []

/-- The bytes that an access of the reading end takes out. -/
def ReaderAccess.taken : ReaderAccess → Pipe → Bytes
  | consume count, p => p.content.take count
  | readChunk call, p =>
    match (p.readChunk call).1 with
    | .done (.ok (some chunk)) => chunk
    | _ => []
  | _, _ => []

/-- Whether an access completes the reading end, if nothing has before. -/
def Access.endsReading : Access → Bool
  | reader (.complete _) => true
  | _ => false

/-- Whether an access completes the writing end, if nothing has before. -/
def Access.endsWriting : Access → Bool
  | writer (.complete _) => true
  | _ => false

/-! ## Histories -/

/-- An access, and the pipe before it. -/
structure Event where
  before : Pipe
  access : Access

namespace Event

def committed (e : Event) : Bytes :=
  match e.access with
  | .writer access => access.committed e.before
  | _ => []

def taken (e : Event) : Bytes :=
  match e.access with
  | .reader access => access.taken e.before
  | _ => []

/-- What a read reports that ends with this access, on its own or as a part of the reading of a
segment. -/
def reported (e : Event) : Option ReadResult :=
  match e.access with
  | .reader (.read call) | .reader (.readChunk call) =>
    match (e.before.read call).1 with
    | .done (.ok result) => some result
    | _ => none
  | _ => none

end Event

/-- The bytes committed in a history, in commit order. -/
def committed (h : List Event) : Bytes := h.flatMap Event.committed

/-- The bytes taken out in a history. -/
def taken (h : List Event) : Bytes := h.flatMap Event.taken

/-- `Run p h q`: from `p`, the accesses of the history `h` lead to `q`. -/
inductive Run (p : Pipe) : List Event → Pipe → Prop
  | nil : Run p [] p
  | snoc {h : List Event} {q : Pipe} (run : Run p h q) (a : Access) :
    Run p (h ++ [⟨q, a⟩]) (a.perform q)

/-- The history of accesses made one after the other. -/
def trace (p : Pipe) : List Access → List Event
  | [] => []
  | a :: accesses => ⟨p, a⟩ :: trace (a.perform p) accesses

/-- The pipe after accesses made one after the other. -/
def performAll (p : Pipe) (accesses : List Access) : Pipe :=
  accesses.foldl (fun p a => a.perform p) p

@[simp] theorem committed_nil : committed [] = [] := rfl
@[simp] theorem taken_nil : taken [] = [] := rfl

@[simp] theorem committed_cons (e : Event) (h : List Event) :
    committed (e :: h) = e.committed ++ committed h := rfl

@[simp] theorem taken_cons (e : Event) (h : List Event) : taken (e :: h) = e.taken ++ taken h := rfl

@[simp] theorem committed_append (h₁ h₂ : List Event) :
    committed (h₁ ++ h₂) = committed h₁ ++ committed h₂ := List.flatMap_append

@[simp] theorem taken_append (h₁ h₂ : List Event) : taken (h₁ ++ h₂) = taken h₁ ++ taken h₂ :=
  List.flatMap_append

theorem Run.append {p q r : Pipe} {h₁ h₂ : List Event} (hpq : Run p h₁ q) (hqr : Run q h₂ r) :
    Run p (h₁ ++ h₂) r := by
  induction hqr with
  | nil => rwa [List.append_nil]
  | snoc _ a ih => rw [← List.append_assoc]; exact ih.snoc a

/-- A run is cut in two at any point of its history. -/
theorem Run.cut {p r : Pipe} {h₁ h₂ : List Event} (hr : Run p (h₁ ++ h₂) r) :
    ∃ q, Run p h₁ q ∧ Run q h₂ r := by
  generalize hh : h₁ ++ h₂ = h at hr
  induction hr generalizing h₂ with
  | nil =>
    obtain ⟨rfl, rfl⟩ := List.append_eq_nil_iff.mp hh
    exact ⟨p, .nil, .nil⟩
  | @snoc h q run a ih =>
    rcases List.eq_nil_or_concat h₂ with rfl | ⟨h₃, e, rfl⟩
    · rw [List.append_nil] at hh; subst hh
      exact ⟨_, run.snoc a, .nil⟩
    · rw [List.concat_eq_append, ← List.append_assoc] at hh
      obtain ⟨hh, he⟩ := List.append_inj' hh rfl
      obtain ⟨m, hm, hq⟩ := ih hh
      obtain rfl := List.singleton_inj.mp he
      exact ⟨m, hm, by rw [List.concat_eq_append]; exact hq.snoc a⟩

/-- An event of a run comes after a run to the pipe it was made on. -/
theorem Run.split {p r : Pipe} {h₁ h₂ : List Event} {e : Event} (hr : Run p (h₁ ++ e :: h₂) r) :
    Run p h₁ e.before ∧ Run (e.access.perform e.before) h₂ r := by
  rw [List.append_cons] at hr
  obtain ⟨q, hpq, hqr⟩ := hr.cut
  generalize hh : h₁ ++ [e] = h at hpq
  cases hpq with
  | nil => simp at hh
  | snoc run a =>
    obtain ⟨rfl, he⟩ := List.append_inj' hh rfl
    obtain rfl := List.singleton_inj.mp he
    exact ⟨run, hqr⟩

theorem run_trace (p : Pipe) (accesses : List Access) :
    Run p (trace p accesses) (p.performAll accesses) := by
  induction accesses generalizing p with
  | nil => exact .nil
  | cons a accesses ih => exact (Run.nil.snoc a).append (ih (a.perform p))

/-- What each of the accesses keeps, all of them keep. -/
theorem performAll_induct {P : Pipe → Prop} {accesses : List Access}
    (ha : ∀ a ∈ accesses, ∀ p, P p → P (a.perform p)) {p : Pipe} (hp : P p) :
    P (p.performAll accesses) := by
  induction accesses generalizing p with
  | nil => exact hp
  | cons a accesses ih =>
    have hq := ha a (List.mem_cons_self ..) p hp
    exact ih (fun b hb => ha b (List.mem_cons_of_mem _ hb)) hq

/-! ## What operations leave alone -/

theorem checkFlush_frame (p : Pipe) :
    ∃ paused pauses resumes error, p.checkFlush.2 =
      { p with writerPaused := paused, pauses, resumes, readerError := error } := by
  simp only [checkFlush]
  split
  · split <;> exact ⟨_, _, _, _, rfl⟩
  · split
    · exact ⟨_, _, _, _, rfl⟩
    · cases p.writerPaused <;> simp only [Bool.false_eq_true, if_false, if_true] <;>
        split <;> exact ⟨_, _, _, _, rfl⟩

/-- A flush changes only the marks of the writer, the error of the reader and the place where
flushes sleep. -/
theorem flush_frame (call : Await) (p : Pipe) :
    ∃ paused pauses resumes error writable, (p.flush call).2 =
      { p with writerPaused := paused, pauses, resumes, readerError := error, writable } := by
  obtain ⟨a, b, c, d, h⟩ := checkFlush_frame p
  cases call with
  | checking =>
    simp only [flush]
    split <;> (rename_i hc; rw [hc] at h; exact ⟨a, b, c, d, _, h⟩)
  | parking => exact ⟨_, _, _, _, _, rfl⟩
  | parked => simp only [flush]; split <;> exact ⟨_, _, _, _, _, rfl⟩

theorem checkRead_frame (p : Pipe) :
    ∃ error canceled,
      p.checkRead.2 = { p with writerError := error, readCanceled := canceled } := by
  unfold checkRead
  split
  · exact ⟨_, _, rfl⟩
  · split
    · exact ⟨_, _, rfl⟩
    · split <;> exact ⟨_, _, rfl⟩

/-- A read changes only the error of the writer, the mark of a cancellation and the place where
reads sleep. -/
theorem read_frame (call : Await) (p : Pipe) :
    ∃ error canceled readable, (p.read call).2 =
      { p with writerError := error, readCanceled := canceled, readable } := by
  obtain ⟨a, b, h⟩ := checkRead_frame p
  cases call with
  | checking =>
    simp only [read]
    split <;> (rename_i hc; rw [hc] at h; exact ⟨a, b, _, h⟩)
  | parking => exact ⟨_, _, _, rfl⟩
  | parked => simp only [read]; split <;> exact ⟨_, _, _, rfl⟩

theorem checkRead_ok {p : Pipe} {r : ReadResult} (h : p.checkRead.1 = some (.ok r)) :
    r = ⟨p.buffered, p.readCanceled, p.writerCompleted⟩ ∧ p.writerError = none ∧
      p.checkRead.2 = { p with readCanceled := false } := by
  revert h
  simp only [checkRead]
  split
  · intro h; cases h
  · rename_i he
    split
    · rename_i hc
      intro h; cases h
      exact ⟨by rw [hc], he, rfl⟩
    · rename_i hc
      have hc : p.readCanceled = false := by simpa using hc
      split <;> intro h <;> cases h
      exact ⟨by rw [hc], he, by rw [← hc]⟩

/-- A read reports the state of the pipe, once the error of the writer is out of the way, and
takes a cancellation back. -/
theorem read_ok {call : Await} {p : Pipe} {r : ReadResult}
    (h : (p.read call).1 = .done (.ok r)) :
    r = ⟨p.buffered, p.readCanceled, p.writerCompleted⟩ ∧ p.writerError = none ∧
      (p.read call).2 = { p with readCanceled := false } := by
  cases call with
  | checking =>
    have hc := checkRead_ok (p := p) (r := r)
    simp only [read] at h ⊢
    generalize p.checkRead = x at hc h ⊢
    obtain ⟨_ | _, q⟩ := x <;> cases h
    exact hc rfl
  | parking => simp [read] at h
  | parked => simp only [read] at h; split at h <;> cases h

/-- A read that goes on changes nothing but the place where reads sleep. -/
theorem read_again {call call' : Await} {p : Pipe} (h : (p.read call).1 = .again call') :
    ∃ readable, (p.read call).2 = { p with readable } := by
  cases call with
  | checking =>
    have hn : p.checkRead.1 = none → p.checkRead.2 = p := by
      intro hn
      simp only [checkRead] at hn ⊢
      split at hn
      · cases hn
      · split at hn
        · cases hn
        · rename_i hc
          split at hn
          · cases hn
          · rename_i hb; rw [if_neg hc, if_neg hb]
    simp only [read] at h ⊢
    generalize p.checkRead = x at hn h ⊢
    obtain ⟨_ | _, q⟩ := x <;> cases h
    exact ⟨_, hn rfl⟩
  | parking => exact ⟨_, rfl⟩
  | parked => simp only [read] at h ⊢; split at h <;> cases h; exact ⟨_, rfl⟩

theorem abandonFlush_frame (call : Await) (p : Pipe) :
    ∃ writable, p.abandonFlush call = { p with writable } := by
  cases call <;> exact ⟨_, rfl⟩

theorem abandonRead_frame (call : Await) (p : Pipe) :
    ∃ readable, p.abandonRead call = { p with readable } := by
  cases call <;> exact ⟨_, rfl⟩

theorem getMemory_frame (p : Pipe) (pool : BufferPool) (request : Nat) :
    ∃ region, p.getMemory pool request = { p with region } := by
  simp only [getMemory]
  split <;> exact ⟨_, rfl⟩

theorem advance_frame (p : Pipe) (count : Nat) :
    ∃ region segments buffered readable,
      p.advance count = { p with region, segments, buffered, readable } := by
  simp only [advance]
  split
  · exact ⟨_, _, _, _, rfl⟩
  · split <;> exact ⟨_, _, _, _, rfl⟩

/-- What the steps of the copy loop keep, a write keeps. -/
theorem write_induct {P : Pipe → Prop} (pool : BufferPool)
    (hmemory : ∀ p request, P p → P (p.getMemory pool request))
    (hfill : ∀ p offset data, P p → P (p.fill offset data))
    (hadvance : ∀ p count, P p → P (p.advance count))
    (p : Pipe) (data : Bytes) (hp : P p) : P (p.write pool data) := by
  fun_induction write p pool data with
  | case1 => exact hp
  | case2 p byte rest data q front ih => exact ih (hadvance _ _ (hfill _ _ _ (hmemory _ _ hp)))

theorem write_frame (p : Pipe) (pool : BufferPool) (data : Bytes) :
    ∃ region segments buffered readable,
      p.write pool data = { p with region, segments, buffered, readable } := by
  refine write_induct (P := fun q => ∃ region segments buffered readable,
    q = { p with region, segments, buffered, readable }) pool ?_ ?_ ?_ p data ⟨_, _, _, _, rfl⟩
  · rintro _ request ⟨a, b, c, d, rfl⟩
    obtain ⟨_, e⟩ := getMemory_frame
      { p with region := a, segments := b, buffered := c, readable := d } pool request
    exact ⟨_, _, _, _, e⟩
  · rintro _ offset data ⟨a, b, c, d, rfl⟩; exact ⟨_, _, _, _, rfl⟩
  · rintro _ count ⟨a, b, c, d, rfl⟩
    obtain ⟨_, _, _, _, e⟩ :=
      advance_frame { p with region := a, segments := b, buffered := c, readable := d } count
    exact ⟨_, _, _, _, e⟩

theorem consume_frame (p : Pipe) (count : Nat) :
    ∃ segments buffered writable, p.consume count = { p with segments, buffered, writable } := by
  simp only [consume]
  split <;> exact ⟨_, _, _, rfl⟩

theorem takeFront_frame (p : Pipe) :
    ∃ segments buffered writable, p.takeFront.2 = { p with segments, buffered, writable } := by
  simp only [takeFront]
  split
  · exact ⟨_, _, _, rfl⟩
  · exact p.consume_frame _

/-- The reading of a segment is a read, and then perhaps the release of the front segment. -/
theorem readChunk_snd (call : Await) (p : Pipe) :
    (p.readChunk call).2 = (p.read call).2 ∨
      (p.readChunk call).2 = (p.read call).2.takeFront.2 := by
  simp only [readChunk]
  split
  · rename_i h; exact .inl (by rw [h])
  · rename_i h; exact .inl (by rw [h])
  · rename_i h; exact .inl (by rw [h])
  · rename_i result q h
    rw [h]
    cases he : result.isEmpty
    · right
      simp only [Bool.false_eq_true, if_false]
      split
      · rfl
      · split <;> rfl
    · left
      simp only [if_true]
      split <;> rfl

theorem readChunk_frame (call : Await) (p : Pipe) :
    ∃ error canceled readable segments buffered writable, (p.readChunk call).2 =
      { p with
        writerError := error, readCanceled := canceled, readable, segments, buffered,
        writable } := by
  obtain ⟨_, _, _, e⟩ := p.read_frame call
  rcases readChunk_snd call p with h | h <;> rw [h]
  · exact ⟨_, _, _, _, _, _, e⟩
  · obtain ⟨_, _, _, h⟩ := (p.read call).2.takeFront_frame
    rw [h, e]; exact ⟨_, _, _, _, _, _, rfl⟩

/-- The region is the writing end's own. -/
theorem region_reader (a : ReaderAccess) (p : Pipe) : (a.perform p).region = p.region := by
  rcases a with call | call | call | count | _
  case read =>
    obtain ⟨_, _, _, e⟩ := p.read_frame call
    simp only [ReaderAccess.perform, e]
  case readChunk =>
    obtain ⟨_, _, _, _, _, _, e⟩ := p.readChunk_frame call
    simp only [ReaderAccess.perform, e]
  case abandonRead =>
    obtain ⟨_, e⟩ := p.abandonRead_frame call
    simp only [ReaderAccess.perform, e]
  case consume =>
    obtain ⟨_, _, _, e⟩ := p.consume_frame count
    simp only [ReaderAccess.perform, e]
  case complete =>
    simp only [ReaderAccess.perform, completeReader]
    split <;> rfl

/-- The options of a pipe are those it was created with. -/
theorem options_perform (a : Access) (p : Pipe) : (a.perform p).options = p.options := by
  rcases a with (⟨pool, request⟩ | _ | count | ⟨pool, data⟩ | call | call | _) |
    (call | call | call | count | _) | _
  case writer.getMemory =>
    obtain ⟨_, e⟩ := p.getMemory_frame pool request
    simp only [Access.perform, WriterAccess.perform, e]
  case writer.fill => rfl
  case writer.advance =>
    obtain ⟨_, _, _, _, e⟩ := p.advance_frame count
    simp only [Access.perform, WriterAccess.perform, e]
  case writer.write =>
    obtain ⟨_, _, _, _, e⟩ := p.write_frame pool data
    simp only [Access.perform, WriterAccess.perform, e]
  case writer.flush =>
    obtain ⟨_, _, _, _, _, e⟩ := p.flush_frame call
    simp only [Access.perform, WriterAccess.perform, e]
  case writer.abandonFlush =>
    obtain ⟨_, e⟩ := p.abandonFlush_frame call
    simp only [Access.perform, WriterAccess.perform, e]
  case writer.complete =>
    simp only [Access.perform, WriterAccess.perform, completeWriter]
    split <;> rfl
  case reader.read =>
    obtain ⟨_, _, _, e⟩ := p.read_frame call
    simp only [Access.perform, ReaderAccess.perform, e]
  case reader.readChunk =>
    obtain ⟨_, _, _, _, _, _, e⟩ := p.readChunk_frame call
    simp only [Access.perform, ReaderAccess.perform, e]
  case reader.abandonRead =>
    obtain ⟨_, e⟩ := p.abandonRead_frame call
    simp only [Access.perform, ReaderAccess.perform, e]
  case reader.consume =>
    obtain ⟨_, _, _, e⟩ := p.consume_frame count
    simp only [Access.perform, ReaderAccess.perform, e]
  case reader.complete =>
    simp only [Access.perform, ReaderAccess.perform, completeReader]
    split <;> rfl
  case cancel => rfl

/-! ## Completions -/

/-- What an access does to the completions of the two ends: each stays, and only its end's own
completion brings it about. -/
theorem completed_perform (a : Access) (p : Pipe) :
    (a.perform p).readerCompleted = (p.readerCompleted || a.endsReading) ∧
      (a.perform p).writerCompleted = (p.writerCompleted || a.endsWriting) := by
  rcases a with (⟨pool, request⟩ | _ | count | ⟨pool, data⟩ | call | call | _) |
    (call | call | call | count | _) | _
  case writer.getMemory =>
    obtain ⟨_, e⟩ := p.getMemory_frame pool request
    simp [Access.perform, WriterAccess.perform, Access.endsReading, Access.endsWriting, e]
  case writer.fill =>
    simp [Access.perform, WriterAccess.perform, Pipe.fill, Access.endsReading, Access.endsWriting]
  case writer.advance =>
    obtain ⟨_, _, _, _, e⟩ := p.advance_frame count
    simp [Access.perform, WriterAccess.perform, Access.endsReading, Access.endsWriting, e]
  case writer.write =>
    obtain ⟨_, _, _, _, e⟩ := p.write_frame pool data
    simp [Access.perform, WriterAccess.perform, Access.endsReading, Access.endsWriting, e]
  case writer.flush =>
    obtain ⟨_, _, _, _, _, e⟩ := p.flush_frame call
    simp [Access.perform, WriterAccess.perform, Access.endsReading, Access.endsWriting, e]
  case writer.abandonFlush =>
    obtain ⟨_, e⟩ := p.abandonFlush_frame call
    simp [Access.perform, WriterAccess.perform, Access.endsReading, Access.endsWriting, e]
  case writer.complete =>
    simp only [Access.perform, WriterAccess.perform, completeWriter]
    split <;> simp_all [Access.endsReading, Access.endsWriting]
  case reader.read =>
    obtain ⟨_, _, _, e⟩ := p.read_frame call
    simp [Access.perform, ReaderAccess.perform, Access.endsReading, Access.endsWriting, e]
  case reader.readChunk =>
    obtain ⟨_, _, _, _, _, _, e⟩ := p.readChunk_frame call
    simp [Access.perform, ReaderAccess.perform, Access.endsReading, Access.endsWriting, e]
  case reader.abandonRead =>
    obtain ⟨_, e⟩ := p.abandonRead_frame call
    simp [Access.perform, ReaderAccess.perform, Access.endsReading, Access.endsWriting, e]
  case reader.consume =>
    obtain ⟨_, _, _, e⟩ := p.consume_frame count
    simp [Access.perform, ReaderAccess.perform, Access.endsReading, Access.endsWriting, e]
  case reader.complete =>
    simp only [Access.perform, ReaderAccess.perform, completeReader]
    split <;> simp_all [Access.endsReading, Access.endsWriting]
  case cancel =>
    simp [Access.perform, cancelPendingRead, Access.endsReading, Access.endsWriting]

end Duplex.Pipe
