import Duplex.Proofs.Pipe.Completion
import Duplex.Proofs.Pipe.Wakeup

/-!
# What an access does to the flags

A pipe has a few flags beside its bytes and its sleeping places: the mark of a paused writer with
its counts, the two completions with their errors, and the mark of a cancellation (`Flags`). An
access changes them in one of six ways (`Effect`, `Event.effect`), of which four are the
completions, a cancellation and nothing at all; the other two are the looks of a flush and of a
read, which `FlushLook` and `ReadLook` take apart. In each case `Seen` says what is seen of the
access.
-/

namespace Duplex.Pipe

/-! ## What is seen of an access -/

namespace Event

/-- The pipe after the access. -/
def after (e : Event) : Pipe := e.access.perform e.before

/-- What a flush reports that ends with this access. -/
def flushed (e : Event) : Option (Except ConnectionError FlushResult) :=
  match e.access with
  | .writer (.flush call) =>
    match (e.before.flush call).1 with
    | .done result => some result
    | _ => none
  | _ => none

/-- What a read reports that ends with this access, on its own or as a part of the reading of a
segment. -/
def looked (e : Event) : Option (Except ConnectionError ReadResult) :=
  match e.access with
  | .reader (.read call) | .reader (.readChunk call) =>
    match (e.before.read call).1 with
    | .done result => some result
    | _ => none
  | _ => none

/-- With what an access completes the reader, unless it has completed before. -/
def readerCompletion (e : Event) : List (Option ConnectionError) :=
  match e.access with
  | .reader (.complete error) => if e.before.readerCompleted then [] else [error]
  | _ => []

end Event

/-- Whether an access cancels a read. -/
def Access.cancels : Access → Bool
  | cancel => true
  | _ => false

/-- What is seen of an access: what calls report, and what is put into the flags. -/
structure Seen where
  flushed : Option (Except ConnectionError FlushResult) := none
  looked : Option (Except ConnectionError ReadResult) := none
  writer : List (Option ConnectionError) := []
  reader : List (Option ConnectionError) := []
  canceled : Bool := false

def Event.seen (e : Event) : Seen where
  flushed := e.flushed
  looked := e.looked
  writer := e.completion
  reader := e.readerCompletion
  canceled := e.access.cancels

/-! ## Looks -/

/-- What one look of a flush does: its result, and the pipe after it. -/
inductive FlushLook (p : Pipe) : Option (Except ConnectionError FlushResult) → Pipe → Prop
  /-- The reader has completed with an error that no flush has returned yet. -/
  | failed {error} (reader : p.readerCompleted = true) (waiting : p.readerError = some error) :
    FlushLook p (some (.error error)) { p with readerError := none }
  /-- The reader has completed. -/
  | ended (reader : p.readerCompleted = true) (errors : p.readerError = none) :
    FlushLook p (some (.ok ⟨true⟩)) p
  /-- Not much is buffered. -/
  | free (reader : p.readerCompleted = false) (running : p.writerPaused = false)
    (low : p.options.pauseThreshold = 0 ∨ p.buffered < p.options.pauseThreshold) :
    FlushLook p (some (.ok ⟨false⟩)) p
  /-- Much is buffered, but not more than lets a paused writer go on. -/
  | passed (reader : p.readerCompleted = false) (running : p.writerPaused = false)
    (used : 0 < p.options.pauseThreshold) (high : p.options.pauseThreshold ≤ p.buffered)
    (low : p.buffered ≤ p.options.resumeThreshold) :
    FlushLook p (some (.ok ⟨false⟩))
      { p with writerPaused := false, pauses := p.pauses + 1, resumes := p.resumes + 1 }
  /-- Much is buffered. -/
  | paused (reader : p.readerCompleted = false) (running : p.writerPaused = false)
    (used : 0 < p.options.pauseThreshold) (high : p.options.pauseThreshold ≤ p.buffered)
    (above : p.options.resumeThreshold < p.buffered) :
    FlushLook p none { p with writerPaused := true, pauses := p.pauses + 1 }
  /-- The reader has caught up. -/
  | resumed (reader : p.readerCompleted = false) (held : p.writerPaused = true)
    (low : p.buffered ≤ p.options.resumeThreshold) :
    FlushLook p (some (.ok ⟨false⟩)) { p with writerPaused := false, resumes := p.resumes + 1 }
  /-- The reader has not caught up yet. -/
  | held (reader : p.readerCompleted = false) (held : p.writerPaused = true)
    (above : p.options.resumeThreshold < p.buffered) : FlushLook p none p

theorem flushLook (p : Pipe) : FlushLook p p.checkFlush.1 p.checkFlush.2 := by
  cases hr : p.readerCompleted with
  | true =>
    cases he : p.readerError with
    | none =>
      have hc : p.checkFlush = (some (.ok ⟨true⟩), p) := by
        simp only [checkFlush, hr, he, if_true]
      rw [hc]; exact .ended hr he
    | some error =>
      have hc : p.checkFlush = (some (.error error), { p with readerError := none }) := by
        simp only [checkFlush, hr, he, if_true]
      rw [hc]; exact .failed hr he
  | false =>
    cases hp : p.writerPaused with
    | false =>
      by_cases hb : p.options.pauseThreshold = 0 ∨ p.buffered < p.options.pauseThreshold
      · have hc : p.checkFlush = (some (.ok ⟨false⟩), p) := by
          simp [checkFlush, hr, hp, hb]
        rw [hc]; exact .free hr hp hb
      · obtain ⟨h0, hb⟩ := not_or.mp hb
        by_cases hl : p.buffered ≤ p.options.resumeThreshold
        · have hc : p.checkFlush = (some (.ok ⟨false⟩), { p with
              writerPaused := false, pauses := p.pauses + 1, resumes := p.resumes + 1 }) := by
            simp [checkFlush, hr, hp, h0, hb, hl]
          rw [hc]; exact .passed hr hp (Nat.pos_of_ne_zero h0) (Nat.not_lt.mp hb) hl
        · have hc : p.checkFlush =
              (none, { p with writerPaused := true, pauses := p.pauses + 1 }) := by
            simp [checkFlush, hr, hp, h0, hb, hl]
          rw [hc]
          exact .paused hr hp (Nat.pos_of_ne_zero h0) (Nat.not_lt.mp hb) (Nat.not_le.mp hl)
    | true =>
      by_cases hl : p.buffered ≤ p.options.resumeThreshold
      · have hc : p.checkFlush =
            (some (.ok ⟨false⟩), { p with writerPaused := false, resumes := p.resumes + 1 }) := by
          simp [checkFlush, hr, hp, hl]
        rw [hc]; exact .resumed hr hp hl
      · have hc : p.checkFlush = (none, p) := by simp [checkFlush, hr, hp, hl]
        rw [hc]; exact .held hr hp (Nat.not_le.mp hl)

/-- A flush that finds the reader completed is told so, or gets its error. -/
theorem checkFlush_completed {p : Pipe} (hr : p.readerCompleted = true) :
    p.checkFlush.1 = some (p.readerError.elim (.ok ⟨true⟩) .error) := by
  cases he : p.readerError <;> simp only [checkFlush, hr, he, if_true] <;> rfl

/-- A flush leaves alone what reads look at. -/
theorem FlushLook.reader {p q : Pipe} {result : Option (Except ConnectionError FlushResult)}
    (look : FlushLook p result q) :
    q.writerError = p.writerError ∧ q.readCanceled = p.readCanceled := by
  cases look <;> exact ⟨rfl, rfl⟩

/-- What one look of a read does: its result, and the pipe after it. -/
inductive ReadLook (p : Pipe) : Option (Except ConnectionError ReadResult) → Pipe → Prop
  /-- The writer has completed with an error that no read has returned yet. -/
  | failed {error} (waiting : p.writerError = some error) :
    ReadLook p (some (.error error)) { p with writerError := none }
  | canceled (errors : p.writerError = none) (mark : p.readCanceled = true) :
    ReadLook p (some (.ok ⟨p.buffered, true, p.writerCompleted⟩)) { p with readCanceled := false }
  /-- There is data, or the writer has completed. -/
  | found (errors : p.writerError = none) (mark : p.readCanceled = false)
    (ready : 0 < p.buffered ∨ p.writerCompleted = true) :
    ReadLook p (some (.ok ⟨p.buffered, false, p.writerCompleted⟩)) p
  | blocked (blocked : p.ReaderBlocked) : ReadLook p none p

theorem readLook (p : Pipe) : ReadLook p p.checkRead.1 p.checkRead.2 := by
  cases he : p.writerError with
  | some error =>
    have hc : p.checkRead = (some (.error error), { p with writerError := none }) := by
      simp only [checkRead, he]
    rw [hc]; exact .failed he
  | none =>
    cases hm : p.readCanceled with
    | true =>
      have hc : p.checkRead = (some (.ok ⟨p.buffered, true, p.writerCompleted⟩),
          { p with readCanceled := false }) := by
        simp only [checkRead, he, hm, if_true]
      rw [hc]; exact .canceled he hm
    | false =>
      by_cases hb : 0 < p.buffered ∨ p.writerCompleted = true
      · have hc : p.checkRead = (some (.ok ⟨p.buffered, false, p.writerCompleted⟩), p) := by
          simp [checkRead, he, hm, hb]
        rw [hc]; exact .found he hm hb
      · have hc : p.checkRead = (none, p) := by simp [checkRead, he, hm, hb]
        rw [hc]
        obtain ⟨hz, hw⟩ := not_or.mp hb
        exact .blocked ⟨Nat.eq_zero_of_not_pos hz, Bool.eq_false_iff.mpr hw, he, hm⟩

/-- A read leaves alone what flushes look at. -/
theorem ReadLook.writer {p q : Pipe} {result : Option (Except ConnectionError ReadResult)}
    (look : ReadLook p result q) :
    q.readerError = p.readerError ∧ q.writerPaused = p.writerPaused ∧ q.pauses = p.pauses ∧
      q.resumes = p.resumes := by
  cases look <;> exact ⟨rfl, rfl, rfl, rfl⟩

/-! ## Accesses -/

/-- The flags of a pipe. -/
structure Flags where
  writerPaused : Bool
  pauses : Nat
  resumes : Nat
  writerCompleted : Bool
  writerError : Option ConnectionError
  readerCompleted : Bool
  readerError : Option ConnectionError
  readCanceled : Bool

def flags (p : Pipe) : Flags where
  writerPaused := p.writerPaused
  pauses := p.pauses
  resumes := p.resumes
  writerCompleted := p.writerCompleted
  writerError := p.writerError
  readerCompleted := p.readerCompleted
  readerError := p.readerError
  readCanceled := p.readCanceled

/-- What an access does to the flags, and what is seen of it. -/
inductive Effect (e : Event) : Prop
  | idle (seen : e.seen = {}) (flags : e.after.flags = e.before.flags)
  | flush (access : e.access = .writer (.flush .checking))
    (seen : e.seen = { flushed := e.flushed })
    (look : FlushLook e.before e.flushed e.after)
  | read (seen : e.seen = { looked := e.looked }) (after : Pipe)
    (flags : e.after.flags = after.flags) (look : ReadLook e.before e.looked after)
  | completeWriter (error : Option ConnectionError) (seen : e.seen = { writer := [error] })
    (first : e.before.writerCompleted = false)
    (flags : e.after.flags =
      { e.before.flags with writerCompleted := true, writerError := error })
  | completeReader (error : Option ConnectionError) (seen : e.seen = { reader := [error] })
    (first : e.before.readerCompleted = false)
    (flags : e.after.flags =
      { e.before.flags with readerCompleted := true, readerError := error })
  | cancel (seen : e.seen = { canceled := true })
    (flags : e.after.flags = { e.before.flags with readCanceled := true })

theorem flags_takeFront (p : Pipe) : p.takeFront.2.flags = p.flags := by
  obtain ⟨_, _, _, e⟩ := p.takeFront_frame
  rw [e]; rfl

theorem flags_readChunk (call : Await) (p : Pipe) :
    (p.readChunk call).2.flags = (p.read call).2.flags := by
  rcases readChunk_snd call p with h | h <;> rw [h]
  exact flags_takeFront _

/-- A read that does not look at the pipe has nothing to report. -/
theorem read_asleep {call : Await} (hc : call ≠ .checking) (p : Pipe) :
    (p.read call).2.flags = p.flags ∧
      ((p.read call).1 = .pending ∨ ∃ call', (p.read call).1 = .again call') := by
  cases call with
  | checking => exact absurd rfl hc
  | parking => exact ⟨rfl, .inr ⟨_, rfl⟩⟩
  | parked =>
    simp only [read]
    cases p.readable.resume? with
    | none => exact ⟨rfl, .inl rfl⟩
    | some n => exact ⟨rfl, .inr ⟨_, rfl⟩⟩

theorem seen_asleep {call : Await} (hc : call ≠ .checking) (p : Pipe) :
    Event.seen ⟨p, .reader (.read call)⟩ = {} ∧ Event.seen ⟨p, .reader (.readChunk call)⟩ = {} := by
  rcases (read_asleep hc p).2 with hr | ⟨call', hr⟩ <;>
    exact ⟨by simp only [Event.seen, Event.looked, hr]; rfl,
      by simp only [Event.seen, Event.looked, hr]; rfl⟩

theorem looked_checking (p : Pipe) :
    Event.looked ⟨p, .reader (.read .checking)⟩ = p.checkRead.1 ∧
      Event.looked ⟨p, .reader (.readChunk .checking)⟩ = p.checkRead.1 ∧
      (p.read .checking).2 = p.checkRead.2 := by
  simp only [Event.looked, Pipe.read]
  generalize p.checkRead = x
  obtain ⟨_ | result, q⟩ := x <;> exact ⟨rfl, rfl, rfl⟩

theorem Event.effect (e : Event) : Effect e := by
  obtain ⟨p, a⟩ := e
  rcases a with (⟨pool, request⟩ | _ | count | ⟨pool, data⟩ | call | call | error) |
    (call | call | call | count | error) | _
  case writer.getMemory =>
    obtain ⟨_, e⟩ := p.getMemory_frame pool request
    refine .idle rfl ?_
    simp only [after, Access.perform, WriterAccess.perform, e]; rfl
  case writer.fill => exact .idle rfl rfl
  case writer.advance =>
    obtain ⟨_, _, _, _, e⟩ := p.advance_frame count
    refine .idle rfl ?_
    simp only [after, Access.perform, WriterAccess.perform, e]; rfl
  case writer.write =>
    obtain ⟨_, _, _, _, e⟩ := p.write_frame pool data
    refine .idle rfl ?_
    simp only [after, Access.perform, WriterAccess.perform, e]; rfl
  case writer.flush =>
    cases call with
    | checking =>
      refine .flush rfl rfl ?_
      have hf := flushLook p
      simp only [after, flushed, Access.perform, WriterAccess.perform, Pipe.flush]
      generalize p.checkFlush = x at hf
      obtain ⟨_ | result, q⟩ := x <;> exact hf
    | parking => exact .idle rfl rfl
    | parked =>
      refine .idle ?_ ?_ <;>
        simp only [seen, after, flushed, Access.perform, WriterAccess.perform, Pipe.flush] <;>
        cases p.writable.resume? <;> rfl
  case writer.abandonFlush =>
    obtain ⟨_, e⟩ := p.abandonFlush_frame call
    refine .idle rfl ?_
    simp only [after, Access.perform, WriterAccess.perform, e]; rfl
  case writer.complete =>
    cases hw : p.writerCompleted with
    | true =>
      refine .idle ?_ ?_
      · simp only [seen, completion, hw, if_true]; rfl
      · simp only [after, Access.perform, WriterAccess.perform, completeWriter, hw, if_true]
    | false =>
      refine .completeWriter error ?_ hw ?_
      · simp only [seen, completion, hw]; rfl
      · simp only [after, Access.perform, WriterAccess.perform, completeWriter, hw]; rfl
  case reader.read =>
    by_cases hc : call = .checking
    · subst hc
      obtain ⟨hl, -, hq⟩ := looked_checking p
      exact .read rfl p.checkRead.2 (congrArg Pipe.flags hq) (hl ▸ readLook p)
    · exact .idle (seen_asleep hc p).1 (read_asleep hc p).1
  case reader.readChunk =>
    have hf : (Event.after ⟨p, .reader (.readChunk call)⟩).flags = (p.read call).2.flags :=
      flags_readChunk call p
    by_cases hc : call = .checking
    · subst hc
      obtain ⟨-, hl, hq⟩ := looked_checking p
      exact .read rfl p.checkRead.2 (hf.trans (congrArg Pipe.flags hq)) (hl ▸ readLook p)
    · exact .idle (seen_asleep hc p).2 (hf.trans (read_asleep hc p).1)
  case reader.abandonRead =>
    obtain ⟨_, e⟩ := p.abandonRead_frame call
    refine .idle rfl ?_
    simp only [after, Access.perform, ReaderAccess.perform, e]; rfl
  case reader.consume =>
    obtain ⟨_, _, _, e⟩ := p.consume_frame count
    refine .idle rfl ?_
    simp only [after, Access.perform, ReaderAccess.perform, e]; rfl
  case reader.complete =>
    cases hr : p.readerCompleted with
    | true =>
      refine .idle ?_ ?_
      · simp only [seen, readerCompletion, hr, if_true]; rfl
      · simp only [after, Access.perform, ReaderAccess.perform, completeReader, hr, if_true]
    | false =>
      refine .completeReader error ?_ hr ?_
      · simp only [seen, readerCompletion, hr]; rfl
      · simp only [after, Access.perform, ReaderAccess.perform, completeReader, hr]; rfl
  case cancel => exact .cancel rfl rfl

end Duplex.Pipe
