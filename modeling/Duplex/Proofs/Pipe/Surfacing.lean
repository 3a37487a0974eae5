import Duplex.Proofs.Pipe.Outstanding

/-!
# Errors and cancellations surface once

In every history of a pipe in use (`surfaced`): the error of the first completion of the writer is
returned by the first call of the reading end that returns after it, and by no other, and the error
of the first completion of the reader by the first such flush. Whoever polls a call that has been
woken since, or a new one, gets it, whatever else there is to report. A canceled report has a
cancellation of its own, and several cancellations with no report in between make one canceled
report. None of this costs a byte.

What calls return is read off the slots of the pipe (`Linked.tells`), and the bytes off the law of
the stream (`Linked.stream`). What a polled call gets is `poll_error`, `poll_report` and
`poll_completed`, for once woken it stays awake (`Ends.History.readerAwake`,
`Ends.History.writerAwake`).
-/

namespace Duplex.Pipe

variable {options : PipeOptions} {p q : Pipe} {l l₁ l₂ : List Event} {x : Event}

/-! ## Bytes -/

theorem Linked.sound (hl : Linked p l q) (hp : p.Sound) : q.Sound := by
  refine hl.induct (P := fun _ q => q.Sound) (fun {_ c d} hc hs => ?_) hp
    (fun {_ e} _ hs => hs.perform e.access)
  have hd : d.core.Sound := hc ▸ hs.congr rfl rfl rfl
  exact hd.congr rfl rfl rfl

theorem content_of_core (hc : q.core = p.core) : q.content = p.content :=
  show q.core.content = p.core.content by rw [hc]

/-- While the reader has not completed, what was taken out and what is buffered is what was
committed to an empty pipe. -/
theorem Linked.stream (hl : Linked (create options) l q) (hq : q.readerCompleted = false) :
    taken l ++ q.content = committed l := by
  revert hq
  refine hl.induct (P := fun l q => q.readerCompleted = false → taken l ++ q.content = committed l)
    (fun {_ c d} hc ih hq => ?_) (fun _ => rfl) (fun {l e} hb ih hq => ?_)
  · rw [content_of_core hc]
    have hr : d.readerCompleted = c.readerCompleted :=
      congrArg Flags.readerCompleted (flags_of_core hc)
    exact ih (hr.symm.trans hq)
  · have hr : e.before.readerCompleted = false := by
      have hc := (completed_perform e.access e.before).1
      rw [show (e.access.perform e.before).readerCompleted = false from hq] at hc
      exact (Bool.or_eq_false_iff.mp hc.symm).1
    calc taken (l ++ [e]) ++ e.after.content
        = taken l ++ (e.taken ++ e.after.content) := by simp
      _ = taken l ++ e.before.content ++ e.committed := by
        rw [List.append_assoc]
        exact congrArg _ (stream_perform (hb.sound (sound_create options)) e.access hq)
      _ = committed (l ++ [e]) := by rw [ih hr]; simp

/-- What a call of the reading end returns has been taken out of the pipe, and nothing else. -/
theorem Event.content_of_answer (hs : x.before.Sound) :
    (∀ error, x.answer = some (.error error) → x.after.content = x.before.content) ∧
    (∀ r, x.answer = some (.ok (.report r)) →
      x.after.content = x.before.content ∧ r.length = x.before.content.length) ∧
    (∀ chunk, x.answer = some (.ok (.segment chunk)) →
      chunk.getD [] ++ x.after.content = x.before.content) := by
  obtain ⟨p, a⟩ := x
  rcases a with _ | (call | call | _ | _ | _) | _
  case reader.read =>
    have hc := content_read call p
    refine ⟨fun _ _ => hc, fun r hr => ⟨hc, ?_⟩, fun chunk hr => ?_⟩
    · simp only [answer] at hr
      split at hr <;> cases hr
      rename_i hd
      obtain ⟨rfl, -, -⟩ := read_ok hd
      exact hs.buffered
    · simp only [answer] at hr
      split at hr <;> cases hr
  case reader.readChunk =>
    have hc : ReaderAccess.taken (.readChunk call) p ++ (p.readChunk call).2.content = p.content :=
      (readChunk_content hs call).1
    simp only [ReaderAccess.taken] at hc
    refine ⟨fun _ hr => ?_, fun r hr => ?_, fun chunk hr => ?_⟩
    · simp only [answer] at hr
      split at hr <;> cases hr
      rename_i hd
      rw [hd] at hc
      exact hc
    · simp only [answer] at hr
      split at hr <;> cases hr
    · simp only [answer] at hr
      split at hr <;> cases hr
      rename_i hd
      rw [hd] at hc
      cases chunk <;> exact hc
  all_goals exact ⟨fun _ h => (by cases h), fun _ h => (by cases h), fun _ h => (by cases h)⟩

/-! ## Polled calls -/

/-- A call of the reading end that fails. -/
def ReadCall.failed : ReadCall → ConnectionError → Reply
  | read _, error => .read (.error error)
  | chunk _, error => .chunk (.error error)

/-- The error of the writer is ahead of everything else, and leaves everything else as it is. -/
theorem poll_error {call : ReadCall} {error : ConnectionError}
    (hg : Guards p.readable (some call.place) False) (he : p.writerError = some error) :
    ∃ r q, ReaderHandle.poll { call := some call } p = (some (call.failed error), r, q) ∧
      q.content = p.content ∧ q.readCanceled = p.readCanceled := by
  have hc : p.checkRead = (some (.error error), { p with writerError := none }) := by
    simp only [checkRead, he]
  have hr : p.checkRead.1 = some (.error error) := by rw [hc]
  obtain ⟨r, q, hp, hq⟩ : ∃ r q, ReaderHandle.poll { call := some call } p =
      (some (call.failed error), r, q) ∧ q.core = p.checkRead.2.core := by
    cases call with
    | read call => exact poll_read hg hr
    | chunk call => exact poll_chunk hg hr
  have hq : q.core = { p with writerError := none }.core := by rw [hq, hc]
  have hb : q.content = { p with writerError := none }.content := content_of_core hq
  exact ⟨r, q, hp, hb, congrArg Flags.readCanceled (flags_of_core hq)⟩

/-- If no error waits, a read that has something to report reports all that is buffered, and takes
nothing but the mark of a cancellation. -/
theorem poll_report {call : Await} (hs : p.Sound) (hg : Guards p.readable (some call) False)
    (he : p.writerError = none) (hb : ¬ p.ReaderBlocked) :
    ∃ r q, ReaderHandle.poll { call := some (.read call) } p =
        (some (.read (.ok ⟨p.content.length, p.readCanceled, p.writerCompleted⟩)), r, q) ∧
      q.content = p.content ∧ q.readCanceled = false := by
  have look := readLook p
  obtain ⟨hr, hc, hm⟩ : p.checkRead.1 =
        some (.ok ⟨p.content.length, p.readCanceled, p.writerCompleted⟩) ∧
      p.checkRead.2.content = p.content ∧ p.checkRead.2.readCanceled = false := by
    rw [show p.content.length = p.buffered from hs.buffered.symm]
    generalize p.checkRead.1 = result at look ⊢
    generalize p.checkRead.2 = q at look ⊢
    cases look with
    | failed waiting => rw [he] at waiting; cases waiting
    | canceled errors mark => rw [mark]; exact ⟨rfl, rfl, rfl⟩
    | found errors mark ready => rw [mark]; exact ⟨rfl, rfl, rfl⟩
    | blocked blocked => exact absurd blocked hb
  obtain ⟨r, q, hp, hq⟩ := poll_read hg hr
  exact ⟨r, q, hp, (content_of_core hq).trans hc,
    (congrArg Flags.readCanceled (flags_of_core hq)).trans hm⟩

theorem poll_completed {call : Await} (hg : Guards p.writable (some call) False)
    (hr : p.readerCompleted = true) :
    ∃ r q, WriterHandle.poll { call := some call } p =
      (some (.flushed (p.readerError.elim (.ok ⟨true⟩) .error)), r, q) := by
  obtain ⟨r, q, hp, -⟩ := poll_flush hg (checkFlush_completed hr)
  exact ⟨r, q, hp⟩

/-! ## Completions of completed ends -/

theorem completeWriter_again (hw : p.writerCompleted = true) (error : Option ConnectionError) :
    p.completeWriter error = p := by
  simp only [completeWriter, hw, if_true]

theorem completeReader_again (hr : p.readerCompleted = true) (error : Option ConnectionError) :
    p.completeReader error = p := by
  simp only [completeReader, hr, if_true]

theorem WriterHandle.drop_again (handle : WriterHandle) (hw : p.writerCompleted = true) :
    (handle.drop p).2 = (handle.abandon p).2 := by
  refine completeWriter_again ?_ none
  obtain ⟨_, _ | call⟩ := handle
  · exact hw
  · obtain ⟨_, hq⟩ := p.abandonFlush_frame call
    show (p.abandonFlush call).writerCompleted = true
    rw [hq]
    exact hw

theorem ReaderHandle.drop_again (handle : ReaderHandle) (hr : p.readerCompleted = true) :
    (handle.drop p).2 = (handle.abandon p).2 := by
  refine completeReader_again ?_ none
  obtain ⟨_, _ | call | call⟩ := handle
  · exact hr
  all_goals
    obtain ⟨_, hq⟩ := p.abandonRead_frame call
    show (p.abandonRead call).readerCompleted = true
    rw [hq]
    exact hr

namespace Ends

variable {e e' : Ends} {h h₁ h₂ : List Event} {o : Event}

theorem change_writer_again (hw : e.pipe.writerCompleted = true) (error : Option ConnectionError) :
    e.change (.writer (.complete error)) = e := by
  have hc : Access.change (.writer (.complete error)) e.pipe = e.pipe := by
    simp only [Access.change, Access.perform, WriterAccess.perform, completeWriter_again hw]
  have hn : Access.wakes (.writer (.complete error)) e.pipe = none := if_pos hw
  simp only [change, hc, hn]
  rfl

theorem change_reader_again (hr : e.pipe.readerCompleted = true) (error : Option ConnectionError) :
    e.change (.reader (.complete error)) = e := by
  have hc : Access.change (.reader (.complete error)) e.pipe = e.pipe := by
    simp only [Access.change, Access.perform, ReaderAccess.perform, completeReader_again hr]
  have hn : Access.wakes (.reader (.complete error)) e.pipe = none := if_pos hr
  simp only [change, hc, hn]
  rfl

/-- One of the moves wakes an end. -/
def Notified (side : Side) (h : List Event) : Prop := ∃ o ∈ h, o.move = .wake side

/-- Once woken, an end stays awake for as long as there is something to report. -/
theorem History.awake {side : Side} {Awake Ready : Ends → Prop} (run : Run options e)
    (hh : History e h e')
    (wake : ∀ {d d'}, d.Watched → (Move.wake side).perform d = some d' → Awake d')
    (move : ∀ {m : Move} {d d'}, Awake d → m.perform d = some d' → Ready d' → Awake d')
    (ready : ∀ h₁ h₂ d, h = h₁ ++ h₂ → History e h₁ d → Ready d) (hw : Notified side h) :
    Awake e' := by
  unfold History at hh
  induction hh with
  | nil => obtain ⟨_, hm, -⟩ := hw; cases hm
  | @snoc h d e' o steps step ih =>
    have last : Ready e' := ready _ [] e' (List.append_nil _).symm (Steps.snoc steps step)
    obtain ⟨rfl, hm⟩ := step
    obtain ⟨w, hw, ha⟩ := hw
    rcases List.mem_append.mp hw with hw | hw
    · refine move (ih (fun h₁ h₂ d hh => ?_) ⟨w, hw, ha⟩) hm last
      exact ready h₁ (h₂ ++ [o]) d (by rw [hh, List.append_assoc])
    · obtain rfl := List.mem_singleton.mp hw
      rw [ha] at hm
      exact wake (History.run steps run).watched hm

theorem History.readerAwake (run : Run options e) (hh : History e h e')
    (ready : ∀ h₁ h₂ d, h = h₁ ++ h₂ → History e h₁ d → ¬ d.pipe.ReaderBlocked)
    (hw : Notified .reader h) : e'.ReaderAwake :=
  hh.awake run Watched.readerAwake ReaderAwake.move ready hw

theorem History.writerAwake (run : Run options e) (hh : History e h e')
    (ready : ∀ h₁ h₂ d, h = h₁ ++ h₂ → History e h₁ d → ¬ d.pipe.WriterBlocked)
    (hw : Notified .writer h) : e'.WriterAwake :=
  hh.awake run Watched.writerAwake WriterAwake.move ready hw

/-- Whoever sleeps though there is something to report has a wake-up coming. -/
theorem Watched.coming (hw : e.Watched) :
    (¬ e.pipe.ReaderBlocked → e.ReaderAwake ∨ 0 < e.toReader) ∧
      (¬ e.pipe.WriterBlocked → e.WriterAwake ∨ 0 < e.toWriter) := by
  refine ⟨fun hb => ?_, fun hb => ?_⟩
  · rcases Nat.eq_zero_or_pos e.toReader with ht | ht
    · exact .inl (Guards.mono hw.reader fun h => h.elim hb (by omega))
    · exact .inr ht
  · rcases Nat.eq_zero_or_pos e.toWriter with ht | ht
    · exact .inl (Guards.mono hw.writer fun h => h.elim hb (by omega))
    · exact .inr ht

/-- The call is outstanding at the reading end, or is a new one. -/
def Reads (e : Ends) (call : ReadCall) : Prop :=
  e.reading = some call ∨ e.reading = none ∧ call.place = .checking

/-- The flush is outstanding, or is a new one. -/
def Flushes (e : Ends) (call : Await) : Prop :=
  e.flushing = some call ∨ e.flushing = none ∧ call = .checking

theorem Run.reads_awake {call : ReadCall} (run : Run options e) (hc : e.Reads call)
    (ha : call.place = .checking ∨ e.ReaderAwake) :
    Guards e.pipe.readable (some call.place) False := by
  have hw := run.watched.reader
  rcases hc with hc | ⟨hc, hn⟩
  · rw [hc] at hw
    rcases ha with ha | ha
    · rw [Option.map_some, ha] at hw
      rw [ha]
      exact hw
    · rwa [ReaderAwake, hc] at ha
  · rw [hc] at hw
    rw [hn]
    exact hw

theorem Run.flushes_awake {call : Await} (run : Run options e) (hc : e.Flushes call)
    (ha : call = .checking ∨ e.WriterAwake) : Guards e.pipe.writable (some call) False := by
  have hw := run.watched.writer
  rcases hc with hc | ⟨hc, rfl⟩
  · rw [hc] at hw
    rcases ha with rfl | ha
    · exact hw
    · rwa [WriterAwake, hc] at ha
  · rw [hc] at hw
    exact hw

/-! ## What a history surfaces -/

/-- What the calls of a history are told of completions and cancellations, and what the next ones
will be. -/
structure Surfaced (options : PipeOptions) (h : List Event) (e : Ends) : Prop where
  /-- The first call of the reading end that returns after the first completion of the writer fails
  with its error, and no other call does. -/
  writer : ∀ l₁ x l₂ error, accesses h = l₁ ++ x :: l₂ → x.access = .writer (.complete error) →
    x.before.writerCompleted = false →
    (∀ answer ∈ l₁.filterMap Pipe.Event.answer, refusal answer = none) ∧
      ∀ first rest, l₂.filterMap Pipe.Event.answer = first :: rest →
        refusal first = error ∧ ∀ answer ∈ rest, refusal answer = none
  /-- As long as none has returned, a call gets the error that is polled after it has been woken,
  and so does a new one, whatever is buffered or canceled. -/
  writerPolled : ∀ h₁ o h₂ error call, h = h₁ ++ o :: h₂ →
    o.move = .operate (.writer (.complete (some error))) → o.before.pipe.writerCompleted = false →
    (accesses h₂).filterMap Pipe.Event.answer = [] → e.Reads call →
    call.place = .checking ∨ Notified .reader h₂ →
    ∃ r q, ReaderHandle.poll { call := some call } e.pipe = (some (call.failed error), r, q) ∧
      q.content = e.pipe.content ∧ q.readCanceled = e.pipe.readCanceled
  /-- After that a read reports all that is buffered. -/
  writerTold : ∀ h₁ o h₂ error call, h = h₁ ++ o :: h₂ →
    o.move = .operate (.writer (.complete error)) → o.before.pipe.writerCompleted = false →
    (accesses h₂).filterMap Pipe.Event.answer ≠ [] → e.Reads (.read call) →
    call = .checking ∨ Notified .reader h₂ →
    ∃ r q, ReaderHandle.poll { call := some (.read call) } e.pipe =
        (some (.read (.ok ⟨e.pipe.content.length, e.pipe.readCanceled, true⟩)), r, q) ∧
      q.content = e.pipe.content
  /-- A completion of a writer that has completed does nothing, nor does dropping it, beyond giving
  up its flush. -/
  writerAgain : e.pipe.writerCompleted = true →
    (∀ error, e.change (.writer (.complete error)) = e) ∧
      ∀ handle : WriterHandle, (handle.drop e.pipe).2 = (handle.abandon e.pipe).2
  /-- The first flush that returns after the first completion of the reader fails with its error if
  there is one, and every other one reports the completion. -/
  reader : ∀ l₁ x l₂ error, accesses h = l₁ ++ x :: l₂ → x.access = .reader (.complete error) →
    x.before.readerCompleted = false →
    (∀ result ∈ l₁.filterMap Pipe.Event.flushed, result = .ok ⟨false⟩) ∧
      ∀ first rest, l₂.filterMap Pipe.Event.flushed = first :: rest →
        first = error.elim (.ok ⟨true⟩) .error ∧ ∀ result ∈ rest, result = .ok ⟨true⟩
  /-- That is what a flush gets that is polled after it has been woken, or is new. -/
  readerPolled : ∀ h₁ o h₂ error call, h = h₁ ++ o :: h₂ →
    o.move = .operate (.reader (.complete error)) → o.before.pipe.readerCompleted = false →
    e.Flushes call → call = .checking ∨ Notified .writer h₂ →
    ∃ r q, WriterHandle.poll { call := some call } e.pipe =
      (some (.flushed (if (accesses h₂).filterMap Pipe.Event.flushed = [] then
        error.elim (.ok ⟨true⟩) .error else .ok ⟨true⟩)), r, q)
  readerAgain : e.pipe.readerCompleted = true →
    (∀ error, e.change (.reader (.complete error)) = e) ∧
      ∀ handle : ReaderHandle, (handle.drop e.pipe).2 = (handle.abandon e.pipe).2
  /-- A canceled report comes from a cancellation since the last report. -/
  cause : ∀ l₁ x l₂ r, accesses h = l₁ ++ x :: l₂ → x.reported = some r → r.canceled = true →
    ∃ m₁ c m₂, l₁ = m₁ ++ c :: m₂ ∧ c.access = .cancel ∧ m₂.filterMap Pipe.Event.reported = []
  /-- Cancellations with no report in between make the next report a canceled one, and no report
  after that. -/
  once : ∀ l₁ c mid x l₂ r, accesses h = l₁ ++ c :: (mid ++ x :: l₂) → c.access = .cancel →
    mid.filterMap Pipe.Event.reported = [] → x.reported = some r →
    r.canceled = true ∧ ((∀ y ∈ l₂, y.access ≠ .cancel) →
      ∀ r ∈ l₂.filterMap Pipe.Event.reported, r.canceled = false)
  /-- As long as there is no report, a read that is polled after it has been woken makes one, and so
  does a new one, unless an error is ahead of it. -/
  canceledPolled : ∀ h₁ o h₂ call, h = h₁ ++ o :: h₂ → o.move = .operate .cancel →
    (accesses h₂).filterMap Pipe.Event.reported = [] → e.pipe.writerError = none →
    e.Reads (.read call) → call = .checking ∨ Notified .reader h₂ →
    ∃ r q, ReaderHandle.poll { call := some (.read call) } e.pipe =
        (some (.read (.ok ⟨e.pipe.content.length, true, e.pipe.writerCompleted⟩)), r, q) ∧
      q.content = e.pipe.content
  /-- Whoever sleeps though there is something to report has a wake-up coming. -/
  coming : (¬ e.pipe.ReaderBlocked → e.ReaderAwake ∨ 0 < e.toReader) ∧
    (¬ e.pipe.WriterBlocked → e.WriterAwake ∨ 0 < e.toWriter)
  /-- No error and no report takes a byte out of the pipe, and a segment that is taken out is
  returned. -/
  kept : ∀ x ∈ accesses h,
    (∀ error, x.answer = some (.error error) → x.after.content = x.before.content) ∧
      (∀ r, x.answer = some (.ok (.report r)) →
        x.after.content = x.before.content ∧ r.length = x.before.content.length) ∧
      ∀ chunk, x.answer = some (.ok (.segment chunk)) →
        chunk.getD [] ++ x.after.content = x.before.content
  /-- As long as the reader has not completed, all that was committed has been taken out or can
  still be read. -/
  stream : e.pipe.readerCompleted = false →
    taken (accesses h) ++ e.pipe.content = committed (accesses h)

variable {options : PipeOptions}

/-- An operation of a history: it is one of its accesses, and there is a run to the state after
it. -/
theorem History.operate {a : Access} (hh : History { pipe := .create options } (h₁ ++ o :: h₂) e)
    (ho : o.move = .operate a) :
    Linked (.create options) (accesses h₁ ++ ⟨o.before.pipe, a⟩ :: accesses h₂) e.pipe ∧
      ∃ d, Run options d ∧ d.pipe.core = (a.perform o.before.pipe).core ∧ History d h₂ e := by
  have ha : o.access? = some ⟨o.before.pipe, a⟩ := by simp only [Event.access?, ho]
  have hl : Linked (.create options) (accesses (h₁ ++ o :: h₂)) e.pipe := hh.linked
  rw [accesses_append, show accesses (o :: h₂) = ⟨o.before.pipe, a⟩ :: accesses h₂ by
    simp only [accesses, List.filterMap_cons, ha]] at hl
  obtain ⟨d, before, hm, after⟩ := hh.split
  refine ⟨hl, d, (before.run .create).move _ hm, ?_, after⟩
  rcases Move.core hm with ⟨hn, -⟩ | ⟨b, hs, hc⟩
  · rw [show Event.access? ⟨o.before, o.move⟩ = _ from ha] at hn; cases hn
  · rw [show Event.access? ⟨o.before, o.move⟩ = _ from ha] at hs
    cases hs
    exact hc

/-- The first completion of the writer, and what its error has come to since. -/
theorem History.writer_completed {error : Option ConnectionError}
    (hh : History { pipe := .create options } (h₁ ++ o :: h₂) e)
    (ho : o.move = .operate (.writer (.complete error)))
    (hw : o.before.pipe.writerCompleted = false) :
    ∃ d, Run options d ∧ History d h₂ e ∧ d.pipe.writerCompleted = true ∧
      e.pipe.writerError =
        if (accesses h₂).filterMap Pipe.Event.answer = [] then error else none := by
  obtain ⟨hl, d, run, hd, after⟩ := hh.operate ho
  obtain ⟨-, -, hg, hc⟩ := hl.answers rfl hw
  exact ⟨d, run, after, (congrArg Flags.writerCompleted (flags_of_core hd)).trans hc, hg⟩

theorem History.reader_completed {error : Option ConnectionError}
    (hh : History { pipe := .create options } (h₁ ++ o :: h₂) e)
    (ho : o.move = .operate (.reader (.complete error)))
    (hr : o.before.pipe.readerCompleted = false) :
    ∃ d, Run options d ∧ History d h₂ e ∧ d.pipe.readerCompleted = true ∧
      e.pipe.readerError =
        if (accesses h₂).filterMap Pipe.Event.flushed = [] then error else none := by
  obtain ⟨hl, d, run, hd, after⟩ := hh.operate ho
  obtain ⟨-, -, hg, hc⟩ := hl.flushes rfl hr
  exact ⟨d, run, after, (congrArg Flags.readerCompleted (flags_of_core hd)).trans hc, hg⟩

/-- Once the writer has completed, a read has something to report. -/
theorem History.readable_of_writer (hh : History e h e') (hw : e.pipe.writerCompleted = true) :
    ¬ e'.pipe.ReaderBlocked := fun hb => by
  have hq := hh.linked.completed_mono.1 hw
  rw [hb.writer] at hq
  cases hq

theorem History.flushable_of_reader (hh : History e h e') (hr : e.pipe.readerCompleted = true) :
    ¬ e'.pipe.WriterBlocked := fun hb => by
  have hq := hh.linked.completed_mono.2 hr
  rw [hb.reader] at hq
  cases hq

/-- A mark that no report has taken is something to report. -/
theorem History.readable_of_mark (hh : History e h e') (hm : e.pipe.readCanceled = true)
    (hn : (accesses h).filterMap Pipe.Event.reported = []) : ¬ e'.pipe.ReaderBlocked := fun hb => by
  have hq := hh.linked.canceled_kept hm hn
  rw [hb.canceled] at hq
  cases hq

theorem surfaced (hh : History { pipe := .create options } h e) : Surfaced options h e := by
  have run : Run options e := hh.run .create
  have hl : Linked (.create options) (accesses h) e.pipe := hh.linked
  have sound : e.pipe.Sound := hl.sound (sound_create options)
  exact {
    writer := fun l₁ x l₂ error hs ha hw => by
      rw [hs] at hl
      obtain ⟨before, after, -⟩ := hl.answers ha hw
      exact ⟨before, after⟩
    writerPolled := fun h₁ o h₂ error call hs ho hw hn hc ha => by
      subst hs
      obtain ⟨d, hd, after, hf, hg⟩ := hh.writer_completed ho hw
      rw [if_pos hn] at hg
      refine poll_error (run.reads_awake hc (ha.imp_right ?_)) hg
      exact after.readerAwake hd fun _ _ _ _ hm => hm.readable_of_writer hf
    writerTold := fun h₁ o h₂ error call hs ho hw hn hc ha => by
      subst hs
      obtain ⟨d, hd, after, hf, hg⟩ := hh.writer_completed ho hw
      rw [if_neg hn] at hg
      have awake := run.reads_awake hc (ha.imp_right
        (after.readerAwake hd fun _ _ _ _ hm => hm.readable_of_writer hf))
      obtain ⟨r, q, hp, hb, -⟩ := poll_report sound awake hg (after.readable_of_writer hf)
      rw [after.linked.completed_mono.1 hf] at hp
      exact ⟨r, q, hp, hb⟩
    writerAgain := fun hw =>
      ⟨change_writer_again hw, fun handle => handle.drop_again hw⟩
    reader := fun l₁ x l₂ error hs ha hr => by
      rw [hs] at hl
      obtain ⟨before, after, -⟩ := hl.flushes ha hr
      exact ⟨before, after⟩
    readerPolled := fun h₁ o h₂ error call hs ho hr hc ha => by
      subst hs
      obtain ⟨d, hd, after, hf, hg⟩ := hh.reader_completed ho hr
      have awake := run.flushes_awake hc (ha.imp_right
        (after.writerAwake hd fun _ _ _ _ hm => hm.flushable_of_reader hf))
      obtain ⟨r, q, hp⟩ := poll_completed awake (after.linked.completed_mono.2 hf)
      refine ⟨r, q, hp.trans ?_⟩
      rw [hg]
      split <;> rfl
    readerAgain := fun hr =>
      ⟨change_reader_again hr, fun handle => handle.drop_again hr⟩
    cause := fun l₁ x l₂ r hs hx hm => by
      rw [hs] at hl
      have hm : x.before.readCanceled = true := (Event.mark_of_reported hx).1.symm.trans hm
      exact hl.split.1.cancel_of_mark hm
    once := fun l₁ c mid x l₂ r hs hc hm hx => by
      rw [hs] at hl
      exact hl.canceled_once hc hm hx
    canceledPolled := fun h₁ o h₂ call hs ho hn he hc ha => by
      subst hs
      obtain ⟨-, d, hd, hk, after⟩ := hh.operate ho
      have hm : d.pipe.readCanceled = true := congrArg Flags.readCanceled (flags_of_core hk)
      have awake := run.reads_awake hc (ha.imp_right (after.readerAwake hd
        fun m₁ m₂ _ hs hb => hb.readable_of_mark hm (by
          rw [hs, accesses_append, List.filterMap_append, List.append_eq_nil_iff] at hn
          exact hn.1)))
      obtain ⟨r, q, hp, hb, -⟩ := poll_report sound awake he (after.readable_of_mark hm hn)
      rw [after.linked.canceled_kept hm hn] at hp
      exact ⟨r, q, hp, hb⟩
    coming := run.watched.coming
    kept := fun x hx => by
      obtain ⟨l₁, l₂, hs⟩ := List.append_of_mem hx
      rw [hs] at hl
      exact Event.content_of_answer (hl.split.1.sound (sound_create options))
    stream := hl.stream }

/-- The history of moves made one after the other, up to the first that cannot be made. -/
def trace (e : Ends) : List Move → List Event
  | [] => []
  | m :: ms => ⟨e, m⟩ :: ((m.perform e).elim [] fun e => trace e ms)

theorem history_trace {ms : List Move} (hm : e.performAll ms = some e') :
    History e (trace e ms) e' := by
  induction ms generalizing e with
  | nil => cases hm; exact .nil
  | cons m ms ih =>
    obtain ⟨d, hd, hm⟩ := Option.bind_eq_some_iff.mp hm
    have hd : m.perform e = some d := hd
    rw [trace, hd]
    exact Steps.append (Steps.snoc .nil ⟨rfl, hd⟩) (ih hm)

def start : Ends := { pipe := .create {} }

/-- Two bytes are committed while a read sleeps, which is canceled, and the writer completes with an
error. -/
def interrupted : List Move :=
  [.startRead false, .lookRead, .lookRead, .operate (.writer (.getMemory { blockSize := 4 } 2)),
    .operate (.writer (.fill 0 [7, 8])), .operate (.writer (.advance 2)), .operate .cancel]

/-- The completion. -/
def failing : Move := .operate (.writer (.complete (some .abortedLocally)))

/-- The read wakes up and returns. -/
def returning : List Move := [.lookRead, .lookRead]

def asleep : Ends := (start.performAll interrupted).getD start

def woken : Ends := (start.performAll (interrupted ++ failing :: [.wake .reader])).getD start

def told : Ends :=
  (start.performAll (interrupted ++ failing :: (.wake .reader :: returning))).getD start

/-- The sleeping read gets the error, ahead of the bytes and of the cancellation, which the next
read reports with both bytes. -/
theorem error_ahead_of_cancellation :
    (∃ r q, ReaderHandle.poll { call := some (.read .parked) } woken.pipe =
        (some (.read (.error .abortedLocally)), r, q) ∧
      q.content = [7, 8] ∧ q.readCanceled = true) ∧
    ∃ r q, ReaderHandle.poll { call := some (.read .checking) } told.pipe =
        (some (.read (.ok ⟨2, true, true⟩)), r, q) ∧ q.content = [7, 8] := by
  have first : Surfaced {} (trace start (interrupted ++ failing :: [.wake .reader])) woken :=
    surfaced (history_trace (by rfl))
  have next : Surfaced {} (trace start (interrupted ++ failing :: (.wake .reader :: returning)))
      told := surfaced (history_trace (by rfl))
  refine ⟨?_, ?_⟩
  · exact first.writerPolled (trace start interrupted) ⟨asleep, failing⟩ _ _ (.read .parked)
      rfl rfl rfl rfl (.inl rfl) (.inr ⟨_, List.mem_cons_self .., rfl⟩)
  · exact next.writerTold (trace start interrupted) ⟨asleep, failing⟩ _ _ .checking
      rfl rfl rfl (by decide) (.inr ⟨rfl, rfl⟩) (.inl rfl)

end Ends

end Duplex.Pipe
