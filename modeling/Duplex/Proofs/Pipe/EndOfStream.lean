import Duplex.Proofs.Pipe.Stream

/-!
# The end of a stream

A read that reports the completion of the writer (`Event.reported`) reports all that is buffered
(`reported_spec`). What the reader gets from then on is that and what the writer still commits:
a writer that has completed can go on committing, and the pipe takes its bytes as before. So the
end of a stream is final exactly if nothing is committed after it was reported
(`end_of_stream_final_iff`).
-/

namespace Duplex.Pipe

/-! ## Reads and their reports -/

/-- A read reports how much is buffered and whether the writer has completed, and only once the
error of the writer is out of the way. -/
theorem reported_spec {e : Event} {r : ReadResult} (h : e.reported = some r) :
    e.before.writerError = none ∧ r.length = e.before.buffered ∧
      r.completed = e.before.writerCompleted ∧ e.committed = [] := by
  obtain ⟨p, a⟩ := e
  rcases a with _ | (call | call | _ | _ | _) | _
  case reader.read =>
    simp only [Event.reported] at h
    split at h <;> cases h
    rename_i hd
    obtain ⟨rfl, he, -⟩ := read_ok hd
    exact ⟨he, rfl, rfl, rfl⟩
  case reader.readChunk =>
    simp only [Event.reported] at h
    split at h <;> cases h
    rename_i hd
    obtain ⟨rfl, he, -⟩ := read_ok hd
    exact ⟨he, rfl, rfl, rfl⟩
  all_goals simp [Event.reported] at h

/-- The reading of a segment that ends with nothing left. -/
def Event.FoundNothing (e : Event) : Prop :=
  ∃ call, e.access = .reader (.readChunk call) ∧ (e.before.readChunk call).1 = .done (.ok none)

/-- Nothing is left only after the writer has completed, and the reading reports that. -/
theorem reported_of_foundNothing {e : Event} (hn : e.FoundNothing) :
    ∃ r, e.reported = some r ∧ r.completed = true := by
  obtain ⟨call, ha, hn⟩ := hn
  simp only [Event.reported, ha]
  simp only [readChunk] at hn
  generalize e.before.read call = x at hn ⊢
  obtain ⟨_ | _ | _ | r, q⟩ := x
  case done.ok =>
    refine ⟨r, rfl, ?_⟩
    cases hc : r.completed with
    | true => rfl
    | false =>
      simp only [hc, Bool.false_eq_true, if_false] at hn
      split at hn <;> cases hn
  all_goals cases hn

theorem length_of_foundNothing {e : Event} {r : ReadResult} (hs : e.before.Sound)
    (h : e.reported = some r) (hn : e.FoundNothing) : r.length = 0 := by
  obtain ⟨call, ha, hn⟩ := hn
  have hb := (reported_spec h).2.1
  simp only [Event.reported, ha] at h
  split at h <;> cases h
  rename_i hd
  generalize hq : e.before.read call = x at hd
  obtain ⟨y, q⟩ := x
  obtain rfl : y = .done (.ok r) := hd
  have hqs : q.Sound := by have := hs.read call; rwa [hq] at this
  have hqc : q.content = e.before.content := by have := content_read call e.before; rwa [hq] at this
  simp only [readChunk, hq] at hn
  cases he : r.isEmpty with
  | true => exact eq_of_beq he
  | false =>
    simp only [he, Bool.false_eq_true, if_false] at hn
    obtain ⟨-, -, ht⟩ := takeFront_content hqs
    generalize q.takeFront = t at hn ht
    obtain ⟨chunk, t⟩ := t
    cases chunk with
    | some chunk => simp at hn
    | none => rw [hb, hs.buffered, ← hqc, ht.mp rfl]; rfl

/-- The reading of a segment finds nothing left if nothing is buffered and the writer has
completed, its error being out of the way. -/
theorem readChunk_of_drained {p : Pipe} (hs : p.Sound) (hc : p.content = [])
    (hw : p.writerCompleted = true) (he : p.writerError = none) :
    (p.readChunk .checking).1 = .done (.ok none) := by
  have hb : p.buffered = 0 := by rw [hs.buffered, hc]; rfl
  cases hx : p.readCanceled <;>
    simp [readChunk, read, checkRead, he, hw, hb, hx, ReadResult.isEmpty]

/-! ## After the completion of the writer -/

theorem writerError_read {p : Pipe} (call : Await) (he : p.writerError = none) :
    (p.read call).2.writerError = none := by
  have hc : p.checkRead.2.writerError = none := by
    simp only [checkRead, he]
    split
    · rfl
    · split <;> exact he
  cases call with
  | checking => simp only [read]; split <;> (rename_i h; rw [h] at hc; exact hc)
  | parking => exact he
  | parked => simp only [read]; split <;> exact he

/-- Once the writer has completed and its error is out of the way, there is no other error. -/
theorem writerError_perform (a : Access) {p : Pipe} (hw : p.writerCompleted = true)
    (he : p.writerError = none) : (a.perform p).writerError = none := by
  rcases a with (⟨pool, request⟩ | _ | count | ⟨pool, data⟩ | call | call | _) |
    (call | call | call | count | _) | _
  case writer.getMemory =>
    obtain ⟨_, e⟩ := p.getMemory_frame pool request
    simp only [Access.perform, WriterAccess.perform, e, he]
  case writer.fill => exact he
  case writer.advance =>
    obtain ⟨_, _, _, _, e⟩ := p.advance_frame count
    simp only [Access.perform, WriterAccess.perform, e, he]
  case writer.write =>
    obtain ⟨_, _, _, _, e⟩ := p.write_frame pool data
    simp only [Access.perform, WriterAccess.perform, e, he]
  case writer.flush =>
    obtain ⟨_, _, _, _, _, e⟩ := p.flush_frame call
    simp only [Access.perform, WriterAccess.perform, e, he]
  case writer.abandonFlush =>
    obtain ⟨_, e⟩ := p.abandonFlush_frame call
    simp only [Access.perform, WriterAccess.perform, e, he]
  case writer.complete =>
    simp only [Access.perform, WriterAccess.perform, completeWriter, hw, if_true, he]
  case reader.read => exact writerError_read call he
  case reader.readChunk =>
    have hr := writerError_read call he
    rcases readChunk_snd call p with h | h <;>
      simp only [Access.perform, ReaderAccess.perform, h]
    · exact hr
    · obtain ⟨_, _, _, e⟩ := (p.read call).2.takeFront_frame
      rw [e]; exact hr
  case reader.abandonRead =>
    obtain ⟨_, e⟩ := p.abandonRead_frame call
    simp only [Access.perform, ReaderAccess.perform, e, he]
  case reader.consume =>
    obtain ⟨_, _, _, e⟩ := p.consume_frame count
    simp only [Access.perform, ReaderAccess.perform, e, he]
  case reader.complete =>
    simp only [Access.perform, ReaderAccess.perform, completeReader]
    split <;> exact he
  case cancel => exact he

theorem Run.writerError_eq_none {p q : Pipe} {h : List Event} (hr : Run p h q)
    (hw : p.writerCompleted = true) (he : p.writerError = none) : q.writerError = none := by
  induction hr with
  | nil => exact he
  | snoc run a ih => exact writerError_perform a (run.writerCompleted_mono hw) ih

/-- A commit reaches the pipe whether or not the writer has completed: only the completion of the
reader turns it away. -/
theorem content_of_commit {p : Pipe} (hs : p.Sound) (a : WriterAccess) :
    (a.perform p).content =
      if p.readerCompleted = true then p.content else p.content ++ a.committed p := by
  have hc := (completed_perform (.writer a) p).1
  simp only [Access.endsReading, Bool.or_false] at hc
  cases hr : p.readerCompleted with
  | true =>
    have hq : (a.perform p).content = [] :=
      (hs.perform (.writer a)).content_of_completed (hc.trans hr)
    rw [hq, hs.content_of_completed hr]; rfl
  | false => exact stream_perform hs (.writer a) (hc.trans hr)

/-- **What follows the end of a stream.** Take any run of a pipe in which a read reported the
completion of the writer. From that read on the reader can get no more than the bytes that it
reported and those committed later. If none are committed later, what was taken and what is
buffered never exceed the reported length, and once the reading of a segment has found nothing
left it never finds anything again. Otherwise, unless the reader completes, it can get all the
late bytes too: a writer that has completed still commits into the pipe. -/
theorem end_of_stream_final_iff {options : PipeOptions} {h₁ h₂ : List Event} {e : Event}
    {p : Pipe} {r : ReadResult} (hr : Run (create options) (h₁ ++ e :: h₂) p)
    (he : e.reported = some r) (hc : r.completed = true) :
    taken (e :: h₂) ++ p.content <+: e.before.content ++ committed h₂ ∧
      e.before.content.length = r.length ∧
      (committed h₂ = [] →
        (taken (e :: h₂)).length + p.buffered ≤ r.length ∧
          (e.FoundNothing → (p.readChunk .checking).1 = .done (.ok none))) ∧
      (p.readerCompleted = false →
        ((taken (e :: h₂)).length + p.buffered ≤ r.length ↔ committed h₂ = [])) ∧
      (∀ late ∈ h₂, ∀ a, late.access = .writer a →
        late.before.writerCompleted = true ∧
          (a.perform late.before).content =
            if late.before.readerCompleted = true then late.before.content
            else late.before.content ++ late.committed) := by
  obtain ⟨hr₁, hr₂⟩ := hr.split
  obtain ⟨herr, hlen, hcomp, hnone⟩ := reported_spec he
  have hs : e.before.Sound := hr₁.sound (sound_create options)
  have hw : e.before.writerCompleted = true := hcomp ▸ hc
  have hl : e.before.content.length = r.length := by rw [hlen, hs.buffered]
  have hrun : Run e.before (e :: h₂) p := (Run.nil.snoc e.access).append hr₂
  have hp : p.Sound := hrun.sound hs
  have hpre : taken (e :: h₂) ++ p.content <+: e.before.content ++ committed h₂ := by
    have := hrun.taken_prefix hs
    rwa [committed_cons, hnone, List.nil_append] at this
  have hfinal : committed h₂ = [] → (taken (e :: h₂)).length + p.buffered ≤ r.length := by
    intro hn
    rw [hn, List.append_nil] at hpre
    rw [hp.buffered, ← List.length_append, ← hl]
    exact hpre.length_le
  refine ⟨hpre, hl, fun hn => ⟨hfinal hn, fun hf => ?_⟩, fun hq => ⟨fun h => ?_, hfinal⟩, ?_⟩
  · have hz : r.length = 0 := length_of_foundNothing hs he hf
    have hb := hfinal hn
    have hpc : p.content = [] := by rw [← List.length_eq_zero_iff, ← hp.buffered]; omega
    exact readChunk_of_drained hp hpc (hrun.writerCompleted_mono hw)
      (hrun.writerError_eq_none hw herr)
  · have hst := congrArg List.length (hrun.stream hs hq)
    rw [committed_cons, hnone, List.nil_append, List.length_append, List.length_append, hl,
      ← hp.buffered] at hst
    exact List.eq_nil_of_length_eq_zero (by omega)
  · intro late hmem a ha
    obtain ⟨h₃, h₄, rfl⟩ := List.append_of_mem hmem
    obtain ⟨hr₃, -⟩ := hr₂.split
    have hm : Run e.before (e :: h₃) late.before := (Run.nil.snoc e.access).append hr₃
    refine ⟨hm.writerCompleted_mono hw, ?_⟩
    rw [content_of_commit (hm.sound hs), Event.committed, ha]

/-! ## A late commit -/

/-- The writer stages a region and completes, the reader reads, and the writer commits a byte. -/
def lateCommit : List Access :=
  [.writer (.getMemory { blockSize := 16 } 1), .writer (.complete none), .reader (.read .checking),
    .writer (.advance 1)]

/-- The pipe that the read of `lateCommit` finds. -/
def endReported : Pipe := performAll (create {}) (lateCommit.take 2)

theorem trace_lateCommit :
    trace (create {}) lateCommit = trace (create {}) (lateCommit.take 2) ++
      ⟨endReported, .reader (.read .checking)⟩ :: [⟨endReported, .writer (.advance 1)⟩] := rfl

theorem run_lateCommit :
    Run (create {}) (trace (create {}) (lateCommit.take 2) ++
      ⟨endReported, .reader (.read .checking)⟩ :: [⟨endReported, .writer (.advance 1)⟩])
      (performAll (create {}) lateCommit) :=
  trace_lateCommit ▸ run_trace _ _

/-- In the run of `lateCommit` the reader is told that the stream has ended with nothing in it,
and a byte is buffered afterwards. -/
theorem late_byte_buffered :
    Event.reported ⟨endReported, .reader (.read .checking)⟩ = some ⟨0, false, true⟩ ∧
      ¬ ((taken [⟨endReported, .reader (.read .checking)⟩,
          ⟨endReported, .writer (.advance 1)⟩]).length +
          (performAll (create {}) lateCommit).buffered ≤ 0) := by
  have hr : Event.reported ⟨endReported, .reader (.read .checking)⟩ = some ⟨0, false, true⟩ := by
    decide
  refine ⟨hr, fun h => ?_⟩
  have hc := ((end_of_stream_final_iff run_lateCommit hr rfl).2.2.2.1 rfl).mp h
  exact absurd hc (by decide)

/-- The end of a stream is not final: a reader can get more than what the read that told it of
the end reported. -/
theorem end_of_stream_not_final :
    ¬ ∀ (options : PipeOptions) (h₁ h₂ : List Event) (e : Event) (p : Pipe) (r : ReadResult),
      Run (create options) (h₁ ++ e :: h₂) p → e.reported = some r → r.completed = true →
        (taken (e :: h₂)).length + p.buffered ≤ r.length := by
  intro h
  have := h {} _ _ _ _ ⟨0, false, true⟩ run_lateCommit (by decide) rfl
  exact absurd this (by decide)

end Duplex.Pipe
