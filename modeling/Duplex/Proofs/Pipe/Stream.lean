import Duplex.Proofs.Pipe.Access

/-!
# The stream that a pipe carries

A pipe is `Sound` if its count of buffered bytes is that of its segments, none of which is empty,
and if nothing is buffered once the reader has completed. Every access keeps a pipe sound
(`Sound.perform`), and as long as the reader has not completed, what was taken out followed by
what is buffered is what was committed (`Run.stream`). What was taken out is a prefix of what was
committed in any case (`Run.taken_prefix`).
-/

namespace Duplex.Pipe

/-- What the fields of a pipe say about its bytes agrees. -/
structure Sound (p : Pipe) : Prop where
  buffered : p.buffered = p.content.length
  segments : ∀ segment ∈ p.segments.toList, segment ≠ []
  drained : p.readerCompleted = true → p.segments.toList = []

theorem sound_create (options : PipeOptions) : (create options).Sound where
  buffered := rfl
  segments := by simp [create]
  drained := by simp [create]

theorem Sound.congr {p q : Pipe} (h : p.Sound) (hs : q.segments = p.segments)
    (hb : q.buffered = p.buffered) (hr : q.readerCompleted = p.readerCompleted) : q.Sound where
  buffered := by rw [hb, h.buffered, content, content, hs]
  segments := by rw [hs]; exact h.segments
  drained := by rw [hs, hr]; exact h.drained

theorem Sound.content_of_completed {p : Pipe} (h : p.Sound) (hr : p.readerCompleted = true) :
    p.content = [] := by
  rw [content, h.drained hr]; rfl

/-! ## Committing -/

theorem length_take (r : Region) (count : Nat) : (r.take count).length = min count r.length := by
  rw [Region.take_eq, List.length_take, Region.length_toBytes]

/-- A commit adds the front of the region as one segment, unless there is nothing to add or the
reader has completed. -/
theorem advance_segments (p : Pipe) (count : Nat) :
    (p.advance count).segments.toList =
        (if p.readerCompleted = true ∨ p.region.take count = [] then p.segments.toList
        else p.segments.toList ++ [p.region.take count]) ∧
      (p.advance count).buffered =
        if p.readerCompleted = true then p.buffered
        else p.buffered + (p.region.take count).length := by
  have hl := length_take p.region count
  have hz : min count p.region.length = 0 ↔ p.region.take count = [] := by
    rw [← hl, List.length_eq_zero_iff]
  have ht : p.region.take (min count p.region.length) = p.region.take count := by
    simp only [Region.take_eq, List.take_eq_take_iff, Region.length_toBytes]
    omega
  simp only [advance]
  by_cases h : min count p.region.length = 0
  · rw [if_pos h, if_pos (.inr (hz.mp h)), hl, h]
    exact ⟨rfl, by split <;> rfl⟩
  · rw [if_neg h, ht]
    by_cases hr : p.readerCompleted = true
    · rw [if_pos hr, if_pos (.inl hr), if_pos hr]; exact ⟨rfl, rfl⟩
    · rw [if_neg hr, if_neg (fun hc => hc.elim hr (fun hc => h (hz.mpr hc))), if_neg hr, hl]
      exact ⟨Segments.toList_push _ _, rfl⟩

theorem content_advance (p : Pipe) (count : Nat) :
    (p.advance count).content =
      if p.readerCompleted = true then p.content else p.content ++ p.region.take count := by
  rw [content, (p.advance_segments count).1, content]
  by_cases hr : p.readerCompleted = true
  · rw [if_pos (.inl hr), if_pos hr]
  · by_cases hn : p.region.take count = []
    · rw [if_pos (.inr hn), if_neg hr, hn, List.append_nil]
    · rw [if_neg (fun hc => hc.elim hr hn), if_neg hr]; simp

theorem Sound.advance {p : Pipe} (h : p.Sound) (count : Nat) : (p.advance count).Sound where
  buffered := by
    rw [(p.advance_segments count).2, content_advance, h.buffered]
    split
    · rfl
    · rw [List.length_append]
  segments := by
    intro segment hm
    rw [(p.advance_segments count).1] at hm
    split at hm
    · exact h.segments _ hm
    · rename_i hn
      rcases List.mem_append.mp hm with hm | hm
      · exact h.segments _ hm
      · rw [List.mem_singleton.mp hm]; exact fun he => hn (.inr he)
  drained := by
    intro hr
    obtain ⟨_, _, _, _, e⟩ := p.advance_frame count
    replace hr : p.readerCompleted = true := by rw [e] at hr; exact hr
    rw [(p.advance_segments count).1, if_pos (.inl hr), h.drained hr]

theorem Sound.getMemory {p : Pipe} (h : p.Sound) (pool : BufferPool) (request : Nat) :
    (p.getMemory pool request).Sound := by
  obtain ⟨_, e⟩ := p.getMemory_frame pool request
  rw [e]; exact h.congr rfl rfl rfl

theorem Sound.write {p : Pipe} (h : p.Sound) (pool : BufferPool) (data : Bytes) :
    (p.write pool data).Sound :=
  write_induct (P := Sound) pool (fun _ request hq => hq.getMemory pool request)
    (fun _ _ _ hq => hq.congr rfl rfl rfl) (fun _ count hq => hq.advance count) p data h

/-- The front of a region that `data` was copied into is `data`, as far as it fits. -/
theorem take_fill (r : Region) (data : Bytes) (hd : data.length ≤ r.length) :
    (r.fill 0 data).take data.length = data := by
  rw [Region.take_eq, Region.toBytes_fill, Bytes.overwrite, Region.length_toBytes]
  split
  · simp only [Nat.sub_zero, List.take_zero, List.nil_append, List.take_of_length_le hd]
    rw [List.take_append_of_le_length (Nat.le_refl _), List.take_length]
  · rename_i hz
    rw [List.eq_nil_of_length_eq_zero (show data.length = 0 by omega), List.length_nil,
      List.take_zero]

/-- A write commits its data. -/
theorem content_write (p : Pipe) (pool : BufferPool) (data : Bytes) :
    (p.write pool data).content =
      if p.readerCompleted = true then p.content else p.content ++ data := by
  fun_induction write p pool data with
  | case1 p => simp
  | case2 p byte rest data q front ih =>
    obtain ⟨_, hq⟩ := p.getMemory_frame pool 1
    have hl : front.length ≤ q.region.length := by
      rw [List.length_take]; exact Nat.min_le_left _ _
    have hd : front ++ data.drop front.length = data := by
      simp only [front, List.length_take]
      rw [List.take_eq_take_min, List.take_append_drop]
    have hf : ((q.fill 0 front).region.take front.length) = front := take_fill _ _ hl
    have hr : (q.fill 0 front).readerCompleted = p.readerCompleted := by
      simp only [Pipe.fill, q, hq]
    have hc : (q.fill 0 front).content = p.content := by
      simp only [Pipe.fill, q, hq, content]
    have hr' : ((q.fill 0 front).advance front.length).readerCompleted = p.readerCompleted := by
      obtain ⟨_, _, _, _, e⟩ := (q.fill 0 front).advance_frame front.length
      rw [e, hr]
    rw [ih, hr', content_advance, hr, hf, hc]
    split
    · rfl
    · rw [List.append_assoc, hd]

/-! ## Taking out -/

theorem content_consume {p : Pipe} (h : p.Sound) (count : Nat) :
    (p.consume count).content = p.content.drop count := by
  simp only [consume]
  split
  · rename_i hz; rw [hz, List.drop_zero]
  · simp only [content, Segments.toList_dropBytes, Segments.flatten_dropFrom]
    rw [List.drop_eq_drop_iff]
    have := h.buffered
    simp only [content] at this
    omega

theorem ne_nil_of_mem_dropFrom {count : Nat} {segments : List Bytes}
    (h : ∀ segment ∈ segments, segment ≠ []) :
    ∀ segment ∈ Segments.dropFrom count segments, segment ≠ [] := by
  fun_induction Segments.dropFrom count segments with
  | case1 => exact h
  | case2 => exact h
  | case3 count segment rest _ _ ih => exact ih fun s hs => h s (List.mem_cons_of_mem _ hs)
  | case4 count segment rest _ hlong =>
    intro s hs
    rcases List.mem_cons.mp hs with rfl | hs
    · intro hd; exact hlong (List.drop_eq_nil_iff.mp hd)
    · exact h s (List.mem_cons_of_mem _ hs)

theorem Sound.consume {p : Pipe} (h : p.Sound) (count : Nat) : (p.consume count).Sound where
  buffered := by
    rw [content_consume h, List.length_drop, ← h.buffered]
    simp only [Pipe.consume]
    split
    · omega
    · simp only; omega
  segments := by
    simp only [Pipe.consume]
    split
    · exact h.segments
    · exact ne_nil_of_mem_dropFrom h.segments
  drained := by
    intro hr
    obtain ⟨_, _, _, e⟩ := p.consume_frame count
    rw [e] at hr
    simp only [Pipe.consume]
    split
    · exact h.drained hr
    · simp only [Segments.toList_dropBytes, h.drained hr, Segments.dropFrom]

/-- The front segment is what leaves the pipe; without one the pipe stays as it is. -/
theorem takeFront_content {p : Pipe} (h : p.Sound) :
    (p.takeFront.1.getD []) ++ p.takeFront.2.content = p.content ∧ p.takeFront.2.Sound ∧
      (p.takeFront.1 = none ↔ p.content = []) := by
  have hh := p.segments.head?_eq
  simp only [takeFront]
  split
  · rename_i hn
    rw [hn] at hh
    have hc : p.content = [] := by rw [content, List.head?_eq_none_iff.mp hh.symm]; rfl
    exact ⟨rfl, h, by simp [hc]⟩
  · rename_i segment hn
    rw [hn] at hh
    obtain ⟨rest, hl⟩ := List.head?_eq_some_iff.mp hh.symm
    have hc : p.content = segment ++ rest.flatten := by rw [content, hl]; rfl
    have hs : segment ≠ [] := h.segments segment (by rw [hl]; exact List.mem_cons_self ..)
    refine ⟨?_, h.consume _, by simp [hc, hs]⟩
    rw [content_consume h, hc, List.drop_left]; rfl

theorem Sound.read {p : Pipe} (h : p.Sound) (call : Await) : (p.read call).2.Sound := by
  obtain ⟨_, _, _, e⟩ := p.read_frame call
  rw [e]; exact h.congr rfl rfl rfl

theorem content_read (call : Await) (p : Pipe) : (p.read call).2.content = p.content := by
  obtain ⟨_, _, _, e⟩ := p.read_frame call
  rw [e]; rfl

/-- The reading of a segment takes out what it returns. -/
theorem readChunk_content {p : Pipe} (h : p.Sound) (call : Await) :
    ReaderAccess.taken (.readChunk call) p ++ (p.readChunk call).2.content = p.content ∧
      (p.readChunk call).2.Sound := by
  have hq := h.read call
  have hc := content_read call p
  simp only [ReaderAccess.taken, readChunk]
  generalize p.read call = r at hq hc
  obtain ⟨r, q⟩ := r
  rcases r with _ | _ | (_ | result)
  · exact ⟨hc, hq⟩
  · exact ⟨hc, hq⟩
  · exact ⟨hc, hq⟩
  · cases he : result.isEmpty with
    | true =>
      simp only [he, if_true]
      cases result.completed <;> exact ⟨hc, hq⟩
    | false =>
      obtain ⟨ht, hs, -⟩ := takeFront_content hq
      simp only [he, Bool.false_eq_true, if_false]
      generalize q.takeFront = t at ht hs
      obtain ⟨chunk, t⟩ := t
      cases chunk with
      | some chunk => exact ⟨ht.trans hc, hs⟩
      | none => cases result.completed <;> exact ⟨ht.trans hc, hs⟩

/-! ## One access -/

theorem Sound.perform {p : Pipe} (h : p.Sound) (a : Access) : (a.perform p).Sound := by
  rcases a with (⟨pool, request⟩ | _ | count | ⟨pool, data⟩ | call | call | _) |
    (call | call | call | count | _) | _
  case writer.getMemory => exact h.getMemory pool request
  case writer.fill => exact h.congr rfl rfl rfl
  case writer.advance => exact h.advance count
  case writer.write => exact h.write pool data
  case writer.flush =>
    obtain ⟨_, _, _, _, _, e⟩ := p.flush_frame call
    simp only [Access.perform, WriterAccess.perform, e]; exact h.congr rfl rfl rfl
  case writer.abandonFlush =>
    obtain ⟨_, e⟩ := p.abandonFlush_frame call
    simp only [Access.perform, WriterAccess.perform, e]; exact h.congr rfl rfl rfl
  case writer.complete =>
    simp only [Access.perform, WriterAccess.perform, completeWriter]
    split
    · exact h
    · exact h.congr rfl rfl rfl
  case reader.read => exact h.read call
  case reader.readChunk => exact (readChunk_content h call).2
  case reader.abandonRead =>
    obtain ⟨_, e⟩ := p.abandonRead_frame call
    simp only [Access.perform, ReaderAccess.perform, e]; exact h.congr rfl rfl rfl
  case reader.consume => exact h.consume count
  case reader.complete =>
    simp only [Access.perform, ReaderAccess.perform, completeReader]
    split
    · exact h
    · exact ⟨rfl, by simp, fun _ => rfl⟩
  case cancel => exact h.congr rfl rfl rfl

/-- While the reader has not completed, an access moves bytes from what it commits to what is
buffered, and from what is buffered to what it takes out. -/
theorem stream_perform {p : Pipe} (h : p.Sound) (a : Access)
    (hr : (a.perform p).readerCompleted = false) :
    Event.taken ⟨p, a⟩ ++ (a.perform p).content = p.content ++ Event.committed ⟨p, a⟩ := by
  rw [(completed_perform a p).1, Bool.or_eq_false_iff] at hr
  rcases a with (⟨pool, request⟩ | _ | count | ⟨pool, data⟩ | call | call | _) |
    (call | call | call | count | _) | _
  case writer.getMemory =>
    obtain ⟨_, e⟩ := p.getMemory_frame pool request
    simp only [Access.perform, WriterAccess.perform, e]; exact (List.append_nil _).symm
  case writer.fill => exact (List.append_nil _).symm
  case writer.advance => exact (content_advance p count).trans (if_neg (by simp [hr.1]))
  case writer.write => exact (content_write p pool data).trans (if_neg (by simp [hr.1]))
  case writer.flush =>
    obtain ⟨_, _, _, _, _, e⟩ := p.flush_frame call
    simp only [Access.perform, WriterAccess.perform, e]; exact (List.append_nil _).symm
  case writer.abandonFlush =>
    obtain ⟨_, e⟩ := p.abandonFlush_frame call
    simp only [Access.perform, WriterAccess.perform, e]; exact (List.append_nil _).symm
  case writer.complete =>
    simp only [Access.perform, WriterAccess.perform, completeWriter]
    split <;> exact (List.append_nil _).symm
  case reader.read => exact (content_read call p).trans (List.append_nil _).symm
  case reader.readChunk => exact (readChunk_content h call).1.trans (List.append_nil _).symm
  case reader.abandonRead =>
    obtain ⟨_, e⟩ := p.abandonRead_frame call
    simp only [Access.perform, ReaderAccess.perform, e]; exact (List.append_nil _).symm
  case reader.consume =>
    simp only [Event.taken, ReaderAccess.taken, Access.perform, ReaderAccess.perform,
      content_consume h, List.take_append_drop]
    exact (List.append_nil _).symm
  case reader.complete => exact absurd hr.2 (by simp [Access.endsReading])
  case cancel => exact (List.append_nil _).symm

/-- Once the reader has completed, nothing is taken out any more. -/
theorem taken_of_completed {p : Pipe} (h : p.Sound) (a : Access) (hr : p.readerCompleted = true) :
    Event.taken ⟨p, a⟩ = [] := by
  have hc := h.content_of_completed hr
  rcases a with _ | (_ | call | _ | count | _) | _
  case reader.readChunk =>
    exact (List.append_eq_nil_iff.mp ((readChunk_content h call).1.trans hc)).1
  case reader.consume => simp only [Event.taken, ReaderAccess.taken, hc, List.take_nil]
  all_goals rfl

/-! ## Whole runs -/

theorem Run.sound {p q : Pipe} {h : List Event} (hr : Run p h q) (hs : p.Sound) : q.Sound := by
  induction hr with
  | nil => exact hs
  | snoc _ a ih => exact ih.perform a

theorem Run.readerCompleted_mono {p q : Pipe} {h : List Event} (hr : Run p h q)
    (hp : p.readerCompleted = true) : q.readerCompleted = true := by
  induction hr with
  | nil => exact hp
  | snoc _ a ih => rw [(completed_perform a _).1, ih, Bool.true_or]

theorem Run.writerCompleted_mono {p q : Pipe} {h : List Event} (hr : Run p h q)
    (hp : p.writerCompleted = true) : q.writerCompleted = true := by
  induction hr with
  | nil => exact hp
  | snoc _ a ih => rw [(completed_perform a _).2, ih, Bool.true_or]

/-- What the writing end committed before it completed. -/
def early (h : List Event) : Bytes := committed (h.filter fun e => !e.before.writerCompleted)

theorem early_append (h₁ h₂ : List Event) : early (h₁ ++ h₂) = early h₁ ++ early h₂ := by
  rw [early, List.filter_append, committed_append, ← early, ← early]

theorem early_singleton (e : Event) :
    early [e] = if e.before.writerCompleted = true then [] else e.committed := by
  cases hw : e.before.writerCompleted <;> simp [early, hw]

/-- What comes before the completion of the writer comes first. -/
theorem Run.early_prefix {p q : Pipe} {h : List Event} (hr : Run p h q) :
    early h <+: committed h ∧ (q.writerCompleted = false → early h = committed h) := by
  induction hr with
  | nil => exact ⟨List.prefix_rfl, fun _ => rfl⟩
  | @snoc h q run a ih =>
    rw [early_append, early_singleton, committed_append, (completed_perform a q).2]
    cases hq : q.writerCompleted with
    | true =>
      refine ⟨?_, by simp⟩
      simp only [if_true, List.append_nil]
      exact ih.1.trans (List.prefix_append _ _)
    | false =>
      have he : committed [⟨q, a⟩] = Event.committed ⟨q, a⟩ := List.append_nil _
      simp only [Bool.false_eq_true, if_false]
      rw [ih.2 hq, he]
      exact ⟨List.prefix_rfl, fun _ => rfl⟩

theorem Run.early_eq_nil {p q : Pipe} {h : List Event} (hr : Run p h q)
    (hp : p.writerCompleted = true) : early h = [] := by
  induction hr with
  | nil => rfl
  | @snoc h q run a ih =>
    rw [early_append, early_singleton, ih, if_pos (run.writerCompleted_mono hp), List.append_nil]

/-- While the reader has not completed, what was taken out and what is buffered is what was
buffered at the start and what was committed since. -/
theorem Run.stream {p q : Pipe} {h : List Event} (hr : Run p h q) (hs : p.Sound)
    (hq : q.readerCompleted = false) : taken h ++ q.content = p.content ++ committed h := by
  induction hr with
  | nil => simp
  | @snoc h q run a ih =>
    have hc : q.readerCompleted = false := by
      rw [(completed_perform a q).1, Bool.or_eq_false_iff] at hq; exact hq.1
    calc taken (h ++ [⟨q, a⟩]) ++ (a.perform q).content
        = taken h ++ (Event.taken ⟨q, a⟩ ++ (a.perform q).content) := by simp
      _ = taken h ++ q.content ++ Event.committed ⟨q, a⟩ := by
        rw [stream_perform (run.sound hs) a hq, List.append_assoc]
      _ = p.content ++ committed (h ++ [⟨q, a⟩]) := by rw [ih hc]; simp

/-- What was taken out is always a front of what was buffered and committed. -/
theorem Run.taken_prefix {p q : Pipe} {h : List Event} (hr : Run p h q) (hs : p.Sound) :
    taken h ++ q.content <+: p.content ++ committed h := by
  induction hr with
  | nil => simp
  | @snoc h q run a ih =>
    cases hc : (a.perform q).readerCompleted with
    | false => exact (run.snoc a).stream hs hc ▸ List.prefix_rfl
    | true =>
      have he : (a.perform q).content = [] :=
        ((run.snoc a).sound hs).content_of_completed hc
      have hm : p.content ++ committed h <+: p.content ++ committed (h ++ [⟨q, a⟩]) := by
        simp [← List.append_assoc]
      have ht : taken (h ++ [⟨q, a⟩]) <+: taken h ++ q.content := by
        cases hq : q.readerCompleted with
        | true => simp [taken_of_completed (run.sound hs) a hq]
        | false =>
          cases a with
          | reader a =>
            cases a with
            | complete error => simp [Event.taken, ReaderAccess.taken]
            | _ => simp [completed_perform, hq, Access.endsReading] at hc
          | _ => simp [completed_perform, hq, Access.endsReading] at hc
      rw [he, List.append_nil]
      exact (ht.trans ih).trans hm

end Duplex.Pipe
