import Duplex.Proofs.Pipe.Calls
import Duplex.Proofs.Pipe.Slots

/-!
# Outstanding calls and what they find

A history of a pipe in use lists its moves (`Ends.History`), and `Ends.Moved` says what each of them
does. Some access the pipe (`Ends.Event.access?`), the others only start calls, wake them or give
them up, so the accesses are a linked history of the pipe (`Ends.History.linked`).

A call that has been woken stays awake for as long as there is something to report
(`ReaderAwake.move`, `WriterAwake.move`), also if it is given up and another call takes its place.
Whoever polls it then, or a call that is new, gets the report (`poll_read`, `poll_chunk`,
`poll_flush`).
-/

namespace Duplex

namespace Progress

variable {κ α σ : Type} {look : κ → σ → Progress κ α × σ} {call call' : κ} {s s' t : σ}

/-- A call that is about to look, or will be after its next step, ends with what it finds. -/
theorem poll_found {result : α} (ha : call = call' ∧ s' = s ∨ look call s = (.again call', s'))
    (hd : look call' s' = (.done result, t)) (looks : Nat) :
    poll look (looks + 2) call s = (.inr result, t) := by
  rcases ha with ⟨rfl, rfl⟩ | ha
  · rw [poll, hd]
  · rw [poll, ha]
    show poll look (looks + 1) call' s' = _
    rw [poll, hd]

end Progress

namespace Pipe

/-! ## Polling a call that is awake -/

variable {p : Pipe} {call : Await}

theorem checkRead_readable (p : Pipe) (n : Notify) :
    { p with readable := n }.checkRead = (p.checkRead.1, { p.checkRead.2 with readable := n }) := by
  simp only [checkRead]
  split
  · rfl
  · split
    · rfl
    · split <;> rfl

theorem checkFlush_writable (p : Pipe) (n : Notify) :
    { p with writable := n }.checkFlush =
      (p.checkFlush.1, { p.checkFlush.2 with writable := n }) := by
  simp only [checkFlush]
  split
  · split <;> rfl
  · split
    · rfl
    · cases hp : p.writerPaused <;> simp only [Bool.false_eq_true, if_false, if_true] <;>
        split <;> simp only [hp]

/-- A read that is awake is about to look at the pipe. -/
theorem read_awake (hg : Guards p.readable (some call) False) :
    ∃ n, call = .checking ∧ { p with readable := n } = p ∨
      p.read call = (.again .checking, { p with readable := n }) := by
  cases call with
  | checking => exact ⟨p.readable, .inl ⟨rfl, rfl⟩⟩
  | parking =>
    have hp : p.readable.permit = true := hg.2.resolve_right id
    have hr : p.read .parking = (.again (if p.readable.enter.1 then .checking else .parked),
        { p with readable := p.readable.enter.2 }) := rfl
    have hn : p.readable.enter.1 = true := by simp only [Notify.enter, hp, if_true]
    exact ⟨p.readable.enter.2, .inr (by rw [hr, if_pos hn])⟩
  | parked =>
    have hw : p.readable.sleeper = .woken := hg.resolve_right fun h => h.2.2
    exact ⟨_, .inr (by simp only [read, Notify.resume?, hw]; rfl)⟩

theorem flush_awake (hg : Guards p.writable (some call) False) :
    ∃ n, call = .checking ∧ { p with writable := n } = p ∨
      p.flush call = (.again .checking, { p with writable := n }) := by
  cases call with
  | checking => exact ⟨p.writable, .inl ⟨rfl, rfl⟩⟩
  | parking =>
    have hp : p.writable.permit = true := hg.2.resolve_right id
    have hf : p.flush .parking = (.again (if p.writable.enter.1 then .checking else .parked),
        { p with writable := p.writable.enter.2 }) := rfl
    have hn : p.writable.enter.1 = true := by simp only [Notify.enter, hp, if_true]
    exact ⟨p.writable.enter.2, .inr (by rw [hf, if_pos hn])⟩
  | parked =>
    have hw : p.writable.sleeper = .woken := hg.resolve_right fun h => h.2.2
    exact ⟨_, .inr (by simp only [flush, Notify.resume?, hw]; rfl)⟩

theorem poll_read {result : Except ConnectionError ReadResult}
    (hg : Guards p.readable (some call) False) (hr : p.checkRead.1 = some result) :
    ∃ h q, ReaderHandle.poll { call := some (.read call) } p = (some (.read result), h, q) ∧
      q.core = p.checkRead.2.core := by
  obtain ⟨n, ha⟩ := read_awake hg
  have hd : { p with readable := n }.read .checking =
      (.done result, { p.checkRead.2 with readable := n }) := by
    rw [read, checkRead_readable, hr]
  have hp : Progress.poll Pipe.read maxLooks call p = _ := Progress.poll_found ha hd _
  exact ⟨_, { p.checkRead.2 with readable := n }, by simp only [ReaderHandle.poll, hp]; rfl, rfl⟩

/-- The reading of a segment fails as its read does. -/
theorem poll_chunk {error : ConnectionError} (hg : Guards p.readable (some call) False)
    (hr : p.checkRead.1 = some (.error error)) :
    ∃ h q, ReaderHandle.poll { call := some (.chunk call) } p =
        (some (.chunk (.error error)), h, q) ∧ q.core = p.checkRead.2.core := by
  obtain ⟨n, ha⟩ := read_awake hg
  have ha : call = .checking ∧ { p with readable := n } = p ∨
      p.readChunk call = (.again .checking, { p with readable := n }) :=
    ha.imp_right fun ha => by rw [readChunk, ha]
  have hd : { p with readable := n }.readChunk .checking =
      (.done (.error error), { p.checkRead.2 with readable := n }) := by
    rw [readChunk, read, checkRead_readable, hr]
  have hp : Progress.poll Pipe.readChunk maxLooks call p = _ := Progress.poll_found ha hd _
  exact ⟨_, { p.checkRead.2 with readable := n }, by simp only [ReaderHandle.poll, hp]; rfl, rfl⟩

theorem poll_flush {result : Except ConnectionError FlushResult}
    (hg : Guards p.writable (some call) False) (hf : p.checkFlush.1 = some result) :
    ∃ h q, WriterHandle.poll { call := some call } p = (some (.flushed result), h, q) ∧
      q.core = p.checkFlush.2.core := by
  obtain ⟨n, ha⟩ := flush_awake hg
  have hd : { p with writable := n }.flush .checking =
      (.done result, { p.checkFlush.2 with writable := n }) := by
    rw [flush, checkFlush_writable, hf]
  have hp : Progress.poll Pipe.flush maxLooks call p = _ := Progress.poll_found ha hd _
  exact ⟨_, { p.checkFlush.2 with writable := n }, by simp only [WriterHandle.poll, hp]; rfl, rfl⟩

namespace Ends

/-! ## Histories -/

/-- A move, and the pipe and its calls before it. -/
structure Event where
  before : Ends
  move : Move

/-- The access to the pipe that a move makes, if it makes one. -/
def Event.access? (o : Event) : Option Pipe.Event :=
  match o.move with
  | .operate a => some ⟨o.before.pipe, a⟩
  | .lookFlush => o.before.flushing.map fun call => ⟨o.before.pipe, .writer (.flush call)⟩
  | .lookRead => o.before.reading.map fun call => ⟨o.before.pipe, call.access⟩
  | _ => none

/-- The accesses to the pipe in a history. -/
def accesses (h : List Event) : List Pipe.Event := h.filterMap Event.access?

/-- From `e`, the moves of the history `h` lead to `e'`. -/
def History (e : Ends) (h : List Event) (e' : Ends) : Prop :=
  Steps (fun before (o : Event) after => o.before = before ∧ o.move.perform before = some after)
    e h e'

variable {options : PipeOptions} {e e' : Ends} {h h₁ h₂ : List Event} {m : Move}

theorem accesses_append (h₁ h₂ : List Event) : accesses (h₁ ++ h₂) = accesses h₁ ++ accesses h₂ :=
  List.filterMap_append

theorem History.split {o : Event} (hh : History e (h₁ ++ o :: h₂) e') :
    ∃ d, History e h₁ o.before ∧ o.move.perform o.before = some d ∧ History d h₂ e' := by
  obtain ⟨_, d, before, ⟨rfl, hm⟩, after⟩ := Steps.split hh
  exact ⟨d, before, hm, after⟩

theorem History.run (hh : History e h e') (run : Run options e) : Run options e' := by
  unfold History at hh
  induction hh with
  | nil => exact run
  | snoc _ step ih => exact ih.move _ step.2

/-- An access and its change alone are the same up to the sleeping places. -/
theorem core_change (a : Access) (p : Pipe) : (a.change p).core = (a.perform p).core := by
  rcases a with (_ | _ | _ | _ | _ | _ | _) | (_ | _ | _ | _ | _) | _ <;> rfl

/-- What a move does to the pipe up to the sleeping places: its access, if it makes one. -/
theorem Move.core (hm : m.perform e = some e') :
    Event.access? ⟨e, m⟩ = none ∧ e'.pipe.core = e.pipe.core ∨
      ∃ a, Event.access? ⟨e, m⟩ = some ⟨e.pipe, a⟩ ∧ e'.pipe.core = (a.perform e.pipe).core := by
  cases Move.moved hm with
  | operate => exact .inr ⟨_, rfl, core_change _ e.pipe⟩
  | wakeReader | wakeWriter | startFlush | startRead => exact .inl ⟨rfl, rfl⟩
  | flushAgain flushes | flushDone flushes =>
    exact .inr ⟨_, by simp only [Event.access?, flushes, Option.map_some], core_change _ e.pipe⟩
  | readAgain reads | readDone reads =>
    exact .inr ⟨_, by simp only [Event.access?, reads, Option.map_some], core_change _ e.pipe⟩
  | @dropFlush call =>
    obtain ⟨_, hq⟩ := e.pipe.abandonFlush_frame call
    exact .inl ⟨rfl, by simp only [hq]; rfl⟩
  | @dropRead call =>
    obtain ⟨_, hq⟩ := e.pipe.abandonRead_frame call.place
    exact .inl ⟨rfl, by simp only [hq]; rfl⟩

/-- The accesses of a history are a linked history of the pipe. -/
theorem History.linked (hh : History e h e') : Linked e.pipe (accesses h) e'.pipe := by
  unfold History at hh
  induction hh with
  | nil => exact .nil
  | @snoc h d d' o _ step ih =>
    obtain ⟨rfl, hm⟩ := step
    rw [accesses_append]
    rcases Move.core hm with ⟨ha, hc⟩ | ⟨a, ha, hc⟩
    · have hn : accesses [o] = [] := by simp only [accesses, List.filterMap_cons, ha]; rfl
      rw [hn, List.append_nil, Linked, hc]
      exact ih
    · have hs : accesses [o] = [⟨o.before.pipe, a⟩] := by
        simp only [accesses, List.filterMap_cons, ha]; rfl
      rw [hs]
      exact Steps.snoc ih ⟨rfl, hc⟩

/-! ## Calls that are awake -/

/-- Nobody reads who is asleep, or about to fall asleep. -/
def ReaderAwake (e : Ends) : Prop :=
  Guards e.pipe.readable (e.reading.map ReadCall.place) False

/-- Nobody flushes who is asleep, or about to fall asleep. -/
def WriterAwake (e : Ends) : Prop := Guards e.pipe.writable e.flushing False

theorem Watched.readerAwake (hw : e.Watched) (hm : (Move.wake .reader).perform e = some e') :
    e'.ReaderAwake := by
  cases Move.moved hm with
  | wakeReader => exact hw.reader.notifyOne

theorem Watched.writerAwake (hw : e.Watched) (hm : (Move.wake .writer).perform e = some e') :
    e'.WriterAwake := by
  cases Move.moved hm with
  | wakeWriter => exact hw.writer.notifyOne

/-- As long as there is something to report, nobody who is awake falls asleep. -/
theorem ReaderAwake.move (ha : e.ReaderAwake) (hm : m.perform e = some e')
    (hb : ¬ e'.pipe.ReaderBlocked) : e'.ReaderAwake := by
  cases Move.moved hm with
  | @operate a allowed =>
    have hr := readable_change (Access.ofRead_of_immediate (immediate_of_allows allowed)) e.pipe
    show Guards (a.change e.pipe).readable _ _
    rw [hr]
    exact ha
  | wakeReader => exact Guards.notifyOne ha
  | wakeWriter | startFlush => exact ha
  | @flushAgain call | @flushDone call =>
    have hr := readable_change (a := .writer (.flush call)) rfl e.pipe
    show Guards (Access.change (.writer (.flush call)) e.pipe).readable _ _
    rw [hr]
    exact ha
  | @dropFlush call =>
    obtain ⟨_, hq⟩ := e.pipe.abandonFlush_frame call
    show Guards (e.pipe.abandonFlush call).readable _ _
    rw [hq]
    exact ha
  | @startRead segment idle =>
    rw [ReaderAwake, idle] at ha
    cases segment <;> exact ha
  | readAgain reads looks | readDone reads looks =>
    rw [ReaderAwake, reads] at ha
    have hl := Guards.look (o := False) (Guards.mono ha .inr)
    simp only [looks] at hl
    exact Guards.mono hl fun h => h.elim hb id
  | dropRead reads =>
    rw [ReaderAwake, reads] at ha
    exact Guards.abandonRead ha

theorem WriterAwake.move (ha : e.WriterAwake) (hm : m.perform e = some e')
    (hb : ¬ e'.pipe.WriterBlocked) : e'.WriterAwake := by
  cases Move.moved hm with
  | @operate a allowed =>
    have hr := writable_change (Access.ofFlush_of_immediate (immediate_of_allows allowed)) e.pipe
    show Guards (a.change e.pipe).writable _ _
    rw [hr]
    exact ha
  | wakeReader | startRead => exact ha
  | wakeWriter => exact Guards.notifyOne ha
  | startFlush idle =>
    rw [WriterAwake, idle] at ha
    exact ha
  | @flushAgain call call' flushes looks =>
    rw [WriterAwake, flushes] at ha
    have hl := Guards.flush_or (o := False) (Guards.mono ha .inr)
    have hf : e.pipe.flush call = (.again call', (e.pipe.flush call).2) := Prod.ext looks rfl
    rw [hf] at hl
    exact Guards.mono hl fun h => h.elim hb id
  | @flushDone call result flushes looks =>
    rw [WriterAwake, flushes] at ha
    have hl := Guards.flush_or (o := False) (Guards.mono ha .inr)
    have hf : e.pipe.flush call = (.done result, (e.pipe.flush call).2) := Prod.ext looks rfl
    rw [hf] at hl
    exact Guards.mono hl fun h => h.elim hb id
  | dropFlush flushes =>
    rw [WriterAwake, flushes] at ha
    exact Guards.abandonFlush ha
  | @readAgain call | @readDone call =>
    have hr := writable_change call.ofFlush_access e.pipe
    show Guards (call.access.change e.pipe).writable _ _
    rw [hr]
    exact ha
  | @dropRead call =>
    obtain ⟨_, hq⟩ := e.pipe.abandonRead_frame call.place
    show Guards (e.pipe.abandonRead call.place).writable _ _
    rw [hq]
    exact ha

end Ends

end Pipe

end Duplex
