import Duplex.Pipe.Handle
import Duplex.Proofs.Pipe.Ledger
import Duplex.Proofs.Pipe.Wakeup

/-!
# Calls on both ends of a pipe

Each end of a pipe has at most one call outstanding, which may be looked at or dropped at any
time, and operations that end at once come in between (`Ends.Move`, taken apart by `Ends.Moved`). An
operation changes the pipe first and wakes the other end afterwards (`Access.change`,
`Access.wakes`); these are two steps, and anything may happen between them. Taken together they are
the operation (`change_wake`).

`Ends.Watched` ties the places where calls sleep to the state of the pipe and to the wake-ups that
are still to come. Every move keeps it (`Watched.perform`), so that a call that cannot move has
nothing to report (`Run.blocked`).
-/

namespace Duplex.Pipe

/-! ## A change and its wake-up -/

/-- An end of a pipe. -/
inductive Side where
  | reader
  | writer
deriving DecidableEq

/-- Wakes whoever sleeps at an end. -/
def wake (p : Pipe) : Option Side → Pipe
  | none => p
  | some .reader => { p with readable := p.readable.notifyOne }
  | some .writer => { p with writable := p.writable.notifyOne }

namespace Access

/-- Whether an access is an operation that ends at once. A write is taken as those that it is made
of (`exists_write_eq`). -/
def immediate : Access → Bool
  | writer (.getMemory _ _) | writer (.fill _ _) | writer (.advance _) => true
  | writer (.complete _) | reader (.consume _) | reader (.complete _) => true
  | cancel => true
  | _ => false

/-- Whether an access is one look at a call. -/
def look : Access → Bool
  | writer (.flush _) | reader (.read _) | reader (.readChunk _) => true
  | _ => false

theorem ofRead_of_immediate {a : Access} (h : a.immediate = true) : a.ofRead = false := by
  rcases a with a | a | _
  case reader => cases a <;> first | rfl | cases h
  all_goals rfl

theorem ofFlush_of_immediate {a : Access} (h : a.immediate = true) : a.ofFlush = false := by
  rcases a with a | a | _
  case writer => cases a <;> first | rfl | cases h
  all_goals rfl

/-- What an access changes before it wakes the other end. -/
def change (a : Access) (p : Pipe) : Pipe :=
  match a with
  | writer (.flush _) | reader (.read _) => a.perform p
  | reader (.readChunk _) => { a.perform p with writable := p.writable }
  | _ => { a.perform p with readable := p.readable, writable := p.writable }

/-- The end that an access goes on to wake. -/
def wakes (a : Access) (p : Pipe) : Option Side :=
  match a with
  | writer (.advance count) =>
    if min count p.region.length = 0 ∨ p.readerCompleted then none else some .reader
  | writer (.complete _) => if p.writerCompleted then none else some .reader
  | reader (.readChunk call) =>
    match (p.readChunk call).1 with
    | .done (.ok (some chunk)) => if chunk.length = 0 then none else some .writer
    | _ => none
  | reader (.consume count) => if count = 0 then none else some .writer
  | reader (.complete _) => if p.readerCompleted then none else some .writer
  | cancel => some .reader
  | _ => none

end Access

theorem wakes_readChunk_none {call : Await} {p : Pipe}
    (h : ∀ chunk, (p.readChunk call).1 ≠ .done (.ok (some chunk))) :
    Access.wakes (.reader (.readChunk call)) p = none := by
  simp only [Access.wakes]

/-- A change and the wake-up that follows it are the whole access. -/
theorem change_wake {a : Access} (ha : a.immediate = true ∨ a.look = true) (p : Pipe) :
    (a.change p).wake (a.wakes p) = a.perform p := by
  rcases a with (⟨pool, request⟩ | _ | count | _ | call | _ | _) |
    (call | call | _ | count | _) | _
  case writer.getMemory =>
    obtain ⟨_, e⟩ := p.getMemory_frame pool request
    simp only [Access.wakes, wake, Access.change, Access.perform, WriterAccess.perform, e]
  case writer.advance =>
    simp only [Access.wakes, Access.change, Access.perform, WriterAccess.perform, advance]
    by_cases hz : min count p.region.length = 0
    · simp only [hz, true_or, if_true, wake]
    · by_cases hr : p.readerCompleted = true
      · simp only [hz, hr, or_true, if_true, if_false, wake]
      · rw [if_neg hz, if_neg hr, if_neg (not_or.2 ⟨hz, hr⟩)]
        rfl
  case writer.complete =>
    simp only [Access.wakes, Access.change, Access.perform, WriterAccess.perform, completeWriter]
    split <;> rfl
  case reader.readChunk =>
    have hw : (p.read call).2.writable = p.writable := by
      obtain ⟨_, _, _, e⟩ := p.read_frame call
      rw [e]
    rcases p.readChunk_cases call with ⟨chunk, hc, -, hq⟩ | ⟨hn, hq⟩
    · simp only [Access.wakes, hc, Access.change, Access.perform, ReaderAccess.perform, hq, consume]
      split
      · simp only [wake, ← hw]
      · simp only [wake, ← hw]
    · rw [wakes_readChunk_none hn]
      simp only [wake, Access.change, Access.perform, ReaderAccess.perform, hq, ← hw]
  case reader.consume =>
    simp only [Access.wakes, Access.change, Access.perform, ReaderAccess.perform, consume]
    split <;> rfl
  case reader.complete =>
    simp only [Access.wakes, Access.change, Access.perform, ReaderAccess.perform, completeReader]
    split <;> rfl
  case writer.write | writer.abandonFlush | reader.abandonRead => rcases ha with h | h <;> cases h
  all_goals rfl

/-- A write is made of operations that end at once. -/
theorem exists_write_eq (p : Pipe) (pool : BufferPool) (data : Bytes) :
    ∃ accesses : List Access, (∀ a ∈ accesses, a.immediate = true) ∧
      p.write pool data = p.performAll accesses := by
  have snoc {q : Pipe} {a : Access} (ha : a.immediate = true)
      (hq : ∃ accesses : List Access, (∀ a ∈ accesses, a.immediate = true) ∧
        q = p.performAll accesses) :
      ∃ accesses : List Access, (∀ a ∈ accesses, a.immediate = true) ∧
        a.perform q = p.performAll accesses := by
    obtain ⟨accesses, hi, rfl⟩ := hq
    refine ⟨accesses ++ [a],
      List.forall_mem_append.mpr ⟨hi, List.forall_mem_singleton.mpr ha⟩, ?_⟩
    rw [performAll, performAll, List.foldl_append]
    rfl
  refine write_induct (P := fun q => ∃ accesses : List Access,
    (∀ a ∈ accesses, a.immediate = true) ∧ q = p.performAll accesses) pool ?_ ?_ ?_ p data
    ⟨[], nofun, rfl⟩
  · exact fun q request => snoc (a := .writer (.getMemory pool request)) rfl
  · exact fun q offset data => snoc (a := .writer (.fill offset data)) rfl
  · exact fun q count => snoc (a := .writer (.advance count)) rfl

/-! ## What a change does to the calls -/

theorem readable_change {a : Access} (ha : a.ofRead = false) (p : Pipe) :
    (a.change p).readable = p.readable := by
  rcases a with (_ | _ | _ | _ | call | _ | _) | (_ | _ | _ | _ | _) | _
  case writer.flush =>
    obtain ⟨_, _, _, _, _, e⟩ := p.flush_frame call
    simp only [Access.change, Access.perform, WriterAccess.perform, e]
  case reader.read | reader.readChunk | reader.abandonRead => cases ha
  all_goals rfl

theorem writable_change {a : Access} (ha : a.ofFlush = false) (p : Pipe) :
    (a.change p).writable = p.writable := by
  rcases a with (_ | _ | _ | _ | _ | _ | _) | (call | _ | _ | _ | _) | _
  case reader.read =>
    obtain ⟨_, _, _, e⟩ := p.read_frame call
    simp only [Access.change, Access.perform, ReaderAccess.perform, e]
  case writer.flush | writer.abandonFlush => cases ha
  all_goals rfl

/-- Whoever gives a reader something to report goes on to wake it. -/
theorem ReaderBlocked.change {a : Access} (ha : a.immediate = true ∨ a.look = true)
    (hr : a.ofRead = false) {p : Pipe} (hw : a.wakes p ≠ some .reader) (hb : p.ReaderBlocked) :
    (a.change p).ReaderBlocked := by
  obtain ⟨h₁, h₂, h₃, h₄⟩ := hb
  rcases a with (⟨pool, request⟩ | _ | count | _ | call | _ | _) | (_ | _ | _ | count | _) | _
  case writer.getMemory =>
    obtain ⟨_, e⟩ := p.getMemory_frame pool request
    simp only [Access.change, Access.perform, WriterAccess.perform, e]
    exact ⟨h₁, h₂, h₃, h₄⟩
  case writer.fill => exact ⟨h₁, h₂, h₃, h₄⟩
  case writer.advance =>
    simp only [Access.change, Access.perform, WriterAccess.perform, advance]
    by_cases hz : min count p.region.length = 0
    · simp only [hz, if_true]; exact ⟨h₁, h₂, h₃, h₄⟩
    · by_cases hc : p.readerCompleted = true
      · simp only [hz, hc, if_true, if_false]; exact ⟨h₁, h₂, h₃, h₄⟩
      · simp [Access.wakes, hz, hc] at hw
  case writer.complete => simp [Access.wakes, h₂] at hw
  case writer.flush =>
    obtain ⟨_, _, _, _, _, e⟩ := p.flush_frame call
    simp only [Access.change, Access.perform, WriterAccess.perform, e]
    exact ⟨h₁, h₂, h₃, h₄⟩
  case reader.consume =>
    simp only [Access.change, Access.perform, ReaderAccess.perform, consume]
    split
    · exact ⟨h₁, h₂, h₃, h₄⟩
    · exact ⟨by simp only [h₁, Nat.min_zero, Nat.sub_zero], h₂, h₃, h₄⟩
  case reader.complete =>
    simp only [Access.change, Access.perform, ReaderAccess.perform, completeReader]
    split
    · exact ⟨h₁, h₂, h₃, h₄⟩
    · exact ⟨rfl, h₂, h₃, h₄⟩
  case cancel => exact absurd rfl hw
  case reader.read | reader.readChunk | reader.abandonRead => cases hr
  case writer.write | writer.abandonFlush => rcases ha with h | h <;> cases h

/-- Whoever gives a flush something to report goes on to wake it. -/
theorem WriterBlocked.change {a : Access} (ha : a.immediate = true ∨ a.look = true)
    (hf : a.ofFlush = false) {p : Pipe} (hw : a.wakes p ≠ some .writer) (hb : p.WriterBlocked) :
    (a.change p).WriterBlocked := by
  obtain ⟨h₁, h₂, h₃⟩ := hb
  rcases a with (⟨pool, request⟩ | _ | count | _ | _ | _ | _) |
    (call | call | _ | count | _) | _
  case writer.getMemory =>
    obtain ⟨_, e⟩ := p.getMemory_frame pool request
    simp only [Access.change, Access.perform, WriterAccess.perform, e]
    exact ⟨h₁, h₂, h₃⟩
  case writer.fill => exact ⟨h₁, h₂, h₃⟩
  case writer.advance =>
    simp only [Access.change, Access.perform, WriterAccess.perform, advance]
    split
    · exact ⟨h₁, h₂, h₃⟩
    · split
      · exact ⟨h₁, h₂, h₃⟩
      · exact ⟨h₁, Nat.lt_add_right _ h₂, h₃⟩
  case writer.complete =>
    simp only [Access.change, Access.perform, WriterAccess.perform, completeWriter]
    split <;> exact ⟨h₁, h₂, h₃⟩
  case reader.read =>
    obtain ⟨_, _, _, e⟩ := p.read_frame call
    simp only [Access.change, Access.perform, ReaderAccess.perform, e]
    exact ⟨h₁, h₂, h₃⟩
  case reader.readChunk =>
    obtain ⟨_, _, _, e⟩ := p.read_frame call
    simp only [Access.change, Access.perform, ReaderAccess.perform]
    rcases p.readChunk_cases call with ⟨chunk, hc, -, hq⟩ | ⟨-, hq⟩
    · -- Only an empty segment leaves the writer asleep, and it frees nothing.
      have hz : chunk.length = 0 := by
        refine Decidable.byContradiction fun hz => hw ?_
        simp only [Access.wakes, hc, hz, if_false]
      rw [hq, consume, if_pos hz, e]
      exact ⟨h₁, h₂, h₃⟩
    · rw [hq, e]
      exact ⟨h₁, h₂, h₃⟩
  case reader.consume =>
    by_cases hz : count = 0
    · simp only [Access.change, Access.perform, ReaderAccess.perform, consume, hz, if_true]
      exact ⟨h₁, h₂, h₃⟩
    · simp [Access.wakes, hz] at hw
  case reader.complete => simp [Access.wakes, h₃] at hw
  case cancel => exact ⟨h₁, h₂, h₃⟩
  case writer.flush | writer.abandonFlush => cases hf
  case writer.write | reader.abandonRead => rcases ha with h | h <;> cases h

/-! ## Both ends in use -/

/-- Where a call of the reading end stands. -/
def ReadCall.place : ReadCall → Await
  | read call | chunk call => call

/-- The access that one look at a call of the reading end makes. -/
def ReadCall.access : ReadCall → Access
  | read call => .reader (.read call)
  | chunk call => .reader (.readChunk call)

/-- How far one look brings a call of the reading end. -/
def ReadCall.progress (call : ReadCall) (p : Pipe) : Progress ReadCall Unit :=
  match call with
  | read call => (p.read call).1.map read fun _ => ()
  | chunk call => (p.readChunk call).1.map chunk fun _ => ()

namespace ReadCall

theorem look_access (call : ReadCall) : call.access.look = true := by
  cases call <;> rfl

theorem ofFlush_access (call : ReadCall) : call.access.ofFlush = false := by
  cases call <;> rfl

/-- A look at a call of the reading end wakes the writer at most. -/
theorem wakes_access (call : ReadCall) (p : Pipe) : call.access.wakes p ≠ some .reader := by
  cases call with
  | read call => exact nofun
  | chunk call =>
    rcases p.readChunk_cases call with ⟨chunk, hc, -⟩ | ⟨hn, -⟩
    · simp only [access, Access.wakes, hc]
      split <;> exact nofun
    · rw [access, wakes_readChunk_none hn]
      exact nofun

end ReadCall

theorem Guards.abandon {n : Notify} {b c : Prop} (h : Guards n (some .parked) b) :
    Guards n.abandon none c := by
  rcases h with ha | ⟨ha, -⟩ <;> simp only [Notify.abandon, Notify.notifyOne, ha] <;> rfl

/-- What a read tells about its place, the reading of a segment tells too. -/
theorem Guards.readChunk_or {p : Pipe} {call : Await} {o : Prop}
    (h : Guards p.readable (some call) (p.ReaderBlocked ∨ o)) :
    match p.readChunk call with
    | (.pending, _) => (p.ReaderBlocked ∨ o) ∧ call = .parked
    | (.again call, q) => Guards q.readable (some call) (q.ReaderBlocked ∨ o)
    | (.done _, q) => Guards q.readable none (q.ReaderBlocked ∨ o) := by
  have hr := h.read_or
  simp only [Pipe.readChunk]
  generalize p.read call = x at hr
  obtain ⟨_ | _ | _ | r, q⟩ := x
  case done.ok =>
    -- Taking the front segment out leaves the place alone.
    have ht : q.takeFront.2.readable = q.readable := by
      obtain ⟨_, _, _, e⟩ := q.takeFront_frame
      rw [e]
    have hq : q.readable.sleeper = .absent := hr
    cases he : r.isEmpty with
    | true =>
      simp only [he, if_true]
      cases r.completed <;> exact hq
    | false =>
      simp only [he, Bool.false_eq_true, if_false]
      generalize q.takeFront = x at ht
      obtain ⟨_ | _, q'⟩ := x
      · cases r.completed <;> exact (congrArg Notify.sleeper ht).trans hq
      · exact (congrArg Notify.sleeper ht).trans hq
  all_goals exact hr

/-- A look at a call of the reading end keeps what ties it to its place. -/
theorem Guards.look {p : Pipe} {call : ReadCall} {o : Prop}
    (h : Guards p.readable (some call.place) (p.ReaderBlocked ∨ o)) :
    match call.progress p with
    | .pending => p.ReaderBlocked ∨ o
    | .again call' =>
      Guards (call.access.change p).readable (some call'.place)
        ((call.access.change p).ReaderBlocked ∨ o)
    | .done () =>
      Guards (call.access.change p).readable none ((call.access.change p).ReaderBlocked ∨ o) := by
  cases call with
  | read call =>
    have hp : Guards p.readable (some call) (p.ReaderBlocked ∨ o) := h
    have hr := hp.read_or
    simp only [ReadCall.progress, ReadCall.access, Access.change, Access.perform,
      ReaderAccess.perform]
    generalize p.read call = x at hr ⊢
    obtain ⟨_ | _ | _, q⟩ := x
    · exact hr.1
    · exact hr
    · exact hr
  | chunk call =>
    have hp : Guards p.readable (some call) (p.ReaderBlocked ∨ o) := h
    have hr := hp.readChunk_or
    simp only [ReadCall.progress, ReadCall.access, Access.change, Access.perform,
      ReaderAccess.perform]
    generalize p.readChunk call = x at hr ⊢
    obtain ⟨_ | _ | _, q⟩ := x
    · exact hr.1
    · exact Guards.mono hr (.imp_left fun hb => hb.congr rfl rfl rfl rfl)
    · exact Guards.mono hr (.imp_left fun hb => hb.congr rfl rfl rfl rfl)

/-- Who gives a call up leaves its place. -/
theorem Guards.abandonFlush {p : Pipe} {call : Await} {b c : Prop}
    (h : Guards p.writable (some call) b) : Guards (p.abandonFlush call).writable none c := by
  cases call with
  | checking => exact h
  | parking => exact h.1
  | parked => exact Guards.abandon h

theorem Guards.abandonRead {p : Pipe} {call : Await} {b c : Prop}
    (h : Guards p.readable (some call) b) : Guards (p.abandonRead call).readable none c := by
  cases call with
  | checking => exact h
  | parking => exact h.1
  | parked => exact Guards.abandon h

/-- A pipe with the calls outstanding at its ends. -/
structure Ends where
  pipe : Pipe
  flushing : Option Await := none
  reading : Option ReadCall := none
  /-- How many changes have yet to wake the reading end. -/
  toReader : Nat := 0
  /-- How many changes have yet to wake the writing end. -/
  toWriter : Nat := 0

namespace Ends

/-- Changes the pipe. The wake-up is left for later. -/
def change (e : Ends) (a : Access) : Ends :=
  { e with
    pipe := a.change e.pipe
    toReader := e.toReader + if a.wakes e.pipe = some .reader then 1 else 0
    toWriter := e.toWriter + if a.wakes e.pipe = some .writer then 1 else 0 }

/-- Whether an operation can be called. An end with a call outstanding is busy; anyone may cancel a
read. -/
def allows (e : Ends) (a : Access) : Bool :=
  a.immediate &&
    match a with
    | .writer _ => e.flushing.isNone
    | .reader _ => e.reading.isNone
    | .cancel => true

/-- What happens to a pipe in use. -/
inductive Move where
  | operate (access : Access)
  /-- A wake-up that was left for later. -/
  | wake (side : Side)
  | startFlush
  | lookFlush
  | dropFlush
  /-- Starts a read, or the reading of a segment. -/
  | startRead (segment : Bool)
  | lookRead
  | dropRead

/-- One look at the outstanding flush, if it can move. -/
def lookFlush (e : Ends) : Option Ends :=
  match e.flushing with
  | none => none
  | some call =>
    match (e.pipe.flush call).1 with
    | .pending => none
    | .again call' => some { e.change (.writer (.flush call)) with flushing := some call' }
    | .done _ => some { e.change (.writer (.flush call)) with flushing := none }

/-- One look at the outstanding call of the reading end, if it can move. -/
def lookRead (e : Ends) : Option Ends :=
  match e.reading with
  | none => none
  | some call =>
    match call.progress e.pipe with
    | .pending => none
    | .again call' => some { e.change call.access with reading := some call' }
    | .done () => some { e.change call.access with reading := none }

/-- A wake-up that was left for later, if there is one. -/
def deliver (e : Ends) : Side → Option Ends
  | .reader =>
    if e.toReader = 0 then none
    else some { e with pipe := e.pipe.wake (some .reader), toReader := e.toReader - 1 }
  | .writer =>
    if e.toWriter = 0 then none
    else some { e with pipe := e.pipe.wake (some .writer), toWriter := e.toWriter - 1 }

/-- The pipe and its calls after a move, if it can be made. -/
def Move.perform (m : Move) (e : Ends) : Option Ends :=
  match m with
  | operate a => if e.allows a then some (e.change a) else none
  | wake side => e.deliver side
  | startFlush => if e.flushing = none then some { e with flushing := some .checking } else none
  | .lookFlush => e.lookFlush
  | dropFlush =>
    e.flushing.map fun call => { e with pipe := e.pipe.abandonFlush call, flushing := none }
  | startRead segment =>
    if e.reading.isNone then
      some { e with reading := some (if segment then .chunk .checking else .read .checking) }
    else none
  | .lookRead => e.lookRead
  | dropRead =>
    e.reading.map fun call => { e with pipe := e.pipe.abandonRead call.place, reading := none }

/-- The pipe and its calls after moves made one after the other, if all of them can be made. -/
def performAll (e : Ends) (moves : List Move) : Option Ends :=
  moves.foldlM (fun e m => m.perform e) e

/-- What each move does, and when it can be made. -/
inductive Moved (e : Ends) : Move → Ends → Prop
  | operate {a : Access} (allowed : e.allows a = true) : Moved e (.operate a) (e.change a)
  | wakeReader (due : e.toReader ≠ 0) : Moved e (.wake .reader)
    { e with pipe := e.pipe.wake (some .reader), toReader := e.toReader - 1 }
  | wakeWriter (due : e.toWriter ≠ 0) : Moved e (.wake .writer)
    { e with pipe := e.pipe.wake (some .writer), toWriter := e.toWriter - 1 }
  | startFlush (idle : e.flushing = none) : Moved e .startFlush
    { e with flushing := some .checking }
  | flushAgain {call call' : Await} (flushes : e.flushing = some call)
    (looks : (e.pipe.flush call).1 = .again call') : Moved e .lookFlush
    { e.change (.writer (.flush call)) with flushing := some call' }
  | flushDone {call : Await} {result} (flushes : e.flushing = some call)
    (looks : (e.pipe.flush call).1 = .done result) : Moved e .lookFlush
    { e.change (.writer (.flush call)) with flushing := none }
  | dropFlush {call : Await} (flushes : e.flushing = some call) : Moved e .dropFlush
    { e with pipe := e.pipe.abandonFlush call, flushing := none }
  | startRead {segment : Bool} (idle : e.reading = none) : Moved e (.startRead segment)
    { e with reading := some (if segment then .chunk .checking else .read .checking) }
  | readAgain {call call' : ReadCall} (reads : e.reading = some call)
    (looks : call.progress e.pipe = .again call') : Moved e .lookRead
    { e.change call.access with reading := some call' }
  | readDone {call : ReadCall} (reads : e.reading = some call)
    (looks : call.progress e.pipe = .done ()) : Moved e .lookRead
    { e.change call.access with reading := none }
  | dropRead {call : ReadCall} (reads : e.reading = some call) : Moved e .dropRead
    { e with pipe := e.pipe.abandonRead call.place, reading := none }

theorem Move.moved {e e' : Ends} {m : Move} (hm : m.perform e = some e') : Moved e m e' := by
  cases m with
  | operate a =>
    simp only [perform] at hm
    split at hm <;> cases hm
    exact .operate ‹_›
  | wake side =>
    cases side <;> simp only [perform, deliver] at hm <;> split at hm <;> cases hm
    · exact .wakeReader ‹_›
    · exact .wakeWriter ‹_›
  | startFlush =>
    simp only [perform] at hm
    split at hm <;> cases hm
    exact .startFlush ‹_›
  | lookFlush =>
    simp only [perform, Ends.lookFlush] at hm
    cases hf : e.flushing with
    | none => rw [hf] at hm; cases hm
    | some call =>
      simp only [hf] at hm
      cases hl : (e.pipe.flush call).1 <;> simp only [hl] at hm <;> cases hm
      · exact .flushAgain hf hl
      · exact .flushDone hf hl
  | dropFlush =>
    obtain ⟨call, hf, rfl⟩ := Option.map_eq_some_iff.mp hm
    exact .dropFlush hf
  | startRead segment =>
    simp only [perform] at hm
    split at hm <;> cases hm
    exact .startRead (Option.isNone_iff_eq_none.mp ‹_›)
  | lookRead =>
    simp only [perform, Ends.lookRead] at hm
    cases hr : e.reading with
    | none => rw [hr] at hm; cases hm
    | some call =>
      simp only [hr] at hm
      cases hl : call.progress e.pipe <;> simp only [hl] at hm <;> cases hm
      · exact .readAgain hr hl
      · exact .readDone hr hl
  | dropRead =>
    obtain ⟨call, hr, rfl⟩ := Option.map_eq_some_iff.mp hm
    exact .dropRead hr

/-- Only what can be called at once is an operation. -/
theorem immediate_of_allows {e : Ends} {a : Access} (ha : e.allows a = true) :
    a.immediate = true :=
  (Bool.and_eq_true_iff.mp ha).1

/-- Moves in any order, from a pipe that nothing has gone through. -/
inductive Run (options : PipeOptions) : Ends → Prop
  | create : Run options { pipe := .create options }
  | move {e e' : Ends} (run : Run options e) (m : Move) (hm : m.perform e = some e') :
    Run options e'

/-- Every call was looked at until it could not move, and every wake-up has arrived. -/
structure Still (e : Ends) : Prop where
  flush : e.lookFlush = none
  read : e.lookRead = none
  wake : ∀ side, e.deliver side = none

/-- What ties the calls to the places where they sleep: whoever is asleep is blocked, or will be
woken. -/
structure Watched (e : Ends) : Prop where
  reader : Guards e.pipe.readable (e.reading.map ReadCall.place)
    (e.pipe.ReaderBlocked ∨ 0 < e.toReader)
  writer : Guards e.pipe.writable e.flushing (e.pipe.WriterBlocked ∨ 0 < e.toWriter)

variable {e e' : Ends} {a : Access}

/-- Whoever does not read keeps what holds of the place where reads sleep. -/
theorem Watched.reader_change (h : e.Watched) (ha : a.immediate = true ∨ a.look = true)
    (hr : a.ofRead = false) :
    Guards (e.change a).pipe.readable (e.reading.map ReadCall.place)
      ((e.change a).pipe.ReaderBlocked ∨ 0 < (e.change a).toReader) := by
  rw [show (e.change a).pipe.readable = e.pipe.readable from readable_change hr e.pipe]
  refine h.reader.mono fun hb => ?_
  by_cases hw : a.wakes e.pipe = some .reader
  · right
    show 0 < e.toReader + if a.wakes e.pipe = some .reader then 1 else 0
    rw [if_pos hw]; omega
  · exact hb.imp (ReaderBlocked.change ha hr hw) (Nat.lt_add_right _)

/-- Whoever does not flush keeps what holds of the place where flushes sleep. -/
theorem Watched.writer_change (h : e.Watched) (ha : a.immediate = true ∨ a.look = true)
    (hf : a.ofFlush = false) :
    Guards (e.change a).pipe.writable e.flushing
      ((e.change a).pipe.WriterBlocked ∨ 0 < (e.change a).toWriter) := by
  rw [show (e.change a).pipe.writable = e.pipe.writable from writable_change hf e.pipe]
  refine h.writer.mono fun hb => ?_
  by_cases hw : a.wakes e.pipe = some .writer
  · right
    show 0 < e.toWriter + if a.wakes e.pipe = some .writer then 1 else 0
    rw [if_pos hw]; omega
  · exact hb.imp (WriterBlocked.change ha hf hw) (Nat.lt_add_right _)

theorem Watched.operate (h : e.Watched) (ha : a.immediate = true) : (e.change a).Watched where
  reader := h.reader_change (.inl ha) (Access.ofRead_of_immediate ha)
  writer := h.writer_change (.inl ha) (Access.ofFlush_of_immediate ha)

theorem Watched.deliver (h : e.Watched) {side : Side} (hm : e.deliver side = some e') :
    e'.Watched := by
  cases side <;> simp only [Ends.deliver] at hm <;> split at hm <;> cases hm
  case reader =>
    exact ⟨h.reader.notifyOne, h.writer.mono (.imp_left fun hb => hb.congr rfl rfl rfl rfl)⟩
  case writer =>
    exact ⟨h.reader.mono (.imp_left fun hb => hb.congr rfl rfl rfl rfl), h.writer.notifyOne⟩

theorem Watched.lookFlush (h : e.Watched) (hm : e.lookFlush = some e') : e'.Watched := by
  simp only [Ends.lookFlush] at hm
  cases hf : e.flushing with
  | none => rw [hf] at hm; cases hm
  | some call =>
    have hr := h.reader_change (a := .writer (.flush call)) (.inr rfl) rfl
    have hw := h.writer
    rw [hf] at hm hw
    have hw := hw.flush_or
    simp only [change, Access.change, Access.perform, WriterAccess.perform, Access.wakes] at hm hr
    generalize e.pipe.flush call = x at hm hr hw
    obtain ⟨_ | call' | _, q⟩ := x <;> cases hm
    · exact ⟨hr, hw⟩
    · exact ⟨hr, hw⟩

theorem Watched.lookRead (h : e.Watched) (hm : e.lookRead = some e') : e'.Watched := by
  simp only [Ends.lookRead] at hm
  cases hf : e.reading with
  | none => rw [hf] at hm; cases hm
  | some call =>
    have hw := h.writer_change (a := call.access) (.inr call.look_access) call.ofFlush_access
    have hr := h.reader
    rw [hf] at hm hr
    have hr := Guards.look hr
    have ht : e.toReader = (e.change call.access).toReader := by
      show e.toReader = e.toReader + if call.access.wakes e.pipe = some .reader then 1 else 0
      rw [if_neg (call.wakes_access e.pipe)]; rfl
    rw [ht] at hr
    simp only at hm
    generalize call.progress e.pipe = x at hm hr
    obtain _ | call' | _ := x <;> cases hm
    · exact ⟨hr, hw⟩
    · exact ⟨hr, hw⟩

theorem Watched.perform (h : e.Watched) {m : Move} (hm : m.perform e = some e') :
    e'.Watched := by
  cases m with
  | operate a =>
    simp only [Move.perform] at hm
    split at hm <;> cases hm
    rename_i ha
    exact h.operate (Bool.and_eq_true_iff.mp ha).1
  | wake side => exact h.deliver hm
  | startFlush =>
    simp only [Move.perform] at hm
    split at hm <;> cases hm
    rename_i hf
    have hw := h.writer
    rw [hf] at hw
    exact ⟨h.reader, hw⟩
  | lookFlush => exact h.lookFlush hm
  | dropFlush =>
    have hr := h.reader
    have hw := h.writer
    cases hf : e.flushing with
    | none => simp only [Move.perform, hf] at hm; cases hm
    | some call =>
      obtain ⟨_, ha⟩ := e.pipe.abandonFlush_frame call
      simp only [Move.perform, hf] at hm
      rw [hf] at hw
      cases hm
      refine ⟨?_, hw.abandonFlush⟩
      show Guards (e.pipe.abandonFlush call).readable _
        ((e.pipe.abandonFlush call).ReaderBlocked ∨ _)
      rw [ha]
      exact hr.mono (.imp_left fun hb => hb.congr rfl rfl rfl rfl)
  | startRead segment =>
    simp only [Move.perform] at hm
    split at hm <;> cases hm
    rename_i hf
    have hr := h.reader
    rw [Option.isNone_iff_eq_none.mp hf] at hr
    refine ⟨?_, h.writer⟩
    cases segment <;> exact hr
  | lookRead => exact h.lookRead hm
  | dropRead =>
    have hr := h.reader
    have hw := h.writer
    cases hf : e.reading with
    | none => simp only [Move.perform, hf] at hm; cases hm
    | some call =>
      obtain ⟨_, ha⟩ := e.pipe.abandonRead_frame call.place
      simp only [Move.perform, hf] at hm
      rw [hf] at hr
      cases hm
      refine ⟨Guards.abandonRead hr, ?_⟩
      show Guards (e.pipe.abandonRead call.place).writable _
        ((e.pipe.abandonRead call.place).WriterBlocked ∨ _)
      rw [ha]
      exact hw.mono (.imp_left fun hb => hb.congr rfl rfl rfl rfl)

variable {options : PipeOptions}

theorem Run.watched (run : Run options e) : e.Watched := by
  induction run with
  | create => exact ⟨rfl, rfl⟩
  | move _ _ hm ih => exact ih.perform hm

/-- A call that cannot move has nothing to report. -/
theorem Run.blocked (run : Run options e) (hs : e.Still) :
    (e.reading ≠ none → e.pipe.ReaderBlocked) ∧ (e.flushing ≠ none → e.pipe.WriterBlocked) ∧
      (e.reading = none ∨ e.flushing = none) := by
  obtain ⟨hr, hw⟩ := run.watched
  have tr : e.toReader = 0 := by simpa [deliver] using hs.wake .reader
  have tw : e.toWriter = 0 := by simpa [deliver] using hs.wake .writer
  have reader : e.reading ≠ none → e.pipe.ReaderBlocked := by
    intro hc
    obtain ⟨call, hc⟩ := Option.ne_none_iff_exists'.mp hc
    have hl := hs.read
    rw [hc] at hr
    have hr := Guards.look hr
    simp only [lookRead, hc] at hl
    generalize call.progress e.pipe = x at hl hr
    obtain _ | _ | _ := x
    · exact hr.resolve_right (by omega)
    · cases hl
    · cases hl
  have writer : e.flushing ≠ none → e.pipe.WriterBlocked := by
    intro hc
    obtain ⟨call, hc⟩ := Option.ne_none_iff_exists'.mp hc
    have hl := hs.flush
    rw [hc] at hw
    have hw := hw.flush_or
    simp only [lookFlush, hc] at hl
    generalize e.pipe.flush call = x at hl hw
    obtain ⟨_ | _ | _, q⟩ := x
    · exact hw.1.resolve_right (by omega)
    · cases hl
    · cases hl
  refine ⟨reader, writer, ?_⟩
  -- Nothing is buffered while a read waits, too much while a flush does.
  by_cases hc : e.reading = none
  · exact .inl hc
  · by_cases hf : e.flushing = none
    · exact .inr hf
    · have h₀ := (reader hc).buffered
      have h₁ := (writer hf).buffered
      omega

end Ends

end Duplex.Pipe
