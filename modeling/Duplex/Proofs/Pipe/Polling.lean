import Duplex.Proofs.Pipe.Calls

/-!
# Calls come to rest

Calls on the two ends of a pipe that are looked at again and again, while the wake-ups that were
left for later arrive, come to rest: each such move (`Move.polls`) takes some of their patience
(`Run.patience_lt`), a number that the pipe and its calls have. So from any state of a run some of
these moves lead to one where nothing can move (`Run.exists_still`), and there whoever waits has
nothing to report (`no_lost_wakeup`).

A call that wakes up looks at the pipe once more, and a wake-up can leave a permit behind that lets
a call look once more as well. The reading of a segment wakes the writer, which has to be paid for,
and begins again after a cancellation, of which it takes the mark.
-/

namespace Duplex.Pipe

/-! ## Looks at a sleeping place -/

/-- How many more looks a call can take that sleeps at the place `n`, if nobody wakes it. -/
def looksLeft (n : Notify) (call : Option Await) : Nat :=
  (if n.permit then 2 else 0) +
    match call with
    | none => 0
    | some .checking => 2
    | some .parking => 1
    | some .parked => if n.sleeper = .woken then 3 else 0

theorem looksLeft_none_lt {n : Notify} {call : Await} (hc : call ≠ .parked) :
    looksLeft n none < looksLeft n (some call) := by
  cases call with
  | checking => simp only [looksLeft]; omega
  | parking => simp only [looksLeft]; omega
  | parked => exact absurd rfl hc

theorem looksLeft_notifyOne (n : Notify) (call : Option Await) :
    looksLeft n.notifyOne call ≤ looksLeft n call + 3 := by
  obtain ⟨permit, sleeper⟩ := n
  cases sleeper <;> cases permit <;>
    rcases call with _ | _ | _ | _ <;> simp [looksLeft, Notify.notifyOne]

/-- Who goes to sleep, or takes the permit and goes on, uses up a look. -/
theorem looksLeft_enter (n : Notify) :
    looksLeft n.enter.2 (some (if n.enter.1 then .checking else .parked)) <
      looksLeft n (some .parking) := by
  obtain ⟨permit, sleeper⟩ := n
  cases permit <;> simp [looksLeft, Notify.enter]

theorem looksLeft_resume {n n' : Notify} (h : n.resume? = some n') :
    looksLeft n' (some .checking) < looksLeft n (some .parked) := by
  obtain ⟨permit, sleeper⟩ := n
  cases sleeper <;> cases h
  cases permit <;> simp [looksLeft]

/-- A look at a flush uses up a look. -/
theorem looksLeft_flush (p : Pipe) (call : Await) :
    match p.flush call with
    | (.pending, _) => True
    | (.again call', q) => looksLeft q.writable (some call') < looksLeft p.writable (some call)
    | (.done _, q) => looksLeft q.writable none < looksLeft p.writable (some call) := by
  cases call with
  | checking =>
    have hw : p.checkFlush.2.writable = p.writable := by
      obtain ⟨_, _, _, _, e⟩ := p.checkFlush_frame; rw [e]
    simp only [flush]
    generalize p.checkFlush = x at hw
    obtain ⟨_ | _, q⟩ := x
    · show looksLeft q.writable _ < _
      rw [show q.writable = p.writable from hw]
      simp only [looksLeft]; omega
    · show looksLeft q.writable _ < _
      rw [show q.writable = p.writable from hw]
      exact looksLeft_none_lt (by decide)
  | parking => exact looksLeft_enter p.writable
  | parked =>
    simp only [flush]
    cases hn : p.writable.resume? with
    | none => trivial
    | some n => exact looksLeft_resume hn

/-- A look at a read uses up a look, or ends the read. -/
theorem looksLeft_read (p : Pipe) (call : Await) :
    match p.read call with
    | (.pending, _) => True
    | (.again call', q) => looksLeft q.readable (some call') < looksLeft p.readable (some call)
    | (.done _, q) => call = .checking ∧ q.readable = p.readable := by
  cases call with
  | checking =>
    have hr : p.checkRead.2.readable = p.readable := by
      obtain ⟨_, _, e⟩ := p.checkRead_frame; rw [e]
    simp only [read]
    generalize p.checkRead = x at hr
    obtain ⟨_ | _, q⟩ := x
    · show looksLeft q.readable _ < _
      rw [show q.readable = p.readable from hr]
      simp only [looksLeft]; omega
    · exact ⟨trivial, hr⟩
  | parking => exact looksLeft_enter p.readable
  | parked =>
    simp only [read]
    cases hn : p.readable.resume? with
    | none => trivial
    | some n => exact looksLeft_resume hn

/-- A read marks nothing as canceled. -/
theorem readCanceled_read (p : Pipe) (call : Await) :
    (p.read call).2.readCanceled.toNat ≤ p.readCanceled.toNat := by
  cases call with
  | checking =>
    have hc : p.checkRead.2.readCanceled.toNat ≤ p.readCanceled.toNat := by
      simp only [checkRead]
      split
      · exact Nat.le_refl _
      · split
        · exact Nat.zero_le _
        · split <;> exact Nat.le_refl _
    simp only [read]
    split <;> (rename_i he; rw [he] at hc; exact hc)
  | parking => exact Nat.le_refl _
  | parked => simp only [read]; split <;> exact Nat.le_refl _

/-- A read that ends has something to report. -/
theorem report_of_read_ok {p : Pipe} {call : Await} {r : ReadResult}
    (h : (p.read call).1 = .done (.ok r)) :
    r.canceled = true ∨ r.isEmpty = false ∨ r.completed = true := by
  obtain ⟨rfl, he, -⟩ := read_ok h
  refine Decidable.byContradiction fun hn => ?_
  simp only [ReadResult.isEmpty, not_or, Bool.not_eq_true, Bool.not_eq_false, beq_iff_eq] at hn
  obtain ⟨h₁, h₂, h₃⟩ := hn
  have hc : p.checkRead = (none, p) := by simp [checkRead, he, h₁, h₂, h₃]
  cases call with
  | checking => simp only [read, hc] at h; cases h
  | parking => cases h
  | parked => simp only [read] at h; split at h <;> cases h

/-- A look at the reading of a segment uses up a look, or takes the mark of a cancellation. -/
theorem looksLeft_readChunk {p : Pipe} (hs : p.Sound) (call : Await) :
    match p.readChunk call with
    | (.pending, _) => True
    | (.again call', q) => looksLeft q.readable (some call') + q.readCanceled.toNat <
        looksLeft p.readable (some call) + p.readCanceled.toNat
    | (.done _, q) => looksLeft q.readable none + q.readCanceled.toNat <
        looksLeft p.readable (some call) + p.readCanceled.toNat := by
  have hl := looksLeft_read p call
  have hc := readCanceled_read p call
  rcases he : p.read call with ⟨_ | call' | _ | r, q⟩ <;> rw [he] at hl hc <;>
    simp only [readChunk, he]
  case done.error =>
    obtain ⟨rfl, hr⟩ := hl
    rw [hr]
    exact Nat.add_lt_add_of_lt_of_le (looksLeft_none_lt (by decide)) hc
  case again => exact Nat.add_lt_add_of_lt_of_le hl hc
  case done.ok =>
    obtain ⟨rfl, hr⟩ := hl
    have hd : (p.read .checking).1 = .done (.ok r) := by rw [he]
    have hs' : looksLeft q.readable none + q.readCanceled.toNat <
        looksLeft p.readable (some .checking) + p.readCanceled.toNat := by
      rw [hr]
      exact Nat.add_lt_add_of_lt_of_le (looksLeft_none_lt (by decide)) hc
    cases hn : r.isEmpty with
    | false =>
      -- There is a front segment.
      have hb : ∀ a ∈ ([] : List Access), a.ofReader = false := List.forall_mem_nil _
      obtain ⟨hf, hne⟩ := hs.front hd hn hb
      rw [he] at hf
      obtain ⟨chunk, hchunk⟩ := Option.ne_none_iff_exists'.mp hne
      have ht : q.takeFront.1 = some chunk := hf.trans hchunk
      obtain ⟨_, _, _, e⟩ := q.takeFront_frame
      rcases hq : q.takeFront with ⟨_ | chunk', q'⟩ <;> rw [hq] at ht e
      · cases ht
      · simp only [Bool.false_eq_true, if_false]
        rw [show q' = _ from e]
        exact hs'
    | true =>
      simp only [if_true]
      cases hm : r.completed with
      | true => exact hs'
      | false =>
        -- Neither data nor completion: the read was canceled.
        have hcan : r.canceled = true := by
          rcases report_of_read_ok hd with h | h | h
          · exact h
          · rw [hn] at h; cases h
          · rw [hm] at h; cases h
        obtain ⟨rfl, -, hq⟩ := read_ok hd
        rw [he] at hq
        rw [show q = _ from hq, show p.readCanceled = true from hcan]
        exact Nat.lt_succ_self _

theorem Sound.change {p : Pipe} (h : p.Sound) (a : Access) : (a.change p).Sound := by
  have hp := h.perform a
  rcases a with (_ | _ | _ | _ | _ | _ | _) | (_ | _ | _ | _ | _) | _ <;>
    exact hp.congr rfl rfl rfl

/-- What a call of the reading end can still do: look, take the mark of a cancellation, and wake the
writer when it takes a segment out. -/
def readCost (p : Pipe) (reading : Option ReadCall) : Nat :=
  looksLeft p.readable (reading.map ReadCall.place) + p.readCanceled.toNat +
    match reading with
    | some (.chunk _) => 5
    | _ => 0

/-- A look at a call of the reading end takes some of that. -/
theorem readCost_look {p : Pipe} (hs : p.Sound) (call : ReadCall) :
    match call.progress p with
    | .pending => True
    | .again call' =>
      readCost (call.access.change p) (some call') +
        4 * (if call.access.wakes p = some .writer then 1 else 0) < readCost p (some call)
    | .done () =>
      readCost (call.access.change p) none +
        4 * (if call.access.wakes p = some .writer then 1 else 0) < readCost p (some call) := by
  cases call with
  | read call =>
    have hl := looksLeft_read p call
    have hc := readCanceled_read p call
    rcases he : p.read call with ⟨_ | call' | r, q⟩ <;> rw [he] at hl hc <;>
      simp only [ReadCall.progress, he, Progress.map]
    case again =>
      show looksLeft (p.read call).2.readable (some call') + (p.read call).2.readCanceled.toNat <
        looksLeft p.readable (some call) + p.readCanceled.toNat
      rw [he]
      exact Nat.add_lt_add_of_lt_of_le hl hc
    case done =>
      obtain ⟨rfl, hr⟩ := hl
      show looksLeft (p.read .checking).2.readable none +
        (p.read .checking).2.readCanceled.toNat <
          looksLeft p.readable (some .checking) + p.readCanceled.toNat
      rw [he, hr]
      exact Nat.add_lt_add_of_lt_of_le (looksLeft_none_lt (by decide)) hc
  | chunk call =>
    have hl := looksLeft_readChunk hs call
    rcases he : p.readChunk call with ⟨_ | call' | r, q⟩ <;> rw [he] at hl <;>
      simp only [ReadCall.progress, he, Progress.map]
    case again =>
      have hn : (ReadCall.chunk call).access.wakes p = none :=
        wakes_readChunk_none fun chunk h => by rw [he] at h; cases h
      rw [hn]
      show looksLeft (p.readChunk call).2.readable (some call') +
        (p.readChunk call).2.readCanceled.toNat + 5 <
          looksLeft p.readable (some call) + p.readCanceled.toNat + 5
      rw [he]
      exact Nat.add_lt_add_right hl 5
    case done =>
      have hw : (if (ReadCall.chunk call).access.wakes p = some .writer then 1 else 0) ≤ 1 := by
        split <;> omega
      show looksLeft (p.readChunk call).2.readable none +
        (p.readChunk call).2.readCanceled.toNat + 0 + 4 * _ <
          looksLeft p.readable (some call) + p.readCanceled.toNat + 5
      simp only [he]
      omega

namespace Ends

variable {options : PipeOptions} {e e' : Ends}

/-! ## Patience -/

/-- A bound on how many looks and wake-ups there can be before nothing can move. -/
def patience (e : Ends) : Nat :=
  looksLeft e.pipe.writable e.flushing + readCost e.pipe e.reading +
    4 * e.toReader + 4 * e.toWriter

/-- Whether a move is one look at a call, or brings a wake-up. -/
def Move.polls : Move → Bool
  | lookFlush | lookRead | wake _ => true
  | _ => false

theorem lookFlush_cases (hm : e.lookFlush = some e') :
    ∃ call after, e.flushing = some call ∧
      e' = { e.change (.writer (.flush call)) with flushing := after } ∧
      looksLeft (e.pipe.flush call).2.writable after < looksLeft e.pipe.writable (some call) := by
  simp only [lookFlush] at hm
  cases hf : e.flushing with
  | none => rw [hf] at hm; cases hm
  | some call =>
    have hl := looksLeft_flush e.pipe call
    simp only [hf] at hm
    rcases he : e.pipe.flush call with ⟨_ | call' | r, q⟩ <;> rw [he] at hl hm <;> cases hm
    · exact ⟨call, some call', rfl, rfl, by rw [he]; exact hl⟩
    · exact ⟨call, none, rfl, rfl, by rw [he]; exact hl⟩

theorem lookRead_cases (hs : e.pipe.Sound) (hm : e.lookRead = some e') :
    ∃ call after, e.reading = some call ∧ e' = { e.change call.access with reading := after } ∧
      readCost (call.access.change e.pipe) after +
        4 * (if call.access.wakes e.pipe = some .writer then 1 else 0) <
          readCost e.pipe (some call) := by
  simp only [lookRead] at hm
  cases hf : e.reading with
  | none => rw [hf] at hm; cases hm
  | some call =>
    have hl := readCost_look hs call
    simp only [hf] at hm
    rcases he : call.progress e.pipe with _ | call' | _ <;> rw [he] at hl hm <;> cases hm
    · exact ⟨call, some call', rfl, rfl, hl⟩
    · exact ⟨call, none, rfl, rfl, hl⟩

theorem patience_lookFlush (hm : e.lookFlush = some e') : e'.patience < e.patience := by
  obtain ⟨call, after, hf, rfl, hl⟩ := lookFlush_cases hm
  obtain ⟨_, _, _, _, _, hq⟩ := e.pipe.flush_frame call
  have hr : readCost (e.pipe.flush call).2 e.reading = readCost e.pipe e.reading := by
    rw [hq]; rfl
  show looksLeft (e.pipe.flush call).2.writable after + readCost (e.pipe.flush call).2 e.reading +
    4 * e.toReader + 4 * e.toWriter < _
  rw [patience, hf, hr]
  omega

theorem patience_lookRead (hs : e.pipe.Sound) (hm : e.lookRead = some e') :
    e'.patience < e.patience := by
  obtain ⟨call, after, hf, rfl, hl⟩ := lookRead_cases hs hm
  have hw : (call.access.change e.pipe).writable = e.pipe.writable :=
    writable_change call.ofFlush_access e.pipe
  have ht := call.wakes_access e.pipe
  simp only [patience, change, hw, hf, ht, if_false]
  omega

theorem patience_deliver {side : Side} (hm : e.deliver side = some e') :
    e'.patience < e.patience := by
  cases side <;> simp only [deliver] at hm <;> split at hm <;> cases hm
  case reader =>
    have hn := looksLeft_notifyOne e.pipe.readable (e.reading.map ReadCall.place)
    simp only [patience, readCost, wake]
    omega
  case writer =>
    have hn := looksLeft_notifyOne e.pipe.writable e.flushing
    simp only [patience, readCost, wake]
    omega

theorem Run.sound (run : Run options e) : e.pipe.Sound := by
  induction run with
  | create => exact sound_create options
  | @move e e' run m hm hs =>
    cases m with
    | operate a =>
      simp only [Move.perform] at hm
      split at hm <;> cases hm
      exact hs.change a
    | wake side =>
      cases side <;> simp only [Move.perform, deliver] at hm <;> split at hm <;> cases hm <;>
        exact hs.congr rfl rfl rfl
    | startFlush | startRead =>
      simp only [Move.perform] at hm
      split at hm <;> cases hm
      exact hs
    | lookFlush =>
      obtain ⟨call, _, _, rfl, _⟩ := lookFlush_cases hm
      exact hs.change (.writer (.flush call))
    | lookRead =>
      obtain ⟨call, _, _, rfl, _⟩ := lookRead_cases hs hm
      exact hs.change call.access
    | dropFlush =>
      obtain ⟨call, -, rfl⟩ := Option.map_eq_some_iff.mp hm
      exact hs.perform (.writer (.abandonFlush call))
    | dropRead =>
      obtain ⟨call, -, rfl⟩ := Option.map_eq_some_iff.mp hm
      exact hs.perform (.reader (.abandonRead call.place))

/-- Whoever looks at a call, or brings a wake-up, takes some patience. -/
theorem Run.patience_lt (run : Run options e) {m : Move} (hp : m.polls = true)
    (hm : m.perform e = some e') : e'.patience < e.patience := by
  cases m with
  | lookFlush => exact patience_lookFlush hm
  | lookRead => exact patience_lookRead run.sound hm
  | wake side => exact patience_deliver hm
  | operate | startFlush | dropFlush | startRead | dropRead => cases hp

/-- Where something can move, there is a look or a wake-up. -/
theorem exists_poll (hs : ¬ e.Still) :
    ∃ m e', Move.polls m = true ∧ Move.perform m e = some e' := by
  cases hf : e.lookFlush with
  | some e' => exact ⟨.lookFlush, e', rfl, hf⟩
  | none =>
    cases hr : e.lookRead with
    | some e' => exact ⟨.lookRead, e', rfl, hr⟩
    | none =>
      have hw : ¬ ∀ side, e.deliver side = none := fun hw => hs ⟨hf, hr, hw⟩
      obtain ⟨side, hd⟩ := Classical.not_forall.mp hw
      obtain ⟨e', hd⟩ := Option.ne_none_iff_exists'.mp hd
      exact ⟨.wake side, e', rfl, hd⟩

/-- In every state of a run the calls can be looked at, and wake-ups can arrive, until nothing can
move. -/
theorem Run.exists_still (run : Run options e) :
    ∃ (ms : List Move) (e' : Ends), (∀ m ∈ ms, m.polls = true) ∧
      e.performAll ms = some e' ∧ e'.Still := by
  induction hn : e.patience using Nat.strongRecOn generalizing e with
  | ind n ih =>
    by_cases hs : e.Still
    · exact ⟨[], e, List.forall_mem_nil _, rfl, hs⟩
    · obtain ⟨m, d, hp, hm⟩ := exists_poll hs
      obtain ⟨ms, e', hms, hd, hs'⟩ := ih _ (hn ▸ run.patience_lt hp hm) (run.move m hm) rfl
      refine ⟨m :: ms, e', List.forall_mem_cons.mpr ⟨hp, hms⟩, ?_, hs'⟩
      rw [performAll, List.foldlM_cons, hm]
      exact hd

/-- However that is done, it takes no more moves than there was patience. -/
theorem Run.length_le_patience (run : Run options e) (ms : List Move) (e' : Ends)
    (hms : ∀ m ∈ ms, m.polls = true) (hd : e.performAll ms = some e') :
    ms.length + e'.patience ≤ e.patience := by
  induction ms generalizing e with
  | nil => cases hd; exact Nat.le_of_eq (Nat.zero_add _)
  | cons m ms ih =>
    rw [performAll, List.foldlM_cons] at hd
    obtain ⟨d, hm, hd⟩ := Option.bind_eq_some_iff.mp hd
    obtain ⟨hp, hms⟩ := List.forall_mem_cons.mp hms
    have hlt := run.patience_lt hp hm
    have hle := ih (run.move m hm) hms hd
    rw [List.length_cons]
    omega

/-- **No wake-up is lost.** Take any calls on the two ends of a pipe, with looks, cancellations and
calls given up in any order. When they were looked at until nothing could move, a read that waits
has nothing to report and a flush that waits has too much buffered before it, so that not both of
them wait. And they get there: some more looks and wake-ups are enough, and no more of them can be
made than there was patience. -/
theorem no_lost_wakeup (run : Run options e) :
    (e.Still → (e.reading ≠ none → e.pipe.ReaderBlocked) ∧
      (e.flushing ≠ none → e.pipe.WriterBlocked) ∧ (e.reading = none ∨ e.flushing = none)) ∧
    (∃ (ms : List Move) (e' : Ends), (∀ m ∈ ms, m.polls = true) ∧
      e.performAll ms = some e' ∧ e'.Still) ∧
    ∀ (ms : List Move) (e' : Ends), (∀ m ∈ ms, m.polls = true) →
      e.performAll ms = some e' → ms.length + e'.patience ≤ e.patience :=
  ⟨run.blocked, run.exists_still, run.length_le_patience⟩

/-! ## A read given up while it was woken -/

theorem Run.moves {e e' : Ends} (run : Run options e) {ms : List Move}
    (hm : e.performAll ms = some e') : Run options e' := by
  induction ms generalizing e with
  | nil => cases hm; exact run
  | cons m ms ih =>
    obtain ⟨d, hd, hm⟩ := Option.bind_eq_some_iff.mp hm
    exact ih (run.move m hd) hm

/-- A read sleeps, a byte is committed, and the read is given up when it has been woken. Then the
writer flushes. -/
def givenUp : List Move :=
  [.startRead false, .lookRead, .lookRead, .operate (.writer (.getMemory { blockSize := 4 } 1)),
    .operate (.writer (.fill 0 [7])), .operate (.writer (.advance 1)), .wake .reader, .dropRead,
    .startFlush, .lookFlush, .lookFlush]

/-- A pipe that keeps its writer waiting as soon as a byte is buffered. -/
def narrow : PipeOptions := { pauseThreshold := 1, resumeThreshold := 0, minimumSegment := 1 }

/-- The pipe and its calls after `givenUp`. -/
def flushLeft : Ends :=
  (performAll { pipe := .create narrow } givenUp).getD { pipe := .create narrow }

theorem run_flushLeft : Run narrow flushLeft :=
  Run.create.moves (show performAll _ givenUp = some flushLeft from rfl)

theorem still_flushLeft : flushLeft.Still where
  flush := rfl
  read := rfl
  wake side := by cases side <;> rfl

theorem flush_waits_for_reader :
    flushLeft.pipe.readable.permit = true ∧ flushLeft.pipe.WriterBlocked :=
  ⟨rfl, ((no_lost_wakeup run_flushLeft).1 still_flushLeft).2.1 (by decide)⟩

end Ends

end Duplex.Pipe
