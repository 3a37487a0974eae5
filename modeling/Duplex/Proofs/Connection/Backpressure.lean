import Duplex.Proofs.Connection.Input
import Duplex.Proofs.Connection.Recording
import Duplex.Proofs.Pipe.Ledger

/-!
# How much a connection buffers

The receive loop commits at most one region between two flushes, and a flush that lets it go on
has found no more buffered than `PipeOptions.ceiling` (`Pipe.resumed_of_flush`). A region is never
longer than the least length that was asked for, or a block of the pool if that is longer. So what
is buffered is bounded however slowly the application reads (`Run.held`), and for a connection that
a transport has configured the bound is a number of its configuration (`input_bounded`).
-/

namespace Duplex

/-- The most that a flush leaves buffered when it lets the writer go on. -/
def PipeOptions.ceiling (o : PipeOptions) : Nat := max (o.pauseThreshold - 1) o.resumeThreshold

namespace Pipe

/-! ## What a pipe buffers -/

theorem buffered_consume_le (p : Pipe) (count : Nat) : (p.consume count).buffered ≤ p.buffered := by
  simp only [consume]
  split
  · exact Nat.le_refl _
  · exact Nat.sub_le _ _

theorem buffered_takeFront_le (p : Pipe) : p.takeFront.2.buffered ≤ p.buffered := by
  simp only [takeFront]
  split
  · exact Nat.le_refl _
  · exact p.buffered_consume_le _

/-- Readers only take out. -/
theorem buffered_reader_le (a : ReaderAccess) (p : Pipe) :
    (a.perform p).buffered ≤ p.buffered := by
  have hread (call : Await) : (p.read call).2.buffered = p.buffered := by
    obtain ⟨_, _, _, e⟩ := p.read_frame call
    rw [e]
  rcases a with call | call | call | count | _
  case read => exact Nat.le_of_eq (hread call)
  case readChunk =>
    simp only [ReaderAccess.perform]
    rcases readChunk_snd call p with e | e <;> rw [e]
    · exact Nat.le_of_eq (hread call)
    · exact Nat.le_trans (buffered_takeFront_le _) (Nat.le_of_eq (hread call))
  case abandonRead =>
    obtain ⟨_, e⟩ := p.abandonRead_frame call
    simp only [ReaderAccess.perform, e]
    exact Nat.le_refl _
  case consume => exact p.buffered_consume_le count
  case complete =>
    simp only [ReaderAccess.perform, completeReader]
    split
    · exact Nat.le_refl _
    · exact Nat.zero_le _

/-- A commit adds at most the region, and takes from it what it adds. -/
theorem buffered_advance_le (p : Pipe) (count : Nat) :
    (p.advance count).buffered ≤ p.buffered + p.region.length ∧
      (p.advance count).region.length ≤ p.region.length := by
  have hl := Nat.min_le_right count p.region.length
  simp only [advance]
  split
  · exact ⟨Nat.le_add_right _ _, Nat.le_refl _⟩
  · split
    · exact ⟨Nat.le_add_right _ _, Nat.sub_le _ _⟩
    · exact ⟨Nat.add_le_add_left hl _, Nat.sub_le _ _⟩

/-- A region is at least as long as was asked for, and no longer than it has to be: it stays, or
is a block of the pool. -/
theorem region_getMemory_le (p : Pipe) (pool : BufferPool) (request : Nat) {limit : Nat}
    (hr : p.region.length ≤ limit) (hq : max (max request 1) p.options.minimumSegment ≤ limit)
    (hb : pool.blockSize ≤ limit) : (p.getMemory pool request).region.length ≤ limit := by
  simp only [getMemory]
  split
  · simp only [Region.length_fresh, BufferPool.blockLength]
    split
    · exact Nat.max_le.mpr ⟨hq, hb⟩
    · exact hb
  · exact hr

theorem below_of_checkFlush {p : Pipe} (hp : 0 < p.options.pauseThreshold)
    (h : p.checkFlush.1 = some (.ok ⟨false⟩)) :
    p.readerCompleted = false ∧ p.buffered ≤ p.options.ceiling := by
  cases hr : p.readerCompleted with
  | true => cases he : p.readerError <;> simp [checkFlush, hr, he] at h
  | false =>
    refine ⟨rfl, ?_⟩
    simp only [checkFlush, hr, Bool.false_eq_true, if_false] at h
    split at h
    · rename_i hw
      simp only [Bool.and_eq_true, Bool.or_eq_true, beq_iff_eq, decide_eq_true_eq] at hw
      exact Nat.le_trans (by omega) (Nat.le_max_left _ _)
    · have hb : p.buffered ≤ p.options.resumeThreshold := by
        refine Decidable.byContradiction fun hb => ?_
        cases hx : p.writerPaused <;> simp [hx, hb] at h
      exact Nat.le_trans hb (Nat.le_max_right _ _)

/-- A flush that lets its writer go on has taken the mark away, and has found the pipe below one of
its thresholds. -/
theorem resumed_of_flush (call : Await) {p : Pipe} (hp : 0 < p.options.pauseThreshold)
    (h : (p.flush call).1 = .done (.ok ⟨false⟩)) :
    (p.flush call).2.writerPaused = false ∧ p.buffered ≤ p.options.ceiling := by
  cases call with
  | checking =>
    have hc : p.checkFlush.1 = some (.ok ⟨false⟩) := by
      simp only [flush] at h
      split at h <;> cases h
      simp only [*]
    obtain ⟨hr, hb⟩ := below_of_checkFlush hp hc
    refine ⟨Bool.eq_false_iff.mpr fun hw => ?_, hb⟩
    have hd := paused_of_flush_done h hw
    obtain ⟨_, _, _, _, _, e⟩ := p.flush_frame .checking
    rw [e] at hd
    exact Bool.eq_false_iff.mp hr hd
  | parking => simp [flush] at h
  | parked => simp only [flush] at h; split at h <;> cases h

end Pipe

/-- The receive loop has not committed anything since a flush let it go on. -/
def Receiver.collects {ρ : Type} : Receiver ρ → Bool
  | unborn | staging | receiving _ | committing _ => true
  | flushing _ | classifying _ | confirming _ | completing _ | finished => false

namespace Connection

variable {S : Socket} {M : Socket.Medium S} {h : List (Event S)} {c c' : Connection S} {m : Move}

/-! ## What the inbound pipe holds -/

/-- The longest region of the receive loop, if blocks of the pool are at most `block` long. -/
def longest (block : Nat) (c : Connection S) : Nat :=
  max (max (max c.minimumReceive 1) c.inbound.options.minimumSegment) block

/-- What the inbound pipe holds is bounded, and below the ceiling where the receive loop may
receive. -/
structure Held (block : Nat) (c : Connection S) : Prop where
  region : c.inbound.region.length ≤ c.longest block
  buffered : c.inbound.buffered ≤ c.inbound.options.ceiling + c.longest block
  collects : c.receiver.collects = true →
    c.inbound.writerPaused = false ∧ c.inbound.buffered ≤ c.inbound.options.ceiling

/-- Others than the receive loop only take out of the inbound pipe. -/
theorem buffered_others {accesses : List Pipe.Access} (ha : ∀ a ∈ accesses,
      (∃ access, a = .reader access) ∨ a = .cancel ∨ a = .writer (.complete none)) (p : Pipe) :
    (p.performAll accesses).buffered ≤ p.buffered ∧
      (p.performAll accesses).writerPaused = p.writerPaused := by
  refine Pipe.performAll_induct (P := fun q => q.buffered ≤ p.buffered ∧
    q.writerPaused = p.writerPaused) (fun a ha' q hq => ?_) ⟨Nat.le_refl _, rfl⟩
  rcases ha a ha' with ⟨access, rfl⟩ | rfl | rfl
  · exact ⟨Nat.le_trans (Pipe.buffered_reader_le access q) hq.1,
      (Pipe.writerPaused_perform (.reader access) rfl q).trans hq.2⟩
  · exact hq
  · refine ⟨?_, (Pipe.writerPaused_perform (.writer (.complete none)) rfl q).trans hq.2⟩
    simp only [Pipe.Access.perform, Pipe.WriterAccess.perform, Pipe.completeWriter]
    split <;> exact hq.1

theorem Step.longest_eq (st : Step c m c') (block : Nat) : c'.longest block = c.longest block := by
  simp only [longest, st.fixed.minimumReceive, st.options_eq]

theorem Held.others {block : Nat} (hh : Held block c) (st : Step c m c') (ho : Orderly c)
    (hm : ∀ pool, m ≠ .task pool .receiver) : Held block c' := by
  have ha := onInbound_others c hm
  obtain ⟨hb, hp⟩ := buffered_others ha c.inbound
  have hr := (inbound_others ha c.inbound).2
  rw [← st.inbound] at hb hp hr
  constructor
  · rw [hr, st.longest_eq]; exact hh.region
  · rw [st.options_eq, st.longest_eq]; exact Nat.le_trans hb hh.buffered
  · intro hc
    have hk : c.receiver.collects = true := by
      rcases st.receiver_eq hm with e | ⟨hd, -⟩
      · rwa [e] at hc
      · rw [(ho.of_launching hd).1]; rfl
    obtain ⟨hw, hl⟩ := hh.collects hk
    rw [hp, st.options_eq]
    exact ⟨hw, Nat.le_trans hb hl⟩

theorem Held.receiver {block : Nat} (hh : Held block c) (hp : 0 < c.inbound.options.pauseThreshold)
    {pool : BufferPool} (hb : pool.blockSize ≤ block) (st : ReceiverStep pool c c') :
    Held block c' := by
  have hl := Nat.le_add_right c.inbound.options.ceiling (c.longest block)
  cases st with
  | stage h =>
    obtain ⟨hw, hc⟩ := hh.collects (by rw [h]; rfl)
    have hr := Pipe.region_getMemory_le c.inbound pool c.minimumReceive hh.region
      (Nat.le_max_left _ _) (Nat.le_trans hb (Nat.le_max_right _ _))
    obtain ⟨_, e⟩ := c.inbound.getMemory_frame pool c.minimumReceive
    simp only [e] at hr ⊢
    exact ⟨hr, Nat.le_trans hc hl, fun _ => ⟨hw, hc⟩⟩
  | wait h => exact ⟨hh.region, hh.buffered, fun _ => hh.collects (by rw [h]; rfl)⟩
  | fill h =>
    refine ⟨?_, hh.buffered, fun _ => hh.collects (by rw [h]; rfl)⟩
    exact Nat.le_trans (Nat.le_of_eq (Pipe.Region.length_fill _ _ _)) hh.region
  | @commit count h =>
    obtain ⟨hw, hc⟩ := hh.collects (by rw [h]; rfl)
    obtain ⟨ha, hr⟩ := c.inbound.buffered_advance_le count
    obtain ⟨_, _, _, _, e⟩ := c.inbound.advance_frame count
    rw [e] at ha hr
    simp only [e]
    exact ⟨Nat.le_trans hr hh.region, Nat.le_trans ha (Nat.add_le_add hc hh.region),
      fun h => by cases h⟩
  | @flush call _ _ h hf =>
    obtain ⟨_, _, _, _, _, e⟩ := c.inbound.flush_frame call
    rw [hf] at e
    subst e
    exact ⟨hh.region, hh.buffered, fun h => by cases h⟩
  | @flushFail call _ _ h hf =>
    obtain ⟨_, _, _, _, _, e⟩ := c.inbound.flush_frame call
    rw [hf] at e
    subst e
    exact ⟨hh.region, hh.buffered, fun h => by cases h⟩
  | @flushed call result _ h hf =>
    have hg := Pipe.resumed_of_flush call hp
    obtain ⟨_, _, _, _, _, e⟩ := c.inbound.flush_frame call
    rw [hf] at e hg
    subst e
    refine ⟨hh.region, hh.buffered, fun hc => ?_⟩
    obtain ⟨_ | _⟩ := result
    · exact hg rfl
    · cases hc
  | fail | finish | classify | confirm => exact ⟨hh.region, hh.buffered, fun h => by cases h⟩
  | complete =>
    have hf : ∀ error, ∃ completed error' readable, c.inbound.completeWriter error =
        { c.inbound with writerCompleted := completed, writerError := error', readable } := by
      intro error
      simp only [Pipe.completeWriter]
      split <;> exact ⟨_, _, _, rfl⟩
    rename_i error _
    obtain ⟨_, _, _, e⟩ := hf error
    simp only [e]
    exact ⟨hh.region, hh.buffered, fun h => by cases h⟩

/-- The size of the blocks of the pool that a move of the receive loop has to rent from. -/
def Event.block (e : Event S) : Nat :=
  match e.move with
  | .task pool .receiver => pool.blockSize
  | _ => 0

/-- The receive loop rents from pools whose blocks are at most `block` long. -/
def RentsWithin (block : Nat) (h : List (Event S)) : Prop := ∀ e ∈ h, e.block ≤ block

instance (block : Nat) (h : List (Event S)) : Decidable (RentsWithin block h) :=
  inferInstanceAs (Decidable (∀ e ∈ h, e.block ≤ block))

theorem Run.held {block : Nat} (run : Run M h c) (hp : 0 < c.inbound.options.pauseThreshold)
    (hb : RentsWithin block h) : Held block c := by
  induction run with
  | create => exact ⟨Nat.zero_le _, Nat.zero_le _, fun _ => ⟨rfl, Nat.zero_le _⟩⟩
  | change _ _ ih =>
    obtain ⟨hr, hl, hc⟩ := ih hp hb
    exact ⟨hr, hl, hc⟩
  | @move h c c' run m hm ih =>
    have st := step_of_perform hm
    rw [st.options_eq] at hp
    have hh := ih hp fun e he => hb e (List.mem_append_left _ he)
    rcases m.by_task .receiver with ⟨pool, rfl⟩ | hr
    · cases st with
      | receiver st =>
        exact hh.receiver hp (hb _ (List.mem_append_right _ (List.mem_singleton_self _))) st
    · exact hh.others st run.orderly hr

/-! ## What is offered to the socket -/

/-- A receive begins only where the receive loop is about to begin one, with the least buffer that
it may offer, or more. -/
theorem Event.offered_spec {e : Event S} {length : Nat} (h : length ∈ e.offered) :
    e.before.receiver = .staging ∧ e.before.minimumReceive ≤ length := by
  simp only [Event.offered] at h
  split at h
  · rename_i pool _ hr
    rw [List.mem_singleton.mp h]
    have hl := e.before.inbound.one_le_region_getMemory pool e.before.minimumReceive
    exact ⟨hr, Nat.le_trans (Nat.le_max_left _ _) hl⟩
  · cases h

/-- A connection with the options that a configuration gives it. -/
structure Configured (configuration : Configuration) (c : Connection S) : Prop where
  minimumReceive : c.minimumReceive = configuration.minimumReceive
  options : c.inbound.options = configuration.pipeOptions

/-- A connection has had its options from the start. -/
theorem Run.configured {configuration : Configuration} (run : Run M h c)
    (hc : Configured configuration c) : ∀ e ∈ h, Configured configuration e.before := by
  induction run with
  | create => intro e he; cases he
  | change _ _ ih => exact ih ⟨hc.minimumReceive, hc.options⟩
  | move _ m hm ih =>
    have st := step_of_perform hm
    have hc := Configured.mk (st.fixed.minimumReceive.symm.trans hc.minimumReceive)
      (st.options_eq.symm.trans hc.options)
    intro e he
    rcases List.mem_append.mp he with he | he
    · exact ih hc e he
    · rw [List.mem_singleton.mp he]; exact hc

/-- What holds of the input of a connection with this configuration, over a socket that records what
it is offered. -/
structure Bounded (configuration : Configuration) (block : Nat) (h : List (Event S.recorded))
    (c : Connection S.recorded) : Prop where
  buffered : c.inbound.buffered ≤
    max (configuration.pauseThreshold - 1) configuration.resumeThreshold + max 4096 block
  /-- No receive begins while the writer is marked paused: where the socket has recorded one more,
  the mark was not set. -/
  unpaused : ∀ e ∈ h, ∀ after, e.move.perform e.before = some after →
    after.socket.rooms ≠ e.before.socket.rooms → e.before.inbound.writerPaused = false
  /-- Every buffer that the socket was offered has at least 2048 bytes. -/
  offered : ∀ room ∈ c.socket.rooms, 2048 ≤ room

/-- **The input of a connection is bounded.** Take any run of a connection with a pause threshold,
over any socket that records what it is offered and with any application, whose receive loop rents
from a pool with blocks of at most `block` bytes. What the inbound pipe buffers is at most the
greater of what is below the pause threshold and the resume threshold, and one region more. No
receive begins while the writer is marked paused, and every buffer that the socket is offered has at
least 2048 bytes. -/
theorem input_bounded {configuration : Configuration} {block : Nat} {h : List (Event S.recorded)}
    {c : Connection S.recorded} (run : Run M.recorded h c) (hc : Configured configuration c)
    (hp : 0 < configuration.pauseThreshold) (hb : RentsWithin block h) :
    Bounded configuration block h c := by
  have pause {d : Connection S.recorded} (hd : Configured configuration d) :
      0 < d.inbound.options.pauseThreshold := by rw [hd.options]; exact hp
  constructor
  · have hl := (run.held (pause hc) hb).buffered
    rw [longest, hc.options, hc.minimumReceive] at hl
    exact hl
  · intro e he after hm hr
    have st := step_of_perform hm
    obtain ⟨room, ho⟩ : ∃ room, room ∈ e.offered := by
      refine List.exists_mem_of_ne_nil _ fun hn => hr ?_
      rw [st.noted.rooms, hn, List.append_nil]
    have hs : e.before.receiver = .staging := (Event.offered_spec ho).1
    obtain ⟨h₁, ⟨h₂, rfl⟩, hrun⟩ := run.before he
    have hh := hrun.held (pause (run.configured hc e he)) fun d hd =>
      hb d (List.mem_append_left _ hd)
    exact (hh.collects (by rw [hs]; rfl)).1
  · intro room ho
    rw [run.recorded.rooms] at ho
    obtain ⟨e, he, ho⟩ := List.mem_flatMap.mp ho
    have hm := (Event.offered_spec ho).2
    rw [(run.configured hc e he).minimumReceive] at hm
    exact hm

/-! ## An application that does not read -/

/-- A configuration whose resume threshold is the greater one. -/
def lenient : Configuration := { pauseThreshold := 4, resumeThreshold := 6 }

/-- A connection with eight bytes to receive, in two chunks. -/
def twoToReceive : Connection Socket.scripted.recorded :=
  create Socket.scripted.recorded .empty (.ofPort 4433) (.ofPort 50000) 0 2048 lenient.pipeOptions
    { state := { incoming := [.data [1, 2, 3, 4, 5], .data [6, 7, 8]] } }

/-- The first chunk pauses the writer and lets it go on at once. The second leaves it paused. -/
def receiveBoth : List Move := launched (steps 9 .receiver)

/-- The connection after `receiveBoth`. -/
def stalled : Connection Socket.scripted.recorded :=
  (twoToReceive.performAll receiveBoth).getD twoToReceive

theorem run_stalled :
    Run Socket.Medium.scripted.recorded (twoToReceive.trace receiveBoth) stalled := by
  have hc : Run Socket.Medium.scripted.recorded [] twoToReceive :=
    .create _ _ _ _ _ _ _ ⟨⟨rfl, rfl⟩, rfl, rfl, rfl⟩
  have hm : twoToReceive.performAll receiveBoth = some stalled := rfl
  exact hc.moves hm

theorem stalled_bounded :
    stalled.inbound.writerPaused = true ∧ stalled.inbound.pauses = 2 ∧
      stalled.inbound.buffered ≤ max (4 - 1) 6 + max 4096 4096 ∧
      stalled.socket.rooms = [4096, 4091] ∧ ∀ room ∈ stalled.socket.rooms, 2048 ≤ room := by
  have bounded := input_bounded run_stalled ⟨rfl, rfl⟩
    (show 0 < lenient.pauseThreshold by decide)
    (show RentsWithin 4096 (twoToReceive.trace receiveBoth) by decide)
  exact ⟨rfl, rfl, bounded.buffered, rfl, bounded.offered⟩

end Connection

end Duplex
