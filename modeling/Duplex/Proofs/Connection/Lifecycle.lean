import Duplex.Proofs.Connection.Ends

/-!
# The life of a connection

The driver goes through its places in one order (`Driver.stage`), and everything else about the
life of a connection follows it: which loops run, whether the socket is held, the phase, the task
that fires the closed signal (`Connection.Orderly`, `Connection.Run.orderly`). From the
cancellation on, whichever read the send loop still makes is cut short (`Connection.Run.cutShort`).

Moves change little about a connection (`Connection.Step.fixed`). So if the pool has memory for its
regions, it has so to the end of a run, and what `Connection.settle` does goes on with the run
(`Connection.Run.settle`).
-/

namespace Duplex

/-- The places of the driver, in order. -/
def Driver.stage : Driver → Nat
  | unborn => 0
  | launching => 1
  | watching => 2
  | disposing => 3
  | canceling => 4
  | joining => 5
  | completing _ => 6
  | releasing => 7
  | closing => 8
  | announcing => 9
  | done => 10

/-- The start has failed or is failing: there will be no loops. -/
def Starter.failed : Starter → Bool
  | .waiting | .dispatching | .spawning | .over none => false
  | .releasing _ | .closing _ | .signalling _ | .returning _ | .over (some _) | .panicked => true

/-- The send loop has not left its loop. -/
def Sender.looping {τ : Type} : Sender τ → Bool
  | reading _ | listing _ | sending _ _ _ | counting _ _ _ | consuming _ _ => true
  | unborn | classifying _ | shuttingDown _ | finished _ => false

/-- The send loop reads on, or will when it is spawned. -/
def Sender.MayRead {τ : Type} (s : Sender τ) : Prop := s = .unborn ∨ s.looping = true

namespace Connection

variable {S : Socket} {M : Socket.Medium S}

/-- The order in which a connection lives. -/
structure Orderly (c : Connection S) : Prop where
  started : 1 ≤ c.driver.stage → c.starter = .over none
  receiver : c.receiver = .unborn ↔ c.driver.stage ≤ 1
  sender : c.sender = .unborn ↔ c.driver.stage ≤ 1
  finished : 6 ≤ c.driver.stage → c.receiver = .finished ∧ ∃ error, c.sender = .finished error
  held : c.starter.failed = false → c.driver.stage ≤ 7 → c.socketHeld = true
  released : 8 ≤ c.driver.stage → c.socketHeld = false
  draining : 3 ≤ c.driver.stage → c.driver.stage ≤ 8 → c.phase = .draining
  closing : 9 ≤ c.driver.stage → c.phase = .closed
  closer : c.closer = .unborn ↔ c.driver.stage ≤ 9
  closed : c.closer = .done → c.closed = true
  reading : c.starter.failed = false → c.driver.stage ≤ 6 → c.outbound.readerCompleted = false

theorem ReceiverStep.frame {pool : BufferPool} {c c' : Connection S}
    (st : ReceiverStep pool c c') :
    ∃ inbound socket receiver, c' = { c with inbound, socket, receiver } ∧
      c.receiver ≠ .unborn ∧ c.receiver ≠ .finished ∧ receiver ≠ .unborn := by
  cases st with
  | flushed h => exact ⟨_, _, _, rfl, by simp [h], by simp [h], by split <;> simp⟩
  | _ => exact ⟨_, _, _, rfl, by simp [*], by simp [*], by simp⟩

theorem SenderStep.frame {c c' : Connection S} (st : SenderStep c c') :
    ∃ outbound socket aborted sentCounter sender,
      c' = { c with outbound, socket, aborted, sentCounter, sender } ∧
      c.sender ≠ .unborn ∧ (∀ error, c.sender ≠ .finished error) ∧ sender ≠ .unborn ∧
      (sender.looping = true →
        c.sender.looping = true ∧ outbound.readCanceled = c.outbound.readCanceled) ∧
      outbound.readerCompleted = c.outbound.readerCompleted := by
  cases st with
  | read h hr =>
    obtain ⟨_, e⟩ := Pipe.read_again (congrArg Prod.fst hr)
    obtain rfl : _ = _ := congrArg Prod.snd hr
    exact ⟨_, _, _, _, _, rfl, by simp [h], by simp [h], by simp,
      fun _ => ⟨by rw [h]; rfl, by rw [e]⟩, by rw [e]⟩
  | readFail h hr =>
    obtain rfl : _ = _ := congrArg Prod.snd hr
    obtain ⟨_, _, _, e⟩ := c.outbound.read_frame _
    exact ⟨_, _, _, _, _, rfl, by simp [h], by simp [h], by simp, nofun, by rw [e]⟩
  | canceled h hr =>
    obtain ⟨-, -, e⟩ := Pipe.read_ok (congrArg Prod.fst hr)
    obtain rfl : _ = _ := congrArg Prod.snd hr
    exact ⟨_, _, _, _, _, rfl, by simp [h], by simp [h], by simp, nofun, by rw [e]⟩
  | empty h hr hc =>
    obtain ⟨rfl, -, e⟩ := Pipe.read_ok (congrArg Prod.fst hr)
    obtain rfl : _ = _ := congrArg Prod.snd hr
    refine ⟨_, _, _, _, _, rfl, by simp [h], by simp [h], ?_, fun _ => ⟨by rw [h]; rfl, ?_⟩,
      by rw [e]⟩
    · simp only [nextRead]; split <;> simp
    · rw [e]; exact hc.symm
  | found h hr hc =>
    obtain ⟨rfl, -, e⟩ := Pipe.read_ok (congrArg Prod.fst hr)
    obtain rfl : _ = _ := congrArg Prod.snd hr
    refine ⟨_, _, _, _, _, rfl, by simp [h], by simp [h], by simp, fun _ => ⟨by rw [h]; rfl, ?_⟩,
      by rw [e]⟩
    rw [e]; exact hc.symm
  | consume h =>
    obtain ⟨_, _, _, e⟩ := c.outbound.consume_frame _
    refine ⟨_, _, _, _, _, rfl, by simp [h], by simp [h], ?_,
      fun _ => ⟨by rw [h]; rfl, by rw [e]⟩, by rw [e]⟩
    simp only [nextRead]; split <;> simp
  | shutdown h =>
    obtain ⟨_, _, e, -⟩ := c.shutdown_frame
    rw [e]
    exact ⟨_, _, _, _, _, rfl, by simp [h], by simp [h], by simp, nofun, rfl⟩
  | fail h | classify h =>
    exact ⟨_, _, _, _, _, rfl, by simp [h], by simp [h], by simp, nofun, rfl⟩
  | _ =>
    exact ⟨_, _, _, _, _, rfl, by simp [*], by simp [*], by simp,
      fun _ => ⟨by simp [*, Sender.looping], rfl⟩, rfl⟩

/-- What nobody changes about a connection. -/
structure Fixed (c c' : Connection S) : Prop where
  id : c'.id = c.id
  localAddress : c'.localAddress = c.localAddress
  remoteAddress : c'.remoteAddress = c.remoteAddress
  queueIndex : c'.queueIndex = c.queueIndex
  minimumReceive : c'.minimumReceive = c.minimumReceive

theorem Step.fixed {c c' : Connection S} {m : Move} (st : Step c m c') : Fixed c c' := by
  cases st with
  | receiver st => obtain ⟨_, _, _, rfl, -⟩ := st.frame; exact ⟨rfl, rfl, rfl, rfl, rfl⟩
  | sender st => obtain ⟨_, _, _, _, _, rfl, -⟩ := st.frame; exact ⟨rfl, rfl, rfl, rfl, rfl⟩
  | driver st => cases st <;> exact ⟨rfl, rfl, rfl, rfl, rfl⟩
  | starter st => cases st <;> exact ⟨rfl, rfl, rfl, rfl, rfl⟩
  | shutdown =>
    obtain ⟨_, _, e, -⟩ := c.shutdown_frame
    rw [e]; exact ⟨rfl, rfl, rfl, rfl, rfl⟩
  | _ => exact ⟨rfl, rfl, rfl, rfl, rfl⟩

theorem Fixed.trans {c c' c'' : Connection S} (hf : Fixed c c') (hf' : Fixed c' c'') :
    Fixed c c'' where
  id := hf'.id.trans hf.id
  localAddress := hf'.localAddress.trans hf.localAddress
  remoteAddress := hf'.remoteAddress.trans hf.remoteAddress
  queueIndex := hf'.queueIndex.trans hf.queueIndex
  minimumReceive := hf'.minimumReceive.trans hf.minimumReceive

theorem fixed_performAll {moves : List Move} {c c' : Connection S}
    (hm : c.performAll moves = some c') : Fixed c c' := by
  induction moves generalizing c with
  | nil => obtain rfl := Option.some_inj.mp hm; exact ⟨rfl, rfl, rfl, rfl, rfl⟩
  | cons m moves ih =>
    rw [performAll, List.foldlM_cons] at hm
    obtain ⟨d, hd, hm⟩ := Option.bind_eq_some_iff.mp hm
    exact (step_of_perform hd).fixed.trans (ih hm)

theorem Step.options_eq {c c' : Connection S} {m : Move} (st : Step c m c') :
    c'.inbound.options = c.inbound.options := by
  rw [st.inbound]
  exact Pipe.performAll_induct (P := fun p => p.options = c.inbound.options)
    (fun a _ p hp => (Pipe.options_perform a p).trans hp) rfl

/-- The regions that the receive loop asks the pool for fit into memory. -/
structure Supplied (pool : BufferPool) (c : Connection S) : Prop where
  pool : pool.Fits
  segment : c.inbound.options.minimumSegment ≤ BufferPool.maxAllocation
  receive : c.minimumReceive ≤ BufferPool.maxAllocation

theorem Supplied.step {pool : BufferPool} {c c' : Connection S} {m : Move} (hs : c.Supplied pool)
    (st : Step c m c') : c'.Supplied pool where
  pool := hs.pool
  segment := by rw [st.options_eq]; exact hs.segment
  receive := by rw [st.fixed.minimumReceive]; exact hs.receive

theorem Supplied.starves_eq {pool : BufferPool} {c : Connection S} (hs : c.Supplied pool) :
    c.starves pool = false := by
  simp only [starves]
  split
  · rw [Pipe.getMemory?_of_fits hs.pool hs.segment hs.receive]
    rfl
  · rfl

/-- Where there is memory, what `tick` does is a step of a task. -/
theorem Supplied.step_of_tick {pool : BufferPool} {c c' : Connection S} (hs : c.Supplied pool)
    (ht : c.tick pool = some c') : ∃ task, c.step pool task = some c' := by
  obtain ⟨task, -, h⟩ := List.exists_of_findSome?_eq_some ht
  rw [stepOrStarve, hs.starves_eq] at h
  exact ⟨task, by simpa only [Bool.false_eq_true, and_false, if_false] using h⟩

/-- Where there is memory, a connection settles by going on with its run. -/
theorem Run.settle {M : Socket.Medium S} {h : List (Event S)} {pool : BufferPool}
    {c : Connection S} (run : Run M h c) (hs : c.Supplied pool) (count : Nat) :
    ∃ moves, Run M (h ++ moves) (c.settle pool count) := by
  induction count generalizing h c with
  | zero => exact ⟨[], by rwa [List.append_nil]⟩
  | succ count ih =>
    rw [Connection.settle]
    split
    · rename_i c' ht
      obtain ⟨task, hm⟩ := hs.step_of_tick ht
      have hm : (Move.task pool task).perform c = some c' := hm
      obtain ⟨moves, hr⟩ := ih (run.move _ hm) (hs.step (step_of_perform hm))
      rw [List.append_assoc] at hr
      exact ⟨_, hr⟩
    · exact ⟨[], by rwa [List.append_nil]⟩

/-- A driver that was spawned finds no loops, and the socket: only a refusal takes it away
before. -/
theorem Orderly.of_launching {c : Connection S} (ho : Orderly c) (hd : c.driver = .launching) :
    c.receiver = .unborn ∧ c.sender = .unborn ∧ c.socketHeld = true := by
  have hs : c.starter = .over none := ho.started (by rw [hd]; decide)
  have hh : c.socketHeld = true := ho.held (by rw [hs]; rfl) (by rw [hd]; decide)
  exact ⟨ho.receiver.mpr (by rw [hd]; decide), ho.sender.mpr (by rw [hd]; decide), hh⟩

theorem Orderly.driver {c c' : Connection S} (ho : Orderly c) (st : DriverStep c c') :
    Orderly c' := by
  cases st with
  | giveUp h hs =>
    rw [(ho.of_launching h).2.2] at hs; cases hs
  | _ =>
    obtain ⟨h₁, h₂, h₃, h₄, h₅, h₆, h₇, h₈, h₉, h₁₀, h₁₁⟩ := ho
    constructor <;> simp_all [Driver.stage, cancelOutput, Pipe.cancelPendingRead]

/-- Before the driver runs there is little to keep in order. -/
theorem Orderly.of_stage_le_one {c : Connection S} (hd : c.driver.stage ≤ 1)
    (hs : 1 ≤ c.driver.stage → c.starter = .over none) (hr : c.receiver = .unborn)
    (ht : c.sender = .unborn) (hc : c.closer = .unborn)
    (hf : c.starter.failed = false → c.socketHeld = true ∧ c.outbound.readerCompleted = false) :
    Orderly c where
  started := hs
  receiver := iff_of_true hr hd
  sender := iff_of_true ht hd
  finished h := by omega
  held h _ := (hf h).1
  released h := by omega
  draining h := by omega
  closing h := by omega
  closer := iff_of_true hc (by omega)
  closed h := by rw [hc] at h; cases h
  reading h _ := (hf h).2

/-- As long as the start is not over, nothing runs. -/
theorem Orderly.unborn {c : Connection S} (ho : Orderly c) (hs : c.starter ≠ .over none) :
    c.driver.stage ≤ 0 ∧ c.receiver = .unborn ∧ c.sender = .unborn ∧ c.closer = .unborn := by
  have hd : ¬ 1 ≤ c.driver.stage := fun h => hs (ho.started h)
  exact ⟨by omega, ho.receiver.mpr (by omega), ho.sender.mpr (by omega), ho.closer.mpr (by omega)⟩

theorem Orderly.starter {c c' : Connection S} (ho : Orderly c) (st : StarterStep c c') :
    Orderly c' := by
  cases st with
  | spawn h =>
    obtain ⟨-, hr, ht, hc⟩ := ho.unborn (by simp [h])
    have hf : c.starter.failed = false := by rw [h]; rfl
    have hd := (ho.unborn (by simp [h])).1
    exact .of_stage_le_one (Nat.le_refl _) (fun _ => rfl) hr ht hc
      fun _ => ⟨ho.held hf (by omega), ho.reading hf (by omega)⟩
  | release h | close h | signal h | finish h =>
    obtain ⟨hd, hr, ht, hc⟩ := ho.unborn (by simp [h])
    refine .of_stage_le_one (Nat.le_succ_of_le hd) (fun h => ?_) hr ht hc (by simp [Starter.failed])
    simp only [dropLoopEnds] at h
    omega

theorem Orderly.step {c c' : Connection S} {m : Move} (ho : Orderly c) (st : Step c m c') :
    Orderly c' := by
  cases st with
  | receiver st =>
    obtain ⟨_, _, _, rfl, hu, hf, hn⟩ := st.frame
    have hl : ¬ c.driver.stage ≤ 1 := fun hd => hu (ho.receiver.mpr hd)
    exact { ho with
      receiver := ⟨fun e => absurd e hn, fun hd => absurd hd hl⟩
      finished := fun hd => absurd (ho.finished hd).1 hf }
  | sender st =>
    obtain ⟨_, _, _, _, _, rfl, hu, hf, hn, -, hr⟩ := st.frame
    have hl : ¬ c.driver.stage ≤ 1 := fun hd => hu (ho.sender.mpr hd)
    exact { ho with
      sender := ⟨fun e => absurd e hn, fun hd => absurd hd hl⟩
      finished := fun hd => by
        obtain ⟨error, e⟩ := (ho.finished hd).2
        exact absurd e (hf error)
      reading := fun hs hd => hr.trans (ho.reading hs hd) }
  | driver st => exact ho.driver st
  | starter st => exact ho.starter st
  | closer h =>
    exact { ho with
      closer := by
        refine iff_of_false (by simp) fun hd => ?_
        rw [ho.closer.mpr hd] at h; cases h
      closed := fun _ => rfl }
  | start h | accept h =>
    obtain ⟨hd, hr, ht, hc⟩ := ho.unborn (by simp [h])
    have hf : c.starter.failed = false := by rw [h]; rfl
    exact .of_stage_le_one (Nat.le_succ_of_le hd) (fun h => by simp only at h; omega) hr ht hc
      fun _ => ⟨ho.held hf (by omega), ho.reading hf (by omega)⟩
  | refuse h | panic h =>
    obtain ⟨hd, hr, ht, hc⟩ := ho.unborn (by simp [h])
    refine .of_stage_le_one (Nat.le_succ_of_le hd) (fun h => ?_) hr ht hc (by simp [Starter.failed])
    simp only [dropLoopEnds, dropApplicationEnds] at h
    omega
  | @output access h =>
    have hr := (Pipe.completed_perform (.writer access) c.outbound).1
    rw [show (Pipe.Access.writer access).endsReading = false from rfl, Bool.or_false] at hr
    exact { ho with reading := fun hs hd => hr.trans (ho.reading hs hd) }
  | input h => exact { ho with }
  | cancelOutput => exact { ho with }
  | cancelInput => exact { ho with }
  | shutdown =>
    obtain ⟨_, _, e, -⟩ := c.shutdown_frame
    rw [e]; exact { ho with }
  | fireClosed => exact { ho with closed := fun _ => rfl }

/-- Only the driver moves itself, once it has been spawned. -/
theorem Step.driver_eq {c c' : Connection S} {m : Move} (st : Step c m c')
    (hm : ∀ pool, m ≠ .task pool .driver) :
    c'.driver = c.driver ∨ c.starter = .spawning ∧ c'.driver = .launching := by
  cases st with
  | receiver st => obtain ⟨_, _, _, rfl, -⟩ := st.frame; exact .inl rfl
  | sender st => obtain ⟨_, _, _, _, _, rfl, -⟩ := st.frame; exact .inl rfl
  | driver => exact absurd rfl (hm _)
  | starter st =>
    cases st with
    | spawn h => exact .inr ⟨h, rfl⟩
    | _ => exact .inl rfl
  | shutdown => obtain ⟨_, _, e, -⟩ := c.shutdown_frame; rw [e]; exact .inl rfl
  | _ => exact .inl rfl

/-- The driver never goes back. -/
theorem Step.driver_le {c c' : Connection S} {m : Move} (st : Step c m c') (ho : Orderly c) :
    c.driver.stage ≤ c'.driver.stage := by
  rcases m.by_task .driver with ⟨pool, rfl⟩ | hm
  · cases st with
    | driver st => cases st <;> simp [*, Driver.stage]
  · rcases st.driver_eq hm with e | ⟨hs, -⟩
    · exact Nat.le_of_eq (by rw [e])
    · exact Nat.le_trans (ho.unborn (by simp [hs])).1 (Nat.zero_le _)

theorem Run.orderly {h : List (Event S)} {c : Connection S} (run : Run M h c) : Orderly c := by
  induction run with
  | create =>
    exact .of_stage_le_one (Nat.zero_le _) (fun h => absurd h (Nat.not_succ_le_zero 0)) rfl rfl rfl
      fun _ => ⟨rfl, rfl⟩
  | move _ m hm ih => exact ih.step (step_of_perform hm)
  | change _ _ ih => exact { ih with }

/-! ## Once the driver has canceled the read -/

theorem readCanceled_perform (a : Pipe.WriterAccess) (p : Pipe) :
    (a.perform p).readCanceled = p.readCanceled := by
  rcases a with ⟨pool, request⟩ | _ | count | ⟨pool, data⟩ | call | call | _
  case getMemory =>
    obtain ⟨_, e⟩ := p.getMemory_frame pool request
    simp only [Pipe.WriterAccess.perform, e]
  case fill => rfl
  case advance =>
    obtain ⟨_, _, _, _, e⟩ := p.advance_frame count
    simp only [Pipe.WriterAccess.perform, e]
  case write =>
    obtain ⟨_, _, _, _, e⟩ := p.write_frame pool data
    simp only [Pipe.WriterAccess.perform, e]
  case flush =>
    obtain ⟨_, _, _, _, _, e⟩ := p.flush_frame call
    simp only [Pipe.WriterAccess.perform, e]
  case abandonFlush =>
    obtain ⟨_, e⟩ := p.abandonFlush_frame call
    simp only [Pipe.WriterAccess.perform, e]
  case complete =>
    simp only [Pipe.WriterAccess.perform, Pipe.completeWriter]
    split <;> rfl

/-- Who may still read may have read before, and a read that was cut short then is so now. -/
theorem Step.mayRead {c c' : Connection S} {m : Move} (st : Step c m c') (ho : Orderly c)
    (hl : c'.sender.MayRead) :
    c.sender.MayRead ∧ (c.outbound.readCanceled = true → c'.outbound.readCanceled = true) := by
  have hr (p : Pipe) (error) : (p.completeReader error).readCanceled = p.readCanceled := by
    simp only [Pipe.completeReader]; split <;> rfl
  have hw (p : Pipe) (error) : (p.completeWriter error).readCanceled = p.readCanceled :=
    readCanceled_perform (.complete error) p
  cases st with
  | receiver st => obtain ⟨_, _, _, rfl, -⟩ := st.frame; exact ⟨hl, fun h => h⟩
  | sender st =>
    obtain ⟨_, _, _, _, _, rfl, -, -, hn, hc, -⟩ := st.frame
    obtain ⟨hb, he⟩ := hc (hl.resolve_left hn)
    exact ⟨.inr hb, he.trans⟩
  | driver st =>
    cases st with
    | launch h => exact ⟨.inl (ho.of_launching h).2.1, fun h => h⟩
    | giveUp | complete => exact ⟨hl, (hr _ _).trans⟩
    | cancel => exact ⟨hl, fun _ => rfl⟩
    | drain | dispose | join | release | close | announce => exact ⟨hl, fun h => h⟩
  | starter st =>
    cases st with
    | finish => exact ⟨hl, (hr _ _).trans⟩
    | spawn | release | close | signal => exact ⟨hl, fun h => h⟩
  | panic => exact ⟨hl, ((hr _ _).trans (hw _ _)).trans⟩
  | output => exact ⟨hl, (readCanceled_perform _ _).trans⟩
  | cancelOutput => exact ⟨hl, fun _ => rfl⟩
  | shutdown =>
    obtain ⟨_, _, e, -⟩ := c.shutdown_frame
    rw [e] at hl ⊢
    exact ⟨hl, fun h => h⟩
  | closer | start | accept | refuse | input | cancelInput | fireClosed => exact ⟨hl, fun h => h⟩

theorem Run.cutShort {h : List (Event S)} {c : Connection S} (run : Run M h c)
    (hd : 5 ≤ c.driver.stage) (hl : c.sender.looping = true) : c.outbound.readCanceled = true := by
  induction run with
  | create => exact absurd hd (Nat.not_succ_le_zero 4)
  | change _ _ ih => exact ih hd hl
  | @move h c c' run m hm ih =>
    have st := step_of_perform hm
    have ho := run.orderly
    obtain ⟨hl', hc⟩ := st.mayRead ho (.inr hl)
    by_cases hd' : 5 ≤ c.driver.stage
    · have hn : c.sender ≠ .unborn := fun e => by have := ho.sender.mp e; omega
      exact hc (ih hd' (hl'.resolve_left hn))
    · -- Only the cancellation leads there.
      rcases m.by_task .driver with ⟨pool, rfl⟩ | hm
      · cases st with
        | driver st =>
          cases st with
          | cancel => rfl
          | giveUp h hs => rw [(ho.of_launching h).2.2] at hs; cases hs
          | _ => simp_all [Driver.stage]
      · rcases st.driver_eq hm with e | ⟨-, e⟩
        · rw [e] at hd; exact absurd hd hd'
        · rw [e] at hd; exact absurd hd (by decide)

end Connection

end Duplex
