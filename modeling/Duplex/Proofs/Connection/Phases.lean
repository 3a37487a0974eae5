import Duplex.Connection.Session
import Duplex.Proofs.Connection.Lifecycle
import Duplex.Proofs.Pipe.Stream

/-!
# Phases of a connection

The place of the start and the place of the driver tell which phases a connection has entered
(`due`, `Run.phases_eq`), and how often it was started, announced as closed and let go of its
socket (`Booked`, `Run.booked`). A start that was refused goes through its places in one order
(`Starter.refusal`), as the driver does. The counts are those of the moves; what a socket itself
counts agrees with them (`Run.counted`), so that `lifecycle` speaks of the disposals that the socket
has seen.
-/

namespace Duplex

/-- How far a start has come that was refused. -/
def Starter.refusal : Starter → Nat
  | .waiting | .dispatching | .spawning | .over none | .panicked => 0
  | .releasing _ => 1
  | .closing _ => 2
  | .signalling _ => 3
  | .returning _ => 4
  | .over (some _) => 5

/-- The phases, in order. -/
def Phase.stage : Phase → Nat
  | created => 0
  | active => 1
  | draining => 2
  | closed => 3

namespace Connection

variable {S : Socket} {M : Socket.Medium S} {h : List (Event S)} {c c' : Connection S} {m : Move}

/-! ## Who conducts a connection -/

/-- Whether a move is made by the start, the dispatcher, the driver or the task of the closed
signal. -/
def Move.conducts : Move → Bool
  | task _ .starter | task _ .driver | task _ .closer | start | accept | refuse _ | panic => true
  | _ => false

/-- What all other moves leave alone. -/
structure Kept (c c' : Connection S) : Prop where
  starter : c'.starter = c.starter
  driver : c'.driver = c.driver
  closer : c'.closer = c.closer
  phase : c'.phase = c.phase
  held : c'.socketHeld = c.socketHeld

theorem Step.kept (st : Step c m c') (hm : m.conducts = false) : Kept c c' := by
  cases st with
  | receiver st => obtain ⟨_, _, _, rfl, -⟩ := st.frame; exact ⟨rfl, rfl, rfl, rfl, rfl⟩
  | sender st => obtain ⟨_, _, _, _, _, rfl, -⟩ := st.frame; exact ⟨rfl, rfl, rfl, rfl, rfl⟩
  | shutdown => obtain ⟨_, _, e, -⟩ := c.shutdown_frame; rw [e]; exact ⟨rfl, rfl, rfl, rfl, rfl⟩
  | output | input | cancelOutput | cancelInput | fireClosed => exact ⟨rfl, rfl, rfl, rfl, rfl⟩
  | _ => cases hm

/-! ## Phases -/

/-- Enters a phase, unless it is the one that was entered last. -/
def enter (entered : List Phase) (phase : Phase) : List Phase :=
  if entered.getLast? = some phase then entered else entered ++ [phase]

/-- The phases of a connection, in the order in which it entered them. -/
def phases (h : List (Event S)) (c : Connection S) : List Phase :=
  enter ((h.map (·.before.phase)).foldl enter []) c.phase

theorem phases_snoc (h : List (Event S)) (c : Connection S) (m : Move) (c' : Connection S) :
    phases (h ++ [⟨c, m⟩]) c' = enter (phases h c) c'.phase := by
  simp [phases]

theorem getLast?_enter (entered : List Phase) (phase : Phase) :
    (enter entered phase).getLast? = some phase := by
  simp only [enter]
  split
  · assumption
  · simp

/-- The phases that a connection has entered, by the places of its start and its driver. -/
def due (c : Connection S) : List Phase :=
  match c.starter with
  | .waiting | .dispatching | .releasing _ | .closing _ | .panicked => [.created]
  | .signalling _ | .returning _ | .over (some _) => [.created, .closed]
  | .spawning => [.created, .active]
  | .over none =>
    if c.driver.stage ≤ 2 then [.created, .active]
    else if c.driver.stage ≤ 8 then [.created, .active, .draining]
    else [.created, .active, .draining, .closed]

theorem DriverStep.due (st : DriverStep c c') (ho : Orderly c)
    (hl : some c.phase = c.due.getLast?) : c'.due = enter c.due c'.phase := by
  have hs : c.starter = .over none := ho.started (by cases st <;> simp [*, Driver.stage])
  cases st with
  | giveUp h hn => rw [(ho.of_launching h).2.2] at hn; cases hn
  | _ => simp_all [Connection.due, enter, Driver.stage, cancelOutput]

theorem StarterStep.due (st : StarterStep c c')
    (hl : some c.phase = c.due.getLast?) : c'.due = enter c.due c'.phase := by
  cases st with
  | _ => simp_all [Connection.due, enter, Driver.stage, dropLoopEnds]

theorem Run.phases_eq (run : Run M h c) : phases h c = c.due := by
  induction run with
  | create => rfl
  | change _ _ ih => exact ih
  | @move h c c' run m hm ih =>
    have hl : some c.phase = c.due.getLast? := by rw [← ih]; exact (getLast?_enter _ _).symm
    have st := step_of_perform hm
    rw [phases_snoc, ih]
    symm
    cases hk : m.conducts with
    | false =>
      have k := st.kept hk
      rw [k.phase, enter, if_pos hl.symm, due, due, k.starter, k.driver]
    | true =>
      cases st with
      | driver st => exact st.due run.orderly hl
      | starter st => exact st.due hl
      | closer => rw [enter, if_pos hl.symm]; rfl
      | start hs | accept hs | refuse hs | panic hs =>
        simp only [due, hs] at hl
        simp [due, enter, hs, dropLoopEnds, dropApplicationEnds, Option.some.inj hl]
      | _ => cases hk

/-! ## Counts -/

namespace Event

/-- Whether a move is a start that gets past the check. -/
def starts (e : Event S) : Bool :=
  match e.move with
  | .start => true
  | _ => false

/-- Whether a move fires the closed signal. -/
def fires (e : Event S) : Bool :=
  match e.move, e.before.starter, e.before.closer with
  | .fireClosed, _, _ => true
  | .task _ .starter, .signalling _, _ => true
  | .task _ .closer, _, .armed => true
  | _, _, _ => false

/-- Whether a move fires the closed signal from outside. -/
def outside (e : Event S) : Bool :=
  match e.move with
  | .fireClosed => true
  | _ => false

/-- Whether a move disposes of the socket. -/
def disposes (e : Event S) : Bool :=
  match e.move, e.before.starter, e.before.driver with
  | .task _ .starter, .releasing _, _ => e.before.socketHeld
  | .task _ .driver, _, .disposing => true
  | _, _, _ => false

/-- Whether a move shuts the socket down. -/
def shutsDown (e : Event S) : Bool :=
  match e.move, e.before.sender with
  | .shutdown, _ | .task _ .sender, .shuttingDown _ => !e.before.aborted && e.before.socketHeld
  | _, _ => false

end Event

/-- What the history of a connection counts, by the places of its start, its driver and the task of
the closed signal. -/
structure Booked (h : List (Event S)) (c : Connection S) : Prop where
  starts : h.countP Event.starts = if c.starter = .waiting then 0 else 1
  firings : h.countP Event.fires = h.countP Event.outside +
    (if 4 ≤ c.starter.refusal then 1 else 0) + if c.closer = .done then 1 else 0
  disposals : h.countP Event.disposes =
    (if 2 ≤ c.starter.refusal then 1 else 0) + if 4 ≤ c.driver.stage then 1 else 0
  held : c.starter.refusal = 1 → c.socketHeld = true
  released : 2 ≤ c.starter.refusal → c.socketHeld = false

/-- Moves that do not conduct the connection count for nothing, but for a firing from outside. -/
theorem Booked.kept (hb : Booked h c) (st : Step c m c') (hm : m.conducts = false) :
    Booked (h ++ [⟨c, m⟩]) c' := by
  obtain ⟨hs, hd, hc, -, hh⟩ := st.kept hm
  obtain ⟨b₁, b₂, b₃, b₄, b₅⟩ := hb
  have hn : Event.starts ⟨c, m⟩ = false ∧ Event.fires ⟨c, m⟩ = Event.outside ⟨c, m⟩ ∧
      Event.disposes ⟨c, m⟩ = false := by
    cases st <;> first | exact ⟨rfl, rfl, rfl⟩ | cases hm
  constructor
  · rw [List.countP_append, List.countP_singleton, hn.1, hs, b₁]; rfl
  · rw [List.countP_append, List.countP_append, List.countP_singleton, List.countP_singleton,
      hn.2.1, hs, hc, b₂]
    omega
  · rw [List.countP_append, List.countP_singleton, hn.2.2, hs, hd, b₃]; rfl
  · rw [hs, hh]; exact b₄
  · rw [hs, hh]; exact b₅

theorem Booked.driver (hb : Booked h c) (ho : Orderly c) {pool : BufferPool}
    (st : DriverStep c c') : Booked (h ++ [⟨c, .task pool .driver⟩]) c' := by
  obtain ⟨b₁, b₂, b₃, b₄, b₅⟩ := hb
  have hs : c.starter = .over none := ho.started (by cases st <;> simp [*, Driver.stage])
  cases st with
  | giveUp h hn => rw [(ho.of_launching h).2.2] at hn; cases hn
  | announce h =>
    have hc : c.closer = .unborn := ho.closer.mpr (by rw [h]; decide)
    constructor <;> simp_all [Event.starts, Event.fires, Event.outside, Event.disposes,
      Starter.refusal, Driver.stage]
  | _ =>
    constructor <;> simp_all [Event.starts, Event.fires, Event.outside, Event.disposes,
      Starter.refusal, Driver.stage, cancelOutput]

theorem Booked.starter (hb : Booked h c) (ho : Orderly c) {pool : BufferPool}
    (st : StarterStep c c') : Booked (h ++ [⟨c, .task pool .starter⟩]) c' := by
  obtain ⟨b₁, b₂, b₃, b₄, b₅⟩ := hb
  obtain ⟨hd, -, -, hc⟩ := ho.unborn (by cases st <;> simp [*])
  cases st with
  | _ =>
    constructor <;> simp_all [Event.starts, Event.fires, Event.outside, Event.disposes,
      Starter.refusal, Driver.stage, dropLoopEnds]

theorem Run.booked (run : Run M h c) : Booked h c := by
  induction run with
  | create => exact ⟨rfl, rfl, rfl, nofun, nofun⟩
  | change _ _ ih => exact ⟨ih.1, ih.2, ih.3, ih.4, ih.5⟩
  | @move h c c' run m hm ih =>
    have ho := run.orderly
    have st := step_of_perform hm
    cases hk : m.conducts with
    | false => exact ih.kept st hk
    | true =>
      cases st with
      | driver st => exact ih.driver ho st
      | starter st => exact ih.starter ho st
      | closer hc =>
        obtain ⟨b₁, b₂, b₃, b₄, b₅⟩ := ih
        constructor <;> simp_all [Event.starts, Event.fires, Event.outside, Event.disposes]
      | start hs | accept hs | refuse hs | panic hs =>
        obtain ⟨b₁, b₂, b₃, b₄, b₅⟩ := ih
        have hd := (ho.unborn (by simp [hs])).1
        have hh := ho.held (by rw [hs]; rfl) (by omega)
        constructor <;> simp_all [Event.starts, Event.fires, Event.outside, Event.disposes,
          Starter.refusal, dropLoopEnds, dropApplicationEnds]
      | _ => cases hk

/-! ## Ends of the pipes -/

/-- The ends of the loops are completed where the loops and the start are over. -/
structure Hung (c : Connection S) : Prop where
  receiver : c.receiver = .finished → c.inbound.writerCompleted = true
  driver : 7 ≤ c.driver.stage → c.outbound.readerCompleted = true
  starter : 5 ≤ c.starter.refusal →
    c.inbound.writerCompleted = true ∧ c.outbound.readerCompleted = true

/-- Whoever arrives at such a place completes the end. -/
theorem Step.completes (st : Step c m c') (ho : Orderly c) :
    (c'.receiver = .finished → c.receiver = .finished ∨ c'.inbound.writerCompleted = true) ∧
      (7 ≤ c'.driver.stage → 7 ≤ c.driver.stage ∨ c'.outbound.readerCompleted = true) ∧
      (5 ≤ c'.starter.refusal → 5 ≤ c.starter.refusal ∨
        c'.inbound.writerCompleted = true ∧ c'.outbound.readerCompleted = true) := by
  have hw (p : Pipe) (error) : (p.completeWriter error).writerCompleted = true := by
    rw [← Bool.or_true p.writerCompleted]
    exact (Pipe.completed_perform (.writer (.complete error)) p).2
  have hr (p : Pipe) (error) : (p.completeReader error).readerCompleted = true := by
    rw [← Bool.or_true p.readerCompleted]
    exact (Pipe.completed_perform (.reader (.complete error)) p).1
  cases st with
  | receiver st =>
    cases st with
    | complete => exact ⟨fun _ => .inr (hw _ _), .inl, .inl⟩
    | flushed h => exact ⟨by dsimp only; split <;> nofun, .inl, .inl⟩
    | _ => exact ⟨nofun, .inl, .inl⟩
  | sender st => obtain ⟨_, _, _, _, _, rfl, -⟩ := st.frame; exact ⟨.inl, .inl, .inl⟩
  | driver st =>
    cases st with
    | launch => exact ⟨nofun, by simp [Driver.stage], .inl⟩
    | giveUp h hn => rw [(ho.of_launching h).2.2] at hn; cases hn
    | complete => exact ⟨.inl, fun _ => .inr (hr _ _), .inl⟩
    | _ => exact ⟨.inl, by simp [Driver.stage, *], .inl⟩
  | starter st =>
    cases st with
    | finish => exact ⟨.inl, .inl, fun _ => .inr ⟨hw _ _, hr _ _⟩⟩
    | spawn => exact ⟨.inl, by simp [Driver.stage], by simp [Starter.refusal]⟩
    | _ => exact ⟨.inl, .inl, by simp [Starter.refusal]⟩
  | start | accept | refuse | panic => exact ⟨.inl, .inl, by simp [Starter.refusal]⟩
  | shutdown => obtain ⟨_, _, e, -⟩ := c.shutdown_frame; rw [e]; exact ⟨.inl, .inl, .inl⟩
  | _ => exact ⟨.inl, .inl, .inl⟩

theorem Run.hung (run : Run M h c) : Hung c := by
  induction run with
  | create =>
    exact ⟨nofun, fun h => absurd h (Nat.not_succ_le_zero 6),
      fun h => absurd h (Nat.not_succ_le_zero 4)⟩
  | change _ _ ih => exact ⟨ih.1, ih.2, ih.3⟩
  | @move h c c' run m hm ih =>
    have st := step_of_perform hm
    have hi : c.inbound.writerCompleted = true → c'.inbound.writerCompleted = true := by
      rw [st.inbound]; exact (Pipe.run_trace _ _).writerCompleted_mono
    have ho : c.outbound.readerCompleted = true → c'.outbound.readerCompleted = true := by
      rw [st.outbound]; exact (Pipe.run_trace _ _).readerCompleted_mono
    obtain ⟨hr, hd, hs⟩ := st.completes run.orderly
    constructor
    · intro e
      rcases hr e with e | e
      · exact hi (ih.receiver e)
      · exact e
    · intro e
      rcases hd e with e | e
      · exact ho (ih.driver e)
      · exact e
    · intro e
      rcases hs e with e | e
      · exact (ih.starter e).imp hi ho
      · exact e

/-! ## What a socket counts -/

theorem shutdown_counted (c : Connection S.counted) :
    c.shutdown.socket.shutdowns =
        c.socket.shutdowns + (if (!c.aborted && c.socketHeld) = true then 1 else 0) ∧
      c.shutdown.socket.disposals = c.socket.disposals := by
  cases ha : c.aborted <;> cases hh : c.socketHeld <;>
    simp [Connection.shutdown, Socket.counted, ha, hh]

theorem Step.counted {c c' : Connection S.counted} (st : Step c m c') :
    c'.socket.shutdowns =
        c.socket.shutdowns + (if Event.shutsDown ⟨c, m⟩ = true then 1 else 0) ∧
      c'.socket.disposals =
        c.socket.disposals + (if Event.disposes ⟨c, m⟩ = true then 1 else 0) := by
  cases st with
  | shutdown => exact c.shutdown_counted
  | receiver st =>
    cases st with
    | wait h hp | fail h hp | finish h hp | fill h hp =>
      obtain rfl : _ = _ := congrArg Prod.snd hp
      exact ⟨rfl, rfl⟩
    | _ => exact ⟨rfl, rfl⟩
  | sender st =>
    cases st with
    | wait h hp | fail h hp | sent h hp =>
      obtain rfl : _ = _ := congrArg Prod.snd hp
      simp only [Event.shutsDown, h]
      exact ⟨rfl, rfl⟩
    | shutdown h => simp only [Event.shutsDown, h]; exact c.shutdown_counted
    | _ => simp only [Event.shutsDown, *]; exact ⟨rfl, rfl⟩
  | driver st => cases st <;> simp only [Event.disposes, *] <;> exact ⟨rfl, rfl⟩
  | starter st =>
    cases st with
    | release h =>
      cases hh : c.socketHeld <;> simp [Event.disposes, Event.shutsDown, Socket.counted, h, hh]
    | _ => simp only [Event.disposes, *]; exact ⟨rfl, rfl⟩
  | _ => exact ⟨rfl, rfl⟩

/-- The moves that shut the socket down and dispose of it are the calls that the socket sees. -/
theorem Run.counted {h : List (Event S.counted)} {c : Connection S.counted}
    (run : Run M.counted h c) :
    c.socket.shutdowns = h.countP Event.shutsDown ∧
      c.socket.disposals = h.countP Event.disposes := by
  induction run with
  | create _ _ _ _ _ _ _ hs => exact ⟨hs.2.1, hs.2.2⟩
  | change _ hs ih => exact ⟨hs.2.1.trans ih.1, hs.2.2.trans ih.2⟩
  | @move h c c' run m hm ih =>
    obtain ⟨hs, hd⟩ := (step_of_perform hm).counted
    rw [List.countP_append, List.countP_append, List.countP_singleton, List.countP_singleton, hs,
      hd, ih.1, ih.2]
    exact ⟨rfl, rfl⟩

/-! ## The life of a connection -/

/-- Only a refusal leads to the places of a refused start. -/
theorem Run.refused (run : Run M h c) (hr : 1 ≤ c.starter.refusal) :
    ∃ e ∈ h, ∃ reason, e.move = .refuse reason := by
  induction run with
  | create => exact absurd hr (Nat.not_succ_le_zero 0)
  | change _ _ ih => exact ih hr
  | @move h c c' run m hm ih =>
    have key : 1 ≤ c.starter.refusal ∨ ∃ reason, m = .refuse reason := by
      cases step_of_perform hm with
      | receiver st => obtain ⟨_, _, _, rfl, -⟩ := st.frame; exact .inl hr
      | sender st => obtain ⟨_, _, _, _, _, rfl, -⟩ := st.frame; exact .inl hr
      | driver st => cases st <;> exact .inl hr
      | starter st =>
        cases st with
        | spawn => exact absurd hr (Nat.not_succ_le_zero 0)
        | _ => exact .inl (by simp [*, Starter.refusal])
      | start | accept | panic => exact absurd hr (Nat.not_succ_le_zero 0)
      | refuse => exact .inr ⟨_, rfl⟩
      | shutdown => obtain ⟨_, _, e, -⟩ := c.shutdown_frame; rw [e] at hr; exact .inl hr
      | _ => exact .inl hr
    rcases key with hr | ⟨reason, rfl⟩
    · obtain ⟨e, he, hm⟩ := ih hr
      exact ⟨e, List.mem_append_left _ he, hm⟩
    · exact ⟨_, List.mem_append_right _ (List.mem_singleton_self _), reason, rfl⟩

theorem Step.stage_le (st : Step c m c') (ho : Orderly c) (hl : some c.phase = c.due.getLast?) :
    c.phase.stage ≤ c'.phase.stage := by
  have hc (p : Phase) : p.stage ≤ Phase.closed.stage := by cases p <;> decide
  cases hk : m.conducts with
  | false => exact Nat.le_of_eq (by rw [(st.kept hk).phase])
  | true =>
    cases st with
    | driver st =>
      cases st with
      | drain hd =>
        have hs : c.starter = .over none := ho.started (by rw [hd]; decide)
        have hp : c.phase = .active := by simpa [due, hs, hd, Driver.stage] using hl
        rw [hp]; exact Nat.le_succ 1
      | close => exact hc _
      | _ => exact Nat.le_refl _
    | starter st =>
      cases st with
      | close => exact hc _
      | _ => exact Nat.le_refl _
    | accept hs =>
      have hp : c.phase = .created := by simpa [due, hs] using hl
      rw [hp]; exact Nat.le_succ 0
    | closer | start | refuse | panic => exact Nat.le_refl _
    | _ => cases hk

theorem Run.last_due (run : Run M h c) : some c.phase = c.due.getLast? := by
  rw [← run.phases_eq]
  exact (getLast?_enter _ _).symm

/-- The phase never goes back. -/
theorem Run.stage_mono (run : Run M h c) : ∀ e ∈ h, e.before.phase.stage ≤ c.phase.stage := by
  induction run with
  | create => intro e he; cases he
  | change _ _ ih => exact ih
  | @move h c c' run m hm ih =>
    have hl := (step_of_perform hm).stage_le run.orderly run.last_due
    intro e he
    rcases List.mem_append.mp he with he | he
    · exact Nat.le_trans (ih e he) hl
    · rw [List.mem_singleton.mp he]; exact hl

theorem Step.closed_eq (st : Step c m c') : c'.closed = (c.closed || Event.fires ⟨c, m⟩) := by
  cases st with
  | receiver st => obtain ⟨_, _, _, rfl, -⟩ := st.frame; exact (Bool.or_false _).symm
  | sender st => obtain ⟨_, _, _, _, _, rfl, -⟩ := st.frame; exact (Bool.or_false _).symm
  | driver st => cases st <;> exact (Bool.or_false _).symm
  | starter st => cases st <;> simp [Event.fires, dropLoopEnds, *]
  | closer hc => simp [Event.fires, hc]
  | shutdown => obtain ⟨_, _, e, -⟩ := c.shutdown_frame; rw [e]; exact (Bool.or_false _).symm
  | fireClosed => exact (Bool.or_true _).symm
  | _ => exact (Bool.or_false _).symm

/-- The closed signal has fired if someone fired it. -/
theorem Run.closed_eq (run : Run M h c) : c.closed = h.any Event.fires := by
  induction run with
  | create => rfl
  | change _ _ ih => exact ih
  | move _ m hm ih => rw [(step_of_perform hm).closed_eq, ih]; simp

/-- What holds of a connection that has announced its end, over a socket that counts. -/
structure Gone (c : Connection S.counted) : Prop where
  phase : c.phase = .closed
  released : c.socketHeld = false
  /-- The socket was disposed of once. -/
  disposed : c.socket.disposals = 1
  inbound : c.inbound.writerCompleted = true
  outbound : c.outbound.readerCompleted = true
  empty : c.outbound.buffered = 0 ∧ c.outbound.regions = []

/-- What holds of a connection in every state of every run, over a socket that counts. -/
structure Lived (h : List (Event S.counted)) (c : Connection S.counted) : Prop where
  phases : phases h c <+: [.created, .active, .draining, .closed] ∨
    (∃ e ∈ h, ∃ reason, e.move = .refuse reason) ∧ phases h c <+: [.created, .closed]
  forward : ∀ e ∈ h, e.before.phase.stage ≤ c.phase.stage
  starts : h.countP Event.starts ≤ 1
  first : h.countP Event.starts = 0 → c.beginStart = .ok { c with starter := .dispatching }
  again : h.countP Event.starts = 1 → c.beginStart = .error .alreadyStarted
  firings : (∀ e ∈ h, e.outside = false) → h.countP Event.fires ≤ 1
  gone : (∀ e ∈ h, e.outside = false) → c.closed = true → (∃ refusal, c.starter = .over refusal) →
    Gone c

theorem due_cases (c : Connection S) :
    c.due <+: [.created, .active, .draining, .closed] ∨
      1 ≤ c.starter.refusal ∧ c.due <+: [.created, .closed] := by
  match hs : c.starter with
  | .waiting | .dispatching | .spawning | .releasing _ | .closing _ | .panicked =>
    left; simp only [due, hs]; exact ⟨_, rfl⟩
  | .signalling _ | .returning _ | .over (some _) =>
    right; simp only [due, hs]; exact ⟨by simp [Starter.refusal], List.prefix_rfl⟩
  | .over none =>
    left
    simp only [due, hs]
    split
    · exact ⟨_, rfl⟩
    · split <;> exact ⟨_, rfl⟩

/-- A connection whose closed signal was fired by itself, and whose start is over, is gone. -/
theorem Run.gone {h : List (Event S.counted)} {c : Connection S.counted}
    (run : Run M.counted h c) (hn : h.countP Event.outside = 0) (hc : c.closed = true)
    {refusal : Option String} (hs : c.starter = .over refusal) : Gone c := by
  have ho := run.orderly
  have hd : c.socket.disposals = h.countP Event.disposes := run.counted.2
  have hf : 0 < h.countP Event.fires := by
    rw [run.closed_eq] at hc
    obtain ⟨e, he, hf⟩ := List.any_eq_true.mp hc
    exact List.countP_pos_iff.mpr ⟨e, he, hf⟩
  obtain ⟨-, b₂, b₃, -, b₅⟩ := run.booked
  have hempty (hr : c.outbound.readerCompleted = true) :
      c.outbound.buffered = 0 ∧ c.outbound.regions = [] := by
    obtain ⟨options, hp⟩ := run.outbound
    have hs := hp.sound (Pipe.sound_create options)
    exact ⟨by rw [hs.buffered, hs.content_of_completed hr]; rfl, hs.drained hr⟩
  cases refusal with
  | none =>
    have hx : c.closer = .done := by
      by_cases hx : c.closer = .done
      · exact hx
      · have hz : ¬ 4 ≤ (Starter.over none).refusal := by decide
        rw [hn, hs, if_neg hx, if_neg hz] at b₂
        omega
    have hk : 9 < c.driver.stage := by
      refine Nat.lt_of_not_le fun hk => ?_
      rw [ho.closer.mpr hk] at hx; cases hx
    have hr := run.hung.driver (by omega)
    exact {
      phase := ho.closing (by omega)
      released := ho.released (by omega)
      disposed := by rw [hd, b₃, hs, if_pos (show 4 ≤ c.driver.stage by omega)]; rfl
      inbound := run.hung.receiver (ho.finished (by omega)).1
      outbound := hr
      empty := hempty hr }
  | some reason =>
    have hu := (ho.unborn (by rw [hs]; simp)).1
    have hl := run.last_due
    have hr : 5 ≤ c.starter.refusal := by rw [hs]; exact Nat.le_refl 5
    obtain ⟨hw, hc⟩ := run.hung.starter hr
    exact {
      phase := by simpa [due, hs] using hl
      released := b₅ (by omega)
      disposed := by
        rw [hd, b₃, if_pos (show 2 ≤ c.starter.refusal by omega),
          if_neg (show ¬ 4 ≤ c.driver.stage by omega)]
      inbound := hw
      outbound := hc
      empty := hempty hc }

/-- **The life of a connection.** Take any run of a connection, over any socket that counts how
often it is disposed of. The connection goes through its phases in order and never back, or is
closed at once when the dispatcher refused it. One start gets past the check, and no other. If
nobody outside fires the closed signal, it is fired once at most; and once it is fired and the start
has returned, the connection is closed, the socket was disposed of once, the connection has let go
of it, and has completed its ends of both pipes, with nothing left in the outbound one. -/
theorem lifecycle {h : List (Event S.counted)} {c : Connection S.counted}
    (run : Run M.counted h c) : Lived h c := by
  have hb := run.booked
  have outside (hn : ∀ e ∈ h, e.outside = false) : h.countP Event.outside = 0 :=
    List.countP_eq_zero.mpr fun e he => by rw [hn e he]; decide
  exact {
    phases := by
      rw [run.phases_eq]
      exact c.due_cases.imp_right fun ⟨hr, hp⟩ => ⟨run.refused hr, hp⟩
    forward := run.stage_mono
    starts := by rw [hb.starts]; split <;> decide
    first := fun hz => by
      rw [hb.starts] at hz
      split at hz
      · rename_i hs; simp only [beginStart, hs]
      · cases hz
    again := fun hz => by
      rw [hb.starts] at hz
      split at hz
      · cases hz
      · rename_i hs; simp only [beginStart]
    firings := fun hn => by
      rw [hb.firings, outside hn]
      by_cases hd : c.closer = .done
      · -- Where a driver has come to its end, nothing was refused.
        have hs : c.starter = .over none := run.orderly.started (by
          refine Nat.one_le_iff_ne_zero.mpr fun hk => ?_
          rw [run.orderly.closer.mpr (by omega)] at hd; cases hd)
        rw [hs, if_pos hd]; decide
      · rw [if_neg hd]
        split <;> decide
    gone := fun hn hc ⟨_, hs⟩ => run.gone (outside hn) hc hs }

/-- A start that is not the first answers so, and leaves everything as it is. -/
theorem Session.start_again (s : Session) (hs : s.connection.starter ≠ .waiting)
    (abortInside : Bool) (refusal : Option String) :
    s.start abortInside refusal = (.notStarted .alreadyStarted, s) := by
  have hb : s.connection.beginStart = .error .alreadyStarted := by simp only [beginStart]
  simp only [Session.start, hb]

/-! ## Two lives -/

/-- The peer has nothing to say: the receive loop ends, and then everything else. -/
def lived : List Move :=
  launched (steps 4 .receiver ++ steps 3 .driver ++ steps 2 .sender ++ steps 5 .driver
    ++ steps 1 .closer)

/-- The dispatcher aborts the connection and refuses it. -/
def turnedAway : List Move := [.start, .shutdown, .cancelOutput, .refuse "no"] ++ steps 4 .starter

/-- A connection whose peer has nothing to say. -/
def mute : Connection Socket.scripted.counted :=
  create Socket.scripted.counted .empty (.ofPort 4433) (.ofPort 50000) 0 2048 {}
    { state := { incoming := [.finish] } }

/-- The same connection after moves. -/
def muteAfter (moves : List Move) : Connection Socket.scripted.counted :=
  (mute.performAll moves).getD mute

theorem run_mute (moves : List Move) (hm : mute.performAll moves = some (muteAfter moves)) :
    Run Socket.Medium.scripted.counted (mute.trace moves) (muteAfter moves) := by
  have hc : Run Socket.Medium.scripted.counted [] mute :=
    .create _ _ _ _ _ _ _ ⟨⟨rfl, rfl⟩, rfl, rfl⟩
  exact hc.moves hm

theorem both_lives_end : Gone (muteAfter lived) ∧ Gone (muteAfter turnedAway) :=
  ⟨(lifecycle (run_mute lived rfl)).gone (by decide) rfl ⟨none, rfl⟩,
    (lifecycle (run_mute turnedAway rfl)).gone (by decide) rfl ⟨some "no", rfl⟩⟩

end Connection

end Duplex
