import Duplex.Connection.Drive
import Duplex.Proofs.Pipe.Access
import Duplex.Proofs.Socket.Medium

/-!
# Runs of a connection

A connection moves by the steps of its tasks, and whoever else holds it moves it too: the
dispatcher answers, the application works on its ends of the pipes, anyone shuts the connection
down (`Move`). A run (`Run`) makes moves in any order, while the medium changes the socket; its
history keeps the connection as it was before each move. In a run there is memory for every region
that is asked for: what the tasks do together is then part of a run (`Run.settle`).

What a step of a task does is listed once (`ReceiverStep`, `SenderStep`, `DriverStep`,
`StarterStep`), and what a move does from that (`Step`, `step_of_perform`). Proofs about runs are
by cases on these lists.
-/

namespace Duplex.Connection

open scoped Numbers

variable {S : Socket}

/-! ## Moves -/

/-- What moves a connection. An abort is a shutdown and then a cancellation of the output. -/
inductive Move where
  | task (pool : BufferPool) (task : Task)
  | start
  | accept
  | refuse (reason : String)
  | panic
  /-- The application works on its output. -/
  | output (access : Pipe.WriterAccess)
  /-- The application works on its input. -/
  | input (access : Pipe.ReaderAccess)
  | cancelOutput
  | cancelInput
  | shutdown
  | fireClosed

/-- The connection after a move, if it can be made. The application has its ends as soon as a
start has taken them. -/
def Move.perform (m : Move) (c : Connection S) : Option (Connection S) :=
  match m with
  | task pool t => c.step pool t
  | start => c.beginStart.toOption
  | accept => if c.starter = .dispatching then some c.accept else none
  | refuse reason => if c.starter = .dispatching then some (c.refuse reason) else none
  | panic => if c.starter = .dispatching then some c.panicStart else none
  | output access =>
    if c.starter = .waiting then none else some { c with outbound := access.perform c.outbound }
  | input access =>
    if c.starter = .waiting then none else some { c with inbound := access.perform c.inbound }
  | cancelOutput => some c.cancelOutput
  | cancelInput => some { c with inbound := c.inbound.cancelPendingRead }
  | shutdown => some c.shutdown
  | fireClosed => some c.fireClosed.2

/-- A move is a step of a given task, or it is not. -/
theorem Move.by_task (task : Task) (m : Move) :
    (∃ pool, m = .task pool task) ∨ ∀ pool, m ≠ .task pool task := by
  by_cases h : ∃ pool, m = .task pool task
  · exact .inl h
  · exact .inr fun pool e => h ⟨pool, e⟩

/-- A move, and the connection before it. -/
structure Event (S : Socket) where
  before : Connection S
  move : Move

/-- `Run M h c`: in the medium `M`, the moves of the history `h` lead to `c`. -/
inductive Run (M : Socket.Medium S) : List (Event S) → Connection S → Prop
  | create (id : ConnectionId) (localAddress remoteAddress : SocketAddress)
    (queueIndex minimumReceive : Nat) (options : PipeOptions) (socket : S.State)
    (hs : M.Initial socket) :
    Run M [] (create S id localAddress remoteAddress queueIndex minimumReceive options socket)
  | move {h : List (Event S)} {c c' : Connection S} (run : Run M h c) (m : Move)
    (hm : m.perform c = some c') : Run M (h ++ [⟨c, m⟩]) c'
  | change {h : List (Event S)} {c : Connection S} {socket : S.State} (run : Run M h c)
    (hs : M.Change c.socket socket) : Run M h { c with socket }

/-- The connection after moves made one after the other, if all of them can be made. -/
def performAll (c : Connection S) (moves : List Move) : Option (Connection S) :=
  moves.foldlM (fun c m => m.perform c) c

/-- The history of moves made one after the other. -/
def trace (c : Connection S) : List Move → List (Event S)
  | [] => []
  | m :: moves => ⟨c, m⟩ :: ((m.perform c).elim [] (trace · moves))

theorem Run.moves {M : Socket.Medium S} {h : List (Event S)} {c c' : Connection S} (run : Run M h c)
    {moves : List Move} (hm : c.performAll moves = some c') : Run M (h ++ c.trace moves) c' := by
  induction moves generalizing h c with
  | nil =>
    obtain rfl := Option.some_inj.mp hm
    rwa [trace, List.append_nil]
  | cons m moves ih =>
    rw [performAll, List.foldlM_cons] at hm
    obtain ⟨d, hd, hm⟩ := Option.bind_eq_some_iff.mp hm
    have hr := ih (run.move m hd) hm
    rw [List.append_assoc] at hr
    rw [trace, hd]
    exact hr

/-- A run has gone through every connection of its history. -/
theorem Run.before {M : Socket.Medium S} {h : List (Event S)} {c : Connection S} (run : Run M h c)
    {e : Event S} (he : e ∈ h) : ∃ h₁, h₁ <+: h ∧ Run M h₁ e.before := by
  induction run with
  | create => cases he
  | change _ _ ih => exact ih he
  | move run m _ ih =>
    rcases List.mem_append.mp he with he | he
    · obtain ⟨h₁, hp, hr⟩ := ih he
      exact ⟨h₁, hp.trans (List.prefix_append _ _), hr⟩
    · rw [List.mem_singleton.mp he]
      exact ⟨_, List.prefix_append _ _, run⟩

/-- A run in a medium is one in every medium that allows more. -/
theorem Run.widen {M M' : Socket.Medium S} {h : List (Event S)} {c : Connection S} (run : Run M h c)
    (hi : ∀ s, M.Initial s → M'.Initial s) (hc : ∀ s s', M.Change s s' → M'.Change s s') :
    Run M' h c := by
  induction run with
  | create id localAddress remoteAddress queueIndex minimumReceive options socket hs =>
    exact .create _ _ _ _ _ _ _ (hi _ hs)
  | move _ m hm ih => exact ih.move m hm
  | change _ hs ih => exact ih.change (hc _ _ hs)

/-! ## Runs over a scripted socket -/

/-- A connection that receives what a script says. -/
def scripted (options : PipeOptions) (incoming : List Socket.Incoming) :
    Connection Socket.scripted :=
  create Socket.scripted .empty (.ofPort 4433) (.ofPort 50000) 0 2048 options { incoming }

/-- The moves of a connection that is accepted and whose loops are launched, and those after. -/
def launched (moves : List Move) : List Move :=
  [.start, .accept, .task { blockSize := 4096 } .starter, .task { blockSize := 4096 } .driver]
    ++ moves

/-- That many steps of a task. -/
def steps (count : Nat) (task : Task) : List Move :=
  .replicate count (.task { blockSize := 4096 } task)

theorem run_scripted {options : PipeOptions} {incoming : List Socket.Incoming} {moves : List Move}
    {c : Connection Socket.scripted} (hm : (scripted options incoming).performAll moves = some c) :
    Run .scripted ((scripted options incoming).trace moves) c := by
  have hc : Run .scripted [] (scripted options incoming) := .create _ _ _ _ _ _ _ ⟨rfl, rfl⟩
  exact hc.moves hm

/-! ## Steps of the tasks -/

/-- What one step of the receive loop does. -/
inductive ReceiverStep (pool : BufferPool) (c : Connection S) : Connection S → Prop
  | stage (h : c.receiver = .staging) :
    ReceiverStep pool c { c with
      inbound := c.inbound.getMemory pool c.minimumReceive
      socket := (S.receive (c.inbound.getMemory pool c.minimumReceive).region.length c.socket).2
      receiver := .receiving
        (S.receive (c.inbound.getMemory pool c.minimumReceive).region.length c.socket).1 }
  | wait {call call' socket} (h : c.receiver = .receiving call)
    (hp : S.pollReceive call c.socket = (.again call', socket)) :
    ReceiverStep pool c { c with socket, receiver := .receiving call' }
  | fail {call error socket} (h : c.receiver = .receiving call)
    (hp : S.pollReceive call c.socket = (.done (.error error), socket)) :
    ReceiverStep pool c { c with socket, receiver := .classifying error }
  | finish {call socket} (h : c.receiver = .receiving call)
    (hp : S.pollReceive call c.socket = (.done (.ok []), socket)) :
    ReceiverStep pool c { c with socket, receiver := .confirming none }
  | fill {call received socket} (h : c.receiver = .receiving call)
    (hp : S.pollReceive call c.socket = (.done (.ok received), socket)) (hn : received ≠ []) :
    ReceiverStep pool c { c with
      socket, inbound := c.inbound.fill 0 received, receiver := .committing received.length }
  | commit {count} (h : c.receiver = .committing count) :
    ReceiverStep pool c { c with
      inbound := c.inbound.advance count, receiver := .flushing .checking }
  | flush {call call' inbound} (h : c.receiver = .flushing call)
    (hf : c.inbound.flush call = (.again call', inbound)) :
    ReceiverStep pool c { c with inbound, receiver := .flushing call' }
  | flushFail {call inbound} {error : ConnectionError} (h : c.receiver = .flushing call)
    (hf : c.inbound.flush call = (.done (.error error), inbound)) :
    ReceiverStep pool c { c with inbound, receiver := .classifying error.toIoError }
  | flushed {call result inbound} (h : c.receiver = .flushing call)
    (hf : c.inbound.flush call = (.done (.ok result), inbound)) :
    ReceiverStep pool c { c with
      inbound, receiver := if result.completed then .confirming none else .staging }
  | classify {error} (h : c.receiver = .classifying error) :
    ReceiverStep pool c { c with receiver := .confirming (receiveFailure error c.aborted) }
  | confirm {error} (h : c.receiver = .confirming error) (error' : Option ConnectionError) :
    ReceiverStep pool c { c with receiver := .completing error' }
  | complete {error} (h : c.receiver = .completing error) :
    ReceiverStep pool c { c with inbound := c.inbound.completeWriter error, receiver := .finished }

theorem stepReceiver_cases {pool : BufferPool} {c c' : Connection S}
    (h : c.stepReceiver pool = some c') : ReceiverStep pool c c' := by
  simp only [stepReceiver] at h
  split at h
  case h_1 | h_2 => cases h
  case h_3 hr => cases h; exact .stage hr
  case h_4 hr =>
    split at h
    case h_1 => cases h
    case h_2 hp => cases h; exact .wait hr hp
    case h_3 hp => cases h; exact .fail hr hp
    case h_4 received _ hp =>
      cases received with
      | nil => cases h; exact .finish hr hp
      | cons => cases h; exact .fill hr hp (List.cons_ne_nil _ _)
  case h_5 hr => cases h; exact .commit hr
  case h_6 hr =>
    split at h
    case h_1 => cases h
    case h_2 hf => cases h; exact .flush hr hf
    case h_3 hf => cases h; exact .flushFail hr hf
    case h_4 hf => cases h; exact .flushed hr hf
  case h_7 hr => cases h; exact .classify hr
  case h_8 hr => cases h; exact .confirm hr _
  case h_9 hr => cases h; exact .confirm hr _
  case h_10 hr => cases h; exact .complete hr

/-- What one step of the send loop does. -/
inductive SenderStep (c : Connection S) : Connection S → Prop
  | read {call call' outbound} (h : c.sender = .reading call)
    (hr : c.outbound.read call = (.again call', outbound)) :
    SenderStep c { c with outbound, sender := .reading call' }
  | readFail {call outbound} {error : ConnectionError} (h : c.sender = .reading call)
    (hr : c.outbound.read call = (.done (.error error), outbound)) :
    SenderStep c { c with outbound, sender := .classifying error.toIoError }
  | canceled {call result outbound} (h : c.sender = .reading call)
    (hr : c.outbound.read call = (.done (.ok result), outbound)) (hc : result.canceled = true) :
    SenderStep c { c with outbound, sender := .shuttingDown none }
  | empty {call result outbound} (h : c.sender = .reading call)
    (hr : c.outbound.read call = (.done (.ok result), outbound)) (hc : result.canceled = false)
    (he : result.isEmpty = true) :
    SenderStep c { c with outbound, sender := nextRead result.completed }
  | found {call result outbound} (h : c.sender = .reading call)
    (hr : c.outbound.read call = (.done (.ok result), outbound)) (hc : result.canceled = false)
    (he : result.isEmpty = false) :
    SenderStep c { c with outbound, sender := .listing result.completed }
  | send {last region} (h : c.sender = .listing last) (hr : c.outbound.regions = [region]) :
    SenderStep c { c with
      socket := (S.send region c.socket).2
      sender := .sending (S.send region c.socket).1 region.length last }
  | sendVectored {last} (h : c.sender = .listing last) :
    SenderStep c { c with
      socket := (S.sendVectored c.outbound.regions c.socket).2
      sender := .sending (S.sendVectored c.outbound.regions c.socket).1
        (c.outbound.regions.map List.length).sum last }
  | wait {call call' length last socket} (h : c.sender = .sending call length last)
    (hp : S.pollSend call c.socket = (.again call', socket)) :
    SenderStep c { c with socket, sender := .sending call' length last }
  | fail {call length last error socket} (h : c.sender = .sending call length last)
    (hp : S.pollSend call c.socket = (.done (.error error), socket)) :
    SenderStep c { c with socket, sender := .classifying error }
  | sent {call length last sent socket} (h : c.sender = .sending call length last)
    (hp : S.pollSend call c.socket = (.done (.ok sent), socket)) :
    SenderStep c { c with socket, sender := .counting sent length last }
  | count {sent length last} (h : c.sender = .counting sent length last) :
    SenderStep c { c with
      sentCounter := c.sentCounter + UInt64.ofNat sent, sender := .consuming length last }
  | consume {length last} (h : c.sender = .consuming length last) :
    SenderStep c { c with outbound := c.outbound.consume length, sender := nextRead last }
  | classify {error} (h : c.sender = .classifying error) :
    SenderStep c { c with sender := .shuttingDown (sendFailure error c.aborted) }
  | shutdown {error} (h : c.sender = .shuttingDown error) :
    SenderStep c { c.shutdown with sender := .finished error }

theorem stepSender_cases {c c' : Connection S} (h : c.stepSender = some c') : SenderStep c c' := by
  simp only [stepSender] at h
  split at h
  case h_1 | h_2 => cases h
  case h_3 hs =>
    split at h
    case h_1 => cases h
    case h_2 hr => cases h; exact .read hs hr
    case h_3 hr => cases h; exact .readFail hs hr
    case h_4 result _ hr =>
      cases hc : result.canceled with
      | true => rw [hc] at h; cases h; exact .canceled hs hr hc
      | false =>
        cases he : result.isEmpty with
        | true => rw [hc, he] at h; cases h; exact .empty hs hr hc he
        | false => rw [hc, he] at h; cases h; exact .found hs hr hc he
  case h_4 last hs =>
    split at h
    case h_1 region hr =>
      rw [hr] at h; cases h
      exact .send hs hr
    case h_2 => cases h; exact .sendVectored hs
  case h_5 hs =>
    split at h
    case h_1 => cases h
    case h_2 hp => cases h; exact .wait hs hp
    case h_3 hp => cases h; exact .fail hs hp
    case h_4 hp => cases h; exact .sent hs hp
  case h_6 hs => cases h; exact .count hs
  case h_7 hs => cases h; exact .consume hs
  case h_8 hs => cases h; exact .classify hs
  case h_9 hs => cases h; exact .shutdown hs

/-- What one step of the driver does. -/
inductive DriverStep (c : Connection S) : Connection S → Prop
  | launch (h : c.driver = .launching) (hs : c.socketHeld = true) :
    DriverStep c { c with
      receiver := .staging, sender := .reading .checking, driver := .watching }
  | giveUp (h : c.driver = .launching) (hs : c.socketHeld = false) :
    DriverStep c { c.dropLoopEnds with driver := .done }
  | drain (h : c.driver = .watching)
    (hf : c.receiver = .finished ∨ ∃ error, c.sender = .finished error) :
    DriverStep c { c with phase := .draining, driver := .disposing }
  | dispose (h : c.driver = .disposing) :
    DriverStep c { c with socket := S.dispose c.socket, driver := .canceling }
  | cancel (h : c.driver = .canceling) :
    DriverStep c { c.cancelOutput with driver := .joining }
  | join {error} (h : c.driver = .joining) (hr : c.receiver = .finished)
    (hs : c.sender = .finished error) : DriverStep c { c with driver := .completing error }
  | complete {error} (h : c.driver = .completing error) :
    DriverStep c { c with outbound := c.outbound.completeReader error, driver := .releasing }
  | release (h : c.driver = .releasing) :
    DriverStep c { c with socketHeld := false, driver := .closing }
  | close (h : c.driver = .closing) :
    DriverStep c { c with phase := .closed, driver := .announcing }
  | announce (h : c.driver = .announcing) :
    DriverStep c { c with closer := .armed, driver := .done }

theorem stepDriver_cases {c c' : Connection S} (h : c.stepDriver = some c') : DriverStep c c' := by
  simp only [stepDriver] at h
  split at h
  case h_1 | h_2 => cases h
  case h_3 hd =>
    split at h
    case isTrue hs => cases h; exact .launch hd hs
    case isFalse hs => cases h; exact .giveUp hd (Bool.eq_false_iff.mpr hs)
  case h_4 hd =>
    split at h
    case h_1 hr => cases h; exact .drain hd (.inl hr)
    case h_2 hs _ => cases h; exact .drain hd (.inr ⟨_, hs⟩)
    case h_3 => cases h
  case h_5 hd => cases h; exact .dispose hd
  case h_6 hd => cases h; exact .cancel hd
  case h_7 hd =>
    split at h
    case h_1 hr hs => cases h; exact .join hd hr hs
    case h_2 => cases h
  case h_8 hd => cases h; exact .complete hd
  case h_9 hd => cases h; exact .release hd
  case h_10 hd => cases h; exact .close hd
  case h_11 hd => cases h; exact .announce hd

/-- What one step of the start does after the dispatcher has answered. -/
inductive StarterStep (c : Connection S) : Connection S → Prop
  | spawn (h : c.starter = .spawning) :
    StarterStep c { c with driver := .launching, starter := .over none }
  | release {reason} (h : c.starter = .releasing reason) :
    StarterStep c { c with
      socket := if c.socketHeld then S.dispose c.socket else c.socket
      socketHeld := false
      starter := .closing reason }
  | close {reason} (h : c.starter = .closing reason) :
    StarterStep c { c with phase := .closed, starter := .signalling reason }
  | signal {reason} (h : c.starter = .signalling reason) :
    StarterStep c { c with closed := true, starter := .returning reason }
  | finish {reason} (h : c.starter = .returning reason) :
    StarterStep c { c.dropLoopEnds with starter := .over (some reason) }

theorem stepStarter_cases {c c' : Connection S} (h : c.stepStarter = some c') :
    StarterStep c c' := by
  simp only [stepStarter] at h
  split at h
  case h_1 hs => cases h; exact .spawn hs
  case h_2 hs => cases h; exact .release hs
  case h_3 hs => cases h; exact .close hs
  case h_4 hs => cases h; exact .signal hs
  case h_5 hs => cases h; exact .finish hs
  all_goals cases h

/-! ## All moves -/

/-- What a move does. -/
inductive Step (c : Connection S) : Move → Connection S → Prop
  | receiver {pool c'} (h : ReceiverStep pool c c') : Step c (.task pool .receiver) c'
  | sender {pool c'} (h : SenderStep c c') : Step c (.task pool .sender) c'
  | driver {pool c'} (h : DriverStep c c') : Step c (.task pool .driver) c'
  | starter {pool c'} (h : StarterStep c c') : Step c (.task pool .starter) c'
  | closer {pool} (h : c.closer = .armed) :
    Step c (.task pool .closer) { c with closed := true, closer := .done }
  | start (h : c.starter = .waiting) : Step c .start { c with starter := .dispatching }
  | accept (h : c.starter = .dispatching) :
    Step c .accept { c with phase := .active, starter := .spawning }
  | refuse {reason} (h : c.starter = .dispatching) :
    Step c (.refuse reason) { c with starter := .releasing reason }
  | panic (h : c.starter = .dispatching) :
    Step c .panic { c.dropApplicationEnds.dropLoopEnds with starter := .panicked }
  | output {access} (h : c.starter ≠ .waiting) :
    Step c (.output access) { c with outbound := access.perform c.outbound }
  | input {access} (h : c.starter ≠ .waiting) :
    Step c (.input access) { c with inbound := access.perform c.inbound }
  | cancelOutput : Step c .cancelOutput c.cancelOutput
  | cancelInput : Step c .cancelInput { c with inbound := c.inbound.cancelPendingRead }
  | shutdown : Step c .shutdown c.shutdown
  | fireClosed : Step c .fireClosed { c with closed := true }

theorem step_of_perform {m : Move} {c c' : Connection S} (h : m.perform c = some c') :
    Step c m c' := by
  cases m with
  | task pool task =>
    cases task with
    | starter => exact .starter (stepStarter_cases h)
    | receiver => exact .receiver (stepReceiver_cases h)
    | sender => exact .sender (stepSender_cases h)
    | driver => exact .driver (stepDriver_cases h)
    | closer =>
      simp only [Move.perform, step, stepCloser] at h
      split at h
      case h_1 hc => cases h; exact .closer hc
      all_goals cases h
  | start =>
    by_cases hs : c.starter = .waiting
    · simp only [Move.perform, beginStart, hs] at h
      cases h; exact .start hs
    · simp only [Move.perform, beginStart] at h
      cases h
  | accept =>
    by_cases hs : c.starter = .dispatching
    · simp only [Move.perform, accept, hs, if_true] at h
      cases h; exact .accept hs
    · simp only [Move.perform, hs, if_false] at h; cases h
  | refuse reason =>
    by_cases hs : c.starter = .dispatching
    · simp only [Move.perform, refuse, hs, if_true] at h
      cases h; exact .refuse hs
    · simp only [Move.perform, hs, if_false] at h; cases h
  | panic =>
    by_cases hs : c.starter = .dispatching
    · simp only [Move.perform, panicStart, hs, if_true] at h
      cases h; exact .panic hs
    · simp only [Move.perform, hs, if_false] at h; cases h
  | output access =>
    by_cases hs : c.starter = .waiting
    · simp only [Move.perform, hs, if_true] at h; cases h
    · simp only [Move.perform, hs, if_false] at h
      cases h; exact .output hs
  | input access =>
    by_cases hs : c.starter = .waiting
    · simp only [Move.perform, hs, if_true] at h; cases h
    · simp only [Move.perform, hs, if_false] at h
      cases h; exact .input hs
  | cancelOutput => cases h; exact .cancelOutput
  | cancelInput => cases h; exact .cancelInput
  | shutdown => cases h; exact .shutdown
  | fireClosed => cases h; exact .fireClosed

end Duplex.Connection
