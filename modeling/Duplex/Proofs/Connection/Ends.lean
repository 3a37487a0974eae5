import Duplex.Proofs.Connection.Run

/-!
# The pipes of a connection

Every move of a connection makes at most two accesses to each of its pipes (`Event.onInbound`,
`Event.onOutbound`), so that a run of the connection is a run of either pipe (`Run.inbound`,
`Run.outbound`), and whatever holds of the runs of a pipe holds of both.
-/

namespace Duplex.Connection

variable {S : Socket} {M : Socket.Medium S}

namespace Event

/-- The bytes of the receive that a move ends. -/
def received (e : Event S) : Bytes :=
  match e.move, e.before.receiver with
  | .task _ .receiver, .receiving call =>
    match (S.pollReceive call e.before.socket).1 with
    | .done (.ok received) => received
    | _ => []
  | _, _ => []

/-- The accesses of a move to the inbound pipe. -/
def onInbound (e : Event S) : List Pipe.Access :=
  match e.move with
  | .task pool .receiver =>
    match e.before.receiver with
    | .staging => [.writer (.getMemory pool e.before.minimumReceive)]
    | .receiving _ => [.writer (.fill 0 e.received)]
    | .committing count => [.writer (.advance count)]
    | .flushing call => [.writer (.flush call)]
    | .completing error => [.writer (.complete error)]
    | _ => []
  | .task _ .driver =>
    if e.before.driver = .launching ∧ e.before.socketHeld = false then [.writer (.complete none)]
    else []
  | .task _ .starter =>
    match e.before.starter with
    | .returning _ => [.writer (.complete none)]
    | _ => []
  | .panic => [.reader (.complete none), .writer (.complete none)]
  | .input access => [.reader access]
  | .cancelInput => [.cancel]
  | _ => []

/-- The accesses of a move to the outbound pipe. -/
def onOutbound (e : Event S) : List Pipe.Access :=
  match e.move with
  | .task _ .sender =>
    match e.before.sender with
    | .reading call => [.reader (.read call)]
    | .consuming length _ => [.reader (.consume length)]
    | _ => []
  | .task _ .driver =>
    match e.before.driver with
    | .launching => if e.before.socketHeld then [] else [.reader (.complete none)]
    | .canceling => [.cancel]
    | .completing error => [.reader (.complete error)]
    | _ => []
  | .task _ .starter =>
    match e.before.starter with
    | .returning _ => [.reader (.complete none)]
    | _ => []
  | .panic => [.writer (.complete none), .reader (.complete none)]
  | .output access => [.writer access]
  | .cancelOutput => [.cancel]
  | _ => []

end Event

/-- What the moves of a history did to the inbound pipe. -/
def onInbound (h : List (Event S)) : List Pipe.Event :=
  h.flatMap fun e => Pipe.trace e.before.inbound e.onInbound

/-- What the moves of a history did to the outbound pipe. -/
def onOutbound (h : List (Event S)) : List Pipe.Event :=
  h.flatMap fun e => Pipe.trace e.before.outbound e.onOutbound

@[simp] theorem onInbound_snoc (h : List (Event S)) (e : Event S) :
    onInbound (h ++ [e]) = onInbound h ++ Pipe.trace e.before.inbound e.onInbound := by
  simp [onInbound]

@[simp] theorem onOutbound_snoc (h : List (Event S)) (e : Event S) :
    onOutbound (h ++ [e]) = onOutbound h ++ Pipe.trace e.before.outbound e.onOutbound := by
  simp [onOutbound]

theorem shutdown_frame (c : Connection S) :
    ∃ aborted socket, c.shutdown = { c with aborted, socket } ∧
      (socket = c.socket ∨ socket = (S.shutdown c.socket).2) := by
  simp only [shutdown]
  split
  · exact ⟨_, _, rfl, .inl rfl⟩
  · refine ⟨_, _, rfl, ?_⟩
    split
    · exact .inr rfl
    · exact .inl rfl

theorem fill_nil (p : Pipe) (offset : Nat) : p.fill offset [] = p := by
  simp [Pipe.fill, Pipe.Region.fill]

theorem Step.inbound {c c' : Connection S} {m : Move} (st : Step c m c') :
    c'.inbound = c.inbound.performAll (Event.onInbound ⟨c, m⟩) := by
  cases st with
  | receiver st =>
    cases st with
    | stage h | commit h | complete h => simp only [Event.onInbound, h]; rfl
    | wait h hp | fail h hp | finish h hp =>
      simp only [Event.onInbound, Event.received, h, hp]
      exact (fill_nil c.inbound 0).symm
    | fill h hp hn => simp only [Event.onInbound, Event.received, h, hp]; rfl
    | flush h hf | flushFail h hf | flushed h hf =>
      simp only [Event.onInbound, h]
      exact (congrArg Prod.snd hf).symm
    | classify h | confirm h => simp only [Event.onInbound, h]; rfl
  | sender st =>
    cases st with
    | shutdown h => obtain ⟨_, _, e, -⟩ := c.shutdown_frame; simp only [e]; rfl
    | _ => rfl
  | driver st =>
    cases st with
    | giveUp h hs => simp only [Event.onInbound, h, hs, and_self, if_true]; rfl
    | launch h hs =>
      simp only [Event.onInbound, hs, Bool.true_eq_false, and_false, if_false]; rfl
    | _ => simp only [Event.onInbound, *, reduceCtorEq, false_and, if_false]; rfl
  | starter st => cases st <;> simp only [Event.onInbound, *] <;> rfl
  | shutdown => obtain ⟨_, _, e, -⟩ := c.shutdown_frame; simp only [e]; rfl
  | _ => rfl

theorem Step.outbound {c c' : Connection S} {m : Move} (st : Step c m c') :
    c'.outbound = c.outbound.performAll (Event.onOutbound ⟨c, m⟩) := by
  cases st with
  | receiver st => cases st <;> rfl
  | sender st =>
    cases st with
    | read h hr | readFail h hr | canceled h hr | empty h hr | found h hr =>
      simp only [Event.onOutbound, h]
      exact (congrArg Prod.snd hr).symm
    | shutdown h =>
      obtain ⟨_, _, e, -⟩ := c.shutdown_frame
      simp only [e, Event.onOutbound, h]; rfl
    | _ => simp only [Event.onOutbound, *]; rfl
  | driver st =>
    cases st with
    | giveUp h hs => simp only [Event.onOutbound, h, hs]; rfl
    | launch h hs => simp only [Event.onOutbound, h, hs]; rfl
    | _ => simp only [Event.onOutbound, *]; rfl
  | starter st => cases st <;> simp only [Event.onOutbound, *] <;> rfl
  | shutdown => obtain ⟨_, _, e, -⟩ := c.shutdown_frame; simp only [e]; rfl
  | _ => rfl

theorem Run.inbound {h : List (Event S)} {c : Connection S} (run : Run M h c) :
    ∃ options, Pipe.Run (.create options) (onInbound h) c.inbound := by
  induction run with
  | create _ _ _ _ _ options => exact ⟨options, .nil⟩
  | @move h c c' run m hm ih =>
    obtain ⟨options, hr⟩ := ih
    refine ⟨options, ?_⟩
    rw [onInbound_snoc, (step_of_perform hm).inbound]
    exact hr.append (Pipe.run_trace _ _)
  | change _ _ ih => exact ih

theorem Run.outbound {h : List (Event S)} {c : Connection S} (run : Run M h c) :
    ∃ options, Pipe.Run (.create options) (onOutbound h) c.outbound := by
  induction run with
  | create _ _ _ _ _ options => exact ⟨options, .nil⟩
  | @move h c c' run m hm ih =>
    obtain ⟨options, hr⟩ := ih
    refine ⟨options, ?_⟩
    rw [onOutbound_snoc, (step_of_perform hm).outbound]
    exact hr.append (Pipe.run_trace _ _)
  | change _ _ ih => exact ih

end Duplex.Connection
