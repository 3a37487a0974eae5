import Duplex.Proofs.Connection.Waits

/-!
# How a connection closes

Once a loop has ended, the driver disposes of the socket and cancels the read of the send loop.
That ends every wait of the loops but one: the wait of the receive loop in a flush, which only the
application ends. So a connection with an ended loop in which nothing can move any more is closed,
unless the application keeps its receive loop waiting (`quiet_closed_iff`).
-/

namespace Duplex.Connection

variable {S : Socket} {M : Socket.Medium S}

/-- Neither loop, nor the driver, nor the task that fires the closed signal can move. -/
def Quiet (pool : BufferPool) (c : Connection S) : Prop :=
  ∀ task, task ≠ .starter → c.step pool task = none

/-- One of the loops has ended. -/
def LoopEnded (c : Connection S) : Prop :=
  c.receiver = .finished ∨ ∃ error, c.sender = .finished error

/-- The connection is over, and everyone can know it. -/
structure FullyClosed (c : Connection S) : Prop where
  receiver : c.receiver = .finished
  sender : ∃ error, c.sender = .finished error
  phase : c.phase = .closed
  socket : c.socketHeld = false
  signal : c.closed = true

/-- The receive loop sleeps in a flush until the application reads on, and everything else waits
for the receive loop. -/
structure HeldUp (c : Connection S) : Prop where
  receiver : c.receiver = .flushing .parked
  inbound : c.inbound.WriterBlocked
  sender : ∃ error, c.sender = .finished error
  driver : c.driver = .joining
  phase : c.phase = .draining
  socket : c.socketHeld = true

/-- Loops that have ended stay so. -/
theorem LoopEnded.step {c c' : Connection S} {m : Move} (he : c.LoopEnded) (st : Step c m c')
    (ho : Orderly c) : c'.LoopEnded :=
  he.imp (st.receiver_finished ho) fun ⟨error, hs⟩ => ⟨error, st.sender_finished ho hs⟩

/-- The driver goes on to the end of a connection because a loop has ended. -/
theorem Run.loopEnded {h : List (Event S)} {c : Connection S} (run : Run M h c)
    (hd : 3 ≤ c.driver.stage) : c.LoopEnded := by
  induction run with
  | create => exact absurd hd (Nat.not_succ_le_zero 2)
  | change _ _ ih => exact ih hd
  | @move h c c' run m hm ih =>
    have st := step_of_perform hm
    have ho := run.orderly
    by_cases hc : 3 ≤ c.driver.stage
    · exact (ih hc).step st ho
    · refine LoopEnded.step ?_ st ho
      rcases m.by_task .driver with ⟨pool, rfl⟩ | ht
      · cases stepDriver_cases hm with
        | drain _ he => exact he
        | giveUp h hs => rw [(ho.of_launching h).2.2] at hs; cases hs
        | _ => simp_all [Driver.stage]
      · rcases st.driver_eq ht with e | ⟨-, e⟩
        · rw [e] at hd; exact absurd hd hc
        · rw [e] at hd; exact absurd hd (by decide)

/-! ## Tasks that cannot move -/

theorem stepReceiver_eq_none {pool : BufferPool} {c : Connection S}
    (h : c.stepReceiver pool = none) :
    c.receiver = .unborn ∨ c.receiver = .finished ∨
      (∃ call s, c.receiver = .receiving call ∧ S.pollReceive call c.socket = (.pending, s)) ∨
      ∃ call p, c.receiver = .flushing call ∧ c.inbound.flush call = (.pending, p) := by
  simp only [stepReceiver] at h
  split at h
  case h_1 hr => exact .inl hr
  case h_2 hr => exact .inr (.inl hr)
  case h_4 hr =>
    split at h
    case h_1 hp => exact .inr (.inr (.inl ⟨_, _, hr, hp⟩))
    case h_4 => split at h <;> cases h
    all_goals cases h
  case h_6 hr =>
    split at h
    case h_1 hf => exact .inr (.inr (.inr ⟨_, _, hr, hf⟩))
    all_goals cases h
  all_goals cases h

theorem stepSender_eq_none {c : Connection S} (h : c.stepSender = none) :
    c.sender = .unborn ∨ (∃ error, c.sender = .finished error) ∨
      (∃ call length last s,
        c.sender = .sending call length last ∧ S.pollSend call c.socket = (.pending, s)) ∨
      ∃ call p, c.sender = .reading call ∧ c.outbound.read call = (.pending, p) := by
  simp only [stepSender] at h
  split at h
  case h_1 hs => exact .inl hs
  case h_2 hs => exact .inr (.inl ⟨_, hs⟩)
  case h_3 hs =>
    split at h
    case h_1 hr => exact .inr (.inr (.inr ⟨_, _, hs, hr⟩))
    case h_4 =>
      split at h
      · cases h
      · split at h <;> cases h
    all_goals cases h
  case h_5 hs =>
    split at h
    case h_1 hp => exact .inr (.inr (.inl ⟨_, _, _, _, hs, hp⟩))
    all_goals cases h
  all_goals cases h

theorem stepDriver_eq_none {c : Connection S} (h : c.stepDriver = none) :
    c.driver = .unborn ∨ c.driver = .done ∨ c.driver = .watching ∧ ¬ c.LoopEnded ∨
      c.driver = .joining ∧ ¬ (c.receiver = .finished ∧ ∃ error, c.sender = .finished error) := by
  simp only [stepDriver] at h
  split at h
  case h_1 hd => exact .inl hd
  case h_2 hd => exact .inr (.inl hd)
  case h_3 => split at h <;> cases h
  case h_4 hd =>
    split at h
    case h_3 hr hs =>
      refine .inr (.inr (.inl ⟨hd, ?_⟩))
      rintro (he | ⟨error, he⟩)
      · exact hr he
      · exact hs error he
    all_goals cases h
  case h_7 hd =>
    split at h
    case h_1 => cases h
    case h_2 hn =>
      refine .inr (.inr (.inr ⟨hd, ?_⟩))
      rintro ⟨hr, error, hs⟩
      exact hn error hr hs
  all_goals cases h

/-! ## The loops of a connection whose driver waits for them -/

/-- After the disposal the receive loop has ended or sleeps in a flush. -/
theorem Run.receiver_of_joining (hM : M.EndsOnDispose) {h : List (Event S)} {c : Connection S}
    (run : Run M h c) {pool : BufferPool} (hq : c.Quiet pool) (hd : c.driver = .joining) :
    c.receiver = .finished ∨ c.receiver = .flushing .parked ∧ c.inbound.WriterBlocked := by
  obtain ⟨disposed, u, hdis⟩ := run.used
  rcases stepReceiver_eq_none (hq .receiver (by decide)) with hr | hr | ⟨call, s, hr, hp⟩ |
    ⟨call, p, hr, hf⟩
  · have := run.orderly.receiver.mp hr
    rw [hd] at this; exact absurd this (by decide)
  · exact .inl hr
  · rw [hdis (by rw [hd]; decide), show c.receiving? = some (call, _) by
      simp only [receiving?, hr]; rfl] at u
    exact absurd hp (hM.receive u)
  · have hw := run.writable
    rw [hr] at hw
    have hb := Pipe.Guards.flush hw
    rw [hf] at hb
    obtain ⟨hb, rfl⟩ := hb
    exact .inr ⟨hr, hb⟩

/-- Nobody waits in a read that was cut short. -/
theorem Run.awake {h : List (Event S)} {c : Connection S} (run : Run M h c) {call : Pipe.Await}
    (hs : c.sender = .reading call) (hc : c.outbound.readCanceled = true) :
    c.stepSender ≠ none := by
  intro hn
  have hw := run.readable
  rcases stepSender_eq_none hn with e | ⟨_, e⟩ | ⟨_, _, _, _, e, -⟩ | ⟨call', p, e, hr⟩
  · rw [hs] at e; cases e
  · rw [hs] at e; cases e
  · rw [hs] at e; cases e
  · rw [e] at hw
    have hb := Pipe.Guards.read hw
    rw [hr] at hb
    rw [hb.1.canceled] at hc
    cases hc

/-- After the disposal and the cancellation the send loop has ended. -/
theorem Run.sender_of_joining (hM : M.EndsOnDispose) {h : List (Event S)} {c : Connection S}
    (run : Run M h c) {pool : BufferPool} (hq : c.Quiet pool) (hd : c.driver = .joining) :
    ∃ error, c.sender = .finished error := by
  obtain ⟨disposed, u, hdis⟩ := run.used
  rcases stepSender_eq_none (hq .sender (by decide)) with hs | hs | ⟨call, _, _, s, hs, hp⟩ |
    ⟨call, p, hs, -⟩
  · have := run.orderly.sender.mp hs
    rw [hd] at this; exact absurd this (by decide)
  · exact hs
  · rw [hdis (by rw [hd]; decide), show c.sending? (latest h) = some (call, _) by
      simp only [sending?, hs]; rfl] at u
    exact absurd hp (hM.send u)
  · have hc := run.cutShort (by rw [hd]; decide) (by rw [hs]; rfl)
    exact absurd (hq .sender (by decide)) (run.awake hs hc)

/-- A quiet connection with an ended loop is closed, or held up. -/
theorem Run.closed_or_heldUp (hM : M.EndsOnDispose) {h : List (Event S)} {c : Connection S}
    (run : Run M h c) {pool : BufferPool} (hq : c.Quiet pool) (he : c.LoopEnded) :
    c.FullyClosed ∨ c.HeldUp := by
  have ho := run.orderly
  rcases stepDriver_eq_none (hq .driver (by decide)) with hd | hd | ⟨hd, hn⟩ | ⟨hd, hn⟩
  · have hr : c.receiver = .unborn := ho.receiver.mpr (by rw [hd]; decide)
    have hs : c.sender = .unborn := ho.sender.mpr (by rw [hd]; decide)
    rcases he with e | ⟨error, e⟩
    · rw [hr] at e; cases e
    · rw [hs] at e; cases e
  · obtain ⟨hr, hs⟩ := ho.finished (by rw [hd]; decide)
    have hc : c.closer = .done := by
      have hk := hq .closer (by decide)
      cases hx : c.closer with
      | unborn =>
        have := ho.closer.mp hx
        rw [hd] at this; exact absurd this (by decide)
      | armed => simp [step, stepCloser, hx] at hk
      | done => rfl
    exact .inl ⟨hr, hs, ho.closing (by rw [hd]; decide), ho.released (by rw [hd]; decide),
      ho.closed hc⟩
  · exact absurd he hn
  · have hs := run.sender_of_joining hM hq hd
    rcases run.receiver_of_joining hM hq hd with hr | ⟨hr, hb⟩
    · exact absurd ⟨hr, hs⟩ hn
    · have hf : c.starter.failed = false := by rw [ho.started (by rw [hd]; decide)]; rfl
      exact .inr ⟨hr, hb, hs, hd, ho.draining (by rw [hd]; decide) (by rw [hd]; decide),
        ho.held hf (by rw [hd]; decide)⟩

/-- **A connection closes unless it is held up.** Take any run of a connection over a socket whose
disposal ends its calls, whatever the application does. If a loop has ended and neither a loop nor
the driver nor the task of the closed signal can move, then the connection is closed in every
respect, or held up by an application that does not read on. It is closed exactly if the inbound
pipe does not keep a writer waiting. -/
theorem quiet_closed_iff (hM : M.EndsOnDispose) {h : List (Event S)} {c : Connection S}
    (run : Run M h c) {pool : BufferPool} (hq : c.Quiet pool) (he : c.LoopEnded) :
    (c.FullyClosed ↔ ¬ c.inbound.WriterBlocked) ∧ (c.FullyClosed ∨ c.HeldUp) := by
  have key := run.closed_or_heldUp hM hq he
  refine ⟨⟨fun hc hb => ?_, fun hn => ?_⟩, key⟩
  · rcases run.paused hb.paused with hf | hr
    · rw [hc.receiver] at hf; exact hf rfl
    · rw [hb.reader] at hr; cases hr
  · exact key.resolve_right fun hu => hn hu.inbound

/-! ## An application that reads nothing -/

/-- A connection that pauses at four bytes and has eight to receive. -/
def fed : Connection Socket.scripted :=
  scripted { pauseThreshold := 4, resumeThreshold := 2 } [.data [1, 2, 3, 4, 5, 6, 7, 8]]

/-- The receive loop goes on until it sleeps in a flush. The application completes its output, so
that the send loop ends, and the driver goes on until it waits for both loops. -/
def leftUnread : List Move :=
  launched (steps 5 .receiver ++ [.output (.complete none)] ++ steps 2 .sender ++ steps 3 .driver)

/-- The connection after `leftUnread`. -/
def unread : Connection Socket.scripted := (fed.performAll leftUnread).getD fed

theorem run_unread : Run .scripted (fed.trace leftUnread) unread := run_scripted rfl

theorem quiet_unread : unread.Quiet { blockSize := 4096 } := by
  intro task ht
  cases task with
  | starter => exact absurd rfl ht
  | receiver | sender | driver | closer => rfl

theorem loopEnded_unread : unread.LoopEnded := .inr ⟨none, rfl⟩

theorem unread_held_up : unread.HeldUp := by
  obtain ⟨hc, hu⟩ := quiet_closed_iff Socket.scripted_endsOnDispose run_unread quiet_unread
    loopEnded_unread
  exact hu.resolve_left fun h => hc.mp h ⟨rfl, by decide, rfl⟩

/-- An ended loop does not always close the connection. -/
theorem ended_loop_not_closed :
    Socket.Medium.scripted.EndsOnDispose ∧
      ¬ ∀ (h : List (Event Socket.scripted)) (c : Connection Socket.scripted) (pool : BufferPool),
        Run .scripted h c → c.Quiet pool → c.LoopEnded → c.FullyClosed := by
  refine ⟨Socket.scripted_endsOnDispose, fun h => ?_⟩
  have hr := (h _ _ _ run_unread quiet_unread loopEnded_unread).receiver
  cases hr

end Duplex.Connection
