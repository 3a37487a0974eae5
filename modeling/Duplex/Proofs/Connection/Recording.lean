import Duplex.Proofs.Connection.Counts

/-!
# What a socket is given, and what it answers

The moves of a connection that begin a receive or a send say what the socket is given
(`Event.offered`, `Event.handed`), and those that end a send how it ended (`Event.outcome`). A
socket that records has recorded just that, call by call (`Step.recorded`, `Run.recorded`): nothing
else is offered, handed over or answered.
-/

namespace Duplex.Connection

variable {S : Socket} {M : Socket.Medium S}

/-- The length of the buffer of the receive that a move begins. -/
def Event.offered (e : Event S) : List Nat :=
  match e.move, e.before.receiver with
  | .task pool .receiver, .staging =>
    [(e.before.inbound.getMemory pool e.before.minimumReceive).region.length]
  | _, _ => []

/-- The records of the socket after a move go on with what it is given and answers. -/
structure Noted (e : Event S.recorded) (c' : Connection S.recorded) : Prop where
  rooms : c'.socket.rooms = e.before.socket.rooms ++ e.offered
  sends : c'.socket.sends = e.before.socket.sends ++ e.handed
  answers : c'.socket.answers = e.before.socket.answers ++ e.outcome

/-- A move that gives the socket nothing leaves the records as they are. -/
theorem Noted.of_eq {e : Event S.recorded} {c' : Connection S.recorded} (ho : e.offered = [])
    (hh : e.handed = []) (hr : e.outcome = []) (rooms : c'.socket.rooms = e.before.socket.rooms)
    (sends : c'.socket.sends = e.before.socket.sends)
    (answers : c'.socket.answers = e.before.socket.answers) : Noted e c' where
  rooms := by rw [ho, List.append_nil, rooms]
  sends := by rw [hh, List.append_nil, sends]
  answers := by rw [hr, List.append_nil, answers]

theorem ReceiverStep.noted {c c' : Connection S.recorded} {pool : BufferPool}
    (st : ReceiverStep pool c c') : Noted ⟨c, .task pool .receiver⟩ c' := by
  cases st with
  | stage h =>
    refine ⟨?_, (List.append_nil _).symm, (List.append_nil _).symm⟩
    simp only [Event.offered, h]
    rfl
  | wait h hp | fail h hp | finish h hp | fill h hp =>
    obtain rfl : _ = _ := congrArg Prod.snd hp
    exact .of_eq (by simp only [Event.offered, h]) rfl rfl rfl rfl rfl
  | _ => exact .of_eq (by simp only [Event.offered, *]) rfl rfl rfl rfl rfl

theorem SenderStep.noted {c c' : Connection S.recorded} (st : SenderStep c c')
    (pool : BufferPool) : Noted ⟨c, .task pool .sender⟩ c' := by
  cases st with
  | send h hr =>
    refine ⟨(List.append_nil _).symm, ?_, ?_⟩
    · simp only [Event.handed, h, hr]
      rfl
    · simp only [Event.outcome, h, List.append_nil]
      rfl
  | sendVectored h =>
    refine ⟨(List.append_nil _).symm, ?_, ?_⟩
    · simp only [Event.handed, h]
      rfl
    · simp only [Event.outcome, h, List.append_nil]
      rfl
  | wait h hp | fail h hp | sent h hp =>
    obtain rfl : _ = _ := congrArg Prod.snd hp
    refine ⟨(List.append_nil _).symm, ?_, ?_⟩
    · simp only [Event.handed, h, List.append_nil]
      rfl
    · simp only [Event.outcome, h]
      rfl
  | shutdown h =>
    obtain ⟨_, socket, e, hs⟩ := c.shutdown_frame
    rw [e]
    have hh : Event.handed ⟨c, .task pool .sender⟩ = [] := by simp only [Event.handed, h]
    have ho : Event.outcome ⟨c, .task pool .sender⟩ = [] := by simp only [Event.outcome, h]
    rcases hs with rfl | rfl <;> exact .of_eq rfl hh ho rfl rfl rfl
  | _ =>
    exact .of_eq rfl (by simp only [Event.handed, *]) (by simp only [Event.outcome, *]) rfl rfl rfl

/-- What a move records. -/
theorem Step.noted {c c' : Connection S.recorded} {m : Move} (st : Step c m c') :
    Noted ⟨c, m⟩ c' := by
  cases st with
  | receiver st => exact st.noted
  | @sender pool _ st => exact st.noted pool
  | driver st => cases st <;> exact .of_eq rfl rfl rfl rfl rfl rfl
  | starter st =>
    cases st with
    | release =>
      cases c.socketHeld <;> exact .of_eq rfl rfl rfl rfl rfl rfl
    | _ => exact .of_eq rfl rfl rfl rfl rfl rfl
  | shutdown =>
    obtain ⟨_, socket, e, hs⟩ := c.shutdown_frame
    rw [e]
    rcases hs with rfl | rfl <;> exact .of_eq rfl rfl rfl rfl rfl rfl
  | _ => exact .of_eq rfl rfl rfl rfl rfl rfl

/-- What the moves of a run say is what the socket has recorded. -/
structure Recorded (h : List (Event S.recorded)) (c : Connection S.recorded) : Prop where
  rooms : c.socket.rooms = h.flatMap Event.offered
  sends : c.socket.sends = handed h
  answers : c.socket.answers = outcomes h

theorem Run.recorded {h : List (Event S.recorded)} {c : Connection S.recorded}
    (run : Run M.recorded h c) : Recorded h c := by
  induction run with
  | create _ _ _ _ _ _ _ hs => exact ⟨hs.2.1, hs.2.2.1, hs.2.2.2⟩
  | change _ hs ih =>
    exact ⟨hs.2.1.trans ih.rooms, hs.2.2.1.trans ih.sends, hs.2.2.2.trans ih.answers⟩
  | @move h c c' run m hm ih =>
    have hn := (step_of_perform hm).noted
    exact {
      rooms := by rw [hn.rooms, ih.rooms, List.flatMap_append, List.flatMap_singleton]
      sends := by rw [hn.sends, ih.sends, handed_snoc]
      answers := by rw [hn.answers, ih.answers, outcomes_snoc] }

end Duplex.Connection
