import Duplex.Proofs.Connection.Phases
import Duplex.Proofs.Connection.Waits

/-!
# Shutting down once

Anyone may shut a connection down, at any time and as often as they like, and the send loop does so
when it ends. Whoever comes first sets the flag (`Run.aborted_eq`), which stays set
(`Run.aborted_mono`), and shuts the socket down if the connection still has it. Without a refusal it
does (`Run.held_of_not_aborted`), since the driver lets go of the socket only after the send loop
has ended, and nobody does after a panic of the dispatcher (`Run.held_of_panicked`). So the flag
counts the shutdowns (`Unrepeated`, `Run.unrepeated`), and the socket is shut down once and disposed
of once by the time the driver has closed the connection (`shut_down_once`).
-/

namespace Duplex.Connection

variable {S : Socket} {M : Socket.Medium S} {h : List (Event S)} {c c' : Connection S} {m : Move}

/-! ## The flag -/

/-- Whether a move sets the flag, if it is not set. -/
def Event.aborts (e : Event S) : Bool :=
  match e.move, e.before.sender with
  | .shutdown, _ | .task _ .sender, .shuttingDown _ => true
  | _, _ => false

theorem Event.shutsDown_eq (e : Event S) :
    e.shutsDown = (e.aborts && (!e.before.aborted && e.before.socketHeld)) := by
  simp only [Event.shutsDown, Event.aborts]
  cases e.move with
  | shutdown => rfl
  | task pool task => cases task <;> cases e.before.sender <;> rfl
  | _ => rfl

theorem aborted_shutdown (c : Connection S) : c.shutdown.aborted = true := by
  simp only [shutdown]
  split
  · assumption
  · rfl

theorem Step.aborted_eq (st : Step c m c') : c'.aborted = (c.aborted || Event.aborts ⟨c, m⟩) := by
  cases st with
  | receiver st => obtain ⟨_, _, _, rfl, -⟩ := st.frame; exact (Bool.or_false _).symm
  | sender st =>
    cases st with
    | shutdown h =>
      simp only [Event.aborts, h]
      rw [Bool.or_true]
      exact c.aborted_shutdown
    | _ => simp only [Event.aborts, *]; exact (Bool.or_false _).symm
  | driver st => cases st <;> exact (Bool.or_false _).symm
  | starter st => cases st <;> exact (Bool.or_false _).symm
  | shutdown => rw [c.aborted_shutdown]; exact (Bool.or_true _).symm
  | _ => exact (Bool.or_false _).symm

/-- The flag is set if someone has set it. -/
theorem Run.aborted_eq (run : Run M h c) : c.aborted = h.any Event.aborts := by
  induction run with
  | create => rfl
  | change _ _ ih => exact ih
  | move _ m hm ih => rw [(step_of_perform hm).aborted_eq, ih]; simp

theorem Step.aborted_mono (st : Step c m c') (ha : c.aborted = true) : c'.aborted = true := by
  rw [st.aborted_eq, ha, Bool.true_or]

/-- The flag is never taken back. -/
theorem Run.aborted_mono (run : Run M h c) :
    ∀ e ∈ h, e.before.aborted = true → c.aborted = true := by
  induction run with
  | create => intro e he; cases he
  | change _ _ ih => exact ih
  | @move h c c' run m hm ih =>
    have st := step_of_perform hm
    intro e he ha
    rcases List.mem_append.mp he with he | he
    · exact st.aborted_mono (ih e he ha)
    · rw [List.mem_singleton.mp he] at ha
      exact st.aborted_mono ha

/-- A send loop that has ended has shut the connection down. -/
theorem Run.aborted_of_finished (run : Run M h c) {error : Option ConnectionError}
    (hs : c.sender = .finished error) : c.aborted = true := by
  induction run with
  | create => cases hs
  | change _ _ ih => exact ih hs
  | @move h c c' run m hm ih =>
    have st := step_of_perform hm
    rcases m.by_task .sender with ⟨pool, rfl⟩ | ht
    · cases st with
      | sender st =>
        cases st with
        | shutdown => exact c.aborted_shutdown
        | empty => simp only [nextRead] at hs; split at hs <;> cases hs
        | consume => simp only [nextRead] at hs; split at hs <;> cases hs
        | _ => cases hs
    · rcases st.sender_eq ht with e | ⟨-, e⟩
      · exact st.aborted_mono (ih (e.symm.trans hs))
      · rw [e] at hs; cases hs

/-! ## How often the socket is shut down -/

/-- A start that has failed stays so. -/
theorem Step.failed_of_failed (st : Step c m c') (hf : c.starter.failed = true) :
    c'.starter.failed = true := by
  cases st with
  | receiver st => obtain ⟨_, _, _, rfl, -⟩ := st.frame; exact hf
  | sender st => obtain ⟨_, _, _, _, _, rfl, -⟩ := st.frame; exact hf
  | driver st => cases st <;> exact hf
  | starter st =>
    cases st with
    | spawn h => rw [h] at hf; cases hf
    | _ => rfl
  | start h | accept h => rw [h] at hf; cases hf
  | refuse | panic => rfl
  | shutdown => obtain ⟨_, _, e, -⟩ := c.shutdown_frame; rw [e]; exact hf
  | _ => exact hf

/-- A refusal is not taken back. -/
theorem Step.unrefused (st : Step c m c') (hr : c'.starter.refusal = 0) :
    c.starter.refusal = 0 := by
  cases st with
  | receiver st => obtain ⟨_, _, _, rfl, -⟩ := st.frame; exact hr
  | sender st => obtain ⟨_, _, _, _, _, rfl, -⟩ := st.frame; exact hr
  | driver st => cases st <;> exact hr
  | starter st =>
    cases st with
    | spawn h => rw [h]; rfl
    | _ => cases hr
  | start h | accept h | refuse h | panic h => rw [h]; rfl
  | shutdown => obtain ⟨_, _, e, -⟩ := c.shutdown_frame; rw [e] at hr; exact hr
  | _ => exact hr

/-- Nobody takes the socket from a connection over which the dispatcher panicked. -/
theorem Run.held_of_panicked (run : Run M h c) (hp : c.starter = .panicked) :
    c.socketHeld = true := by
  induction run with
  | create => cases hp
  | change _ _ ih => exact ih hp
  | @move h c c' run m hm ih =>
    have ho := run.orderly
    have st := step_of_perform hm
    cases hk : m.conducts with
    | false =>
      have k := st.kept hk
      rw [k.held]
      exact ih (k.starter.symm.trans hp)
    | true =>
      cases st with
      | panic h => exact ho.held (by rw [h]; rfl) (by have := (ho.unborn (by simp [h])).1; omega)
      | driver st =>
        have hs : c'.starter = c.starter := by cases st <;> rfl
        have hd : 1 ≤ c.driver.stage := by cases st <;> simp [*, Driver.stage]
        rw [hs, ho.started hd] at hp
        cases hp
      | starter st => cases st <;> cases hp
      | closer => exact ih hp
      | start | accept | refuse => cases hp
      | _ => cases hk

/-- As long as nobody has shut it down, a connection that was not refused has its socket. -/
theorem Run.held_of_not_aborted (run : Run M h c) (hr : c.starter.refusal = 0)
    (ha : c.aborted = false) : c.socketHeld = true := by
  cases hf : c.starter.failed with
  | true =>
    refine run.held_of_panicked ?_
    match hs : c.starter with
    | .panicked => rfl
    | .waiting | .dispatching | .spawning | .over none => rw [hs] at hf; cases hf
    | .releasing _ | .closing _ | .signalling _ | .returning _ | .over (some _) =>
      rw [hs] at hr; cases hr
  | false =>
    refine run.orderly.held hf (Nat.le_of_not_lt fun hd => ?_)
    obtain ⟨error, hs⟩ := (run.orderly.finished (Nat.le_trans (by decide) hd)).2
    rw [run.aborted_of_finished hs] at ha
    cases ha

/-- The flag tells how often the socket was shut down: at most once if it is set, and once if the
connection was not refused. -/
structure Unrepeated (h : List (Event S)) (c : Connection S) : Prop where
  most : h.countP Event.shutsDown ≤ c.aborted.toNat
  once : c.starter.refusal = 0 → h.countP Event.shutsDown = c.aborted.toNat

theorem Run.unrepeated (run : Run M h c) : Unrepeated h c := by
  induction run with
  | create => exact ⟨Nat.le_refl 0, fun _ => rfl⟩
  | change _ _ ih => exact ⟨ih.most, ih.once⟩
  | @move h c c' run m hm ih =>
    have st := step_of_perform hm
    have hs : Event.shutsDown ⟨c, m⟩ = (Event.aborts ⟨c, m⟩ && (!c.aborted && c.socketHeld)) :=
      Event.shutsDown_eq _
    refine ⟨?_, fun hf => ?_⟩ <;>
      rw [List.countP_append, List.countP_singleton, hs, st.aborted_eq]
    · -- A socket is not shut down where the flag is set.
      have hl := ih.most
      cases ha : c.aborted with
      | true => rw [ha] at hl; simpa using hl
      | false =>
        rw [ha] at hl
        rw [Nat.le_zero.mp hl]
        cases Event.aborts ⟨c, m⟩ <;> cases c.socketHeld <;> decide
    · have hf := st.unrefused hf
      rw [ih.once hf]
      cases ha : c.aborted with
      | true => rw [Bool.not_true, Bool.false_and, Bool.and_false]; rfl
      | false => rw [run.held_of_not_aborted hf ha]; cases Event.aborts ⟨c, m⟩ <;> rfl

/-- The moves that dispose of the socket are those of a refusal or of the driver, never of both. -/
theorem Run.disposals_le (run : Run M h c) : h.countP Event.disposes ≤ 1 := by
  rw [run.booked.disposals]
  by_cases hr : 2 ≤ c.starter.refusal
  · have hs : c.starter ≠ .over none := fun e => by rw [e] at hr; cases hr
    have hd := (run.orderly.unborn hs).1
    rw [if_neg (show ¬ 4 ≤ c.driver.stage by omega)]
    split <;> decide
  · rw [if_neg hr]
    split <;> decide

/-! ## The calls that the socket sees -/

/-- The driver has closed the connection. -/
def ClosedByDriver (c : Connection S) : Prop := c.driver = .announcing ∨ c.driver = .done

/-- What a socket sees of its connection, if it counts the calls. -/
structure Spared {S : Socket} (h : List (Event S.counted)) (c : Connection S.counted) : Prop where
  shutdowns : c.socket.shutdowns ≤ 1
  disposals : c.socket.disposals ≤ 1
  aborted : ∀ e ∈ h, e.before.aborted = true → c.aborted = true
  closed : c.ClosedByDriver →
    c.phase = .closed ∧ c.socket.shutdowns = 1 ∧ c.socket.disposals = 1

/-- **The socket is shut down once and disposed of once.** Take any run of a connection over a
socket that counts, whoever shuts it down or aborts it, and however the socket answers. It is shut
down at most once and disposed of at most once, and the flag is never taken back. Where the driver
has closed the connection, both have happened. -/
theorem shut_down_once {S : Socket} {M : Socket.Medium S} {h : List (Event S.counted)}
    {c : Connection S.counted} (run : Run M.counted h c) : Spared h c := by
  obtain ⟨hs, hd⟩ := run.counted
  have ho := run.orderly
  exact {
    shutdowns := by
      rw [hs]
      exact Nat.le_trans run.unrepeated.most (Bool.toNat_le _)
    disposals := by
      rw [hd]
      exact run.disposals_le
    aborted := run.aborted_mono
    closed := fun hc => by
      have hg : 9 ≤ c.driver.stage := by rcases hc with e | e <;> rw [e] <;> decide
      have hst : c.starter = .over none := ho.started (by omega)
      obtain ⟨error, he⟩ := (ho.finished (by omega)).2
      refine ⟨ho.closing hg, ?_, ?_⟩
      · rw [hs, run.unrepeated.once (by rw [hst]; rfl), run.aborted_of_finished he]
        rfl
      · rw [hd, run.booked.disposals, hst, if_pos (show 4 ≤ c.driver.stage by omega)]
        rfl }

/-! ## A socket that cannot be shut down -/

/-- A connection whose peer has nothing to say, over a socket whose shutdown fails. -/
def stubborn : Connection Socket.scripted.counted :=
  create Socket.scripted.counted .empty (.ofPort 4433) (.ofPort 50000) 0 2048 {}
    { state := { incoming := [.finish], shutdownError := some ⟨.notConnected, "down", false⟩ } }

/-- The receive loop ends first. Once all is over, the connection is aborted. -/
def abortedLate : List Move := lived ++ [.shutdown, .cancelOutput]

/-- The connection after `abortedLate`. -/
def worn : Connection Socket.scripted.counted := (stubborn.performAll abortedLate).getD stubborn

theorem run_worn : Run Socket.Medium.scripted.counted (stubborn.trace abortedLate) worn := by
  have hc : Run Socket.Medium.scripted.counted [] stubborn :=
    .create _ _ _ _ _ _ _ ⟨⟨rfl, rfl⟩, rfl, rfl⟩
  have hm : stubborn.performAll abortedLate = some worn := rfl
  exact hc.moves hm

theorem worn_shut_down :
    (Socket.scripted.counted.shutdown stubborn.socket).1 = .error ⟨.notConnected, "down", false⟩ ∧
      worn.socket.shutdowns = 1 ∧ worn.socket.disposals = 1 :=
  ⟨rfl, ((shut_down_once run_worn).closed (.inr rfl)).2⟩

end Duplex.Connection
