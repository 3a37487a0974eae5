import Duplex.Proofs.Connection.Closing
import Duplex.Proofs.Connection.Shutdown

/-!
# Aborting a connection

An abort shuts a connection down and cuts the read of its send loop short. What it leads to does
not depend on who comes before or after it: an abort anywhere in the history of a connection that
was not refused has reached it for good (`Run.reached`). Its socket is shut down once, and its send
loop, if it reads or ever will, does not wait in the read and finds it canceled.
-/

namespace Duplex.Connection

variable {S : Socket} {M : Socket.Medium S} {h : List (Event S)} {c : Connection S}

/-- Whoever may still read finds the read canceled. -/
theorem Run.canceled (run : Run M h c) (hc : ∃ e ∈ h, e.move = .cancelOutput)
    (hl : c.sender.MayRead) : c.outbound.readCanceled = true := by
  induction run with
  | create => obtain ⟨_, he, -⟩ := hc; cases he
  | change _ _ ih => exact ih hc hl
  | @move h c c' run m hm ih =>
    obtain ⟨hl, hr⟩ := (step_of_perform hm).mayRead run.orderly hl
    obtain ⟨e, he, hc⟩ := hc
    rcases List.mem_append.mp he with he | he
    · exact hr (ih ⟨e, he, hc⟩ hl)
    · obtain rfl := List.mem_singleton.mp he
      obtain rfl : m = .cancelOutput := hc
      cases hm
      rfl

/-- An abort has reached the connection. -/
structure Reached (c : Connection S.counted) : Prop where
  aborted : c.aborted = true
  shutdowns : c.socket.shutdowns = 1
  /-- Whichever read the send loop makes, now or when it is spawned, is canceled. -/
  canceled : c.sender.MayRead → c.outbound.readCanceled = true
  /-- The send loop does not wait in a read. -/
  awake : ∀ call, c.sender = .reading call → c.stepSender ≠ none

theorem Run.reached {h : List (Event S.counted)} {c : Connection S.counted}
    (run : Run M.counted h c) (hr : c.starter.refusal = 0) (hs : ∃ e ∈ h, e.move = .shutdown)
    (hc : ∃ e ∈ h, e.move = .cancelOutput) : Reached c := by
  have ha : c.aborted = true := by
    obtain ⟨e, he, hs⟩ := hs
    rw [run.aborted_eq, List.any_eq_true]
    exact ⟨e, he, by simp only [Event.aborts, hs]⟩
  refine ⟨ha, ?_, run.canceled hc, fun call hs => run.awake hs (run.canceled hc (.inr ?_))⟩
  · rw [run.counted.1, run.unrepeated.once hr, ha]
    rfl
  · rw [hs]
    rfl

end Duplex.Connection
