import Duplex.Proofs.Connection.Input
import Duplex.Proofs.Connection.Waits
import Duplex.Proofs.Socket.Contracts

/-!
# What a connection receives from datagrams

A datagram socket hands out what it was offered, in the order in which it was offered, cut to the
buffers of the receives. What a receive yields is missing from what is unread, and nothing else is
(`Datagram.pollReceive_unread`), so that no move of a connection loses or repeats a byte
(`Connection.Step.unread`). A receive that has to wait has read everything
(`Datagram.pollReceive_waits`).
-/

namespace Duplex

namespace Socket

/-- A datagram socket that nobody but the transport feeds, over a link that changes in any way. -/
def Medium.linked : Medium Socket.datagram where
  Initial s := s.turns = [] ∧ s.disposed = false ∧ s.queue = [] ∧ s.remainder = none
  Change s s' := ∃ link, s' = { s with link }

namespace Datagram

end Datagram

end Socket

namespace Connection

open Socket (Datagram)

variable {c c' : Connection Socket.datagram} {m : Move}

theorem unread_shutdown (c : Connection Socket.datagram) :
    Datagram.unread c.shutdown.socket = Datagram.unread c.socket := by
  obtain ⟨_, socket, e, hs⟩ := c.shutdown_frame
  rw [e]
  rcases hs with rfl | rfl <;> rfl

theorem ReceiverStep.unread {pool : BufferPool} (st : ReceiverStep pool c c') :
    Event.received ⟨c, .task pool .receiver⟩ ++ Datagram.unread c'.socket =
      Datagram.unread c.socket := by
  cases st with
  | @wait call _ _ h hp | @fail call _ _ h hp | @finish call _ h hp | @fill call _ _ h hp =>
    have hp' : Datagram.pollReceive call c.socket = _ := hp
    have hu := Datagram.pollReceive_unread call c.socket
    rw [hp'] at hu
    simp only [Event.received, h, hp]
    exact hu
  | _ => simp only [Event.received, *]; rfl

theorem SenderStep.unread (st : SenderStep c c') :
    Datagram.unread c'.socket = Datagram.unread c.socket := by
  cases st with
  | @wait call _ _ _ _ h hp | @fail call _ _ _ _ h hp | @sent call _ _ _ _ h hp =>
    obtain ⟨-, _, e⟩ := Datagram.pollSend_pays call c.socket
    change Datagram.pollSend call c.socket = _ at hp
    rw [hp] at e
    obtain rfl := e
    rfl
  | shutdown => exact c.unread_shutdown
  | _ => rfl

/-- What a move of a connection receives was at the front of what is unread, and the rest stays. -/
theorem Step.unread (st : Step c m c') :
    Event.received ⟨c, m⟩ ++ Datagram.unread c'.socket = Datagram.unread c.socket := by
  cases st with
  | receiver st => exact st.unread
  | sender st => exact st.unread
  | driver st => cases st <;> rfl
  | starter st =>
    cases st with
    | release =>
      dsimp only
      split <;> rfl
    | _ => rfl
  | shutdown => exact c.unread_shutdown
  | _ => rfl

/-- So do moves made one after the other. -/
theorem unread_performAll {moves : List Move} (hm : c.performAll moves = some c') :
    received (c.trace moves) ++ Datagram.unread c'.socket = Datagram.unread c.socket := by
  induction moves generalizing c with
  | nil => obtain rfl := Option.some_inj.mp hm; rfl
  | cons m moves ih =>
    rw [performAll, List.foldlM_cons] at hm
    obtain ⟨d, hd, hm⟩ := Option.bind_eq_some_iff.mp hm
    have ht : received (c.trace (m :: moves)) =
        Event.received ⟨c, m⟩ ++ received (d.trace moves) := by
      rw [trace, hd]; rfl
    rw [ht, List.append_assoc, ih hm, (step_of_perform hd).unread]

end Connection

end Duplex
