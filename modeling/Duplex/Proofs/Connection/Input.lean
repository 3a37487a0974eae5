import Duplex.Proofs.Connection.Waits
import Duplex.Proofs.Pipe.Stream

/-!
# What the application receives

The receive loop commits what a receive has put into its region, all of it and nothing else
(`Run.committed_inbound`). With the law of the pipe, the application gets the bytes of all
receives in order, whatever else happens to the connection (`input_intact`).
-/

namespace Duplex.Connection

variable {S : Socket} {M : Socket.Medium S}

/-- The bytes of all receives that succeeded in a history, in order. -/
def received (h : List (Event S)) : Bytes := h.flatMap Event.received

@[simp] theorem received_snoc (h : List (Event S)) (e : Event S) :
    received (h ++ [e]) = received h ++ e.received := by
  simp [received]

/-- The bytes of the latest receive, while the receive loop is about to commit them. -/
def staged (c : Connection S) : Bytes :=
  match c.receiver with
  | .committing count => c.inbound.region.take count
  | _ => []

/-- Others than the receive loop neither commit nor touch the region. -/
theorem inbound_others {accesses : List Pipe.Access} (ha : ∀ a ∈ accesses,
      (∃ access, a = .reader access) ∨ a = .cancel ∨ a = .writer (.complete none)) (p : Pipe) :
    Pipe.committed (Pipe.trace p accesses) = [] ∧ (p.performAll accesses).region = p.region := by
  induction accesses generalizing p with
  | nil => exact ⟨rfl, rfl⟩
  | cons a accesses ih =>
    obtain ⟨hc, hr⟩ := ih (fun b hb => ha b (List.mem_cons_of_mem _ hb)) (a.perform p)
    rw [Pipe.trace, Pipe.committed_cons, hc, List.append_nil]
    rcases ha a (List.mem_cons_self ..) with ⟨access, rfl⟩ | rfl | rfl
    · exact ⟨rfl, hr.trans (Pipe.region_reader access p)⟩
    · exact ⟨rfl, hr⟩
    · refine ⟨rfl, hr.trans ?_⟩
      simp only [Pipe.Access.perform, Pipe.WriterAccess.perform, Pipe.completeWriter]
      split <;> rfl

/-- What one step of the receive loop commits, and what it leaves in its region. -/
theorem ReceiverStep.staged (hM : M.FillsWithin) {pool : BufferPool} {c c' : Connection S} {t d}
    (st : ReceiverStep pool c c') (u : M.Used c.receiving? t d c.socket) :
    Pipe.committed (Pipe.trace c.inbound (Event.onInbound ⟨c, .task pool .receiver⟩)) ++ c'.staged =
      c.staged ++ Event.received ⟨c, .task pool .receiver⟩ := by
  cases st with
  | @fill call received socket h hp hn =>
    simp only [receiving?, h] at u
    simp only [Event.onInbound, Event.received, Connection.staged, h, hp]
    exact Pipe.take_fill _ _ (hM u hp)
  | commit h =>
    simp only [Event.onInbound, Event.received, Connection.staged, h]
    rw [List.append_nil, List.append_nil]
    exact List.append_nil _
  | wait h hp | fail h hp | finish h hp =>
    simp only [Event.onInbound, Event.received, Connection.staged, h, hp]; rfl
  | @flushed call result inbound h =>
    simp only [Event.onInbound, Event.received, Connection.staged, h]
    obtain ⟨_ | _⟩ := result <;> rfl
  | stage h | flush h | flushFail h | classify h | confirm h | complete h =>
    simp only [Event.onInbound, Event.received, Connection.staged, h]; rfl

/-- What was committed to the inbound pipe and what is about to be is what was received. -/
theorem Run.committed_inbound (hM : M.FillsWithin) {h : List (Event S)} {c : Connection S}
    (run : Run M h c) : Pipe.committed (onInbound h) ++ c.staged = received h := by
  induction run with
  | create => rfl
  | change _ _ ih => exact ih
  | @move h c c' run m hm ih =>
    have st := step_of_perform hm
    rw [onInbound_snoc, Pipe.committed_append, received_snoc, ← ih, List.append_assoc,
      List.append_assoc]
    congr 1
    rcases m.by_task .receiver with ⟨pool, rfl⟩ | hr
    · obtain ⟨_, u, -⟩ := run.used
      cases st with
      | receiver st => exact st.staged hM u
    · obtain ⟨hc, hg⟩ := inbound_others (onInbound_others c hr) c.inbound
      rw [← st.inbound] at hg
      have he : Event.received ⟨c, m⟩ = [] := by
        simp only [Event.received]
        split
        · exact absurd rfl (hr _)
        · rfl
      rw [hc, he, List.append_nil, List.nil_append]
      rcases st.receiver_eq hr with e | ⟨hd, e⟩
      · simp only [staged, e, hg]
      · have hu := (run.orderly.of_launching hd).1
        simp only [staged, e, hu]

/-- **The input arrives intact.** Take any run of a connection over a socket whose receives stay
within their buffers. As long as the reader of the inbound pipe has not completed, what the
application has taken out, then what is buffered, then what the receive loop is about to commit
are the bytes of all receives, in order: while the loop runs, after it has ended with or without
an error, and after the connection has closed. -/
theorem input_intact (hM : M.FillsWithin) {h : List (Event S)} {c : Connection S}
    (run : Run M h c) (hr : c.inbound.readerCompleted = false) :
    Pipe.taken (onInbound h) ++ c.inbound.content ++ c.staged = received h := by
  obtain ⟨options, hp⟩ := run.inbound
  calc Pipe.taken (onInbound h) ++ c.inbound.content ++ c.staged
      = (Pipe.create options).content ++ Pipe.committed (onInbound h) ++ c.staged := by
        rw [hp.stream (Pipe.sound_create options) hr]
    _ = received h := run.committed_inbound hM

/-- A connection that has two chunks to receive. -/
def twoChunks : Connection Socket.scripted := scripted {} [.data [1, 2, 3], .data [4, 5]]

/-- The receive loop commits one chunk and receives the other, and the application takes out two
bytes of the first. -/
def readInPart : List Move := launched (steps 6 .receiver ++ [.input (.consume 2)])

/-- The connection after `readInPart`. -/
def partlyRead : Connection Socket.scripted := (twoChunks.performAll readInPart).getD twoChunks

theorem run_partlyRead : Run .scripted (twoChunks.trace readInPart) partlyRead := run_scripted rfl

theorem two_chunks_intact :
    partlyRead.inbound.content = [3] ∧ partlyRead.staged = [4, 5] ∧
      Pipe.taken (onInbound (twoChunks.trace readInPart)) ++ [3] ++ [4, 5] =
        received (twoChunks.trace readInPart) := by
  have hc : partlyRead.inbound.content = [3] := by decide
  have hs : partlyRead.staged = [4, 5] := by decide
  have hi := input_intact Socket.scripted_fillsWithin run_partlyRead (by decide)
  rw [hc, hs] at hi
  exact ⟨hc, hs, hi⟩

end Duplex.Connection
