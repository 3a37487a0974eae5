import Duplex.Proofs.Connection.Closing
import Duplex.Proofs.Connection.Shutdown
import Duplex.Proofs.Pipe.Slots
import Duplex.Proofs.Socket.Contracts

/-!
# Sends that meet the teardown

Once a loop has ended, the driver disposes of the socket, wherever the other loop is. A datagram
socket looks before every datagram whether it has been disposed of, and the send loop keeps that
failure to itself. But before every region it looks only whether it has been closed, and fails as if
it had been shut down (`Socket.Datagram.meetsClosed`), which a disposal does to it too. The send
loop keeps that failure to itself only if the connection has been shut down by the time it looks,
and the driver does not do so. So a send that comes to its next region between the disposal and a
shutdown of the connection strikes (`Struck`).

What a history tells of such sends is tied to the place of the send loop (`Fared`, `Run.fared`). By
that `teardown_silent_iff` says with what the outbound pipe is completed: without an error exactly
if no send has struck, if the network and the application had no failures of their own.
-/

namespace Duplex

namespace Socket

/-- A datagram socket that is new, to which datagrams are offered, over a link that changes in any
way. -/
def Medium.opened : Medium Socket.datagram where
  Initial s := s.turns = [] ∧ s.closed = false ∧ s.disposed = false
  Change s s' := ∃ queue fed link, s' = { s with queue, fed, link }

namespace Datagram

variable {call : SendEach Send} {s s' : Datagram} {error : IoError}

/-- A send comes to a region, and the socket is closed. -/
def meetsClosed (call : SendEach Send) (s : Datagram) : Bool :=
  match call.current with
  | some (.entering _) => s.closed
  | _ => false

/-- A send comes to a datagram that the network does not take. -/
def linkFails (call : SendEach Send) (s : Datagram) : Bool :=
  match call.current with
  | some (.emitting (datagram :: _) _) =>
    match s.link datagram.length with
    | .failed _ => !s.disposed
    | _ => false
  | _ => false

theorem pollSend_of_meetsClosed (hm : meetsClosed call s = true) :
    s.pollSend call = (.done (.error .socketShutDown), s) := by
  obtain ⟨_ | region | _, waiting, total⟩ := call
  case some.entering =>
    have hc : s.closed = true := hm
    simp only [pollSend, SendEach.poll, pollOne, hc, if_true]
  all_goals cases hm

/-- Besides the network, only the end of the socket makes a send fail. -/
theorem pollSend_error (hp : s.pollSend call = (.done (.error error), s'))
    (hl : linkFails call s = false) :
    error = if meetsClosed call s then .socketShutDown else .socketDisposed := by
  have hx := polled_pollSend call s
  rw [hp] at hx
  cases hx with
  | @failed current _ _ hc hk =>
    have hs := sendLook current s
    rw [hk] at hs
    cases hs with
    | shutDown hcl => simp only [meetsClosed, hc, hcl, if_true]
    | disposed => simp only [meetsClosed, hc, Bool.false_eq_true, if_false]
    | failed hd hf =>
      simp only [linkFails, hc, hf, hd] at hl
      cases hl

end Datagram

end Socket

namespace Connection

open Pipe (completions readerCompletions)
open Socket (Datagram)

/-! ## The completion of the outbound pipe -/

section Completion

variable {S : Socket} {M : Socket.Medium S} {h : List (Event S)} {c c' : Connection S} {m : Move}
  {error : Option ConnectionError}

/-- The driver has been told what the send loop ended with. -/
theorem Run.sender_of_completing (run : Run M h c) (hd : c.driver = .completing error) :
    c.sender = .finished error := by
  induction run with
  | create => cases hd
  | change _ _ ih => exact ih hd
  | @move h c c' run m hm ih =>
    have st := step_of_perform hm
    rcases m.by_task .driver with ⟨pool, rfl⟩ | ht
    · cases stepDriver_cases hm with
      | join _ _ hs => cases hd; exact hs
      | _ => cases hd
    · rcases st.driver_eq ht with e | ⟨-, e⟩
      · exact st.sender_finished run.orderly (ih (e.symm.trans hd))
      · rw [e] at hd; cases hd

/-- The driver gets there by completing the outbound pipe. -/
theorem Step.driver_completing (st : Step c m c') (ho : Orderly c) (hn : ¬ 7 ≤ c.driver.stage)
    (hd : 7 ≤ c'.driver.stage) :
    ∃ pool error, m = .task pool .driver ∧ c.driver = .completing error := by
  rcases m.by_task .driver with ⟨pool, rfl⟩ | ht
  · cases st with
    | driver st =>
      cases st with
      | complete h => exact ⟨_, _, rfl, h⟩
      | giveUp h hs => rw [(ho.of_launching h).2.2] at hs; cases hs
      | _ => simp_all [Driver.stage]
  · rcases st.driver_eq ht with e | ⟨-, e⟩
    · rw [e] at hd; exact absurd hd hn
    · rw [e] at hd; exact absurd hd (by decide)

/-- Past that place the outbound pipe has been completed with what the send loop ended with, and
nobody had completed it before. -/
theorem Run.outbound_completed (run : Run M h c) (hd : 7 ≤ c.driver.stage) :
    ∃ l₁ x l₂ error, onOutbound h = l₁ ++ x :: l₂ ∧ x.access = .reader (.complete error) ∧
      x.before.readerCompleted = false ∧ c.sender = .finished error := by
  induction run with
  | create => exact absurd hd (Nat.not_succ_le_zero 6)
  | change _ _ ih => exact ih hd
  | @move h c c' run m hm ih =>
    have st := step_of_perform hm
    have ho := run.orderly
    rw [onOutbound_snoc]
    by_cases hc : 7 ≤ c.driver.stage
    · obtain ⟨l₁, x, l₂, error, hl, hx, hr, hs⟩ := ih hc
      refine ⟨l₁, x, l₂ ++ Pipe.trace c.outbound (Event.onOutbound ⟨c, m⟩), error, ?_, hx, hr,
        st.sender_finished ho hs⟩
      rw [hl]
      simp only [List.append_assoc, List.cons_append]
    · obtain ⟨pool, error, rfl, hx⟩ := st.driver_completing ho hc hd
      have hs : c.starter = .over none := ho.started (by rw [hx]; exact Nat.succ_pos 5)
      have hf : c.starter.failed = false := by rw [hs]; rfl
      refine ⟨onOutbound h, ⟨c.outbound, .reader (.complete error)⟩, [], error, ?_, rfl,
        ho.reading hf (by rw [hx]; exact Nat.le_refl 6),
        st.sender_finished ho (run.sender_of_completing hx)⟩
      simp only [Event.onOutbound, hx]
      rfl

end Completion

/-! ## Late sends -/

variable {h : List (Event Socket.datagram)} {c c' : Connection Socket.datagram} {m : Move}

/-- Whether a move is a step of the send loop. -/
def Event.sends {S : Socket} (e : Event S) : Bool :=
  match e.move with
  | .task _ .sender => true
  | _ => false

/-- The send loop comes to a region, and the socket is closed. -/
def Event.late (e : Event Socket.datagram) : Bool :=
  match e.move, e.before.sender with
  | .task _ .sender, .sending call _ _ => Datagram.meetsClosed call e.before.socket
  | _, _ => false

/-- The network fails to send a datagram of the send loop. -/
def Event.linkFails (e : Event Socket.datagram) : Bool :=
  match e.move, e.before.sender with
  | .task _ .sender, .sending call _ _ => Datagram.linkFails call e.before.socket
  | _, _ => false

/-- The last step of the send loop was late. -/
def lastLate (h : List (Event Socket.datagram)) : Bool :=
  (h.filter Event.sends).getLast?.any Event.late

/-- The send loop was late, and nobody had shut the connection down by its next step. -/
def Struck (h : List (Event Socket.datagram)) : Prop :=
  ∃ e f, [e, f] <:+: h.filter Event.sends ∧ e.late = true ∧ f.before.aborted = false

theorem filter_sends_others (c : Connection Socket.datagram) (hm : ∀ pool, m ≠ .task pool .sender) :
    (h ++ [Event.mk c m]).filter Event.sends = h.filter Event.sends := by
  have hn : (Event.mk c m).sends = false := by
    cases m with
    | task pool task =>
      cases task with
      | sender => exact absurd rfl (hm pool)
      | _ => rfl
    | _ => rfl
  rw [List.filter_append, List.filter_cons, hn]
  exact List.append_nil _

theorem lastLate_sender (pool : BufferPool) :
    lastLate (h ++ [⟨c, .task pool .sender⟩]) = Event.late ⟨c, .task pool .sender⟩ := by
  rw [lastLate, List.filter_append]
  exact congrArg (Option.any Event.late) List.getLast?_concat

theorem struck_sender (pool : BufferPool) :
    Struck (h ++ [⟨c, .task pool .sender⟩]) ↔ Struck h ∨ lastLate h = true ∧ c.aborted = false := by
  have hs : (h ++ [Event.mk c (.task pool .sender)]).filter Event.sends =
      h.filter Event.sends ++ [⟨c, .task pool .sender⟩] := List.filter_append _ _
  simp only [Struck, lastLate, hs]
  constructor
  · rintro ⟨e, f, hi, he, hf⟩
    rcases List.infix_concat_iff.mp hi with ⟨l, hl⟩ | hi
    · right
      have ha : (l ++ [e]) ++ [f] = h.filter Event.sends ++ [⟨c, .task pool .sender⟩] := by
        rw [← hl, List.append_assoc]; rfl
      obtain ⟨hb, hx⟩ := List.append_inj' ha rfl
      obtain rfl := List.singleton_inj.mp hx
      rw [← hb, List.getLast?_concat]
      exact ⟨he, hf⟩
    · exact .inl ⟨e, f, hi, he, hf⟩
  · rintro (⟨e, f, hi, he, hf⟩ | ⟨hl, ha⟩)
    · exact ⟨e, f, List.infix_concat_iff.mpr (.inr hi), he, hf⟩
    · obtain ⟨e, hg, he⟩ := (Option.any_eq_true _ _).mp hl
      obtain ⟨l, hl⟩ := List.getLast?_eq_some_iff.mp hg
      refine ⟨e, ⟨c, .task pool .sender⟩, List.infix_concat_iff.mpr (.inl ⟨l, ?_⟩), he, ha⟩
      rw [hl, List.append_assoc]
      rfl

/-- What has come of late sends, by the place of the send loop: it knows of its own last one, and
has ended with the failure if it has struck. -/
def Fared (h : List (Event Socket.datagram)) (c : Connection Socket.datagram) : Prop :=
  match c.sender with
  | .classifying error =>
    ¬ Struck h ∧ error = if lastLate h then .socketShutDown else .socketDisposed
  | .shuttingDown error | .finished error =>
    lastLate h = false ∧ (Struck h → error = some (.io .socketShutDown)) ∧
      (¬ Struck h → error = none)
  | _ => lastLate h = false ∧ ¬ Struck h

/-- Only a failed send is late. -/
theorem SenderStep.late (st : SenderStep c c') (pool : BufferPool)
    (hn : ∀ error, c'.sender ≠ .classifying error) :
    Event.late ⟨c, .task pool .sender⟩ = false := by
  cases hs : c.sender with
  | sending call length last =>
    simp only [Event.late, hs]
    refine Bool.eq_false_iff.mpr fun hm => ?_
    have hp := Datagram.pollSend_of_meetsClosed hm
    change Socket.datagram.pollSend call c.socket = _ at hp
    cases st with
    | wait h hq => cases hs.symm.trans h; cases hp.symm.trans hq
    | sent h hq => cases hs.symm.trans h; cases hp.symm.trans hq
    | fail => exact hn _ rfl
    | _ => simp_all
  | _ => simp only [Event.late, hs]

theorem Fared.sender (hf : Fared h c) (st : SenderStep c c') (pool : BufferPool)
    (hl : Event.linkFails ⟨c, .task pool .sender⟩ = false) (he : c.outbound.writerError = none) :
    Fared (h ++ [⟨c, .task pool .sender⟩]) c' := by
  have late (hn : ∀ error, c'.sender ≠ .classifying error) :
      lastLate (h ++ [⟨c, .task pool .sender⟩]) = false :=
    (lastLate_sender pool).trans (st.late pool hn)
  have clear (hc : lastLate h = false ∧ ¬ Struck h) :
      ¬ Struck (h ++ [⟨c, .task pool .sender⟩]) := by
    rw [struck_sender]
    rintro (hk | ⟨hk, -⟩)
    · exact hc.2 hk
    · rw [hc.1] at hk; cases hk
  cases st with
  | read hc | found hc | send hc | sendVectored hc | wait hc | sent hc | count hc =>
    rw [Fared, hc] at hf
    exact ⟨late (by simp), clear hf⟩
  | @readFail call _ error hc hr =>
    -- The application's output has no error to read.
    have hw := Pipe.failed_read call c.outbound
    rw [hr, he] at hw
    cases hw
  | canceled hc =>
    rw [Fared, hc] at hf
    exact ⟨late (by simp), fun hk => absurd hk (clear hf), fun _ => rfl⟩
  | @empty call result _ hc =>
    rw [Fared, hc] at hf
    obtain ⟨_, _, _ | _⟩ := result
    · exact ⟨late (by simp [nextRead]), clear hf⟩
    · exact ⟨late (by simp [nextRead]), fun hk => absurd hk (clear hf), fun _ => rfl⟩
  | @consume length last hc =>
    rw [Fared, hc] at hf
    cases last with
    | false => exact ⟨late (by simp [nextRead]), clear hf⟩
    | true => exact ⟨late (by simp [nextRead]), fun hk => absurd hk (clear hf), fun _ => rfl⟩
  | fail hc hp =>
    rw [Fared, hc] at hf
    simp only [Event.linkFails, hc] at hl
    refine ⟨clear hf, ?_⟩
    rw [lastLate_sender]
    simp only [Event.late, hc]
    exact Datagram.pollSend_error hp hl
  | @classify error hc =>
    rw [Fared, hc] at hf
    obtain ⟨hk, rfl⟩ := hf
    refine ⟨late (by simp), fun hx => ?_, fun hx => ?_⟩ <;> rw [struck_sender] at hx
    · obtain ⟨hm, ha⟩ := hx.resolve_left hk
      rw [hm, ha]
      rfl
    · cases hm : lastLate h with
      | false => rfl
      | true =>
        have ha : c.aborted = true := by
          refine Bool.not_eq_false _ ▸ fun ha => hx (.inr ⟨hm, ha⟩)
        rw [ha]
        rfl
  | @shutdown error hc =>
    rw [Fared, hc] at hf
    obtain ⟨hm, hk, hn⟩ := hf
    have hs : Struck (h ++ [⟨c, .task pool .sender⟩]) ↔ Struck h := by
      rw [struck_sender, hm]
      exact ⟨fun hx => hx.resolve_right fun hx => (by cases hx.1), .inl⟩
    exact ⟨late (by simp), fun hx => hk (hs.mp hx), fun hx => hn fun hk => hx (hs.mpr hk)⟩

theorem Fared.others (hf : Fared h c) (st : Step c m c') (ho : Orderly c)
    (hm : ∀ pool, m ≠ .task pool .sender) : Fared (h ++ [⟨c, m⟩]) c' := by
  have hs := filter_sends_others (h := h) c hm
  have hl : lastLate (h ++ [⟨c, m⟩]) = lastLate h := by rw [lastLate, hs]; rfl
  have hk : Struck (h ++ [⟨c, m⟩]) ↔ Struck h := by rw [Struck, hs]; exact Iff.rfl
  rcases st.sender_eq hm with e | ⟨hd, e⟩
  · rw [Fared, e]
    simp only [hl, hk]
    exact hf
  · rw [Fared, (ho.of_launching hd).2.1] at hf
    rw [Fared, e]
    exact ⟨hl.trans hf.1, fun h => hf.2 (hk.mp h)⟩

/-- An application that completes its output without an error leaves none to read. -/
theorem Run.writerError_outbound {S : Socket} {M : Socket.Medium S} {h : List (Event S)}
    {c : Connection S} (run : Run M h c)
    (ho : ∀ error ∈ completions (onOutbound h), error = none) :
    c.outbound.writerError = none := by
  obtain ⟨options, hp⟩ := run.outbound
  have he := hp.concluded.errors
  have hn : (completions (onOutbound h)).flatMap Option.toList = [] :=
    List.flatMap_eq_nil_iff.mpr fun error hm => by rw [ho error hm]; rfl
  rw [hn, List.append_eq_nil_iff] at he
  exact Option.toList_eq_nil_iff.mp he.2

theorem Run.fared {M : Socket.Medium Socket.datagram} (run : Run M h c)
    (hl : ∀ e ∈ h, e.linkFails = false)
    (ho : ∀ error ∈ completions (onOutbound h), error = none) : Fared h c := by
  induction run with
  | create => exact ⟨rfl, fun ⟨e, f, hi, _⟩ => (by cases List.infix_nil.mp hi)⟩
  | change _ _ ih => exact ih hl ho
  | @move h c c' run m hm ih =>
    have st := step_of_perform hm
    have hb : ∀ error ∈ completions (onOutbound h), error = none := fun error he => by
      rw [onOutbound_snoc, Pipe.completions_append] at ho
      exact ho error (List.mem_append_left _ he)
    have hf := ih (fun e he => hl e (List.mem_append_left _ he)) hb
    rcases m.by_task .sender with ⟨pool, rfl⟩ | ht
    · exact hf.sender (stepSender_cases hm) pool
        (hl _ (List.mem_append_right _ (List.mem_singleton.mpr rfl)))
        (run.writerError_outbound hb)
    · exact hf.others st run.orderly ht

/-! ## Why a socket is closed -/

/-- The receive loop does not close the socket. -/
theorem ReceiverStep.closed {pool : BufferPool} (st : ReceiverStep pool c c') :
    Datagram.closed c'.socket = Datagram.closed c.socket := by
  cases st with
  | @wait call _ _ _ hp | @fail call _ _ _ hp | @finish call _ _ hp | @fill call _ _ _ hp =>
    have hk := Datagram.closed_pollReceive call c.socket
    change Datagram.pollReceive call c.socket = _ at hp
    rwa [hp] at hk
  | _ => rfl

/-- The send loop closes it in its last step only, and shuts the connection down. -/
theorem SenderStep.closed (st : SenderStep c c') :
    Datagram.closed c'.socket = Datagram.closed c.socket ∨ c'.aborted = true := by
  cases st with
  | shutdown => exact .inr c.aborted_shutdown
  | @wait call _ _ _ _ _ hp | @fail call _ _ _ _ _ hp | @sent call _ _ _ _ _ hp =>
    have hk := Datagram.closed_pollSend call c.socket
    change Datagram.pollSend call c.socket = _ at hp
    rw [hp] at hk
    exact .inl hk
  | _ => exact .inl rfl

/-- A socket is closed by a shutdown of its connection, by the driver, or by a start that fails. -/
theorem Run.closed_cause (run : Run .opened h c) (hc : Datagram.closed c.socket = true) :
    c.aborted = true ∨ 4 ≤ c.driver.stage ∨ c.starter.failed = true := by
  induction run with
  | create _ _ _ _ _ _ _ hs => cases hs.2.1.symm.trans hc
  | change _ hs ih =>
    obtain ⟨_, _, _, rfl⟩ := hs
    exact ih hc
  | @move h c c' run m hm ih =>
    have st := step_of_perform hm
    have kept (hc : Datagram.closed c.socket = true) :
        c'.aborted = true ∨ 4 ≤ c'.driver.stage ∨ c'.starter.failed = true := by
      rcases ih hc with ha | hd | hf
      · exact .inl (st.aborted_mono ha)
      · exact .inr (.inl (Nat.le_trans hd (st.driver_le run.orderly)))
      · exact .inr (.inr (st.failed_of_failed hf))
    cases st with
    | receiver st => exact kept (st.closed.symm.trans hc)
    | sender st =>
      rcases st.closed with hk | ha
      · exact kept (hk.symm.trans hc)
      · exact .inl ha
    | driver st =>
      cases st with
      | dispose => exact .inr (.inl (Nat.le_refl 4))
      | _ => exact kept hc
    | starter st =>
      cases st with
      | release => exact .inr (.inr rfl)
      | _ => exact kept hc
    | shutdown => exact .inl c.aborted_shutdown
    | _ => exact kept hc

theorem Event.closed_of_late {e : Event Socket.datagram} (hl : e.late = true) :
    (∃ call length last, e.before.sender = .sending call length last) ∧
      Datagram.closed e.before.socket = true := by
  simp only [late] at hl
  split at hl
  · rename_i call length last _ hs
    refine ⟨⟨call, length, last, hs⟩, ?_⟩
    simp only [Datagram.meetsClosed] at hl
    split at hl
    · exact hl
    · cases hl
  · cases hl

/-- A send is late without a shutdown of its connection only because the receive loop has ended and
the driver has disposed of the socket. -/
theorem Run.late_cause (run : Run .opened h c) (hl : Event.late ⟨c, m⟩ = true)
    (ha : c.aborted = false) : c.receiver = .finished ∧ 4 ≤ c.driver.stage := by
  have ho := run.orderly
  obtain ⟨⟨call, length, last, hs⟩, hc⟩ := Event.closed_of_late hl
  have hd : ¬ c.driver.stage ≤ 1 := fun hd => by
    rw [ho.sender.mpr hd] at hs; cases hs
  rcases run.closed_cause hc with hx | hd | hf
  · rw [ha] at hx; cases hx
  · refine ⟨(run.loopEnded (Nat.le_trans (by decide) hd)).resolve_right ?_, hd⟩
    rintro ⟨error, he⟩
    rw [hs] at he; cases he
  · rw [ho.started (by omega)] at hf; cases hf

/-! ## What the application is told -/

/-- No flush of the outbound pipe has failed, and the next one reports plain completion. -/
def FlushesPlainly {S : Socket} (h : List (Event S)) (c : Connection S) : Prop :=
  (∀ result ∈ (onOutbound h).filterMap Pipe.Event.flushed, Pipe.refusal result = none) ∧
    c.outbound.checkFlush.1 = some (.ok ⟨true⟩)

/-- How a teardown is told to the application. -/
structure TornDown (h : List (Event Socket.datagram)) (c : Connection Socket.datagram) : Prop where
  /-- Once the receive loop has ended and nothing can move, the driver has completed the outbound
  pipe. -/
  ends : ∀ pool, c.Quiet pool → c.receiver = .finished → 7 ≤ c.driver.stage
  /-- It has done so without an error unless a send has struck, and then with its failure. -/
  spared : 7 ≤ c.driver.stage → ¬ Struck h → readerCompletions (onOutbound h) = [none]
  struck : 7 ≤ c.driver.stage → Struck h →
    readerCompletions (onOutbound h) = [some (.io .socketShutDown)]
  /-- The flushes tell the difference. -/
  flushes : 7 ≤ c.driver.stage → (FlushesPlainly h c ↔ ¬ Struck h)
  /-- A send is late before a shutdown of the connection only after the disposal by the driver, for
  which the receive loop was the one to end. -/
  cause : ∀ e ∈ h, e.late = true → e.before.aborted = false →
    e.before.receiver = .finished ∧ 4 ≤ e.before.driver.stage

/-- **A teardown strikes by late sends only.** Take any run of a connection over a new datagram
socket in which the network takes every datagram that comes to it and the application does not
complete its output with an error. If the receive loop has ended, the outbound pipe gets completed:
without an error, so that no flush fails, exactly if no send was late with nobody having shut the
connection down by the next step of the send loop. -/
theorem teardown_silent_iff (run : Run .opened h c) (hl : ∀ e ∈ h, e.linkFails = false)
    (ho : ∀ error ∈ completions (onOutbound h), error = none) : TornDown h c := by
  have order := run.orderly
  -- What the driver completes the pipe with is what the send loop has ended with.
  have completed (hd : 7 ≤ c.driver.stage) : ∃ error : Option ConnectionError,
      readerCompletions (onOutbound h) = [error] ∧ (FlushesPlainly h c ↔ error = none) ∧
        (Struck h → error = some (.io .socketShutDown)) ∧ (¬ Struck h → error = none) := by
    obtain ⟨l₁, x, l₂, error, hx, ha, hr, hs⟩ := run.outbound_completed hd
    obtain ⟨options, hp⟩ := run.outbound
    have hf := run.fared hl ho
    rw [Fared, hs] at hf
    rw [FlushesPlainly, hx]
    rw [hx] at hp
    exact ⟨error, hp.linked.readerCompletions_eq ha hr, hp.linked.flushes_plainly_iff ha hr, hf.2⟩
  exact {
    ends := fun pool hq hr => by
      have wide : Run .datagram h c :=
        run.widen (fun s hs => ⟨hs.1, hs.2.2⟩) (fun s s' hs => hs)
      rcases wide.closed_or_heldUp Socket.datagram_endsOnDispose hq (.inl hr) with hc | hu
      · have hf : c.starter.failed = false := by
          rw [order.started (Nat.le_of_lt (Nat.lt_of_not_le fun hd => ?_))]
          · rfl
          · rw [order.receiver.mpr hd] at hr; cases hr
        refine Nat.le_of_not_lt fun hd => ?_
        have hn := order.held hf (Nat.le_of_lt hd)
        rw [hc.socket] at hn; cases hn
      · have hn := hu.receiver
        rw [hr] at hn; cases hn
    spared := fun hd hk => by
      obtain ⟨error, hx, -, -, hn⟩ := completed hd
      rw [hx, hn hk]
    struck := fun hd hk => by
      obtain ⟨error, hx, -, hs, -⟩ := completed hd
      rw [hx, hs hk]
    flushes := fun hd => by
      obtain ⟨error, -, hf, hs, hn⟩ := completed hd
      refine hf.trans ⟨fun he hk => ?_, hn⟩
      rw [hs hk] at he; cases he
    cause := fun e he hk ha => by
      obtain ⟨h₁, -, before⟩ := run.before he
      exact before.late_cause hk ha }

/-! ## A send overtaken by the driver -/

/-- A connection that has been offered a byte. -/
def offered : Connection Socket.datagram :=
  create Socket.datagram .empty (.ofPort 4433) (.ofPort 50000) 0 2048 {}
    { Datagram.create 4096 256 with queue := [[1]] }

/-- The application has read enough, so that the receive loop ends. The send loop has just begun to
send a byte when the driver disposes of the socket. -/
def overtaking : List Move :=
  launched ([.input (.complete none)] ++ steps 7 .receiver ++
    [.output (.getMemory { blockSize := 4096 } 1), .output (.fill 0 [7]), .output (.advance 1)] ++
    steps 3 .sender ++ steps 2 .driver ++ steps 3 .sender ++ steps 3 .driver)

def overtaken : Connection Socket.datagram := (offered.performAll overtaking).getD offered

theorem run_overtaken : Run .opened (offered.trace overtaking) overtaken := by
  have hc : Run .opened [] offered := .create _ _ _ _ _ _ _ ⟨rfl, rfl, rfl⟩
  have hm : offered.performAll overtaking = some overtaken := rfl
  exact hc.moves hm

theorem linked_overtaken : ∀ e ∈ offered.trace overtaking, e.linkFails = false := by decide

theorem clean_overtaken :
    ∀ error ∈ completions (onOutbound (offered.trace overtaking)), error = none := by decide

/-- The receive loop has ended without an error, and the next flush fails: the send was late. -/
theorem overtaken_send_reported :
    completions (onInbound (offered.trace overtaking)) = [none] ∧
      Struck (offered.trace overtaking) ∧
      readerCompletions (onOutbound (offered.trace overtaking)) = [some (.io .socketShutDown)] ∧
      ¬ FlushesPlainly (offered.trace overtaking) overtaken := by
  have told : TornDown (offered.trace overtaking) overtaken :=
    teardown_silent_iff run_overtaken linked_overtaken clean_overtaken
  have hd : 7 ≤ overtaken.driver.stage := Nat.le_refl 7
  have next : overtaken.outbound.checkFlush.1 = some (.error (.io .socketShutDown)) := rfl
  have hn : ¬ FlushesPlainly (offered.trace overtaking) overtaken := fun hf => by
    cases next.symm.trans hf.2
  have hk : Struck (offered.trace overtaking) :=
    Classical.byContradiction fun hk => hn ((told.flushes hd).mpr hk)
  exact ⟨rfl, hk, told.struck hd hk, hn⟩

/-- The driver finds the receive loop ended, and the send loop not. -/
def Event.drainsFirst {S : Socket} (e : Event S) : Prop :=
  (∃ pool, e.move = .task pool .driver) ∧ e.before.driver = .watching ∧
    e.before.receiver = .finished ∧ ∀ error, e.before.sender ≠ .finished error

/-- Not every teardown after a receive loop that has ended without an error goes without one. -/
theorem teardown_not_silent :
    ¬ ∀ (h : List (Event Socket.datagram)) (c : Connection Socket.datagram), Run .opened h c →
      (∃ e ∈ h, e.drainsFirst) → completions (onInbound h) = [none] →
      readerCompletions (onInbound h) = [none] → (∀ e ∈ h, e.linkFails = false) →
      (∀ error ∈ completions (onOutbound h), error = none) → 7 ≤ c.driver.stage →
      readerCompletions (onOutbound h) = [none] ∧ FlushesPlainly h c := by
  intro hs
  -- The driver's first move after it has launched the loops.
  have drain : ∃ e ∈ offered.trace overtaking, e.drainsFirst := by
    refine ⟨(offered.trace overtaking)[18], List.getElem_mem _, ⟨_, rfl⟩, rfl, rfl, ?_⟩
    intro error he
    cases he
  have hn := (hs _ _ run_overtaken drain rfl rfl linked_overtaken clean_overtaken
    (Nat.le_refl 7)).1
  cases hn

end Connection

end Duplex
