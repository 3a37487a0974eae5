import Duplex.Proofs.Connection.Lifecycle
import Duplex.Proofs.Pipe.Wakeup

/-!
# What the loops wait for

The receive loop waits for its receive and for its flush of the inbound pipe, the send loop for
its send and for its read of the outbound pipe. The waits on the pipes are guarded
(`Run.writable`, `Run.readable`), and the calls on the socket are uses of it, disposed of once the
driver has come that far (`Run.used`).
-/

namespace Duplex

/-- Where the flush stands that a receive loop is in. -/
def Receiver.flush? {ρ : Type} : Receiver ρ → Option Pipe.Await
  | flushing call => some call
  | _ => none

/-- Where the read stands that a send loop is in. -/
def Sender.read? {τ : Type} : Sender τ → Option Pipe.Await
  | reading call => some call
  | _ => none

namespace Connection

variable {S : Socket} {M : Socket.Medium S}

/-! ## Moves of others -/

/-- Only the receive loop writes to the inbound pipe. Others at most complete it. -/
theorem onInbound_others (c : Connection S) {m : Move} (hm : ∀ pool, m ≠ .task pool .receiver) :
    ∀ a ∈ Event.onInbound ⟨c, m⟩, (∃ access, a = .reader access) ∨ a = .cancel ∨
      a = .writer (.complete none) := by
  intro a ha
  cases m with
  | task pool task =>
    cases task with
    | receiver => exact absurd rfl (hm pool)
    | driver => simp only [Event.onInbound] at ha; split at ha <;> simp_all
    | starter => simp only [Event.onInbound] at ha; split at ha <;> simp_all
    | sender | closer => simp [Event.onInbound] at ha
  | panic =>
    simp only [Event.onInbound, List.mem_cons, List.not_mem_nil, or_false] at ha
    rcases ha with rfl | rfl
    · exact .inl ⟨_, rfl⟩
    · exact .inr (.inr rfl)
  | _ => simp_all [Event.onInbound]

/-- Only the send loop reads from the outbound pipe. Others at most complete it. -/
theorem onOutbound_others (c : Connection S) {m : Move} (hm : ∀ pool, m ≠ .task pool .sender) :
    ∀ a ∈ Event.onOutbound ⟨c, m⟩, (∃ access, a = .writer access) ∨ a = .cancel ∨
      ∃ error, a = .reader (.complete error) := by
  intro a ha
  cases m with
  | task pool task =>
    cases task with
    | sender => exact absurd rfl (hm pool)
    | driver => simp only [Event.onOutbound] at ha; repeat' split at ha <;> simp_all
    | starter => simp only [Event.onOutbound] at ha; split at ha <;> simp_all
    | receiver | closer => simp [Event.onOutbound] at ha
  | panic =>
    simp only [Event.onOutbound, List.mem_cons, List.not_mem_nil, or_false] at ha
    rcases ha with rfl | rfl
    · exact .inl ⟨_, rfl⟩
    · exact .inr (.inr ⟨_, rfl⟩)
  | _ => simp_all [Event.onOutbound]

/-- Only the receive loop moves itself, once it runs. -/
theorem Step.receiver_eq {c c' : Connection S} {m : Move} (st : Step c m c')
    (hm : ∀ pool, m ≠ .task pool .receiver) :
    c'.receiver = c.receiver ∨ c.driver = .launching ∧ c'.receiver = .staging := by
  cases st with
  | receiver => exact absurd rfl (hm _)
  | sender st => obtain ⟨_, _, _, _, _, rfl, -⟩ := st.frame; exact .inl rfl
  | driver st =>
    cases st with
    | launch h => exact .inr ⟨h, rfl⟩
    | _ => exact .inl rfl
  | starter st => cases st <;> exact .inl rfl
  | shutdown => obtain ⟨_, _, e, -⟩ := c.shutdown_frame; rw [e]; exact .inl rfl
  | _ => exact .inl rfl

/-- Only the send loop moves itself, once it runs. -/
theorem Step.sender_eq {c c' : Connection S} {m : Move} (st : Step c m c')
    (hm : ∀ pool, m ≠ .task pool .sender) :
    c'.sender = c.sender ∨ c.driver = .launching ∧ c'.sender = .reading .checking := by
  cases st with
  | receiver st => obtain ⟨_, _, _, rfl, -⟩ := st.frame; exact .inl rfl
  | sender => exact absurd rfl (hm _)
  | driver st =>
    cases st with
    | launch h => exact .inr ⟨h, rfl⟩
    | _ => exact .inl rfl
  | starter st => cases st <;> exact .inl rfl
  | shutdown => obtain ⟨_, _, e, -⟩ := c.shutdown_frame; rw [e]; exact .inl rfl
  | _ => exact .inl rfl

/-- A receive loop that has ended stays so. -/
theorem Step.receiver_finished {c c' : Connection S} {m : Move} (st : Step c m c') (ho : Orderly c)
    (hr : c.receiver = .finished) : c'.receiver = .finished := by
  rcases m.by_task .receiver with ⟨pool, rfl⟩ | ht
  · cases st with
    | receiver st =>
      obtain ⟨_, _, _, -, -, hn, -⟩ := st.frame
      exact absurd hr hn
  · rcases st.receiver_eq ht with e | ⟨hd, -⟩
    · exact e.trans hr
    · rw [(ho.of_launching hd).1] at hr; cases hr

/-- A send loop that has ended stays so. -/
theorem Step.sender_finished {c c' : Connection S} {m : Move} {error : Option ConnectionError}
    (st : Step c m c') (ho : Orderly c) (hs : c.sender = .finished error) :
    c'.sender = .finished error := by
  rcases m.by_task .sender with ⟨pool, rfl⟩ | ht
  · cases st with
    | sender st =>
      obtain ⟨_, _, _, _, _, -, -, hn, -⟩ := st.frame
      exact absurd hs (hn error)
  · rcases st.sender_eq ht with e | ⟨hd, -⟩
    · exact e.trans hs
    · rw [(ho.of_launching hd).2.1] at hs; cases hs

/-! ## Waits on the pipes -/

/-- The receive loop sleeps in a flush only while the application keeps it waiting. -/
theorem Run.writable {h : List (Event S)} {c : Connection S} (run : Run M h c) :
    Pipe.Guards c.inbound.writable c.receiver.flush? c.inbound.WriterBlocked := by
  induction run with
  | create => exact rfl
  | change _ _ ih => exact ih
  | @move h c c' run m hm ih =>
    have st := step_of_perform hm
    rcases m.by_task .receiver with ⟨pool, rfl⟩ | hr
    · cases st with
      | receiver st =>
        cases st with
        | stage h =>
          rw [h] at ih
          exact Pipe.guards_writable_perform (.writer (.getMemory pool c.minimumReceive)) rfl ih
        | fill h _ _ =>
          rw [h] at ih
          exact Pipe.guards_writable_perform (.writer (.fill 0 _)) rfl ih
        | commit h =>
          rw [h] at ih
          exact Pipe.guards_writable_perform (.writer (.advance _)) rfl ih
        | complete h =>
          rw [h] at ih
          exact Pipe.guards_writable_perform (.writer (.complete _)) rfl ih
        | flush h hf => rw [h] at ih; have := Pipe.Guards.flush ih; rwa [hf] at this
        | flushFail h hf => rw [h] at ih; have := Pipe.Guards.flush ih; rwa [hf] at this
        | @flushed call result inbound h hf =>
          rw [h] at ih
          have := Pipe.Guards.flush ih
          rw [hf] at this
          obtain ⟨_ | _⟩ := result <;> exact this
        | wait h | fail h | finish h | classify h | confirm h => rw [h] at ih; exact ih
    · have hi : Pipe.Guards c'.inbound.writable c.receiver.flush? c'.inbound.WriterBlocked := by
        rw [st.inbound]
        refine Pipe.performAll_induct (P := fun p => Pipe.Guards p.writable _ p.WriterBlocked)
          (fun a ha p hp => Pipe.guards_writable_perform a ?_ hp) ih
        rcases onInbound_others c hr a ha with ⟨_, rfl⟩ | rfl | rfl <;> rfl
      rcases st.receiver_eq hr with e | ⟨hd, e⟩
      · rwa [e]
      · rw [(run.orderly.of_launching hd).1] at hi
        rwa [e]

/-- The inbound pipe is marked paused only during a flush, or once its reader has completed. -/
theorem Run.paused {h : List (Event S)} {c : Connection S} (run : Run M h c)
    (hp : c.inbound.writerPaused = true) :
    c.receiver.flush? ≠ none ∨ c.inbound.readerCompleted = true := by
  induction run with
  | create => cases hp
  | change _ _ ih => exact ih hp
  | @move h c c' run m hm ih =>
    have st := step_of_perform hm
    have hold (hf : ∀ a ∈ Event.onInbound ⟨c, m⟩, a.ofFlush = false) :
        c.receiver.flush? ≠ none ∨ c'.inbound.readerCompleted = true := by
      have hq : c'.inbound.writerPaused = c.inbound.writerPaused ∧
          (c.inbound.readerCompleted = true → c'.inbound.readerCompleted = true) := by
        rw [st.inbound]
        refine Pipe.performAll_induct (P := fun p => p.writerPaused = c.inbound.writerPaused ∧
          (c.inbound.readerCompleted = true → p.readerCompleted = true)) (fun a ha p hp => ?_)
          ⟨rfl, fun hr => hr⟩
        refine ⟨(Pipe.writerPaused_perform a (hf a ha) p).trans hp.1, fun hr => ?_⟩
        rw [(Pipe.completed_perform a p).1, hp.2 hr, Bool.true_or]
      exact (ih (hq.1.symm.trans hp)).imp_right hq.2
    rcases m.by_task .receiver with ⟨pool, rfl⟩ | hr
    · cases st with
      | receiver st =>
        cases st with
        | flush => exact .inl (by simp [Receiver.flush?])
        | flushFail h hf | flushed h hf =>
          obtain rfl : _ = _ := congrArg Prod.snd hf
          exact .inr (Pipe.paused_of_flush_done (congrArg Prod.fst hf) hp)
        | commit => exact .inl (by simp [Receiver.flush?])
        | stage h | wait h | fail h | finish h | fill h | classify h | confirm h | complete h =>
          have hn := hold (by simp [Event.onInbound, h, Pipe.Access.ofFlush])
          simp only [h, Receiver.flush?] at hn
          exact hn
    · have hn := hold fun a ha => by
        rcases onInbound_others c hr a ha with ⟨_, rfl⟩ | rfl | rfl <;> rfl
      rcases st.receiver_eq hr with e | ⟨hd, e⟩
      · rwa [e]
      · rw [(run.orderly.of_launching hd).1] at hn
        rwa [e]

/-- The send loop sleeps in a read only while there is nothing to read. -/
theorem Run.readable {h : List (Event S)} {c : Connection S} (run : Run M h c) :
    Pipe.Guards c.outbound.readable c.sender.read? c.outbound.ReaderBlocked := by
  induction run with
  | create => exact rfl
  | change _ _ ih => exact ih
  | @move h c c' run m hm ih =>
    have st := step_of_perform hm
    rcases m.by_task .sender with ⟨pool, rfl⟩ | hs
    · cases st with
      | sender st =>
        cases st with
        | read h hr | readFail h hr | canceled h hr | found h hr =>
          rw [h] at ih; have := Pipe.Guards.read ih; rwa [hr] at this
        | @empty call result outbound h hr =>
          rw [h] at ih
          have := Pipe.Guards.read ih
          rw [hr] at this
          obtain ⟨_, _, _ | _⟩ := result <;> exact this
        | @consume length last h =>
          rw [h] at ih
          have := Pipe.guards_readable_perform (.reader (.consume length)) rfl ih
          cases last <;> exact this
        | shutdown h =>
          obtain ⟨_, _, e, -⟩ := c.shutdown_frame
          rw [h] at ih; rw [e]; exact ih
        | send h | sendVectored h | wait h | fail h | sent h | count h | classify h =>
          rw [h] at ih; exact ih
    · have hi : Pipe.Guards c'.outbound.readable c.sender.read? c'.outbound.ReaderBlocked := by
        rw [st.outbound]
        refine Pipe.performAll_induct (P := fun p => Pipe.Guards p.readable _ p.ReaderBlocked)
          (fun a ha p hp => Pipe.guards_readable_perform a ?_ hp) ih
        rcases onOutbound_others c hs a ha with ⟨_, rfl⟩ | rfl | ⟨_, rfl⟩ <;> rfl
      rcases st.sender_eq hs with e | ⟨hd, e⟩
      · rwa [e]
      · rw [(run.orderly.of_launching hd).2.1] at hi
        rwa [e]

/-! ## Uses of the socket -/

/-- The regions of the send that a move begins. -/
def Event.handed (e : Event S) : List (List Bytes) :=
  match e.move, e.before.sender with
  | .task _ .sender, .listing _ => [e.before.outbound.regions]
  | _, _ => []

/-- The regions of the sends that the moves of a history began, send by send. -/
def handed (h : List (Event S)) : List (List Bytes) := h.flatMap Event.handed

@[simp] theorem handed_snoc (h : List (Event S)) (e : Event S) :
    handed (h ++ [e]) = handed h ++ e.handed := by
  simp [handed]

/-- The receive in flight, and the length of its buffer. -/
def receiving? (c : Connection S) : Option (S.Receive × Nat) :=
  match c.receiver with
  | .receiving call => some (call, c.inbound.region.length)
  | _ => none

/-- The send in flight, given its regions. -/
def sending? (c : Connection S) (regions : List Bytes) : Option (S.Send × List Bytes) :=
  match c.sender with
  | .sending call _ _ => some (call, regions)
  | _ => none

/-- The regions of the latest send. -/
def latest (h : List (Event S)) : List Bytes := (handed h).getLastD []

theorem latest_snoc_eq {h : List (Event S)} {e : Event S} (he : e.handed = []) :
    latest (h ++ [e]) = latest h := by
  rw [latest, latest, handed_snoc, he, List.append_nil]

theorem latest_snoc_listing {h : List (Event S)} {c : Connection S} {pool : BufferPool}
    {last : Bool} (hl : c.sender = .listing last) :
    latest (h ++ [⟨c, .task pool .sender⟩]) = c.outbound.regions := by
  simp [latest, Event.handed, hl]

theorem ReceiverStep.used {pool : BufferPool} {c c' : Connection S} {t d}
    (st : ReceiverStep pool c c') (u : M.Used c.receiving? t d c.socket) :
    M.Used c'.receiving? t d c'.socket := by
  cases st with
  | stage h =>
    simp only [receiving?, h] at u
    exact u.receive _
  | wait h hp =>
    simp only [receiving?, h] at u
    exact u.receiveAgain hp
  | fail h hp | finish h hp | fill h hp =>
    simp only [receiving?, h] at u
    exact u.receiveDone hp
  | commit h | flush h | flushFail h | classify h | confirm h | complete h =>
    simp only [receiving?, h] at u
    exact u
  | @flushed call result inbound h =>
    simp only [receiving?, h] at u
    obtain ⟨_ | _⟩ := result <;> exact u

theorem SenderStep.used {h : List (Event S)} {c c' : Connection S} {r d} (st : SenderStep c c')
    (pool : BufferPool) (u : M.Used r (c.sending? (latest h)) d c.socket) :
    M.Used r (c'.sending? (latest (h ++ [⟨c, .task pool .sender⟩]))) d c'.socket := by
  cases st with
  | send hs hr =>
    rw [latest_snoc_listing hs, hr]
    simp only [sending?, hs] at u
    exact u.send _
  | sendVectored hs =>
    rw [latest_snoc_listing hs]
    simp only [sending?, hs] at u
    exact u.sendVectored _
  | wait hs hp =>
    rw [latest_snoc_eq (by simp only [Event.handed, hs])]
    simp only [sending?, hs] at u
    exact u.sendAgain hp
  | fail hs hp | sent hs hp =>
    simp only [sending?, hs] at u
    exact u.sendDone hp
  | @empty call result outbound hs =>
    simp only [sending?, hs] at u
    obtain ⟨_, _, _ | _⟩ := result <;> exact u
  | @consume length last hs =>
    simp only [sending?, hs] at u
    cases last <;> exact u
  | shutdown hs =>
    simp only [sending?, hs] at u
    obtain ⟨_, _, e, hk⟩ := c.shutdown_frame
    rw [e]
    rcases hk with rfl | rfl
    · exact u
    · exact u.shutdown
  | read hs | readFail hs | canceled hs | found hs | count hs | classify hs =>
    simp only [sending?, hs] at u
    exact u

/-- The loops use the socket one receive and one send at a time, and once the driver has come
that far it is disposed of. -/
theorem Run.used {h : List (Event S)} {c : Connection S} (run : Run M h c) :
    ∃ disposed, M.Used c.receiving? (c.sending? (latest h)) disposed c.socket ∧
      (4 ≤ c.driver.stage → disposed = true) := by
  induction run with
  | create _ _ _ _ _ _ _ hs => exact ⟨false, .initial hs, nofun⟩
  | change _ hs ih =>
    obtain ⟨d, u, hd⟩ := ih
    exact ⟨d, u.change hs, hd⟩
  | @move h c c' run m hm ih =>
    obtain ⟨d, u, hd⟩ := ih
    cases step_of_perform hm with
    | receiver st =>
      have u' := st.used u
      obtain ⟨_, _, _, rfl, -⟩ := st.frame
      exact ⟨d, by rw [latest_snoc_eq rfl]; exact u', hd⟩
    | @sender pool c' st =>
      have u' := st.used pool u
      obtain ⟨_, _, _, _, _, rfl, -⟩ := st.frame
      exact ⟨d, u', hd⟩
    | driver st =>
      rw [latest_snoc_eq rfl]
      cases st with
      | launch h =>
        obtain ⟨hr, ht, -⟩ := run.orderly.of_launching h
        simp only [receiving?, sending?, hr, ht] at u
        exact ⟨d, u, by simp [Driver.stage]⟩
      | giveUp h hs => rw [(run.orderly.of_launching h).2.2] at hs; cases hs
      | dispose h => exact ⟨true, u.dispose, fun _ => rfl⟩
      | drain h => exact ⟨d, u, by simp [Driver.stage]⟩
      | cancel h | join h | complete h | release h | close h | announce h =>
        exact ⟨d, u, fun _ => hd (by rw [h]; simp [Driver.stage])⟩
    | starter st =>
      rw [latest_snoc_eq rfl]
      have hs : c.starter ≠ .over none := by cases st <;> simp [*]
      obtain ⟨hz, hr, ht, -⟩ := run.orderly.unborn hs
      simp only [receiving?, sending?, hr, ht] at u
      cases st with
      | spawn h =>
        simp only [receiving?, sending?, hr, ht]
        exact ⟨d, u, by simp [Driver.stage]⟩
      | release h =>
        simp only [receiving?, sending?, hr, ht]
        split
        · exact ⟨true, u.dispose, fun _ => rfl⟩
        · exact ⟨d, u, hd⟩
      | close h | signal h | finish h =>
        simp only [receiving?, sending?, dropLoopEnds, hr, ht]
        exact ⟨d, u, hd⟩
    | start h | accept h | refuse h | closer h =>
      rw [latest_snoc_eq rfl]; exact ⟨d, u, hd⟩
    | panic h =>
      rw [latest_snoc_eq rfl]
      obtain ⟨-, hr, ht, -⟩ := run.orderly.unborn (by simp [h])
      simp only [receiving?, sending?, dropLoopEnds, dropApplicationEnds, hr, ht] at u ⊢
      exact ⟨d, u, hd⟩
    | output h | cancelOutput | cancelInput | fireClosed =>
      rw [latest_snoc_eq rfl]; exact ⟨d, u, hd⟩
    | @input access h =>
      rw [latest_snoc_eq rfl]
      refine ⟨d, ?_, hd⟩
      simp only [receiving?, Pipe.region_reader]; exact u
    | shutdown =>
      rw [latest_snoc_eq rfl]
      obtain ⟨_, _, e, hk⟩ := c.shutdown_frame
      rw [e]
      rcases hk with rfl | rfl
      · exact ⟨d, u, hd⟩
      · exact ⟨d, u.shutdown, hd⟩

end Connection

end Duplex
