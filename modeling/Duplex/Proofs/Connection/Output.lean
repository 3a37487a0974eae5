import Duplex.Proofs.Connection.Counts
import Duplex.Proofs.Connection.Recording
import Duplex.Proofs.Pipe.Stream

/-!
# What the application sends

The send loop hands the socket what is buffered and then releases as much as it handed over. What
it has handed over and not yet released is the front of what is buffered (`Accounted`), since
nobody else takes anything out, so that all it ever hands over is a front of what the application
committed. If the loop ends because the application has completed its output, nothing that was
committed before is left (`Owes`). `output_delivered` puts both together with the counter, over a
socket that records what it is handed.
-/

namespace Duplex

open scoped Numbers

/-- How much the send loop has handed over and not released, as long as it is in its loop. -/
def Sender.ahead? {τ : Type} : Sender τ → Option Nat
  | unborn | reading _ | listing _ => some 0
  | sending _ length _ | counting _ length _ | consuming length _ => some length
  | classifying _ | shuttingDown _ | finished _ => none

namespace Connection

variable {S : Socket} {M : Socket.Medium S}

/-- What the send loop has handed to the socket, in order. -/
def handedBytes (h : List (Event S)) : Bytes := (handed h).flatten.flatten

/-- What the read reports that a move of the send loop ends. -/
def Event.readEnd (e : Event S) : List (Except ConnectionError ReadResult) :=
  match e.move, e.before.sender with
  | .task _ .sender, .reading call =>
    match (e.before.outbound.read call).1 with
    | .done result => [result]
    | _ => []
  | _, _ => []

/-- What the latest read of the send loop reported. -/
def lastRead (h : List (Event S)) : Option (Except ConnectionError ReadResult) :=
  (h.flatMap Event.readEnd).getLast?

/-- The latest read of the send loop found the output completed without being cut short, and no
send has failed. -/
def EndedWell (h : List (Event S)) : Prop :=
  (∃ r, lastRead h = some (.ok r) ∧ r.canceled = false ∧ r.completed = true) ∧
    ∀ error, .error error ∉ outcomes h

/-- The application has completed its output, and all that it committed before was handed over. -/
def Drained (h : List (Event S)) (c : Connection S) : Prop :=
  c.outbound.writerCompleted = true ∧ Pipe.early (onOutbound h) <+: handedBytes h

/-- What was handed over is what was released and the first `n` bytes of the pipe. -/
def AheadBy (n : Nat) (h : List (Event S)) (p : Pipe) : Prop :=
  n ≤ p.content.length ∧ handedBytes h = Pipe.taken (onOutbound h) ++ p.content.take n

/-- What the send loop hands over is in order: a front of what was committed, and ahead of the
releases only by what is at the front of the pipe. -/
structure Accounted (h : List (Event S)) (c : Connection S) : Prop where
  front : handedBytes h <+: Pipe.committed (onOutbound h)
  ahead : ∀ n, c.sender.ahead? = some n → AheadBy n h c.outbound

/-- What a send loop that is on its last round owes. -/
def Owes (h : List (Event S)) (c : Connection S) : Prop :=
  match c.sender with
  | .listing true => c.outbound.writerCompleted = true
  | .sending _ _ true | .counting _ _ true | .consuming _ true => Drained h c
  | .classifying _ | .shuttingDown _ | .finished _ => EndedWell h → Drained h c
  | _ => True

/-! ## Moves of others -/

/-- Others than the send loop take nothing out of the outbound pipe. -/
theorem taken_others {accesses : List Pipe.Access} (ha : ∀ a ∈ accesses,
      (∃ access, a = .writer access) ∨ a = .cancel ∨ ∃ error, a = .reader (.complete error))
    (p : Pipe) : Pipe.taken (Pipe.trace p accesses) = [] := by
  induction accesses generalizing p with
  | nil => rfl
  | cons a accesses ih =>
    rw [Pipe.trace, Pipe.taken_cons, ih (fun b hb => ha b (List.mem_cons_of_mem _ hb)),
      List.append_nil]
    rcases ha a (List.mem_cons_self ..) with ⟨_, rfl⟩ | rfl | ⟨_, rfl⟩ <;> rfl

/-- While the send loop is in its loop nobody has completed the reader of its pipe. -/
theorem Orderly.reader_of_looping {c : Connection S} (ho : Orderly c)
    (hl : c.sender.looping = true) : c.outbound.readerCompleted = false := by
  have hd : ¬ c.driver.stage ≤ 1 := fun hd => by
    rw [ho.sender.mpr hd] at hl; cases hl
  have hd' : ¬ 6 ≤ c.driver.stage := fun hd => by
    obtain ⟨_, e⟩ := (ho.finished hd).2
    rw [e] at hl; cases hl
  have hs : c.starter.failed = false := by rw [ho.started (by omega)]; rfl
  exact ho.reading hs (by omega)

/-- What was taken out and what is buffered is what was committed, while the loop goes on. -/
theorem Run.outbound_stream {h : List (Event S)} {c : Connection S} (run : Run M h c)
    (hr : c.outbound.readerCompleted = false) :
    c.outbound.Sound ∧
      Pipe.taken (onOutbound h) ++ c.outbound.content = Pipe.committed (onOutbound h) := by
  obtain ⟨options, hp⟩ := run.outbound
  exact ⟨hp.sound (Pipe.sound_create options), hp.stream (Pipe.sound_create options) hr⟩

/-- The histories that a move of others leaves alone. -/
theorem Step.records_others {c c' : Connection S} {m : Move} (st : Step c m c') (ho : Orderly c)
    (hm : ∀ pool, m ≠ .task pool .sender) (h : List (Event S)) :
    handedBytes (h ++ [⟨c, m⟩]) = handedBytes h ∧ (EndedWell (h ++ [⟨c, m⟩]) ↔ EndedWell h) := by
  obtain ⟨hh, hc, -⟩ := st.sends_others ho hm
  have hr : Event.readEnd ⟨c, m⟩ = [] := by
    simp only [Event.readEnd]
    split
    · exact absurd rfl (hm _)
    · rfl
  constructor
  · rw [handedBytes, handed_snoc, hh, List.append_nil, ← handedBytes]
  · simp only [EndedWell, lastRead, List.flatMap_append, List.flatMap_cons, List.flatMap_nil, hr,
      outcomes_snoc, hc, List.append_nil]

/-- What a move does to the outbound pipe is a run of that pipe. -/
theorem Step.outbound_run {c c' : Connection S} {m : Move} (st : Step c m c') :
    Pipe.Run c.outbound (Pipe.trace c.outbound (Event.onOutbound ⟨c, m⟩)) c'.outbound := by
  rw [st.outbound]
  exact Pipe.run_trace _ _

theorem Drained.others {h : List (Event S)} {c c' : Connection S} {m : Move} (hd : Drained h c)
    (st : Step c m c') (ho : Orderly c) (hm : ∀ pool, m ≠ .task pool .sender) :
    Drained (h ++ [⟨c, m⟩]) c' := by
  refine ⟨st.outbound_run.writerCompleted_mono hd.1, ?_⟩
  rw [onOutbound_snoc, Pipe.early_append, st.outbound_run.early_eq_nil hd.1, List.append_nil,
    (st.records_others ho hm h).1]
  exact hd.2

theorem Owes.others {h : List (Event S)} {c c' : Connection S} {m : Move} (hw : Owes h c)
    (st : Step c m c') (ho : Orderly c) (hm : ∀ pool, m ≠ .task pool .sender) :
    Owes (h ++ [⟨c, m⟩]) c' := by
  have hdr (hd : Drained h c) := hd.others st ho hm
  have hen := (st.records_others ho hm h).2
  rcases st.sender_eq hm with e | ⟨-, e⟩
  · revert hw
    simp only [Owes, e, hen]
    split <;> intro hw
    case h_1 => exact st.outbound_run.writerCompleted_mono hw
    case h_2 | h_3 | h_4 => exact hdr hw
    case h_5 | h_6 | h_7 => exact fun h => hdr (hw h)
    case h_8 => trivial
  · simp only [Owes, e]

theorem Sender.eq_zero_or_looping {τ : Type} {s : Sender τ} {n : Nat} (h : s.ahead? = some n) :
    n = 0 ∨ s.looping = true := by
  cases s with
  | unborn => exact .inl (Option.some_inj.mp h).symm
  | classifying | shuttingDown | finished => cases h
  | _ => exact .inr rfl

theorem Accounted.others {h : List (Event S)} {c c' : Connection S} {m : Move}
    (ha : Accounted h c) (st : Step c m c') (run : Run M h c) (ho : Orderly c')
    (hm : ∀ pool, m ≠ .task pool .sender) : Accounted (h ++ [⟨c, m⟩]) c' := by
  have hh := (st.records_others run.orderly hm h).1
  have ht := taken_others (onOutbound_others c hm) c.outbound
  refine ⟨?_, fun n hn => ?_⟩
  · rw [hh, onOutbound_snoc, Pipe.committed_append]
    exact ha.front.trans (List.prefix_append _ _)
  · rw [AheadBy, hh, onOutbound_snoc, Pipe.taken_append, ht, List.append_nil]
    have hc : c.sender.ahead? = some n := by
      rcases st.sender_eq hm with e | ⟨hd, e⟩
      · rwa [← e]
      · rw [(run.orderly.of_launching hd).2.1]
        rwa [e] at hn
    obtain ⟨hl, he⟩ := ha.ahead n hc
    rcases Sender.eq_zero_or_looping hn with rfl | hloop
    · exact ⟨Nat.zero_le _, by rw [he, List.take_zero, List.take_zero]⟩
    · -- The loop is alive, so the pipe still takes what is committed, behind the first `n` bytes.
      have hr := ho.reader_of_looping hloop
      obtain ⟨options, hp⟩ := run.outbound
      have hs := st.outbound_run.stream (hp.sound (Pipe.sound_create options)) hr
      rw [ht, List.nil_append] at hs
      rw [hs, List.take_append_of_le_length hl, List.length_append]
      exact ⟨Nat.le_add_right_of_le hl, he⟩

/-! ## Steps of the send loop -/

/-- The send loop commits nothing. -/
theorem committed_sender (h : List (Event S)) (c : Connection S) (pool : BufferPool) :
    Pipe.committed (onOutbound (h ++ [⟨c, .task pool .sender⟩])) = Pipe.committed (onOutbound h) ∧
      Pipe.early (onOutbound (h ++ [⟨c, .task pool .sender⟩])) = Pipe.early (onOutbound h) := by
  have he (a : Pipe.ReaderAccess) : Pipe.early [⟨c.outbound, .reader a⟩] = [] := by
    rw [Pipe.early_singleton]; split <;> rfl
  rw [onOutbound_snoc, Pipe.committed_append, Pipe.early_append]
  simp only [Event.onOutbound]
  split
  · exact ⟨List.append_nil _, by rw [Pipe.trace, Pipe.trace, he, List.append_nil]⟩
  · exact ⟨List.append_nil _, by rw [Pipe.trace, Pipe.trace, he, List.append_nil]⟩
  · exact ⟨List.append_nil _, List.append_nil _⟩

theorem handedBytes_listing {h : List (Event S)} {c : Connection S} {last : Bool}
    (pool : BufferPool) (hs : c.sender = .listing last) :
    handedBytes (h ++ [⟨c, .task pool .sender⟩]) = handedBytes h ++ c.outbound.content := by
  simp only [handedBytes, handed_snoc, Event.handed, hs, List.flatten_append]
  simp [Pipe.content, Pipe.regions]

theorem handedBytes_sender {h : List (Event S)} {c : Connection S} (pool : BufferPool)
    (hs : ∀ last, c.sender ≠ .listing last) :
    handedBytes (h ++ [⟨c, .task pool .sender⟩]) = handedBytes h := by
  have hn : Event.handed ⟨c, .task pool .sender⟩ = [] := by
    simp only [Event.handed]
    split
    · rename_i hl; exact absurd hl (hs _)
    · rfl
  rw [handedBytes, handed_snoc, hn, List.append_nil, ← handedBytes]

theorem taken_consuming {h : List (Event S)} {c : Connection S} {length : Nat} {last : Bool}
    (pool : BufferPool) (hs : c.sender = .consuming length last) :
    Pipe.taken (onOutbound (h ++ [⟨c, .task pool .sender⟩])) =
      Pipe.taken (onOutbound h) ++ c.outbound.content.take length := by
  simp only [onOutbound_snoc, Event.onOutbound, hs, Pipe.taken_append]
  congr 1
  exact List.append_nil _

theorem taken_sender {h : List (Event S)} {c : Connection S} (pool : BufferPool)
    (hs : ∀ length last, c.sender ≠ .consuming length last) :
    Pipe.taken (onOutbound (h ++ [⟨c, .task pool .sender⟩])) = Pipe.taken (onOutbound h) := by
  simp only [onOutbound_snoc, Event.onOutbound, Pipe.taken_append]
  split
  · exact List.append_nil _
  · rename_i hc; exact absurd hc (hs _ _)
  · exact List.append_nil _

theorem aheadBy_zero {h : List (Event S)} {p : Pipe} :
    AheadBy 0 h p ↔ handedBytes h = Pipe.taken (onOutbound h) := by
  rw [AheadBy, List.take_zero, List.append_nil]
  exact ⟨And.right, fun e => ⟨Nat.zero_le _, e⟩⟩

/-- What is handed over is all that is buffered, and with it all that was committed. -/
theorem Accounted.listing {h : List (Event S)} {c : Connection S} {last : Bool}
    (ha : Accounted h c) (run : Run M h c) (hs : c.sender = .listing last) :
    handedBytes h = Pipe.taken (onOutbound h) ∧
      handedBytes h ++ c.outbound.content = Pipe.committed (onOutbound h) := by
  have hz := aheadBy_zero.mp (ha.ahead 0 (by rw [hs]; rfl))
  refine ⟨hz, ?_⟩
  rw [hz]
  exact (run.outbound_stream (run.orderly.reader_of_looping (by rw [hs]; rfl))).2

theorem Accounted.front_sender {h : List (Event S)} {c : Connection S} (ha : Accounted h c)
    (run : Run M h c) (pool : BufferPool) :
    handedBytes (h ++ [⟨c, .task pool .sender⟩]) <+:
      Pipe.committed (onOutbound (h ++ [⟨c, .task pool .sender⟩])) := by
  rw [(committed_sender h c pool).1]
  by_cases hs : ∃ last, c.sender = .listing last
  · obtain ⟨last, hs⟩ := hs
    have he := (handedBytes_listing pool hs).trans (ha.listing run hs).2
    exact he ▸ List.prefix_rfl
  · rw [handedBytes_sender pool fun last e => hs ⟨last, e⟩]
    exact ha.front

/-- A step that neither hands over nor releases anything, and leaves the bytes alone. -/
theorem Accounted.keep {h : List (Event S)} {c : Connection S} (ha : Accounted h c)
    (pool : BufferPool) {n : Nat} (hn : c.sender.ahead? = some n)
    (hl : ∀ last, c.sender ≠ .listing last) (hc : ∀ length last, c.sender ≠ .consuming length last)
    {q : Pipe} (hq : q.content = c.outbound.content) :
    AheadBy n (h ++ [⟨c, .task pool .sender⟩]) q := by
  rw [AheadBy, handedBytes_sender pool hl, taken_sender pool hc, hq]
  exact ha.ahead n hn

theorem Accounted.hand {h : List (Event S)} {c : Connection S} {last : Bool} (ha : Accounted h c)
    (run : Run M h c) (pool : BufferPool) (hs : c.sender = .listing last) :
    AheadBy c.outbound.content.length (h ++ [⟨c, .task pool .sender⟩]) c.outbound := by
  rw [AheadBy, handedBytes_listing pool hs, taken_sender pool (by simp [hs]), List.take_length,
    (ha.listing run hs).1]
  exact ⟨Nat.le_refl _, rfl⟩

theorem Accounted.release {h : List (Event S)} {c : Connection S} {length : Nat} {last : Bool}
    (ha : Accounted h c) (pool : BufferPool) (hs : c.sender = .consuming length last) {q : Pipe} :
    AheadBy 0 (h ++ [⟨c, .task pool .sender⟩]) q := by
  rw [aheadBy_zero, handedBytes_sender pool (by simp [hs]), taken_consuming pool hs]
  exact (ha.ahead length (by rw [hs]; rfl)).2

theorem Accounted.sender {h : List (Event S)} {c c' : Connection S} (ha : Accounted h c)
    (run : Run M h c) (st : SenderStep c c') (pool : BufferPool) :
    Accounted (h ++ [⟨c, .task pool .sender⟩]) c' := by
  refine ⟨ha.front_sender run pool, fun n hn => ?_⟩
  have hcontent : c.outbound.content = c.outbound.regions.flatten := rfl
  cases st with
  | read hs hr | found hs hr =>
    cases hn
    obtain rfl : _ = _ := congrArg Prod.snd hr
    exact ha.keep pool (by rw [hs]; rfl) (by simp [hs]) (by simp [hs]) (Pipe.content_read _ _)
  | @empty call result outbound hs hr =>
    obtain ⟨_, _, _ | _⟩ := result <;> cases hn
    obtain rfl : _ = _ := congrArg Prod.snd hr
    exact ha.keep pool (by rw [hs]; rfl) (by simp [hs]) (by simp [hs]) (Pipe.content_read _ _)
  | @send last region hs hr =>
    cases hn
    have hl : region.length = c.outbound.content.length := by
      rw [hcontent, hr, List.flatten_cons, List.flatten_nil, List.append_nil]
    rw [hl]
    exact ha.hand run pool hs
  | sendVectored hs =>
    cases hn
    rw [← List.length_flatten]
    exact ha.hand run pool hs
  | wait hs | sent hs | count hs =>
    cases hn
    exact ha.keep pool (by rw [hs]; rfl) (by simp [hs]) (by simp [hs]) rfl
  | @consume length last hs =>
    obtain rfl : 0 = n := by cases last <;> cases hn; rfl
    exact ha.release pool hs
  | readFail | canceled | fail | classify | shutdown => cases hn

theorem Drained.sender {h : List (Event S)} {c c' : Connection S} (hd : Drained h c)
    (pool : BufferPool) (hs : ∀ last, c.sender ≠ .listing last)
    (hw : c'.outbound.writerCompleted = c.outbound.writerCompleted) :
    Drained (h ++ [⟨c, .task pool .sender⟩]) c' := by
  rw [Drained, (committed_sender h c pool).2, handedBytes_sender pool hs, hw]
  exact hd

/-- Once the output is completed, handing over all that was committed is enough. -/
theorem Run.drained_of_all {h : List (Event S)} {c c' : Connection S} (run : Run M h c)
    (pool : BufferPool) (hw : c'.outbound.writerCompleted = true)
    (hh : handedBytes (h ++ [⟨c, .task pool .sender⟩]) = Pipe.committed (onOutbound h)) :
    Drained (h ++ [⟨c, .task pool .sender⟩]) c' := by
  obtain ⟨options, hp⟩ := run.outbound
  refine ⟨hw, ?_⟩
  rw [(committed_sender h c pool).2, hh]
  exact hp.early_prefix.1

theorem lastRead_snoc {h : List (Event S)} {c : Connection S} {call : Pipe.Await}
    {result : Except ConnectionError ReadResult} (pool : BufferPool) (hs : c.sender = .reading call)
    (hr : (c.outbound.read call).1 = .done result) :
    lastRead (h ++ [⟨c, .task pool .sender⟩]) = some result := by
  simp [lastRead, Event.readEnd, hs, hr]

/-- A step of the send loop that ends neither a read nor a send. -/
theorem endedWell_snoc {h : List (Event S)} {e : Event S} (hr : e.readEnd = [])
    (ho : e.outcome = []) : EndedWell (h ++ [e]) ↔ EndedWell h := by
  simp only [EndedWell, lastRead, List.flatMap_append, List.flatMap_cons, List.flatMap_nil, hr,
    outcomes_snoc, ho, List.append_nil]

theorem Owes.sender {h : List (Event S)} {c c' : Connection S} (hw : Owes h c)
    (ha : Accounted h c) (run : Run M h c) (st : SenderStep c c') (pool : BufferPool) :
    Owes (h ++ [⟨c, .task pool .sender⟩]) c' := by
  cases st with
  | read => trivial
  | readFail hs hr =>
    rintro ⟨⟨r, hl, -⟩, -⟩
    rw [lastRead_snoc pool hs (congrArg Prod.fst hr)] at hl
    cases hl
  | canceled hs hr hc =>
    rintro ⟨⟨r, hl, hn, -⟩, -⟩
    rw [lastRead_snoc pool hs (congrArg Prod.fst hr)] at hl
    cases hl
    rw [hc] at hn; cases hn
  | empty hs hr hc he =>
    obtain ⟨rfl, -, e⟩ := Pipe.read_ok (congrArg Prod.fst hr)
    obtain rfl : _ = _ := congrArg Prod.snd hr
    cases hwc : c.outbound.writerCompleted with
    | false => trivial
    | true =>
      intro _
      obtain ⟨hsound, hstream⟩ :=
        run.outbound_stream (run.orderly.reader_of_looping (by rw [hs]; rfl))
      have hb : c.outbound.buffered = 0 := eq_of_beq he
      have hn : c.outbound.content = [] :=
        List.eq_nil_of_length_eq_zero (by rw [← hsound.buffered, hb])
      refine run.drained_of_all pool (by rw [e]; exact hwc) ?_
      rw [handedBytes_sender pool (by simp [hs]), ← hstream, hn, List.append_nil]
      exact aheadBy_zero.mp (ha.ahead 0 (by rw [hs]; rfl))
  | found hs hr =>
    obtain ⟨rfl, -, e⟩ := Pipe.read_ok (congrArg Prod.fst hr)
    obtain rfl : _ = _ := congrArg Prod.snd hr
    cases hwc : c.outbound.writerCompleted with
    | false => trivial
    | true =>
      show (c.outbound.read _).2.writerCompleted = true
      rw [e]; exact hwc
  | @send last region hs | @sendVectored last hs =>
    cases last with
    | false => trivial
    | true =>
      have hwc : c.outbound.writerCompleted = true := by
        simp only [Owes, hs] at hw; exact hw
      exact run.drained_of_all pool hwc
        ((handedBytes_listing pool hs).trans (ha.listing run hs).2)
  | @wait call call' length last _ hs | @sent call length last sent _ hs
  | @count sent length last hs =>
    cases last with
    | false => trivial
    | true =>
      have hd : Drained h c := by simp only [Owes, hs] at hw; exact hw
      exact hd.sender pool (by simp [hs]) rfl
  | @fail call length last error socket hs hp =>
    rintro ⟨-, hn⟩
    refine absurd ?_ (hn error)
    rw [outcomes_snoc]
    simp only [Event.outcome, hs, hp]
    exact List.mem_append_right _ (List.mem_singleton_self _)
  | @consume length last hs =>
    cases last with
    | false => trivial
    | true =>
      intro _
      have hd : Drained h c := by simp only [Owes, hs] at hw; exact hw
      obtain ⟨_, _, _, e⟩ := c.outbound.consume_frame length
      exact hd.sender pool (by simp [hs]) (by rw [e])
  | classify hs =>
    have hd : EndedWell h → Drained h c := by simp only [Owes, hs] at hw; exact hw
    intro he
    rw [endedWell_snoc (by simp only [Event.readEnd, hs]) (by simp only [Event.outcome, hs])] at he
    exact (hd he).sender pool (by simp [hs]) rfl
  | shutdown hs =>
    have hd : EndedWell h → Drained h c := by simp only [Owes, hs] at hw; exact hw
    obtain ⟨_, _, e, -⟩ := c.shutdown_frame
    rw [e]
    intro he
    rw [endedWell_snoc (by simp only [Event.readEnd, hs]) (by simp only [Event.outcome, hs])] at he
    exact (hd he).sender pool (by simp [hs]) rfl

theorem Run.accounted {h : List (Event S)} {c : Connection S} (run : Run M h c) :
    Accounted h c ∧ Owes h c := by
  induction run with
  | create =>
    refine ⟨⟨List.prefix_rfl, fun n hn => ?_⟩, trivial⟩
    cases hn
    exact ⟨Nat.le_refl _, rfl⟩
  | change _ _ ih => exact ⟨⟨ih.1.front, ih.1.ahead⟩, ih.2⟩
  | @move h c c' run m hm ih =>
    obtain ⟨ha, hw⟩ := ih
    have st := step_of_perform hm
    rcases m.by_task .sender with ⟨pool, rfl⟩ | hs
    · cases st with
      | sender st => exact ⟨ha.sender run st pool, hw.sender ha run st pool⟩
    · exact ⟨ha.others st run (run.move m hm).orderly hs, hw.others st run.orderly hs⟩

/-- What holds of the output of a connection, over a socket that records what it is handed and what
it answers. -/
structure Delivered (M : Socket.Medium S) (h : List (Event S.recorded))
    (c : Connection S.recorded) : Prop where
  /-- The socket was handed a front of what the application committed. -/
  front : c.socket.sends.flatten.flatten <+: Pipe.committed (onOutbound h)
  /-- A loop that ends well has handed over all that was committed before the completion. -/
  drained : ∀ error, c.sender = .shuttingDown error ∨ c.sender = .finished error → EndedWell h →
    Pipe.early (onOutbound h) <+: c.socket.sends.flatten.flatten
  /-- The sends of the history have ended as the socket has answered them. -/
  answers : c.socket.answers = outcomes h
  /-- The counter is the sum of what the successful sends returned, but for the one that the loop is
  about to add, as a word. -/
  counter : c.sentCounter + UInt64.ofNat c.uncounted = UInt64.ofNat (returned c.socket.answers)
  /-- If that is less than a word holds, it is the sum of the numbers, -/
  total : returned c.socket.answers < 2 ^ (64 : Nat) →
    c.bytesSent + c.uncounted = returned c.socket.answers
  /-- never decreases, -/
  forward : returned c.socket.answers < 2 ^ (64 : Nat) →
    ∀ e ∈ h, e.before.bytesSent ≤ c.bytesSent
  /-- and is what was handed over successfully, where a send that succeeds has sent everything. -/
  whole : returned c.socket.answers < 2 ^ (64 : Nat) → M.SendsWhole →
    c.bytesSent + c.uncounted = deliveredBy c.socket.sends c.socket.answers

/-- **The output is delivered.** Take any run of a connection, over any socket that records what it
is handed and what it answers. What it is handed is a front of what the application committed. If
the latest read found the output completed, was not cut short, and no send has failed, then by the
time the loop shuts the connection down all that was committed before the completion was handed
over. The counter of the connection is the sum of what the successful sends returned, but for the
last one while the loop is about to add it, in 64 bits. As long as they return less than that in
all, the total never decreases, and where sends write everything it is the number of bytes that the
successful sends were handed. -/
theorem output_delivered {h : List (Event S.recorded)} {c : Connection S.recorded}
    (run : Run M.recorded h c) : Delivered M h c := by
  obtain ⟨ha, hw⟩ := run.accounted
  have hs : c.socket.sends = handed h := run.recorded.sends
  have hr : c.socket.answers = outcomes h := run.recorded.answers
  have hg : c.socket.sends.flatten.flatten = handedBytes h := by rw [hs, handedBytes]
  exact {
    front := by rw [hg]; exact ha.front
    drained := fun error he hend => by
      have hd : EndedWell h → Drained h c := by
        rcases he with he | he <;> simpa only [Owes, he] using hw
      rw [hg]
      exact (hd hend).2
    answers := hr
    counter := by rw [hr]; exact run.sentCounter_eq
    total := by rw [hr]; exact run.bytesSent_eq
    forward := by rw [hr]; exact run.bytesSent_mono
    whole := fun hb hM => by
      rw [hr] at hb ⊢
      rw [run.bytesSent_eq hb, run.returned_eq_delivered hM.recorded, delivered, hs] }

/-! ## A commit between a read and its listing -/

/-- A connection that has nothing to receive. -/
def silent : Connection Socket.scripted.recorded :=
  create Socket.scripted.recorded .empty (.ofPort 4433) (.ofPort 50000) 0 2048 {} { state := {} }

/-- The application commits two bytes, which a read finds, and one more before they are listed.
Then it completes its output, and the send loop goes on until it is about to shut down. -/
def threeBytes : List Move :=
  launched ([.output (.getMemory { blockSize := 4096 } 3), .output (.fill 0 [1, 2, 3]),
      .output (.advance 2)] ++ steps 1 .sender ++ [.output (.advance 1)] ++ steps 1 .sender ++
    [.output (.complete none)] ++ steps 4 .sender)

/-- The connection after `threeBytes`. -/
def sentInFull : Connection Socket.scripted.recorded := (silent.performAll threeBytes).getD silent

theorem run_sentInFull :
    Run Socket.Medium.scripted.recorded (silent.trace threeBytes) sentInFull := by
  have hc : Run Socket.Medium.scripted.recorded [] silent :=
    .create _ _ _ _ _ _ _ ⟨⟨rfl, rfl⟩, rfl, rfl, rfl⟩
  have hm : silent.performAll threeBytes = some sentInFull := rfl
  exact hc.moves hm

theorem three_bytes_delivered :
    EndedWell (silent.trace threeBytes) ∧ sentInFull.socket.sends = [[[1, 2], [3]]] ∧
      Pipe.early (onOutbound (silent.trace threeBytes)) <+:
        sentInFull.socket.sends.flatten.flatten ∧
      sentInFull.bytesSent = 3 ∧
      sentInFull.bytesSent + sentInFull.uncounted =
        deliveredBy sentInFull.socket.sends sentInFull.socket.answers := by
  have ho : outcomes (silent.trace threeBytes) = [.ok 3] := rfl
  have he : EndedWell (silent.trace threeBytes) := by
    refine ⟨⟨⟨0, false, true⟩, rfl, rfl, rfl⟩, fun error hm => ?_⟩
    rw [ho] at hm
    cases List.mem_singleton.mp hm
  have hb : returned sentInFull.socket.answers < 2 ^ (64 : Nat) := by
    rw [show sentInFull.socket.answers = [.ok 3] from rfl]
    decide
  have delivered := output_delivered run_sentInFull
  exact ⟨he, rfl, delivered.drained none (.inl rfl) he, rfl,
    delivered.whole hb Socket.scripted_sendsWhole⟩

end Connection

end Duplex
