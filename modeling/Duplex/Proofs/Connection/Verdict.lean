import Duplex.Proofs.Connection.Shutdown
import Duplex.Proofs.Pipe.Completion

/-!
# How the receive loop ends

The receive loop ends for one cause (`Cause`), looks at the flag of the connection when it
classifies a failure and once more before it completes the inbound pipe, and anyone may set the
flag in between. What it completes the pipe with is a function of the cause and of the two looks
(`Exit.verdict`). A failure that was put down to the flag finds the flag set at the second look
too, since it is never taken back, and so never ends without an error (`Exit.verdict_eq`).

`receive_verdict` says so of every run, and that the application gets the error, once, before it is
told of the end.
-/

namespace Duplex.Connection

open Pipe (completions failures)

/-- Why a receive loop ends. -/
inductive Cause where
  /-- A receive yielded nothing. -/
  | nothing
  /-- A flush reported that the application is gone. -/
  | gone
  | failed (error : IoError)
  | flushFailed (error : ConnectionError)
deriving DecidableEq

/-- The failure that a cause is, if it is one. -/
def Cause.failure? : Cause → Option IoError
  | nothing | gone => none
  | failed error => some error
  | flushFailed error => some error.toIoError

/-- How a receive loop has ended. -/
structure Exit where
  cause : Cause
  /-- The flag when the failure was classified, if there was one. -/
  classified : Bool
  /-- The flag when the loop looked at it last. -/
  confirmed : Bool
deriving DecidableEq

/-- What the inbound pipe is to be completed with. -/
def Exit.verdict (x : Exit) : Option ConnectionError :=
  match x.cause with
  | .nothing | .gone => if x.confirmed then some .abortedLocally else none
  | .failed error =>
    match error.kind with
    | .connectionReset => some (.reset error)
    | .connectionAborted | .invalidInput | .interrupted =>
      if x.classified then some .abortedLocally else some (.aborted error.message)
    | _ => some (.io error)
  | .flushFailed error => some (.io ⟨.other, error.message, false⟩)

/-- The verdict is what the two looks of the receive loop make of its end. -/
theorem Exit.verdict_eq {x : Exit} (hx : x.classified = true → x.confirmed = true) :
    x.verdict = (x.cause.failure?.bind (receiveFailure · x.classified)).or
      (if x.confirmed then some .abortedLocally else none) := by
  obtain ⟨cause, classified, confirmed⟩ := x
  cases cause with
  | nothing | gone | flushFailed => rfl
  | failed error =>
    obtain ⟨kind, message, system⟩ := error
    cases kind with
    | connectionAborted | invalidInput | interrupted =>
      cases classified with
      | true =>
        obtain rfl : confirmed = true := hx rfl
        rfl
      | false => rfl
    | _ => rfl

variable {S : Socket} {M : Socket.Medium S} {h : List (Event S)} {c c' : Connection S} {m : Move}

/-! ## What the history tells of the end -/

namespace Event

/-- The cause for which a move ends the receive loop. -/
def cause (e : Event S) : List Cause :=
  match e.move, e.before.receiver with
  | .task _ .receiver, .receiving call =>
    match (S.pollReceive call e.before.socket).1 with
    | .done (.error error) => [.failed error]
    | .done (.ok []) => [.nothing]
    | _ => []
  | .task _ .receiver, .flushing call =>
    match (e.before.inbound.flush call).1 with
    | .done (.error error) => [.flushFailed error]
    | .done (.ok ⟨true⟩) => [.gone]
    | _ => []
  | _, _ => []

/-- The flag, when a move classifies the failure of the receive loop. -/
def classified (e : Event S) : List Bool :=
  match e.move, e.before.receiver with
  | .task _ .receiver, .classifying _ => [e.before.aborted]
  | _, _ => []

/-- The flag, when a move is the last look of the receive loop at it. -/
def confirmed (e : Event S) : List Bool :=
  match e.move, e.before.receiver with
  | .task _ .receiver, .confirming _ => [e.before.aborted]
  | _, _ => []

end Event

/-- A history in which the receive loop ended for these causes, and found the flag like this when it
classified failures and when it looked for the last time. -/
structure Tells (h : List (Event S)) (causes : List Cause) (classified confirmed : List Bool) :
    Prop where
  causes : h.flatMap Event.cause = causes
  classified : h.flatMap Event.classified = classified
  confirmed : h.flatMap Event.confirmed = confirmed

theorem Tells.snoc {causes : List Cause} {classified confirmed : List Bool}
    (ht : Tells h causes classified confirmed) (e : Event S) :
    Tells (h ++ [e]) (causes ++ e.cause) (classified ++ e.classified)
      (confirmed ++ e.confirmed) where
  causes := by simp [ht.causes]
  classified := by simp [ht.classified]
  confirmed := by simp [ht.confirmed]

/-- Moves of others tell nothing of the end of the receive loop. -/
theorem Tells.others {causes : List Cause} {classified confirmed : List Bool}
    (ht : Tells h causes classified confirmed) (c : Connection S)
    (hm : ∀ pool, m ≠ .task pool .receiver) :
    Tells (h ++ [⟨c, m⟩]) causes classified confirmed := by
  have hn : Event.cause ⟨c, m⟩ = [] ∧ Event.classified ⟨c, m⟩ = [] ∧
      Event.confirmed ⟨c, m⟩ = [] := by
    cases m with
    | task pool task =>
      cases task with
      | receiver => exact absurd rfl (hm pool)
      | _ => exact ⟨rfl, rfl, rfl⟩
    | _ => exact ⟨rfl, rfl, rfl⟩
  have hs := ht.snoc ⟨c, m⟩
  rw [hn.1, hn.2.1, hn.2.2, List.append_nil, List.append_nil, List.append_nil] at hs
  exact hs

/-- The looks that classify a failure, where there is one. -/
def Cause.looks (cause : Cause) (flag : Bool) : List Bool :=
  if cause.failure?.isSome then [flag] else []

/-- The receive loop has ended like this. -/
def Exit.Of (x : Exit) (h : List (Event S)) : Prop :=
  Tells h [x.cause] (x.cause.looks x.classified) [x.confirmed]

/-- What the history tells, by the place of the receive loop. -/
def Told (h : List (Event S)) (c : Connection S) : Prop :=
  match c.receiver with
  | .classifying error => ∃ cause, cause.failure? = some error ∧ Tells h [cause] [] []
  | .confirming error => ∃ cause flag, error = cause.failure?.bind (receiveFailure · flag) ∧
      (flag = true → c.aborted = true) ∧ Tells h [cause] (cause.looks flag) []
  | .completing error => ∃ x : Exit, error = x.verdict ∧ x.Of h
  | .finished => ∃ x : Exit, completions (onInbound h) = [x.verdict] ∧ x.Of h
  | _ => Tells h [] [] []

/-- What the history tells, and that the inbound pipe is completed at the end only. -/
structure Ending (h : List (Event S)) (c : Connection S) : Prop where
  told : Told h c
  silent : c.receiver ≠ .finished → completions (onInbound h) = []

/-! ## Moves of others -/

/-- Without a failed start nobody else completes the inbound pipe. -/
theorem Step.reads_only (st : Step c m c') (ho : Orderly c) (hf : c'.starter.failed = false)
    (hm : ∀ pool, m ≠ .task pool .receiver) :
    ∀ a ∈ Event.onInbound ⟨c, m⟩, (∃ access, a = .reader access) ∨ a = .cancel := by
  intro a ha
  rcases onInbound_others c hm a ha with hr | hr | rfl
  · exact .inl hr
  · exact .inr hr
  · cases st with
    | receiver => exact absurd rfl (hm _)
    | driver st =>
      simp only [Event.onInbound] at ha
      split at ha
      · rename_i hd
        rw [(ho.of_launching hd.1).2.2] at hd
        cases hd.2
      · cases ha
    | starter st => cases st <;> simp_all [Event.onInbound, Starter.failed]
    | panic => cases hf
    | input => simp [Event.onInbound] at ha
    | cancelInput => simp [Event.onInbound] at ha
    | _ => cases ha

theorem completions_of_reads {accesses : List Pipe.Access}
    (ha : ∀ a ∈ accesses, (∃ access, a = .reader access) ∨ a = .cancel) (p : Pipe) :
    completions (Pipe.trace p accesses) = [] := by
  induction accesses generalizing p with
  | nil => rfl
  | cons a accesses ih =>
    have hn : Pipe.Event.completion ⟨p, a⟩ = [] := by
      rcases ha a (List.mem_cons_self ..) with ⟨access, rfl⟩ | rfl <;> rfl
    rw [Pipe.trace, completions, List.flatMap_cons, hn]
    exact ih (fun b hb => ha b (List.mem_cons_of_mem _ hb)) _

theorem Ending.others (he : Ending h c) (st : Step c m c') (ho : Orderly c)
    (hf : c'.starter.failed = false) (hm : ∀ pool, m ≠ .task pool .receiver) :
    Ending (h ++ [⟨c, m⟩]) c' := by
  have hc : completions (onInbound (h ++ [⟨c, m⟩])) = completions (onInbound h) := by
    rw [onInbound_snoc, Pipe.completions_append,
      completions_of_reads (st.reads_only ho hf hm), List.append_nil]
  obtain ⟨ht, hs⟩ := he
  rcases st.receiver_eq hm with e | ⟨hd, e⟩
  · refine ⟨?_, fun hn => hc.trans (hs (e ▸ hn))⟩
    rw [Told] at ht ⊢
    rw [e]
    cases hr : c.receiver with
    | classifying error =>
      rw [hr] at ht
      obtain ⟨cause, hx, ht⟩ := ht
      exact ⟨cause, hx, ht.others c hm⟩
    | confirming error =>
      rw [hr] at ht
      obtain ⟨cause, flag, hx, ha, ht⟩ := ht
      exact ⟨cause, flag, hx, fun h => st.aborted_mono (ha h), ht.others c hm⟩
    | completing error =>
      rw [hr] at ht
      obtain ⟨x, hx, ht⟩ := ht
      exact ⟨x, hx, ht.others c hm⟩
    | finished =>
      rw [hr] at ht
      obtain ⟨x, hx, ht⟩ := ht
      exact ⟨x, hc.trans hx, ht.others c hm⟩
    | _ =>
      rw [hr] at ht
      exact Tells.others ht c hm
  · have hu := (ho.of_launching hd).1
    rw [Told, hu] at ht
    refine ⟨?_, fun _ => hc.trans (hs (by rw [hu]; simp))⟩
    rw [Told, e]
    exact Tells.others ht c hm

/-! ## The receive loop -/

/-- The last look of the receive loop at the flag. -/
theorem stepReceiver_confirming {pool : BufferPool} {error : Option ConnectionError}
    (h : c.receiver = .confirming error) :
    c.stepReceiver pool = some { c with
      receiver := .completing (error.or (if c.aborted then some .abortedLocally else none)) } := by
  cases error <;> simp only [stepReceiver, h] <;> rfl

theorem Told.receiver (ht : Told h c) {pool : BufferPool} (hm : c.stepReceiver pool = some c')
    (hc : ∀ error, c.receiver ≠ .completing error) :
    Told (h ++ [⟨c, .task pool .receiver⟩]) c' := by
  have hs {causes : List Cause} {classified confirmed : List Bool}
      (ht : Tells h causes classified confirmed) := ht.snoc ⟨c, .task pool .receiver⟩
  simp only [Event.cause, Event.classified, Event.confirmed] at hs
  rw [Told] at ht
  cases stepReceiver_cases hm with
  | stage h | commit h =>
    rw [h] at ht
    simp only [h, List.append_nil] at hs
    exact hs ht
  | wait h hp | flush h hp =>
    rw [h] at ht
    simp only [h, hp, List.append_nil] at hs
    exact hs ht
  | @fill call received socket h hp hr =>
    rw [h] at ht
    obtain ⟨byte, rest, rfl⟩ := List.exists_cons_of_ne_nil hr
    simp only [h, hp, List.append_nil] at hs
    exact hs ht
  | fail h hp | flushFail h hp =>
    rw [h] at ht
    simp only [h, hp] at hs
    exact ⟨_, rfl, hs ht⟩
  | finish h hp =>
    rw [h] at ht
    simp only [h, hp] at hs
    exact ⟨.nothing, false, rfl, (fun h => by cases h), hs ht⟩
  | @flushed call result inbound h hf =>
    rw [h] at ht
    obtain ⟨_ | _⟩ := result
    · simp only [h, hf, List.append_nil] at hs
      exact hs ht
    · simp only [h, hf] at hs
      exact ⟨.gone, false, rfl, (fun h => by cases h), hs ht⟩
  | @classify error h =>
    rw [h] at ht
    obtain ⟨cause, hx, ht⟩ := ht
    simp only [h] at hs
    refine ⟨cause, c.aborted, ?_, fun h => h, ?_⟩
    · rw [hx]; rfl
    · rw [Cause.looks, hx]; exact hs ht
  | @confirm error h error' =>
    rw [h] at ht
    obtain ⟨cause, flag, hx, ha, ht⟩ := ht
    simp only [h, List.append_nil] at hs
    rw [stepReceiver_confirming h] at hm
    cases hm
    refine ⟨⟨cause, flag, c.aborted⟩, ?_, hs ht⟩
    rw [Exit.verdict_eq ha, hx]
  | complete h => exact absurd h (hc _)

/-- The receive loop completes the inbound pipe in its last step only. -/
theorem completions_receiver (pool : BufferPool) (hc : ∀ error, c.receiver ≠ .completing error) :
    completions (Pipe.trace c.inbound (Event.onInbound ⟨c, .task pool .receiver⟩)) = [] := by
  simp only [Event.onInbound]
  cases hr : c.receiver with
  | completing error => exact absurd hr (hc error)
  | _ => rfl

theorem Ending.receiver (he : Ending h c) (hi : Pipe.Concluded (onInbound h) c.inbound)
    {pool : BufferPool} (hm : c.stepReceiver pool = some c') :
    Ending (h ++ [⟨c, .task pool .receiver⟩]) c' := by
  have hn : c.receiver ≠ .finished := by cases stepReceiver_cases hm <;> simp [*]
  have hc : completions (onInbound (h ++ [⟨c, .task pool .receiver⟩])) =
      completions (Pipe.trace c.inbound (Event.onInbound ⟨c, .task pool .receiver⟩)) := by
    rw [onInbound_snoc, Pipe.completions_append, he.silent hn, List.nil_append]
  by_cases hr : ∃ error, c.receiver = .completing error
  · obtain ⟨error, hr⟩ := hr
    have ht := he.told
    rw [Told, hr] at ht
    obtain ⟨x, rfl, ht⟩ := ht
    have hs := Tells.snoc ht ⟨c, .task pool .receiver⟩
    simp only [Event.cause, Event.classified, Event.confirmed, hr, List.append_nil] at hs
    have hw : c.inbound.writerCompleted = false :=
      Bool.eq_false_iff.mpr fun hw => hi.completed.mp hw (he.silent hn)
    have hp : completions (Pipe.trace c.inbound (Event.onInbound ⟨c, .task pool .receiver⟩)) =
        [x.verdict] := by
      simp only [Event.onInbound, hr, Pipe.trace, completions, List.flatMap_cons,
        List.flatMap_nil, Pipe.Event.completion, hw]
      rfl
    simp only [stepReceiver, hr] at hm
    cases hm
    exact ⟨⟨x, hc.trans hp, hs⟩, fun hn => absurd rfl hn⟩
  · have hr : ∀ error, c.receiver ≠ .completing error := fun error e => hr ⟨error, e⟩
    exact ⟨he.told.receiver hm hr, fun _ => hc.trans (completions_receiver pool hr)⟩

theorem Run.ending (run : Run M h c) (hf : c.starter.failed = false) : Ending h c := by
  induction run with
  | create => exact ⟨⟨rfl, rfl, rfl⟩, fun _ => rfl⟩
  | change _ _ ih =>
    obtain ⟨ht, hs⟩ := ih hf
    exact ⟨ht, hs⟩
  | @move h c c' run m hm ih =>
    have st := step_of_perform hm
    have hc : c.starter.failed = false :=
      Bool.eq_false_iff.mpr fun h => Bool.eq_false_iff.mp hf (st.failed_of_failed h)
    rcases m.by_task .receiver with ⟨pool, rfl⟩ | hr
    · obtain ⟨options, hp⟩ := run.inbound
      exact (ih hc).receiver hp.concluded hm
    · exact (ih hc).others st run.orderly hf hr

/-! ## What the application gets -/

/-- A connection whose first receive is interrupted. -/
def interrupted : Connection Socket.scripted :=
  scripted {} [.failure ⟨.interrupted, "interrupted", false⟩]

/-- Someone shuts the connection down before the failure is classified. The application reads
twice. -/
def shutInBetween : List Move :=
  launched (steps 2 .receiver ++ [.shutdown] ++ steps 3 .receiver
    ++ [.input (.read .checking), .input (.read .checking)])

/-- The connection after `shutInBetween`. -/
def givenUp : Connection Socket.scripted :=
  (interrupted.performAll shutInBetween).getD interrupted

end Duplex.Connection
