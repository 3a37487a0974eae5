import Duplex.Proofs.Pipe.EndOfStream

/-!
# The completion of the writer

The first completion of the writer counts, and no other (`completions`). Its error waits in the
pipe for a read to return it (`failures`), so that what reads have returned and what still waits is
the error of the completion that counted (`Run.concluded`). A reader that is told of the end has
been given the error before (`Concluded.told`).
-/

namespace Duplex.Pipe

/-- The error with which a call fails. -/
def failed {κ α : Type} : Progress κ (Except ConnectionError α) → List ConnectionError
  | .done (.error error) => [error]
  | _ => []

namespace Event

/-- With what an access completes the writer, unless it has completed before. -/
def completion (e : Event) : List (Option ConnectionError) :=
  match e.access with
  | .writer (.complete error) => if e.before.writerCompleted then [] else [error]
  | _ => []

/-- The error that a read returns that ends with this access, on its own or as a part of the
reading of a segment. -/
def failure (e : Event) : List ConnectionError :=
  match e.access with
  | .reader (.read call) | .reader (.readChunk call) => failed (e.before.read call).1
  | _ => []

end Event

/-- With what the writer was completed in a history. -/
def completions (h : List Event) : List (Option ConnectionError) := h.flatMap Event.completion

/-- The errors that reads have returned in a history. -/
def failures (h : List Event) : List ConnectionError := h.flatMap Event.failure

theorem completions_append (h₁ h₂ : List Event) :
    completions (h₁ ++ h₂) = completions h₁ ++ completions h₂ :=
  List.flatMap_append ..

theorem completions_snoc (h : List Event) (e : Event) :
    completions (h ++ [e]) = completions h ++ e.completion := by
  simp [completions]

theorem failures_snoc (h : List Event) (e : Event) :
    failures (h ++ [e]) = failures h ++ e.failure := by
  simp [failures]

/-! ## One access -/

/-- The error that a read returns is the one that was waiting. -/
theorem failed_read (call : Await) (p : Pipe) :
    failed (p.read call).1 ++ (p.read call).2.writerError.toList = p.writerError.toList := by
  cases call with
  | checking =>
    simp only [read, checkRead]
    cases he : p.writerError with
    | some error => rfl
    | none =>
      cases p.readCanceled with
      | true => rfl
      | false =>
        by_cases hb : 0 < p.buffered ∨ p.writerCompleted = true
        · simp only [Bool.false_eq_true, if_false, if_pos hb]
          exact congrArg Option.toList he
        · simp only [Bool.false_eq_true, if_false, if_neg hb]
          exact congrArg Option.toList he
  | parking => rfl
  | parked =>
    simp only [read]
    cases p.readable.resume? <;> rfl

/-- An access that does not complete the writer brings no error: at most a read returns the one that
was waiting. -/
theorem failure_perform (a : Access) {p : Pipe} (hc : Event.completion ⟨p, a⟩ = []) :
    Event.failure ⟨p, a⟩ ++ (a.perform p).writerError.toList = p.writerError.toList := by
  rcases a with (⟨pool, request⟩ | _ | count | ⟨pool, data⟩ | call | call | error) |
    (call | call | call | count | _) | _
  case writer.getMemory =>
    obtain ⟨_, e⟩ := p.getMemory_frame pool request
    simp only [Access.perform, WriterAccess.perform, e]; rfl
  case writer.fill => rfl
  case writer.advance =>
    obtain ⟨_, _, _, _, e⟩ := p.advance_frame count
    simp only [Access.perform, WriterAccess.perform, e]; rfl
  case writer.write =>
    obtain ⟨_, _, _, _, e⟩ := p.write_frame pool data
    simp only [Access.perform, WriterAccess.perform, e]; rfl
  case writer.flush =>
    obtain ⟨_, _, _, _, _, e⟩ := p.flush_frame call
    simp only [Access.perform, WriterAccess.perform, e]; rfl
  case writer.abandonFlush =>
    obtain ⟨_, e⟩ := p.abandonFlush_frame call
    simp only [Access.perform, WriterAccess.perform, e]; rfl
  case writer.complete =>
    cases hw : p.writerCompleted with
    | true => simp only [Access.perform, WriterAccess.perform, completeWriter, hw, if_true]; rfl
    | false => simp [Event.completion, hw] at hc
  case reader.read => exact failed_read call p
  case reader.readChunk =>
    have hr := failed_read call p
    simp only [Access.perform, ReaderAccess.perform]
    rcases readChunk_snd call p with h | h <;> rw [h]
    · exact hr
    · obtain ⟨_, _, _, e⟩ := (p.read call).2.takeFront_frame
      rw [e]; exact hr
  case reader.abandonRead =>
    obtain ⟨_, e⟩ := p.abandonRead_frame call
    simp only [Access.perform, ReaderAccess.perform, e]; rfl
  case reader.consume =>
    obtain ⟨_, _, _, e⟩ := p.consume_frame count
    simp only [Access.perform, ReaderAccess.perform, e]; rfl
  case reader.complete =>
    simp only [Access.perform, ReaderAccess.perform, completeReader]
    split <;> rfl
  case cancel => rfl

/-- An access that completes the writer leaves its error to be read, and reads nothing. -/
theorem completion_perform {a : Access} {p : Pipe} {error : Option ConnectionError}
    (hc : error ∈ Event.completion ⟨p, a⟩) :
    a = .writer (.complete error) ∧ p.writerCompleted = false := by
  rcases a with (_ | _ | _ | _ | _ | _ | error') | _ | _
  case writer.complete =>
    cases hw : p.writerCompleted with
    | true => simp [Event.completion, hw] at hc
    | false =>
      simp only [Event.completion, hw] at hc
      rw [List.mem_singleton.mp hc]
      exact ⟨rfl, rfl⟩
  all_goals cases hc

/-! ## Runs -/

/-- What has become of the completion of the writer. -/
structure Concluded (h : List Event) (p : Pipe) : Prop where
  completed : p.writerCompleted = true ↔ completions h ≠ []
  errors : failures h ++ p.writerError.toList = (completions h).flatMap Option.toList

theorem Concluded.perform {h : List Event} {p : Pipe} (hc : Concluded h p) (a : Access) :
    Concluded (h ++ [⟨p, a⟩]) (a.perform p) := by
  rcases he : Event.completion ⟨p, a⟩ with _ | ⟨error, rest⟩
  · have hw : (a.perform p).writerCompleted = p.writerCompleted := by
      rw [(completed_perform a p).2]
      cases hp : p.writerCompleted with
      | true => rfl
      | false =>
        rcases a with (_ | _ | _ | _ | _ | _ | error) | _ | _
        case writer.complete => simp [Event.completion, hp] at he
        all_goals rfl
    refine ⟨?_, ?_⟩
    · rw [hw, completions_snoc, he, List.append_nil]; exact hc.completed
    · rw [failures_snoc, completions_snoc, he, List.append_nil, List.append_assoc,
        failure_perform a he]
      exact hc.errors
  · obtain ⟨rfl, hw⟩ := completion_perform (he ▸ List.mem_cons_self ..)
    have hn : completions h = [] := by
      refine Decidable.byContradiction fun hn => ?_
      rw [hc.completed.mpr hn] at hw; cases hw
    have hf := hc.errors
    rw [hn, List.flatMap_nil, List.append_eq_nil_iff] at hf
    have hs : completions (h ++ [⟨p, .writer (.complete error)⟩]) = [error] := by
      rw [completions_snoc, hn, Event.completion, hw]; rfl
    have hp : (Access.writer (.complete error)).perform p =
        { p with
          writerCompleted := true
          writerError := error
          readable := p.readable.notifyOne } := by
      simp only [Access.perform, WriterAccess.perform, completeWriter, hw]; rfl
    rw [hp]
    refine ⟨?_, ?_⟩
    · rw [hs]; exact iff_of_true rfl (List.cons_ne_nil _ _)
    · rw [hs, failures_snoc, hf.1]
      exact (List.append_nil _).symm

theorem Run.concluded {options : PipeOptions} {h : List Event} {p : Pipe}
    (run : Run (create options) h p) : Concluded h p := by
  induction run with
  | nil => exact ⟨iff_of_false (fun h => by cases h) (fun h => h rfl), rfl⟩
  | snoc _ a ih => exact ih.perform a

/-- A read that reports the end comes after the one that returned the error, if there was one. -/
theorem Concluded.told {h : List Event} {p : Pipe} (hc : Concluded h p) {a : Access}
    {r : ReadResult} (hr : Event.reported ⟨p, a⟩ = some r) (he : r.completed = true) :
    completions h ≠ [] ∧ failures h = (completions h).flatMap Option.toList := by
  obtain ⟨hn, -, hw, -⟩ := reported_spec hr
  have hf := hc.errors
  rw [show p.writerError = none from hn, Option.toList_none, List.append_nil] at hf
  exact ⟨hc.completed.mp (hw.symm.trans he), hf⟩

end Duplex.Pipe
