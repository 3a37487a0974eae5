import Duplex.Proofs.Transport.Handling

/-!
# Where failures of the accept loop come from

An accept loop fails if the dispatcher refuses a connection or panics, or if there is no room for
the buffer that it receives into; nothing else that it meets makes it fail. The failure with which
it has ended, or is about to end, is a function of the state (`failing`), and is the last answer of
the dispatcher (`Run.caused`), by induction on the run: an answer is the failure that it is
(`failing_answer`), and no other move brings one (`Step.failing`).
-/

namespace Duplex

/-- Why the start of a connection was refused. -/
def Starter.reason? : Starter → Option String
  | .releasing reason | .closing reason | .signalling reason | .returning reason => some reason
  | .over refusal => refusal
  | .waiting | .dispatching | .spawning | .panicked => none

theorem Connection.StarterStep.reason? {S : Socket} {c c' : Connection S}
    (st : Connection.StarterStep c c') : c'.starter.reason? = c.starter.reason? := by
  cases st <;> simp only [*, Starter.reason?]

namespace Transport

variable {C : Carrier} {t t' : Transport C} {m : Move C} {h : List (Event C)}

/-- The failure of the accept loop that an answer of the dispatcher is. -/
def Answer.failure? : Answer → Option TransportError
  | .accept => none
  | .refuse reason => some (.dispatch reason)
  | .panic message => some (.panic (panicMessage message))

/-- The failure with which the accept loop has ended or is about to end. -/
def failing (t : Transport C) : Option TransportError :=
  match t.acceptor with
  | .concluding i _ => ((t.starterOf i).bind Starter.reason?).map .dispatch
  | .withdrawing _ error => some error
  | .ended failure => failure
  | _ => none

/-- The last answer of the dispatcher is that failure, or else there was no room for a buffer. -/
def Caused (h : List (Event C)) (error : TransportError) : Prop :=
  error = bufferTooLong ∨
    ∃ i answer, (answers h).getLast? = some (i, answer) ∧ answer.failure? = some error

theorem Aside.failing (hx : Aside t t') : t'.failing = t.failing := by
  simp only [Transport.failing, hx.acceptor, hx.starter]

theorem failing_of_idle (hb : t.acceptor.busy = false) (ha : t'.acceptor = t.acceptor) :
    t'.failing = t.failing := by
  simp only [Transport.failing, ha]
  cases hc : t.acceptor with
  | concluding => rw [hc] at hb; cases hb
  | _ => rfl

theorem failing_of_concluding {i : Nat} {payload : Option Bytes} {r : Route C}
    (ha : t.acceptor = .concluding i payload) (hr : t.routes[i]? = some r) :
    t.failing = r.connection.starter.reason?.map .dispatch := by
  simp only [failing, ha, starterOf, hr, Option.map_some, Option.bind_some]

theorem failing_of_ended {failure : Option TransportError} (ha : t.acceptor = .ended failure) :
    t.failing = failure := by
  simp only [failing, ha]

/-- A step of the accept loop brings no failure but one. -/
theorem AcceptorStep.failing (ho : InOrder h t) (st : AcceptorStep t t') :
    t'.failing = t.failing ∨ t'.failing = none ∨ t'.failing = some bufferTooLong := by
  cases st with
  | tooLong => exact .inr (.inr rfl)
  | opened | finish | known | unknown | claim | taken | start | accepted | offer | offerNothing =>
    exact .inr (.inl rfl)
  | startAgain ha hr hs => exact absurd (ho.unstarted ha hr) hs
  | @conclude i payload r c ha hr hc =>
    left
    have ha' : (t.onConnection i fun _ => c).acceptor = .concluding i payload := ha
    have hr' : (t.onConnection i fun _ => c).routes[i]? = some { r with connection := c } := by
      simp only [onConnection, List.getElem?_modify_eq, hr]
      rfl
    rw [failing_of_concluding ha hr, failing_of_concluding ha' hr', hc.reason?]
  | refused ha hr hs =>
    left
    rw [failing_of_concluding ha hr, hs]
    rfl
  | withdraw ha hr =>
    left
    simp only [Transport.failing, ha]

/-- No other move brings a failure but an answer of the dispatcher. -/
theorem Step.failing (ho : InOrder h t) (hl : Listening t) (st : Step t m t')
    (hm : ∀ answer, m ≠ .answer answer) :
    t'.failing = t.failing ∨ t'.failing = none ∨ t'.failing = some bufferTooLong := by
  cases hb : t.acceptor.busy with
  | true =>
    cases he : Event.handles ⟨t, m⟩ with
    | false => exact .inl (st.aside hl hb he).failing
    | true =>
      cases st with
      | acceptor st => exact st.failing ho
      | accept | refuse | panic => exact absurd rfl (hm _)
      | _ => simp [Event.handles] at he
  | false =>
    cases st with
    | acceptor st => exact st.failing ho
    | accept | refuse | panic => exact absurd rfl (hm _)
    | supervisor st => cases st <;> exact .inl (failing_of_idle hb rfl)
    | unbinder st => cases st <;> exact .inl (failing_of_idle hb rfl)
    | removal st => cases st; exact .inl (failing_of_idle hb rfl)
    | arrive | listenEnd | bind => exact .inr (.inl rfl)
    | connection | outside | listenOn | unbind | unbindNothing | setEndpoint | disposePool =>
      exact .inl (failing_of_idle hb rfl)

/-- An answer of the dispatcher is the failure that it is. -/
theorem failing_answer (ho : InOrder h t) {answer : Answer} (st : Step t (.answer answer) t') :
    t'.failing = answer.failure? ∧ ∃ i, Event.answer? ⟨t, .answer answer⟩ = some (i, answer) := by
  have hs : ∀ i payload, t.acceptor = .dispatching i payload →
      ∃ r, t.routes[i]? = some r ∧ r.connection.starter = .dispatching := by
    intro i payload ha
    have hi : t.acceptor.inHand = some i := by rw [ha]; rfl
    have hr := List.getElem?_eq_getElem (ho.hand i hi)
    have hd := ((ho.route i _ hr).hand hi).1
    rw [ha] at hd
    exact ⟨_, hr, hd⟩
  have ht : ∀ {i payload r} {f : Connection C.socket → Connection C.socket},
      t.routes[i]? = some r →
      failing { t.onConnection i f with acceptor := .concluding i payload } =
        (f r.connection).starter.reason?.map .dispatch := by
    intro i payload r f hr
    refine failing_of_concluding rfl (r := { r with connection := f r.connection }) ?_
    simp only [onConnection, List.getElem?_modify_eq, hr]
    rfl
  cases st with
  | @accept i payload ha =>
    obtain ⟨r, hr, hd⟩ := hs i payload ha
    refine ⟨?_, i, by simp only [Event.answer?, ha]⟩
    rw [ht hr, Connection.accept, hd]
    rfl
  | @refuse i payload reason ha =>
    obtain ⟨r, hr, hd⟩ := hs i payload ha
    refine ⟨?_, i, by simp only [Event.answer?, ha]⟩
    rw [ht hr, Connection.refuse, hd]
    rfl
  | @panic i payload message ha => exact ⟨rfl, i, by simp only [Event.answer?, ha]⟩

variable {M : Socket.Medium C.socket}

/-- A failure of the accept loop is the last answer of the dispatcher. -/
theorem Run.caused (run : Run M h t) {error : TransportError} (hf : t.failing = some error) :
    Caused h error := by
  induction run with
  | create => cases hf
  | @move h t t' run m hm ha ih =>
    obtain ⟨ho, hl⟩ := run.inOrder
    have st := step_of_perform ho.hand hm
    by_cases hma : ∃ answer, m = .answer answer
    · obtain ⟨answer, rfl⟩ := hma
      obtain ⟨he, i, hi⟩ := failing_answer ho st
      refine .inr ⟨i, answer, ?_, he ▸ hf⟩
      rw [answers_snoc, hi]
      exact List.getLast?_concat
    · have hn : Event.answer? ⟨t, m⟩ = none := by
        cases m with
        | answer answer => exact absurd ⟨answer, rfl⟩ hma
        | _ => rfl
      have hc : Caused (h ++ [⟨t, m⟩]) error ↔ Caused h error := by
        rw [Caused, Caused, answers_snoc, hn, Option.toList_none, List.append_nil]
      rcases st.failing ho hl fun answer e => hma ⟨answer, e⟩ with he | he | he
      · exact hc.mpr (ih (he ▸ hf))
      · rw [he] at hf; cases hf
      · rw [he] at hf; exact .inl (Option.some.inj hf).symm
  | @change h t i r socket run hr hs ih =>
    let f (r : Route C) : Route C := { r with connection := { r.connection with socket } }
    have hf' : ∀ r, t.routes[i]? = some r → (f r).connection.starter = r.connection.starter :=
      fun _ _ => rfl
    have hx : Aside t (t.onConnection i fun c => { c with socket }) := .modify hf' rfl rfl rfl
    exact ih (hx.failing ▸ hf)

end Transport

end Duplex
