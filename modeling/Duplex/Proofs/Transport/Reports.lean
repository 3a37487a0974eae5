import Duplex.Proofs.Transport.Failures

/-!
# Failures are reported once

What becomes of a failure of the accept loop is told by the reports of a run (`reports`): the
supervisor sees it, the application is told to stop, and a call that unbinds or stops returns with
it. `Reports` is the law of these, by induction on the run: a failure that is seen while the mark of
unbinding is not set is followed by one request to stop, then by one call that returns it, before
any other failure is seen and before any other call returns; every other call returns without a
failure (`Reports.raised`, `Reports.returned`).

What is still to come of the law is a function of the state (`pending`). It rests on where a failure
may be kept (`Retained`): in the slot only while the listener is installed or an unbinding holds the
lock, and never when another one comes.

Calls are made one after the other (`OneByOne`): a bind, an unbind or a stop begins when the last
one has returned. An unbinding that has taken the listener and not yet set its mark does not hide a
failure: it is told of as any other, and returned by that same call.
-/

namespace Duplex

/-- The failure that a call which unbinds has taken and not yet returned. -/
def Unbinder.taken : Unbinder → Option TransportError
  | .listing failure | .aborting _ failure | .disposing failure => failure
  | .idle | .marking _ | .signalling _ | .joining _ | .unmarking _ | .collecting _
  | .returned _ => none

namespace Transport

variable {C : Carrier} {t t' : Transport C} {m : Move C} {h : List (Event C)}
  {M : Socket.Medium C.socket}

/-! ## Reports -/

/-- What is seen of failures. -/
inductive Report where
  /-- The supervisor has seen a failure, and the mark of unbinding is not set. -/
  | raised (error : TransportError)
  /-- The supervisor has seen a failure during unbinding. -/
  | dropped (error : TransportError)
  /-- The application is told to stop. -/
  | stopRequested
  /-- A call that unbinds or stops returns, with a failure or without. -/
  | returned (failure : Option TransportError)

/-- The failure that the supervisor has seen. -/
def Report.seen? : Report → Option TransportError
  | .raised error | .dropped error => some error
  | .stopRequested | .returned _ => none

def Report.isStop : Report → Bool
  | .stopRequested => true
  | _ => false

def Report.isReturn : Report → Bool
  | .returned _ => true
  | _ => false

/-- What is still to come of a failure. -/
inductive Pending where
  | nothing
  /-- The application is to be told to stop. -/
  | unannounced (error : TransportError)
  /-- A call is to return it. -/
  | announced (error : TransportError)

/-- What a report makes of what is still to come. -/
inductive Pending.Next : Pending → Report → Pending → Prop
  | raise {error} : Next .nothing (.raised error) (.unannounced error)
  | stop {error} : Next (.unannounced error) .stopRequested (.announced error)
  | report {error} : Next (.announced error) (.returned (some error)) .nothing
  | succeed : Next .nothing (.returned none) .nothing
  | drop {error} : Next .nothing (.dropped error) .nothing

/-- The law of reports, and what is still to come. -/
inductive Reports : List Report → Pending → Prop
  | none : Reports [] .nothing
  | next {l x p p'} (h : Reports l p) (hn : p.Next x p') : Reports (l ++ [x]) p'

/-- What is seen of the next step of the supervisor. -/
def supervisorReport? (t : Transport C) : Option Report :=
  match t.supervisor, t.acceptor with
  | .watching, .ended (some error) => some (if t.unbinding then .dropped error else .raised error)
  | .stopping, _ => some .stopRequested
  | _, _ => none

/-- What the call that unbinds or stops has returned, if it has. -/
def returned? (t : Transport C) : Option (Option TransportError) :=
  match t.unbinder with
  | .returned failure => some failure
  | _ => none

/-- What is seen of a move. -/
def Event.report? (e : Event C) : Option Report :=
  match e.move with
  | .task .supervisor => e.before.supervisorReport?
  | .task .unbinder | .unbind _ =>
    ((e.move.perform e.before).bind Transport.returned?).map .returned
  | _ => none

def reports (h : List (Event C)) : List Report := h.filterMap Event.report?

/-- What is still to come of a failure that the supervisor of the transport has seen. -/
def pending (t : Transport C) : Pending :=
  match t.supervisor with
  | .keeping error => .unannounced error
  | .stopping => t.fatal.elim .nothing .unannounced
  | .unborn | .watching | .done => (t.fatal.or t.unbinder.taken).elim .nothing .announced

/-- Whether a move begins a bind, an unbind or a stop. -/
def Move.isCall : Move C → Bool
  | .bind _ | .unbind _ => true
  | _ => false

/-- Whether a move begins an unbind or a stop. -/
def Event.unbinds (e : Event C) : Bool :=
  match e.move with
  | .unbind _ => true
  | _ => false

/-- A bind, an unbind or a stop begins when the last one has returned. -/
def OneByOne (h : List (Event C)) : Prop :=
  ∀ e ∈ h, e.move.isCall = true → e.before.isUnbinding = false

theorem reports_snoc (h : List (Event C)) (e : Event C) :
    reports (h ++ [e]) = reports h ++ e.report?.toList := by
  cases he : e.report? <;> simp [reports, he]

/-! ## The law -/

/-- Where an element stands in a list that has grown by one. -/
theorem snoc_eq_append_cons {β : Type} {l l₁ l₂ : List β} {x y : β}
    (he : l ++ [x] = l₁ ++ y :: l₂) :
    l₂ = [] ∧ l = l₁ ∧ x = y ∨ ∃ l₃, l₂ = l₃ ++ [x] ∧ l = l₁ ++ y :: l₃ := by
  rcases List.eq_nil_or_concat l₂ with rfl | ⟨l₃, z, rfl⟩
  · obtain ⟨hl, hx⟩ := List.append_inj' he rfl
    exact .inl ⟨rfl, hl, List.singleton_inj.mp hx⟩
  · rw [List.concat_eq_append, ← List.cons_append, ← List.append_assoc] at he
    obtain ⟨hl, hx⟩ := List.append_inj' he rfl
    exact .inr ⟨l₃, by rw [List.concat_eq_append, List.singleton_inj.mp hx], hl⟩

/-- A failure that is seen is followed by one request to stop and by one call that returns it. -/
theorem Reports.raised {l l₁ l₂ : List Report} {p : Pending} {error : TransportError}
    (hr : Reports l p) (he : l = l₁ ++ .raised error :: l₂) :
    l₂ = [] ∧ p = .unannounced error ∨ l₂ = [.stopRequested] ∧ p = .announced error ∨
      ∃ l₃, l₂ = .stopRequested :: .returned (some error) :: l₃ := by
  induction hr generalizing l₂ with
  | none => exact absurd he (by simp)
  | @next l x p p' h hn ih =>
    rcases snoc_eq_append_cons he with ⟨rfl, -, rfl⟩ | ⟨l₂, rfl, hl⟩
    · cases hn
      exact .inl ⟨rfl, rfl⟩
    · rcases ih hl with ⟨rfl, rfl⟩ | ⟨rfl, rfl⟩ | ⟨l₃, rfl⟩
      · cases hn
        exact .inr (.inl ⟨rfl, rfl⟩)
      · cases hn
        exact .inr (.inr ⟨[], rfl⟩)
      · exact .inr (.inr ⟨l₃ ++ [x], rfl⟩)

theorem Reports.of_unannounced {l : List Report} {error : TransportError}
    (hr : Reports l (.unannounced error)) : ∃ l₁, l = l₁ ++ [.raised error] := by
  cases hr with
  | @next l _ _ _ h hn =>
    cases hn
    exact ⟨l, rfl⟩

theorem Reports.of_announced {l : List Report} {error : TransportError}
    (hr : Reports l (.announced error)) : ∃ l₁, l = l₁ ++ [.raised error, .stopRequested] := by
  cases hr with
  | next h hn =>
    cases hn
    obtain ⟨l₁, rfl⟩ := h.of_unannounced
    exact ⟨l₁, List.append_assoc _ _ _⟩

/-- A failure that a call returns has been seen and the application told of it, just before. -/
theorem Reports.returned {l l₁ l₂ : List Report} {p : Pending} {error : TransportError}
    (hr : Reports l p) (he : l = l₁ ++ .returned (some error) :: l₂) :
    ∃ l₀, l₁ = l₀ ++ [.raised error, .stopRequested] := by
  induction hr generalizing l₂ with
  | none => exact absurd he (by simp)
  | @next l x p p' h hn ih =>
    rcases snoc_eq_append_cons he with ⟨-, rfl, rfl⟩ | ⟨l₂, -, hl⟩
    · cases hn
      exact h.of_announced
    · exact ih hl

/-! ## Where a failure is kept -/

/-- Where a failure may be kept: nowhere while the accept loop runs, and nowhere when nobody listens
and nobody holds the lock. -/
structure Retained (t : Transport C) : Prop where
  unborn : t.supervisor = .unborn → t.fatal = none ∧ t.unbinder.taken = none
  watching : t.supervisor = .watching → t.fatal = none
  keeping : ∀ error, t.supervisor = .keeping error → t.fatal = none
  stopping : t.supervisor = .stopping → ∃ error, t.fatal = some error
  empty : t.installed = false → t.unbinder.holdsLock = false → t.fatal = none
  /-- A stop that has let go of the lock is not overtaken by a bind. -/
  late : t.isUnbinding = true → t.unbinder.holdsLock = false → t.installed = false

theorem retained_create (configuration : Configuration) (endpoint : Endpoint) :
    Retained (create C configuration endpoint) where
  unborn := fun _ => ⟨rfl, rfl⟩
  watching := fun _ => rfl
  keeping := fun _ _ => rfl
  stopping := fun h => by cases h
  empty := fun _ _ => rfl
  late := fun h => by cases h

theorem Retained.congr (hk : Retained t) (hs : t'.supervisor = t.supervisor)
    (hf : t'.fatal = t.fatal) (hi : t'.installed = t.installed)
    (hu : t'.unbinder = t.unbinder) : Retained t' := by
  have hb : t'.isUnbinding = t.isUnbinding := by simp only [isUnbinding, hu]
  constructor
  · rw [hs, hf, hu]; exact hk.unborn
  · rw [hs, hf]; exact hk.watching
  · rw [hs, hf]; exact hk.keeping
  · rw [hs, hf]; exact hk.stopping
  · rw [hi, hu, hf]; exact hk.empty
  · rw [hb, hu, hi]; exact hk.late

theorem taken_of_holdsLock {u : Unbinder} (hu : u.holdsLock = true) : u.taken = none := by
  cases u <;> first | rfl | cases hu

theorem unbinder_of_idle (hu : t.isUnbinding = false) :
    t.unbinder.holdsLock = false ∧ t.unbinder.taken = none := by
  simp only [isUnbinding] at hu
  cases hc : t.unbinder with
  | idle | returned => exact ⟨rfl, rfl⟩
  | _ => rw [hc] at hu; cases hu

/-- As long as the accept loop is supervised, no call has taken a failure. -/
theorem Retained.untaken (hk : Retained t) (hl : Listening t) (hu : t.supervisor ≠ .unborn)
    (hd : t.supervisor ≠ .done) : t.unbinder.taken = none := by
  cases hb : t.isUnbinding with
  | false => exact (unbinder_of_idle hb).2
  | true =>
    cases hh : t.unbinder.holdsLock with
    | true => exact taken_of_holdsLock hh
    | false =>
      rcases hl.free hh (hk.late hb hh) with hs | hs
      · exact absurd hs hu
      · exact absurd hs hd

/-- A supervisor that is done leaves what is kept. -/
theorem Retained.relieved (hk : Retained t) (hs : t'.supervisor = .done) (hf : t'.fatal = t.fatal)
    (hi : t'.installed = t.installed) (hu : t'.unbinder = t.unbinder) : Retained t' := by
  have hb : t'.isUnbinding = t.isUnbinding := by simp only [isUnbinding, hu]
  constructor
  · rw [hs]; exact fun h => by cases h
  · rw [hs]; exact fun h => by cases h
  · rw [hs]; exact fun _ h => by cases h
  · rw [hs]; exact fun h => by cases h
  · rw [hi, hu, hf]; exact hk.empty
  · rw [hb, hu, hi]; exact hk.late

theorem Retained.supervisor (hk : Retained t) (hl : Listening t) (st : SupervisorStep t t') :
    Retained t' := by
  have hu : t.supervisor ≠ .unborn := by cases st <;> simp [*]
  have hd : t.supervisor ≠ .done := by cases st <;> simp [*]
  cases st with
  | ended | expected | stop => exact hk.relieved rfl rfl rfl rfl
  | failed hs ha =>
    exact ⟨fun h => (by cases h), fun h => (by cases h), fun _ _ => hk.watching hs,
      fun h => (by cases h), hk.empty, hk.late⟩
  | @keep error hs =>
    refine ⟨fun h => (by cases h), fun h => (by cases h), fun _ h => (by cases h),
      fun _ => ⟨error, ?_⟩, fun hi hh => ?_, hk.late⟩
    · -- the slot is empty, or the failure would be lost
      show t.fatal.or (some error) = some error
      rw [hk.keeping error hs, Option.none_or]
    · rcases hl.free hh hi with h | h
      · exact absurd h hu
      · exact absurd h hd

/-- Those who hold the lock keep what is kept. -/
theorem Retained.locked (hk : Retained t) (hs : t'.supervisor = t.supervisor)
    (hf : t'.fatal = t.fatal) (hh : t'.unbinder.holdsLock = true) : Retained t' := by
  have hn : t'.unbinder.holdsLock ≠ false := by rw [hh]; decide
  constructor
  · rw [hs, hf, taken_of_holdsLock hh]; exact fun h => ⟨(hk.unborn h).1, rfl⟩
  · rw [hs, hf]; exact hk.watching
  · rw [hs, hf]; exact hk.keeping
  · rw [hs, hf]; exact hk.stopping
  · exact fun _ h => absurd h hn
  · exact fun _ h => absurd h hn

/-- Where nobody listens, those who do not hold the lock find nothing in the slot. -/
theorem Retained.unlocked (hk : Retained t) (hs : t'.supervisor = t.supervisor)
    (hf : t'.fatal = t.fatal) (hi : t'.installed = false) (hn : t.fatal = none)
    (hu : t.supervisor = .unborn → t'.unbinder.taken = none) : Retained t' := by
  constructor
  · rw [hs, hf]; exact fun h => ⟨hn, hu h⟩
  · rw [hs, hf]; exact hk.watching
  · rw [hs, hf]; exact hk.keeping
  · rw [hs, hf]; exact hk.stopping
  · rw [hf]; exact fun _ _ => hn
  · exact fun _ _ => hi

theorem Retained.unbinder (hk : Retained t) (hl : Listening t) (st : UnbinderStep t t') :
    Retained t' := by
  have hlate : t.isUnbinding = true → t.unbinder.holdsLock = false →
      t.installed = false ∧ t.fatal = none :=
    fun hu hh => ⟨hk.late hu hh, hk.empty (hk.late hu hh) hh⟩
  cases st with
  | mark hu | signal hu | join hu | unmark hu => exact hk.locked rfl rfl rfl
  | @collect stopping hu =>
    have hs : t.supervisor = .done := hl.joined _ (.inr hu)
    refine ⟨fun h => ?_, fun _ => rfl, fun _ _ => rfl, fun h => ?_, fun _ _ => rfl, fun _ _ => ?_⟩
    · rw [show t.supervisor = .unborn from h] at hs
      cases hs
    · rw [show t.supervisor = .stopping from h] at hs
      cases hs
    · exact hl.held (by rw [hu]; rfl)
  | list hu | abort hu | aborted hu =>
    obtain ⟨hi, hn⟩ := hlate (by rw [isUnbinding, hu]) (by rw [hu]; rfl)
    refine hk.unlocked rfl rfl hi hn fun hs => ?_
    have ht := (hk.unborn hs).2
    rwa [hu] at ht
  | dispose hu =>
    obtain ⟨hi, hn⟩ := hlate (by rw [isUnbinding, hu]) (by rw [hu]; rfl)
    exact hk.unlocked rfl rfl hi hn fun _ => rfl

/-- A call begins when the last one has returned. -/
theorem Retained.step (hk : Retained t) (hl : Listening t) (st : Step t m t')
    (hb : m.isCall = true → t.isUnbinding = false) : Retained t' := by
  cases st with
  | supervisor st => exact hk.supervisor hl st
  | unbinder st => exact hk.unbinder hl st
  | acceptor st => cases st <;> exact hk.congr rfl rfl rfl rfl
  | removal st => cases st; exact hk.congr rfl rfl rfl rfl
  | bind hf hi =>
    have hn := hk.empty hi hf
    refine ⟨fun h => (by cases h), fun _ => hn, fun _ h => (by cases h), fun h => (by cases h),
      fun h => (by cases h), fun h _ => ?_⟩
    exact absurd ((hb rfl).symm.trans h) (by decide)
  | unbind hf hi => exact hk.locked rfl rfl rfl
  | @unbindNothing stopping hf hi =>
    refine hk.unlocked rfl rfl hi (hk.empty hi hf) fun _ => ?_
    cases stopping <;> rfl
  | connection | outside | arrive | listenOn | listenEnd | accept | refuse | panic | setEndpoint
  | disposePool => exact hk.congr rfl rfl rfl rfl

/-! ## Every report follows the law -/

theorem pending_congr (hs : t'.supervisor = t.supervisor) (hf : t'.fatal = t.fatal)
    (hu : t'.unbinder.taken = t.unbinder.taken) : t'.pending = t.pending := by
  simp only [pending, hs, hf, hu]

theorem pending_resting (hs : t.supervisor = .unborn ∨ t.supervisor = .done) :
    t.pending = (t.fatal.or t.unbinder.taken).elim .nothing .announced := by
  rcases hs with hs | hs <;> simp only [pending, hs]

theorem Retained.pending_watching (hk : Retained t) (hl : Listening t)
    (hs : t.supervisor = .watching) : t.pending = .nothing := by
  have hu := hk.untaken hl (by rw [hs]; decide) (by rw [hs]; decide)
  simp only [pending, hs, hk.watching hs, hu, Option.none_or, Option.elim_none]

/-- What is seen of a move follows the law, and nothing changes where nothing is seen. -/
def Lawful (t : Transport C) (m : Move C) (t' : Transport C) : Prop :=
  Event.report? ⟨t, m⟩ = none ∧ t'.pending = t.pending ∨
    ∃ x, Event.report? ⟨t, m⟩ = some x ∧ t.pending.Next x t'.pending

theorem Retained.lawful_supervisor (hk : Retained t) (hl : Listening t) (st : SupervisorStep t t') :
    Lawful t (.task .supervisor) t' := by
  cases st with
  | ended hs ha =>
    refine .inl ⟨by simp only [Event.report?, supervisorReport?, hs, ha], ?_⟩
    simp only [pending, hs]
  | @expected error hs ha hu =>
    refine .inr ⟨.dropped error, ?_, ?_⟩
    · simp only [Event.report?, supervisorReport?, hs, ha, hu, if_true]
    · have hn := hk.untaken hl (by rw [hs]; decide) (by rw [hs]; decide)
      rw [hk.pending_watching hl hs]
      simp only [pending, hk.watching hs, hn, Option.none_or, Option.elim_none]
      exact .drop
  | @failed error hs ha hu =>
    refine .inr ⟨.raised error, ?_, ?_⟩
    · simp only [Event.report?, supervisorReport?, hs, ha, hu, Bool.false_eq_true, if_false]
    · rw [hk.pending_watching hl hs]
      exact .raise
  | @keep error hs =>
    refine .inl ⟨by simp only [Event.report?, supervisorReport?, hs], ?_⟩
    simp only [pending, hs, hk.keeping error hs, Option.none_or, Option.elim_some]
  | stop hs =>
    obtain ⟨error, hf⟩ := hk.stopping hs
    refine .inr ⟨.stopRequested, by simp only [Event.report?, supervisorReport?, hs], ?_⟩
    simp only [pending, hs, hf, Option.some_or, Option.elim_some]
    exact .stop

/-- A call goes on and does not return. -/
theorem Lawful.goOn (hr : Event.report? ⟨t, m⟩ = t'.returned?.map .returned)
    (hn : t'.returned? = none) (hp : t'.pending = t.pending) : Lawful t m t' :=
  .inl ⟨by rw [hr, hn]; rfl, hp⟩

/-- A call returns with the failure that was to be returned, if there is one. -/
theorem Lawful.return {failure : Option TransportError}
    (hr : Event.report? ⟨t, m⟩ = t'.returned?.map .returned)
    (hu : t'.unbinder = .returned failure) (hf : t'.fatal = none)
    (hs : t'.supervisor = .unborn ∨ t'.supervisor = .done)
    (hp : t.pending = failure.elim .nothing .announced) : Lawful t m t' := by
  have hp' : t'.pending = .nothing := by
    rw [pending_resting hs, hf, hu]
    rfl
  refine .inr ⟨.returned failure, by rw [hr, returned?, hu]; rfl, ?_⟩
  rw [hp, hp']
  cases failure with
  | none => exact .succeed
  | some error => exact .report

theorem report_of_unbinder (hm : t.stepUnbinder = some t') :
    Event.report? ⟨t, .task .unbinder⟩ = t'.returned?.map .returned := by
  simp only [Event.report?, Move.perform, Transport.step, hm, Option.bind_some]

theorem report_of_unbind {stopping : Bool} (hm : Move.perform (.unbind stopping) t = some t') :
    Event.report? ⟨t, .unbind stopping⟩ = t'.returned?.map .returned := by
  simp only [Event.report?, hm, Option.bind_some]

theorem Retained.lawful_unbinder (hk : Retained t) (hl : Listening t)
    (hm : t.stepUnbinder = some t') (st : UnbinderStep t t') : Lawful t (.task .unbinder) t' := by
  have hr := report_of_unbinder hm
  cases st with
  | mark hu | signal hu | join hu | unmark hu | list hu | abort hu | aborted hu =>
    exact .goOn hr rfl (pending_congr rfl rfl (by rw [hu]; rfl))
  | @collect stopping hu =>
    have hs : t.supervisor = .done := hl.joined _ (.inr hu)
    have hp : t.pending = t.fatal.elim .nothing .announced := by
      rw [pending_resting (.inr hs), hu, Unbinder.taken, Option.or_none]
    cases stopping with
    | true =>
      -- a stop carries the failure on, out of the slot
      refine .goOn hr rfl ?_
      rw [hp]
      exact pending_resting (.inr hs)
    | false => exact .return hr rfl rfl (.inr hs) hp
  | @dispose failure hu =>
    have hh : t.unbinder.holdsLock = false := by rw [hu]; rfl
    have hi := hk.late (by rw [isUnbinding, hu]) hh
    have hn := hk.empty hi hh
    have hs := hl.free hh hi
    refine .return hr rfl hn hs ?_
    rw [pending_resting hs, hn, hu, Option.none_or, Unbinder.taken]

theorem Retained.lawful (hk : Retained t) (hl : Listening t) (hm : m.perform t = some t')
    (st : Step t m t') (hb : m.isCall = true → t.isUnbinding = false) : Lawful t m t' := by
  cases st with
  | supervisor st => exact hk.lawful_supervisor hl st
  | unbinder st => exact hk.lawful_unbinder hl hm st
  | acceptor st => cases st <;> exact .inl ⟨rfl, pending_congr rfl rfl rfl⟩
  | removal st => cases st; exact .inl ⟨rfl, pending_congr rfl rfl rfl⟩
  | bind hf hi =>
    refine .inl ⟨rfl, ?_⟩
    rw [pending_resting (hl.free hf hi)]
    rfl
  | unbind hf hi =>
    have hu := (unbinder_of_idle (hb rfl)).2
    exact .goOn (report_of_unbind hm) rfl (pending_congr rfl rfl hu.symm)
  | @unbindNothing stopping hf hi =>
    have hu := (unbinder_of_idle (hb rfl)).2
    have hn := hk.empty hi hf
    have hs := hl.free hf hi
    have hr := report_of_unbind hm
    cases stopping with
    | true => exact .goOn hr rfl (pending_congr rfl rfl hu.symm)
    | false =>
      refine .return hr rfl hn hs ?_
      rw [pending_resting hs, hn, hu]
      rfl
  | connection | outside | arrive | listenOn | listenEnd | accept | refuse | panic | setEndpoint
  | disposePool => exact .inl ⟨rfl, pending_congr rfl rfl rfl⟩

/-- The reports of a run follow the law. -/
theorem Run.reported (run : Run M h t) (hb : OneByOne h) :
    Reports (reports h) t.pending ∧ Retained t := by
  induction run with
  | create => exact ⟨.none, retained_create _ _⟩
  | @move h t t' run m hm ha ih =>
    obtain ⟨ho, hl⟩ := run.inOrder
    have st := step_of_perform ho.hand hm
    have hb := List.forall_mem_append.mp hb
    have hc := hb.2 _ (List.mem_singleton_self _)
    obtain ⟨hr, hk⟩ := ih hb.1
    refine ⟨?_, hk.step hl st hc⟩
    rw [reports_snoc]
    rcases hk.lawful hl hm st hc with ⟨hn, hp⟩ | ⟨x, hx, hp⟩
    · rw [hn, hp, Option.toList_none, List.append_nil]
      exact hr
    · rw [hx]
      exact .next hr hp
  | change run hr hs ih =>
    obtain ⟨hr, hk⟩ := ih hb
    exact ⟨hr, hk.congr rfl rfl rfl rfl⟩

/-! ## Told once -/

theorem countP_returned (failure : Option (Option TransportError)) :
    (failure.map Report.returned).toList.countP Report.isStop = 0 := by
  cases failure <;> rfl

/-- The application is told to stop where it is seen to be told, and nowhere else. -/
theorem Step.stopRequests (st : Step t m t') :
    t'.stopRequests = t.stopRequests + (Event.report? ⟨t, m⟩).toList.countP Report.isStop := by
  cases st with
  | supervisor st =>
    cases st with
    | ended hs ha => simp only [Event.report?, supervisorReport?, hs, ha]; rfl
    | expected hs ha hu => simp only [Event.report?, supervisorReport?, hs, ha, hu]; rfl
    | failed hs ha hu => simp only [Event.report?, supervisorReport?, hs, ha, hu]; rfl
    | keep hs => simp only [Event.report?, supervisorReport?, hs]; rfl
    | stop hs => simp only [Event.report?, supervisorReport?, hs]; rfl
  | unbinder st => cases st <;> simp only [Event.report?, countP_returned] <;> rfl
  | unbind | unbindNothing => simp only [Event.report?, countP_returned]; rfl
  | acceptor st => cases st <;> rfl
  | removal st => cases st; rfl
  | connection | outside | arrive | listenOn | listenEnd | accept | refuse | panic | bind
  | setEndpoint | disposePool => rfl

theorem Run.stopRequests (run : Run M h t) :
    t.stopRequests = (reports h).countP Report.isStop := by
  induction run with
  | create => rfl
  | move run m hm ha ih =>
    rw [(step_of_perform run.inOrder.1.hand hm).stopRequests, reports_snoc, List.countP_append, ih]
  | change run hr hs ih => exact ih

theorem countP_isReturn_supervisor (t : Transport C) :
    t.supervisorReport?.toList.countP Report.isReturn = 0 := by
  simp only [supervisorReport?]
  split
  · split <;> rfl
  · rfl
  · rfl

/-- A call is under way from the move that begins it to the report that it returns. -/
theorem Step.calls (hm : m.perform t = some t') (st : Step t m t')
    (hb : m.isCall = true → t.isUnbinding = false) :
    t'.isUnbinding.toNat + (Event.report? ⟨t, m⟩).toList.countP Report.isReturn =
      t.isUnbinding.toNat + (Event.unbinds ⟨t, m⟩).toNat := by
  cases st with
  | supervisor st =>
    have hs := countP_isReturn_supervisor t
    rw [Event.report?, hs]
    cases st <;> rfl
  | unbinder st =>
    rw [report_of_unbinder hm]
    cases st with
    | @collect stopping hu => cases stopping <;> simp only [isUnbinding, hu] <;> rfl
    | mark hu | signal hu | join hu | unmark hu | list hu | abort hu | aborted hu | dispose hu =>
      simp only [isUnbinding, hu]
      rfl
  | unbind hf hi =>
    rw [report_of_unbind hm, hb rfl]
    rfl
  | @unbindNothing stopping hf hi =>
    rw [report_of_unbind hm, hb rfl]
    cases stopping <;> rfl
  | acceptor st => cases st <;> rfl
  | removal st => cases st; rfl
  | connection | outside | arrive | listenOn | listenEnd | accept | refuse | panic | bind
  | setEndpoint | disposePool => rfl

/-- Every call that unbinds or stops returns once. -/
theorem Run.calls (run : Run M h t) (hb : OneByOne h) :
    h.countP Event.unbinds = (reports h).countP Report.isReturn + t.isUnbinding.toNat := by
  induction run with
  | create => rfl
  | @move h t t' run m hm ha ih =>
    have hb := List.forall_mem_append.mp hb
    have st := step_of_perform run.inOrder.1.hand hm
    have hc := st.calls hm (hb.2 _ (List.mem_singleton_self _))
    have hn : [Event.mk t m].countP Event.unbinds = (Event.unbinds ⟨t, m⟩).toNat := by
      rw [List.countP_singleton]
      cases Event.unbinds ⟨t, m⟩ <;> rfl
    rw [reports_snoc, List.countP_append, List.countP_append, ih hb.1, hn]
    omega
  | change run hr hs ih => exact ih hb

/-- A failure that was kept stays until a call takes it. -/
theorem Step.fatal {error : TransportError} (hf : t.fatal = some error) (st : Step t m t') :
    t'.fatal = some error ∨ t'.fatal = none ∧
      (t'.unbinder = .returned (some error) ∨ t'.unbinder = .listing (some error)) := by
  cases st with
  | supervisor st =>
    left
    cases st with
    | @keep error' hs =>
      show t.fatal.or (some error') = some error
      rw [hf, Option.some_or]
    | _ => exact hf
  | unbinder st =>
    cases st with
    | @collect stopping hu =>
      refine .inr ⟨rfl, ?_⟩
      cases stopping with
      | true => exact .inr (congrArg _ hf)
      | false => exact .inl (congrArg _ hf)
    | _ => exact .inl hf
  | acceptor st => cases st <;> exact .inl hf
  | removal st => cases st; exact .inl hf
  | _ => exact .inl hf

theorem Event.of_seen {e : Event C} {x : Report} {error : TransportError}
    (hx : e.report? = some x) (hs : x.seen? = some error) :
    e.before.acceptor = .ended (some error) := by
  have hn : ∀ failure : Option (Option TransportError), failure.map Report.returned ≠ some x := by
    rintro (_ | failure) h <;> cases h
    cases hs
  obtain ⟨t, m⟩ := e
  cases m with
  | task k =>
    cases k with
    | supervisor =>
      simp only [Event.report?, supervisorReport?] at hx
      split at hx
      · rename_i error' _ ha
        cases hx
        rw [ha]
        split at hs <;> rw [← Option.some.inj hs]
      · cases hx
        cases hs
      · cases hx
    | unbinder => exact absurd hx (hn _)
    | _ => cases hx
  | unbind => exact absurd hx (hn _)
  | _ => cases hx

/-- Every failure that the supervisor sees is the last answer of the dispatcher. -/
theorem Run.seen (run : Run M h t) {h₁ h₂ : List (Event C)} {e : Event C} {x : Report}
    {error : TransportError} (he : h = h₁ ++ e :: h₂) (hx : e.report? = some x)
    (hs : x.seen? = some error) : Caused h₁ error := by
  induction run generalizing h₂ with
  | create => exact absurd he (by simp)
  | move run m hm ha ih =>
    rcases snoc_eq_append_cons he with ⟨-, rfl, rfl⟩ | ⟨h₂, -, he⟩
    · exact run.caused (failing_of_ended (Event.of_seen hx hs))
    · exact ih he
  | change run hr hc ih => exact ih he

/-- The supervisor is done with a failure that is still to be returned. -/
theorem Retained.done (hk : Retained t) (hl : Listening t) {error : TransportError}
    (hp : t.pending = .announced error) : t.supervisor = .done := by
  cases hs : t.supervisor with
  | unborn =>
    obtain ⟨hf, hu⟩ := hk.unborn hs
    rw [pending_resting (.inl hs), hf, hu] at hp
    cases hp
  | watching => rw [hk.pending_watching hl hs] at hp; cases hp
  | keeping => simp only [pending, hs] at hp; cases hp
  | stopping =>
    obtain ⟨error, hf⟩ := hk.stopping hs
    simp only [pending, hs, hf, Option.elim_some] at hp
    cases hp
  | done => rfl

/-- Nothing keeps the supervisor from telling the application. -/
theorem exists_step_supervisor {error : TransportError} (hp : t.pending = .unannounced error) :
    ∃ t', t.step .supervisor = some t' := by
  simp only [pending] at hp
  cases hs : t.supervisor with
  | keeping | stopping => exact ⟨_, by simp only [Transport.step, stepSupervisor, hs]; rfl⟩
  | _ =>
    rw [hs] at hp
    cases hf : t.fatal.or t.unbinder.taken <;> rw [hf] at hp <;> cases hp

/-- Once the supervisor is done, nothing keeps a call from going on. -/
theorem exists_step_unbinder (hs : t.supervisor = .done) (hu : t.isUnbinding = true) :
    ∃ t', t.step .unbinder = some t' := by
  simp only [isUnbinding] at hu
  cases hc : t.unbinder with
  | idle | returned => rw [hc] at hu; cases hu
  | joining => exact ⟨_, by simp only [Transport.step, stepUnbinder, hc, hs, if_true]; rfl⟩
  | aborting routes =>
    cases routes <;> exact ⟨_, by simp only [Transport.step, stepUnbinder, hc]; rfl⟩
  | _ => exact ⟨_, by simp only [Transport.step, stepUnbinder, hc]; rfl⟩

theorem Retained.installed (hk : Retained t) (hl : Listening t) (hu : t.isUnbinding = false)
    (hp : t.pending ≠ .nothing ∨ t.supervisor = .watching) : t.installed = true := by
  cases hi : t.installed with
  | true => rfl
  | false =>
    obtain ⟨hh, ht⟩ := unbinder_of_idle hu
    have hs := hl.free hh hi
    rcases hp with hp | hp
    · rw [pending_resting hs, hk.empty hi hh, ht] at hp
      exact absurd rfl hp
    · rw [hp] at hs
      rcases hs with hs | hs <;> cases hs

/-- A datagram that cannot be read is nothing. -/
theorem receive_dropped {t : Transport .datagram} {datagram : Bytes} (peer : SocketAddress)
    (link : Socket.Link) (hd : datagram.take t.configuration.datagramBuffer = [] ∨
      ∃ error, Wire.Packet.parse (datagram.take t.configuration.datagramBuffer) = .error error) :
    t.receive datagram peer link = t := by
  have hn : t.arrivalOf? datagram peer link = none := by
    simp only [arrivalOf?]
    rcases hd with he | ⟨error, he⟩
    · rw [if_pos (by rw [he]; rfl)]
    · rw [he, ite_self]
  rw [receive, hn]

/-- What becomes of failures in a run. -/
structure ReportedOnce (h : List (Event C)) (t : Transport C) : Prop where
  law : Reports (reports h) t.pending
  /-- The application is told once of a failure that is seen while nobody is unbinding, and the
  first call that returns after it returns it. -/
  raised : ∀ l₁ error l₂, reports h = l₁ ++ .raised error :: l₂ →
    l₂ = [] ∨ l₂ = [.stopRequested] ∨ ∃ l₃, l₂ = .stopRequested :: .returned (some error) :: l₃
  /-- No call returns another failure. -/
  returned : ∀ l₁ error l₂, reports h = l₁ ++ .returned (some error) :: l₂ →
    ∃ l₀, l₁ = l₀ ++ [.raised error, .stopRequested]
  stops : t.stopRequests = (reports h).countP Report.isStop
  /-- Every call that unbinds or stops returns once. -/
  calls : h.countP Event.unbinds = (reports h).countP Report.isReturn + t.isUnbinding.toNat
  /-- The supervisor can see the end of the accept loop. -/
  sees : ∀ failure, t.supervisor = .watching → t.acceptor = .ended failure →
    ∃ t', t.step .supervisor = some t'
  /-- The supervisor can go on until it has told the application. -/
  announces : ∀ error, t.pending = .unannounced error → ∃ t', t.step .supervisor = some t'
  /-- A call can go on from then until it has returned the failure. -/
  returns : ∀ error, t.pending = .announced error → t.isUnbinding = true →
    ∃ t', t.step .unbinder = some t'
  empty : t.installed = false → t.unbinder.holdsLock = false → t.fatal = none
  /-- A failure that was kept is not overwritten. -/
  kept : ∀ error m t', t.fatal = some error → Move.perform m t = some t' →
    t'.fatal = some error ∨ t'.fatal = none ∧
      (t'.unbinder = .returned (some error) ∨ t'.unbinder = .listing (some error))
  /-- From a failure on, also before it is seen, nobody can bind until a call takes it. -/
  bound : t.isUnbinding = false → t.pending ≠ .nothing ∨ t.supervisor = .watching →
    ∀ network, t.bind network = (.error .alreadyBound, network)
  /-- Only the dispatcher makes the accept loop fail, or a buffer that would be too long. -/
  caused : ∀ h₁ e h₂ x error, h = h₁ ++ e :: h₂ → e.report? = some x → x.seen? = some error →
    Caused h₁ error
  /-- No failure of the listening socket is one of the accept loop. -/
  endured : ∀ error t', t.listenError error = some t' →
    t' = t ∨ t' = { t with acceptor := .ended none }

/-- **Failures of the accept loop are reported once.** Whatever is done with a transport, as long as
calls that bind and unbind are made one after the other; and a datagram that cannot be read changes
nothing. -/
theorem failures_reported_once (run : Run M h t) (hb : OneByOne h) :
    ReportedOnce h t ∧ ∀ (u : Transport .datagram) datagram peer link,
      (datagram.take u.configuration.datagramBuffer = [] ∨
        ∃ error, Wire.Packet.parse (datagram.take u.configuration.datagramBuffer) = .error error) →
      u.receive datagram peer link = u := by
  obtain ⟨ho, hl⟩ := run.inOrder
  obtain ⟨hr, hk⟩ := run.reported hb
  refine ⟨?_, fun u datagram peer link => receive_dropped peer link⟩
  constructor
  case law => exact hr
  case raised =>
    intro l₁ error l₂ he
    exact (hr.raised he).imp And.left (Or.imp_left And.left)
  case returned => exact fun l₁ error l₂ he => hr.returned he
  case stops => exact run.stopRequests
  case calls => exact run.calls hb
  case sees =>
    intro failure hs ha
    cases failure <;> exact ⟨_, by simp only [Transport.step, stepSupervisor, hs, ha]; rfl⟩
  case announces => exact fun error => exists_step_supervisor
  case returns => exact fun error hp => exists_step_unbinder (hk.done hl hp)
  case empty => exact hk.empty
  case kept => exact fun error m t' hf hm => (step_of_perform ho.hand hm).fatal hf
  case bound =>
    intro hu hp network
    rw [bind, if_pos (hk.installed hl hu hp)]
  case caused => exact fun h₁ e h₂ x error he hx hs => run.seen he hx hs
  case endured =>
    intro error t' he
    cases step_of_perform (m := .listenError error) ho.hand he with
    | listenOn => exact .inl rfl
    | listenEnd => exact .inr rfl

/-- The dispatcher refuses a connection. -/
def refusing : List (Move .datagram) :=
  opening ++ asking ++ .answer (.refuse "full") :: .replicate 6 (.task .acceptor)

/-- The supervisor sees the failure, and an unbind returns it. The stop of another listener returns
without a failure. -/
def unbindingTwice : List (Move .datagram) :=
  refusing ++ .replicate 3 (.task .supervisor) ++
    .unbind false :: .replicate 5 (.task .unbinder) ++ opening ++
    .unbind true :: .replicate 2 (.task .unbinder) ++ [.task .acceptor, .task .supervisor] ++
    .replicate 6 (.task .unbinder)

/-- The transport after `unbindingTwice`. -/
def unboundTwice : Transport .datagram := (unbound.performAll unbindingTwice).getD unbound

theorem run_unboundTwice : Run .datagram (unbound.trace unbindingTwice) unboundTwice := by
  have hc : Run .datagram [] unbound := .create _ _
  refine hc.moves (show unbound.performAll unbindingTwice = some unboundTwice from rfl) ?_
  intro arrival hm
  exact initial_of_greeting (by simpa [unbindingTwice, refusing, opening, asking] using hm)

theorem refusal_reported_once :
    OneByOne (unbound.trace unbindingTwice) ∧
      reports (unbound.trace unbindingTwice) =
        [.raised (.dispatch "full"), .stopRequested, .returned (some (.dispatch "full")),
          .returned none] ∧
      ReportedOnce (unbound.trace unbindingTwice) unboundTwice := by
  have hb : OneByOne (unbound.trace unbindingTwice) := by
    have hc : (unbound.trace unbindingTwice).all
        (fun e => !e.move.isCall || !e.before.isUnbinding) = true := rfl
    intro e he hm
    have h := List.all_eq_true.mp hc e he
    rw [hm] at h
    simpa using h
  exact ⟨hb, rfl, (failures_reported_once run_unboundTwice hb).1⟩

end Transport

end Duplex
