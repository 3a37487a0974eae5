import Duplex.Proofs.Steps
import Duplex.Signal

/-!
# Firing and waiting

Any number of fires and waits go on together, one step of one of them at a time, and a wait may be
given up between any two steps (`Leads`). A fire that finds the flag set returns in that step; the
one that sets it returns when it has told the waiters.

A waiter registers before it looks at the flag, and the flag is set before the waiters are told. So
whoever sleeps although the flag is set registered before the telling, which is still to come or has
reached it (`Sound.asleep`, by induction on the steps). Nobody falls asleep once the flag is set
(`Leads.awake`).
-/

namespace Duplex.Signal

/-! ## Steps -/

/-- A step of a fire or of a wait. -/
inductive Event where
  /-- A fire has looked at the flag and set it. If it was set before, that fire has returned
  `false`. -/
  | raised (first : Bool)
  /-- The fire that set the flag has told the waiters, and has returned `true`. -/
  | announced
  | registered (name : String)
  /-- The waiter at that position has moved on. -/
  | stepped (i : Nat) (place : Place)
  /-- The wait at that position is given up, or its caller has gone on. -/
  | dropped (i : Nat)
deriving DecidableEq

/-- What a step makes of a signal and its waiters. -/
inductive Leads : Signal → Event → Signal → Prop
  | raised {s} : Leads s (.raised s.raise.1) s.raise.2
  | announced {s} (h : s.announcing = true) : Leads s .announced s.announce
  | registered {s} (name : String) : Leads s (.registered name) (s.register name)
  | stepped {s : Signal} {i w w'} (hw : s.waiters[i]? = some w) (h : w.step s.fired = some w') :
    Leads s (.stepped i w'.place) { s with waiters := s.waiters.set i w' }
  | dropped {s : Signal} {i} (hi : i < s.waiters.length) :
    Leads s (.dropped i) { s with waiters := s.waiters.eraseIdx i }

/-- Whether a fire returns with that step. -/
def Event.returns : Event → Bool
  | raised first => !first
  | announced => true
  | registered _ | stepped .. | dropped _ => false

/-- Whether the step is one of a fire or a wait that has begun. -/
def Event.goesOn : Event → Bool
  | announced | stepped .. => true
  | raised _ | registered _ | dropped _ => false

/-- No fire and no wait that has begun can move. -/
def AtRest (s : Signal) : Prop := ∀ e t, Leads s e t → e.goesOn = false

variable {s t u : Signal} {e : Event} {g h : List Event} {w w' : Waiter}

/-- A fire that nothing comes between. -/
theorem steps_fire (s : Signal) :
    Steps Leads s (.raised s.fire.1 :: if s.fire.1 then [.announced] else []) s.fire.2 := by
  have hr : Leads s (.raised s.raise.1) s.raise.2 := .raised
  cases hf : s.fired with
  | true =>
    simp only [raise, hf, ↓reduceIte] at hr
    simp only [fire, raise, hf, ↓reduceIte, Bool.false_eq_true]
    exact .cons hr .nil
  | false =>
    simp only [raise, hf, Bool.false_eq_true, ↓reduceIte] at hr
    simp only [fire, raise, hf, Bool.false_eq_true, ↓reduceIte]
    exact .cons hr (.cons (.announced rfl) .nil)

/-! ## Waiters -/

theorem Waiter.of_step {fired : Bool} (h : w.step fired = some w') :
    w'.name = w.name ∧ w'.told = w.told ∧
      (w.place = .checking ∧ w'.place = (if fired then .finished else .asleep) ∨
        w.place = .asleep ∧ w.told = true ∧ w'.place = .finished) := by
  obtain ⟨name, place, told⟩ := w
  cases place with
  | checking =>
    cases h
    exact ⟨rfl, rfl, .inl ⟨rfl, rfl⟩⟩
  | asleep =>
    cases told with
    | true =>
      cases h
      exact ⟨rfl, rfl, .inr ⟨rfl, rfl, rfl⟩⟩
    | false => cases h
  | finished => cases h

/-- The waiters after a step: those that were there, told or not, one that has moved, or a new
one. -/
theorem Leads.waiter (st : Leads s e t) (hw : w ∈ t.waiters) :
    (e ≠ .announced ∧ w ∈ s.waiters) ∨
      (e = .announced ∧ ∃ v ∈ s.waiters, w = { v with told := true }) ∨
      (∃ i, e = .stepped i w.place ∧ ∃ v ∈ s.waiters, v.step s.fired = some w) ∨
      ∃ name, e = .registered name ∧ w = { name } := by
  cases st with
  | raised =>
    refine .inl ⟨nofun, ?_⟩
    rw [raise] at hw
    split at hw <;> exact hw
  | announced =>
    obtain ⟨v, hv, rfl⟩ := List.mem_map.mp hw
    exact .inr (.inl ⟨rfl, v, hv, rfl⟩)
  | registered name =>
    rcases List.mem_append.mp hw with hw | hw
    · exact .inl ⟨nofun, hw⟩
    · exact .inr (.inr (.inr ⟨name, rfl, List.mem_singleton.mp hw⟩))
  | @stepped i v v' hv hs =>
    rcases List.mem_or_eq_of_mem_set hw with hw | rfl
    · exact .inl ⟨nofun, hw⟩
    · exact .inr (.inr (.inl ⟨i, rfl, v, List.mem_of_getElem? hv, hs⟩))
  | dropped => exact .inl ⟨nofun, List.mem_of_mem_eraseIdx hw⟩

theorem Leads.fired_eq (st : Leads s e t) (he : ∀ first, e ≠ .raised first) :
    t.fired = s.fired := by
  cases st with
  | raised => exact absurd rfl (he _)
  | announced | registered | stepped | dropped => rfl

theorem Leads.fired_mono (st : Leads s e t) (hf : s.fired = true) : t.fired = true := by
  cases st with
  | raised =>
    rw [raise, if_pos hf]
    exact hf
  | announced | registered | stepped | dropped => exact hf

theorem Leads.of_stepped {i : Nat} {place : Place} (st : Leads s (.stepped i place) t) :
    ∃ w ∈ s.waiters, ∃ w', w.step s.fired = some w' ∧ w'.place = place := by
  generalize he : Event.stepped i place = e at st
  cases st with
  | raised | announced | registered | dropped => cases he
  | stepped hw h =>
    cases he
    exact ⟨_, List.mem_of_getElem? hw, _, h, rfl⟩

/-- The step that sets the flag leaves the waiters to be told, and only telling them ends that. -/
theorem Leads.announcing (st : Leads s e t) (he : e ≠ .announced) (hf : t.fired = true) :
    t.announcing = true ∨ s.fired = true ∧ t.announcing = s.announcing := by
  cases st with
  | raised =>
    cases hs : s.fired with
    | true =>
      simp only [raise, hs, ↓reduceIte]
      exact .inr ⟨trivial, trivial⟩
    | false =>
      simp only [raise, hs, Bool.false_eq_true, ↓reduceIte]
      exact .inl trivial
  | announced => exact absurd rfl he
  | registered | stepped | dropped => exact .inr ⟨hf, rfl⟩

/-! ## The flag -/

/-- What a signal and its waiters have come to by the steps `h`. -/
structure Sound (h : List Event) (s : Signal) : Prop where
  raised : h.count (.raised true) = s.fired.toNat
  /-- Either the fire that set the flag has told the waiters, or it is about to. -/
  announced : h.count .announced + s.announcing.toNat = s.fired.toNat
  refused : .raised false ∈ h → s.fired = true
  told : ∀ w ∈ s.waiters, w.told = true → s.fired = true
  /-- Whoever sleeps although the flag is set will be told or has been. -/
  asleep : ∀ w ∈ s.waiters, w.place = .asleep → s.fired = true →
    s.announcing = true ∨ w.told = true
  finished : ∀ w ∈ s.waiters, w.place = .finished → s.fired = true

theorem Sound.new : Sound [] {} := by
  constructor <;> simp

/-- Steps of the flag are counted. -/
theorem Sound.counts (hs : Sound h s) (st : Leads s e t) :
    (h ++ [e]).count (.raised true) = t.fired.toNat ∧
      (h ++ [e]).count .announced + t.announcing.toNat = t.fired.toNat ∧
      (.raised false ∈ h ++ [e] → t.fired = true) := by
  have hr := hs.raised
  have ha := hs.announced
  have hx := hs.refused
  simp only [List.count_append, List.mem_append, List.mem_singleton]
  cases st with
  | raised =>
    cases hf : s.fired with
    | true =>
      rw [hf] at hr ha
      simp only [raise, hf, ↓reduceIte]
      exact ⟨hr, ha, fun _ => trivial⟩
    | false =>
      have hn : s.announcing = false := by
        cases hn : s.announcing with
        | true => rw [hf, hn] at ha; cases ha
        | false => rfl
      rw [hf] at hr ha
      rw [hn] at ha
      simp only [raise, hf, Bool.false_eq_true, ↓reduceIte]
      exact ⟨congrArg (· + 1) hr, congrArg (· + 1) ha, fun _ => trivial⟩
  | announced hn =>
    rw [hn] at ha
    exact ⟨hr, ha, fun h => hx (h.resolve_right nofun)⟩
  | registered | stepped | dropped => exact ⟨hr, ha, fun h => hx (h.resolve_right nofun)⟩

theorem Sound.fired_of_announcing (hs : Sound h s) (ha : s.announcing = true) :
    s.fired = true := by
  have hc := hs.announced
  rw [ha] at hc
  cases hf : s.fired with
  | true => rfl
  | false => rw [hf] at hc; cases hc

theorem Sound.step (hs : Sound h s) (st : Leads s e t) : Sound (h ++ [e]) t := by
  obtain ⟨hr, ha, hx⟩ := hs.counts st
  refine ⟨hr, ha, hx, fun w hw ht => ?_, fun w hw hp hf => ?_, fun w hw hp => ?_⟩
  all_goals
    rcases st.waiter hw with ⟨he, hw⟩ | ⟨rfl, v, hv, rfl⟩ | ⟨i, he, v, hv, hst⟩ | ⟨name, he, rfl⟩
  · exact st.fired_mono (hs.told w hw ht)
  · cases st with
    | announced hn => exact hs.fired_of_announcing hn
  · obtain ⟨-, ho, -⟩ := Waiter.of_step hst
    exact st.fired_mono (hs.told v hv (ho ▸ ht))
  · cases ht
  · rcases st.announcing he hf with hn | ⟨hsf, hn⟩
    · exact .inl hn
    · rw [hn]
      exact hs.asleep w hw hp hsf
  · exact .inr rfl
  · -- Who falls asleep has found the flag down, and its step does not set it.
    obtain ⟨-, -, ⟨-, hl⟩ | ⟨-, -, hl⟩⟩ := Waiter.of_step hst
    · have hsf : s.fired = true := st.fired_eq (by rintro _ rfl; cases he) ▸ hf
      rw [if_pos hsf, hp] at hl
      cases hl
    · rw [hp] at hl
      cases hl
  · cases hp
  · exact st.fired_mono (hs.finished w hw hp)
  · exact st.fired_mono (hs.finished v hv hp)
  · obtain ⟨-, -, ⟨-, hl⟩ | ⟨ht, ho, -⟩⟩ := Waiter.of_step hst
    · cases hf : s.fired with
      | true => exact st.fired_mono hf
      | false => rw [hf, hp] at hl; cases hl
    · exact st.fired_mono (hs.told v hv ho)
  · cases hp

/-- A wait ends only if the flag is set: it finds it so, or was told. -/
theorem Sound.fired_of_ends (hs : Sound h s) {i : Nat} (st : Leads s (.stepped i .finished) t) :
    s.fired = true := by
  obtain ⟨w, hw, w', h, hp⟩ := st.of_stepped
  obtain ⟨-, -, ⟨-, hl⟩ | ⟨-, ht, -⟩⟩ := Waiter.of_step h
  · cases hf : s.fired with
    | true => rfl
    | false => rw [hf, hp] at hl; cases hl
  · exact hs.told w hw ht

theorem sound (steps : Steps Leads {} h t) : Sound h t := by
  induction steps with
  | nil => exact .new
  | snoc _ step ih => exact ih.step step

/-! ## What is left to do -/

theorem atRest_iff :
    AtRest s ↔ s.announcing = false ∧ ∀ w ∈ s.waiters, w.step s.fired = none := by
  constructor
  · intro hr
    constructor
    · cases ha : s.announcing with
      | false => rfl
      | true => cases hr _ _ (.announced ha)
    · intro w hw
      obtain ⟨i, hi⟩ := List.mem_iff_getElem?.mp hw
      cases hst : w.step s.fired with
      | none => rfl
      | some w' => cases hr _ _ (.stepped hi hst)
  · rintro ⟨ha, hn⟩ e t st
    cases st with
    | raised | registered | dropped => rfl
    | announced h => rw [ha] at h; cases h
    | stepped hw h => rw [hn _ (List.mem_of_getElem? hw)] at h; cases h

theorem Sound.fired_of_returns (hs : Sound h s) (hr : ∃ e ∈ h, e.returns = true) :
    s.fired = true := by
  obtain ⟨e, he, hr⟩ := hr
  cases e with
  | raised first =>
    cases first with
    | false => exact hs.refused he
    | true => cases hr
  | announced =>
    have hp := List.count_pos_iff.mpr he
    have ha := hs.announced
    cases hf : s.fired with
    | true => rfl
    | false => rw [hf] at ha; simp at ha; omega
  | registered | stepped | dropped => cases hr

/-- Where nothing can move, nobody sleeps who registered before the flag was set or after. -/
theorem Sound.finished_of_atRest (hs : Sound h s) (hf : s.fired = true) (hr : AtRest s) :
    h.count .announced = 1 ∧ ∀ w ∈ s.waiters, w.place = .finished := by
  obtain ⟨ha, hn⟩ := atRest_iff.mp hr
  constructor
  · have hc := hs.announced
    rw [ha, hf] at hc
    exact hc
  · intro w hw
    have hst := hn w hw
    rw [Waiter.step] at hst
    cases hp : w.place with
    | finished => rfl
    | checking => rw [hp] at hst; cases hst
    | asleep =>
      rcases hs.asleep w hw hp hf with h | h
      · rw [ha] at h; cases h
      · rw [hp, h] at hst; cases hst

/-! ## After the flag is set -/

theorem Leads.awake (st : Leads s e t) (hf : s.fired = true) (i : Nat) :
    e ≠ .stepped i .asleep := by
  cases st with
  | raised | announced | registered | dropped => nofun
  | stepped _ h =>
    obtain ⟨-, -, ⟨-, hl⟩ | ⟨-, -, hl⟩⟩ := Waiter.of_step h
    · rw [hl, if_pos hf]; nofun
    · rw [hl]; nofun

/-- A waiter that is not asleep when the flag is set stays so. -/
theorem Leads.unslept (st : Leads s e t) (hf : s.fired = true) {name : String}
    (hn : ∀ w ∈ s.waiters, w.name = name → w.place ≠ .asleep) :
    ∀ w ∈ t.waiters, w.name = name → w.place ≠ .asleep := by
  intro w hw he
  rcases st.waiter hw with ⟨-, hw⟩ | ⟨-, v, hv, rfl⟩ | ⟨i, rfl, -⟩ | ⟨-, -, rfl⟩
  · exact hn w hw he
  · exact hn v hv he
  · intro hp
    rw [hp] at st
    exact st.awake hf i rfl
  · nofun

theorem steps_awake (steps : Steps Leads s g t) (hf : s.fired = true) :
    t.fired = true ∧ ∀ i, .stepped i .asleep ∉ g := by
  induction steps with
  | nil => exact ⟨hf, fun _ => List.not_mem_nil⟩
  | snoc _ step ih =>
    obtain ⟨hf, hg⟩ := ih
    refine ⟨step.fired_mono hf, fun i hm => ?_⟩
    rcases List.mem_append.mp hm with hm | hm
    · exact hg i hm
    · exact step.awake hf i (List.mem_singleton.mp hm).symm

theorem steps_unslept (steps : Steps Leads s g t) (hf : s.fired = true) {name : String}
    (hn : ∀ w ∈ s.waiters, w.name = name → w.place ≠ .asleep) :
    ∀ w ∈ t.waiters, w.name = name → w.place ≠ .asleep := by
  induction steps with
  | nil => exact hn
  | snoc before step ih => exact step.unslept (steps_awake before hf).1 ih

/-- Who is not asleep when the flag is set has at most one step left. -/
theorem finished_or_finishes {i : Nat} (hf : s.fired = true) (hw : s.waiters[i]? = some w)
    (hp : w.place ≠ .asleep) : w.place = .finished ∨ ∃ t, Leads s (.stepped i .finished) t := by
  cases hc : w.place with
  | finished => exact .inl rfl
  | asleep => exact absurd hc hp
  | checking =>
    have hs : w.step s.fired = some { w with place := .finished } := by
      rw [Waiter.step, hc, hf]
      rfl
    exact .inr ⟨_, .stepped hw hs⟩

/-- Whatever fires and waits there are, and however their steps follow each other: no two fires
return `true`, and no wait is over before a fire has set the flag. Once a fire has returned and
nothing can move, one of them has returned `true` and nobody sleeps. From the return of a fire on,
nobody falls asleep, and the first step of a wait that begins is its last. -/
theorem no_waiter_lost (steps : Steps Leads {} h t) :
    h.count .announced ≤ 1 ∧
    (∀ before i after, h = before ++ .stepped i .finished :: after → .raised true ∈ before) ∧
    ((∃ e ∈ h, e.returns = true) → AtRest t →
      h.count .announced = 1 ∧ ∀ w ∈ t.waiters, w.place = .finished) ∧
    ((∃ e ∈ h, e.returns = true) → ∀ g u, Steps Leads t g u →
      (∀ i, .stepped i .asleep ∉ g) ∧
      ∀ name, (∀ w ∈ t.waiters, w.name ≠ name) →
        ∀ i w, u.waiters[i]? = some w → w.name = name →
          w.place = .finished ∨ ∃ v, Leads u (.stepped i .finished) v) := by
  have hs := sound steps
  refine ⟨?_, ?_, fun hr => hs.finished_of_atRest (hs.fired_of_returns hr), ?_⟩
  · have ha := hs.announced
    have hb := Bool.toNat_le t.fired
    omega
  · rintro before i after rfl
    obtain ⟨r, r', hb, hst, -⟩ := steps.split
    apply List.count_pos_iff.mp
    rw [(sound hb).raised, (sound hb).fired_of_ends hst]
    decide
  · intro hr g u more
    have hf := hs.fired_of_returns hr
    obtain ⟨hu, ha⟩ := steps_awake more hf
    refine ⟨ha, fun name hn i w hw he => finished_or_finishes hu hw ?_⟩
    exact steps_unslept more hf (fun w hw he => absurd he (hn w hw)) w (List.mem_of_getElem? hw) he

/-- One wait sleeps when the flag is set, one begins before the telling and one after it, and a
second fire comes in between: the waits are all over. -/
theorem three_waits_end :
    ∃ h t, Steps Leads {} h t ∧ (∃ e ∈ h, e.returns = true) ∧ AtRest t ∧
      h.count .announced = 1 ∧ t.waiters.length = 3 ∧ ∀ w ∈ t.waiters, w.place = .finished := by
  have slept : Steps Leads {} [.registered "a", .stepped 0 .asleep]
      ⟨false, false, [⟨"a", .asleep, false⟩]⟩ :=
    .cons (.registered "a")
      (.cons (@Leads.stepped _ 0 ⟨"a", .checking, _⟩ ⟨"a", .asleep, _⟩ rfl rfl) .nil)
  have fired : Steps Leads ⟨false, false, [⟨"a", .asleep, false⟩]⟩
      [.raised true, .registered "b", .raised false, .stepped 1 .finished]
      ⟨true, true, [⟨"a", .asleep, false⟩, ⟨"b", .finished, false⟩]⟩ :=
    .cons .raised (.cons (.registered "b") (.cons .raised
      (.cons (@Leads.stepped _ 1 ⟨"b", .checking, _⟩ ⟨"b", .finished, _⟩ rfl rfl) .nil)))
  have told : Steps Leads ⟨true, true, [⟨"a", .asleep, false⟩, ⟨"b", .finished, false⟩]⟩
      [.announced, .registered "c", .stepped 2 .finished, .stepped 0 .finished]
      ⟨true, false, [⟨"a", .finished, true⟩, ⟨"b", .finished, true⟩, ⟨"c", .finished, false⟩]⟩ :=
    .cons (.announced rfl) (.cons (.registered "c")
      (.cons (@Leads.stepped _ 2 ⟨"c", .checking, _⟩ ⟨"c", .finished, _⟩ rfl rfl)
        (.cons (@Leads.stepped _ 0 ⟨"a", .asleep, _⟩ ⟨"a", .finished, _⟩ rfl rfl) .nil)))
  have steps := (slept.append fired).append told
  obtain ⟨hc, hf⟩ := (no_waiter_lost steps).2.2.1 ⟨.announced, by decide, rfl⟩
    (atRest_iff.mpr ⟨rfl, by decide⟩)
  exact ⟨_, _, steps, ⟨.announced, by decide, rfl⟩, atRest_iff.mpr ⟨rfl, by decide⟩, hc, rfl, hf⟩

end Duplex.Signal
