import Duplex.Proofs.RoutingTable.Contents

/-!
# Calls on a shared table

Calls on a shared table begin, look at it and return in any order (`Run`). Each call has one access
at which it takes effect, and at these instants the calls come to what they would come to if each
were alone with the table (`AccessStep`). A call that finds no entry and then inserts one takes
effect at its second access, and if someone else has inserted one in between, it finds that one.

The effects in their order are a sequence of calls on a finite map (`Linearization`), by induction
on the run; what the constructors have done and what has become of concurrent arrivals is read off
it (`linearizable`).
-/

namespace Duplex.RoutingTable

variable {σ α : Type}

/-- What a call has come to, if it has taken effect. -/
def Stage.response? : Stage α → Option (Response α)
  | .begun | .claiming => none
  | .done response | .returned response => some response

/-- How often a call will look at the table, at most. -/
def Stage.looksLeft : Stage α → Nat
  | .begun => 2
  | .claiming => 1
  | .done _ | .returned _ => 0

/-! ## Runs -/

/-- What is seen of a run. -/
inductive Event (σ α : Type) where
  | started (call : Nat) (request : Request σ α)
  | accessed (call : Nat)
  | finished (call : Nat) (response : Response α)

/-- `Run world h s`: from an empty table, and constructors in the state `world`, the events of the
history `h` lead to `s`. -/
inductive Run (world : σ) : List (Event σ α) → Shared σ α → Prop
  | empty : Run world [] { world }
  | start {h s} (run : Run world h s) (request : Request σ α) :
    Run world (h ++ [.started s.calls.length request]) (s.start request)
  | access {h s s' call} (run : Run world h s) (hs : s.access call = some s') :
    Run world (h ++ [.accessed call]) s'
  | finish {h s s' call response} (run : Run world h s)
    (hs : s.finish call = some (response, s')) :
    Run world (h ++ [.finished call response]) s'

/-- What one access of a call does: it finds that the id of its call is not there, or it takes
effect. -/
inductive AccessStep (s : Shared σ α) (call : Nat) : Shared σ α → Prop
  | miss {key create} (hc : s.calls[call]? = some ⟨.findOrInsert key create, .begun⟩) :
    AccessStep s call (s.goTo call .claiming)
  | effect {c response lock world} (hc : s.calls[call]? = some c)
    (hl : 0 < c.stage.looksLeft)
    (ht : Takes (s.lock.table.contents, s.world) c.request response (lock.table.contents, world))
    (hd : lock.table.Distinct) :
    AccessStep s call (Shared.goTo { s with
      lock, world, ran := if response.hasRun then s.ran ++ [call] else s.ran } call
        (.done response))

@[simp] theorem Lock.enter_eq (l : Lock α) : l.enter = l.table := by
  unfold Lock.enter Lock.acquire
  cases l.poisoned <;> rfl

theorem takes_removeIfSame (table : RoutingTable α) (world : σ) (key : ConnectionId)
    (identity : Nat) :
    Takes (table.contents, world) (.removeIfSame key identity)
      (.removed (table.removeIfSame key identity).1)
      ((table.removeIfSame key identity).2.contents, world) := by
  simp only [RoutingTable.removeIfSame]
  cases hg : table.get? key with
  | none =>
    refine .kept fun entry he => ?_
    rw [lookup_contents, hg] at he
    cases he
  | some entry =>
    by_cases hi : entry.identity = identity
    · simp only [if_pos hi, contents_erase]
      subst hi
      exact .removed (by rw [lookup_contents, hg])
    · simp only [if_neg hi]
      refine .kept fun entry' he => ?_
      rw [lookup_contents, hg] at he
      cases he
      exact hi

/-- The second access of a call that finds or inserts: it finds what others have inserted, or its
constructor runs. -/
theorem claim_cases (s : Shared σ α) (call : Nat) (key : ConnectionId)
    (create : σ → Option (Entry α) × σ) (hd : s.lock.table.Distinct) :
    ∃ outcome lock world, s.claim call key create = Shared.goTo { s with
        lock, world
        ran := if (Response.looked outcome).hasRun then s.ran ++ [call] else s.ran } call
          (.done (.looked outcome)) ∧
      Takes (s.lock.table.contents, s.world) (.findOrInsert key create) (.looked outcome)
        (lock.table.contents, world) ∧ lock.table.Distinct := by
  simp only [Shared.claim, RoutingTable.claim, Lock.enter_eq, Shared.noting]
  cases hg : s.lock.table.get? key with
  | some entry =>
    refine ⟨.existing entry, { s.lock with poisoned := s.lock.poisoned || false }, s.world, rfl,
      .existing ?_, hd⟩
    rw [lookup_contents, hg]
  | none =>
    have hm : s.lock.table.contents.lookup key = none := by rw [lookup_contents, hg]
    cases hc : create s.world with
    | mk made world =>
      cases made with
      | some entry =>
        refine ⟨.created entry, ⟨{ entries := s.lock.table.entries ++ [(key, entry)] },
          s.lock.poisoned || false⟩, world, rfl, ?_, hd.insert hg entry⟩
        rw [contents_insert hg]
        exact .created hm hc
      | none =>
        exact ⟨.failed, { s.lock with poisoned := s.lock.poisoned || true }, world, rfl,
          .failed hm hc, hd⟩

theorem access_cases {s s' : Shared σ α} {call : Nat} (hd : s.lock.table.Distinct)
    (h : s.access call = some s') : AccessStep s call s' := by
  simp only [Shared.access] at h
  split at h
  · rename_i request hc
    cases h
    have hl : 0 < (Stage.begun : Stage α).looksLeft := Nat.succ_pos 1
    cases request with
    | get key =>
      simp only [Shared.look, Lock.enter_eq, ← lookup_contents]
      exact .effect hc hl .get hd
    | findOrInsert key create =>
      simp only [Shared.look, Lock.enter_eq]
      cases hg : s.lock.table.get? key with
      | some entry => exact .effect hc hl (.existing (by rw [lookup_contents, hg])) hd
      | none => exact .miss hc
    | removeIfSame key identity =>
      simp only [Shared.look, Lock.enter_eq]
      have ht := takes_removeIfSame s.lock.table s.world key identity
      have hd := hd.removeIfSame key identity
      generalize s.lock.table.removeIfSame key identity = result at ht hd ⊢
      exact @AccessStep.effect _ _ s call _ _ { s.lock with table := result.2 } s.world hc hl ht hd
    | size =>
      simp only [Shared.look, Lock.enter_eq, ← card_keys_contents hd]
      exact .effect hc hl .size hd
    | snapshot =>
      simp only [Shared.look, Lock.enter_eq]
      exact .effect hc hl (.snapshot (snapshot_contents hd)) hd
  · rename_i key create hc
    cases h
    obtain ⟨outcome, lock, world, he, ht, hd⟩ := claim_cases s call key create hd
    rw [he]
    exact .effect hc (Nat.succ_pos 0) ht hd
  · cases h

theorem getElem?_goTo (s : Shared σ α) (call : Nat) (stage : Stage α) (i : Nat) :
    (s.goTo call stage).calls[i]? =
      (s.calls[i]?).map fun c => if call = i then { c with stage } else c := by
  rw [Shared.goTo, List.getElem?_modify]
  cases s.calls[i]? <;> rfl

theorem getElem?_goTo_self {s : Shared σ α} {call : Nat} {c : Call σ α}
    (hc : s.calls[call]? = some c) (stage : Stage α) :
    (s.goTo call stage).calls[call]? = some { c with stage } := by
  rw [getElem?_goTo, hc, Option.map_some, if_pos rfl]

/-- A call that finds or inserts, with nobody in between, is `findOrInsert`. -/
theorem findOrInsert_alone {s : Shared σ α} {call : Nat} {key : ConnectionId}
    {create : σ → Option (Entry α) × σ}
    (hc : s.calls[call]? = some ⟨.findOrInsert key create, .begun⟩) :
    ∃ s', (s.access call = some s' ∨ ∃ s₁, s.access call = some s₁ ∧ s₁.access call = some s') ∧
      (s'.lock.table, s'.ran, s'.world) =
        (s.lock.table.findOrInsert key (Shared.noting call create) (s.ran, s.world)).2 ∧
      s'.calls[call]? = some ⟨.findOrInsert key create, .done (.looked
        (s.lock.table.findOrInsert key (Shared.noting call create) (s.ran, s.world)).1)⟩ := by
  have ha : s.access call = some (s.look call (.findOrInsert key create)) := by
    rw [Shared.access, hc]
  simp only [Shared.look, Lock.enter_eq] at ha
  rw [findOrInsert]
  cases hg : s.lock.table.get? key with
  | some entry =>
    rw [hg] at ha
    exact ⟨_, .inl ha, rfl, getElem?_goTo_self hc _⟩
  | none =>
    rw [hg] at ha
    have hc' := getElem?_goTo_self hc .claiming
    refine ⟨_, .inr ⟨_, ha, by rw [Shared.access, hc']⟩, ?_, ?_⟩
    · simp only [Shared.claim, Lock.enter_eq]
      rfl
    · simp only [Shared.claim, Lock.enter_eq]
      exact getElem?_goTo_self hc' _

/-! ## The order of the effects -/

/-- The effect lies at an access of its call, after the start of the call and before its return, and
is what the call has come to. -/
structure Effect.Within (e : Effect σ α) (h : List (Event σ α)) : Prop where
  accessed : h[e.time]? = some (Event.accessed e.call)
  started : ∃ i : Nat, h[i]? = some (Event.started e.call e.request)
  after : ∀ (i : Nat) request, h[i]? = some (Event.started e.call request) →
    i < e.time ∧ request = e.request
  before : ∀ (i : Nat) response, h[i]? = some (Event.finished e.call response) →
    e.time < i ∧ response = e.response

/-- The effects of a run, in the order of their instants: one within each call that has returned,
and at most one within any other, such that the same calls made one after the other come to the same
and leave the same table and the same state of the constructors. -/
structure Linearization (world : σ) (h : List (Event σ α)) (s : Shared σ α)
    (order : List (Effect σ α)) : Prop where
  sequential : Sequential (∅, world) order (s.lock.table.contents, s.world)
  ordered : order.Pairwise fun a b => a.time < b.time
  once : (order.map (·.call)).Nodup
  within : ∀ e ∈ order, e.Within h
  complete : ∀ (i : Nat) call response, h[i]? = some (Event.finished call response) →
    ∃ e ∈ order, e.call = call
  /-- The constructors that have run are those whose calls say so. -/
  ran : s.ran = (order.filter (·.response.hasRun)).map (·.call)

/-- What the calls of a run are to its history and to their effects. -/
structure Recorded (h : List (Event σ α)) (s : Shared σ α) (order : List (Effect σ α)) : Prop where
  distinct : s.lock.table.Distinct
  started : ∀ call c, s.calls[call]? = some c →
    ∃ i : Nat, h[i]? = some (Event.started call c.request)
  known : ∀ (i : Nat) call request, h[i]? = some (Event.started call request) →
    ∃ c : Call σ α, s.calls[call]? = some c ∧ c.request = request
  returned : ∀ (i : Nat) call response, h[i]? = some (Event.finished call response) →
    ∃ c : Call σ α, s.calls[call]? = some c ∧ c.stage = Stage.returned response
  effective : ∀ (call : Nat) c, s.calls[call]? = some c → c.stage.response? ≠ none →
    ∃ e ∈ order, e.call = call
  taken : ∀ e ∈ order, ∃ c : Call σ α, s.calls[e.call]? = some c ∧ c.request = e.request ∧
    c.stage.response? = some e.response
  claims : ∀ (call : Nat) c, s.calls[call]? = some c → c.stage = .claiming →
    ∃ key create, c.request = .findOrInsert key create

theorem getElem?_snoc {β : Type} {l : List β} {a x : β} {i : Nat} :
    (l ++ [a])[i]? = some x ↔ l[i]? = some x ∨ i = l.length ∧ a = x := by
  rcases Nat.lt_trichotomy i l.length with hi | rfl | hi
  · rw [List.getElem?_append_left hi]
    constructor
    · exact .inl
    · rintro (h | ⟨rfl, -⟩)
      · exact h
      · exact absurd hi (Nat.lt_irrefl _)
  · rw [List.getElem?_concat_length, List.getElem?_eq_none (Nat.le_refl _)]
    simp
  · rw [List.getElem?_eq_none (by rw [List.length_append, List.length_singleton]; omega),
      List.getElem?_eq_none (Nat.le_of_lt hi)]
    constructor
    · intro h; cases h
    · rintro (h | ⟨rfl, -⟩)
      · cases h
      · exact absurd hi (Nat.lt_irrefl _)

theorem lt_of_getElem? {β : Type} {l : List β} {x : β} {i : Nat} (h : l[i]? = some x) :
    i < l.length :=
  (List.getElem?_eq_some_iff.mp h).1

/-- A later event leaves an effect where it is. -/
theorem Effect.Within.snoc {e : Effect σ α} {h : List (Event σ α)} {event : Event σ α}
    (hw : e.Within h) (hs : ∀ request, event ≠ .started e.call request)
    (hf : ∀ response, event = .finished e.call response → response = e.response) :
    e.Within (h ++ [event]) where
  accessed := getElem?_snoc.mpr (.inl hw.accessed)
  started := by
    obtain ⟨i, hi⟩ := hw.started
    exact ⟨i, getElem?_snoc.mpr (.inl hi)⟩
  after := by
    intro i request hi
    rcases getElem?_snoc.mp hi with hi | ⟨-, he⟩
    · exact hw.after i request hi
    · exact absurd he (hs request)
  before := by
    intro i response hi
    rcases getElem?_snoc.mp hi with hi | ⟨rfl, he⟩
    · exact hw.before i response hi
    · exact ⟨lt_of_getElem? hw.accessed, hf response he⟩

theorem Stage.response?_eq_none {stage : Stage α} (hl : 0 < stage.looksLeft) :
    stage.response? = none := by
  cases stage with
  | begun | claiming => rfl
  | done | returned => exact absurd hl (Nat.lt_irrefl 0)

section Steps

variable {world : σ} {h : List (Event σ α)} {s s' : Shared σ α} {order : List (Effect σ α)}
  {call : Nat} {c : Call σ α}

/-- Between its effects a run only goes on with its calls. -/
theorem Linearization.still (hl : Linearization world h s order) {event : Event σ α}
    (ht : s'.lock.table = s.lock.table) (hw : s'.world = s.world) (hn : s'.ran = s.ran)
    (hs : ∀ e ∈ order, ∀ request, event ≠ .started e.call request)
    (hf : ∀ e ∈ order, ∀ response, event = .finished e.call response → response = e.response)
    (hc : ∀ call response, event = .finished call response → ∃ e ∈ order, e.call = call) :
    Linearization world (h ++ [event]) s' order where
  sequential := by rw [ht, hw]; exact hl.sequential
  ordered := hl.ordered
  once := hl.once
  within := fun e he => (hl.within e he).snoc (hs e he) (hf e he)
  complete := by
    intro i call response hi
    rcases getElem?_snoc.mp hi with hi | ⟨-, he⟩
    · exact hl.complete i call response hi
    · exact hc call response he
  ran := hn.trans hl.ran

/-- A call takes effect. -/
theorem Linearization.effect (hl : Linearization world h s order) (hr : Recorded h s order)
    {response : Response α} (hc : s.calls[call]? = some c) (hn : c.stage.response? = none)
    (ht : Takes (s.lock.table.contents, s.world) c.request response
      (s'.lock.table.contents, s'.world))
    (hran : s'.ran = if response.hasRun then s.ran ++ [call] else s.ran) :
    Linearization world (h ++ [.accessed call]) s'
      (order ++ [⟨call, h.length, c.request, response⟩]) where
  sequential := .snoc hl.sequential ht
  ordered := by
    refine List.pairwise_append.mpr ⟨hl.ordered, List.pairwise_singleton _ _, ?_⟩
    intro a ha b hb
    rw [List.mem_singleton.mp hb]
    exact lt_of_getElem? (hl.within a ha).accessed
  once := by
    rw [List.map_append, List.nodup_append]
    refine ⟨hl.once, List.nodup_singleton _, ?_⟩
    intro x hx y hy hxy
    obtain ⟨e, he, rfl⟩ := List.mem_map.mp hx
    obtain rfl := List.mem_singleton.mp hy
    -- a call that has taken effect does not look again
    obtain ⟨c', hc', -, hr'⟩ := hr.taken e he
    rw [hxy, hc] at hc'
    cases hc'
    rw [hn] at hr'
    cases hr'
  within := by
    intro e he
    rcases List.mem_append.mp he with he | he
    · refine (hl.within e he).snoc (fun _ h => ?_) (fun _ h => ?_) <;> cases h
    · obtain rfl := List.mem_singleton.mp he
      refine ⟨getElem?_snoc.mpr (.inr ⟨rfl, rfl⟩), ?_, ?_, ?_⟩
      · obtain ⟨i, hi⟩ := hr.started call c hc
        exact ⟨i, getElem?_snoc.mpr (.inl hi)⟩
      · intro i request hi
        rcases getElem?_snoc.mp hi with hi | ⟨-, he⟩
        · -- every start of the call lies in the history so far
          obtain ⟨c', hc', hq⟩ := hr.known i call request hi
          rw [hc] at hc'
          cases hc'
          exact ⟨lt_of_getElem? hi, hq.symm⟩
        · cases he
      · intro i response' hi
        rcases getElem?_snoc.mp hi with hi | ⟨-, he⟩
        · -- the call would have returned before it took effect
          obtain ⟨c', hc', hq⟩ := hr.returned i call response' hi
          rw [hc] at hc'
          cases hc'
          rw [hq] at hn
          cases hn
        · cases he
  complete := by
    intro i call' response' hi
    rcases getElem?_snoc.mp hi with hi | ⟨-, he⟩
    · obtain ⟨e, he, hq⟩ := hl.complete i call' response' hi
      exact ⟨e, List.mem_append_left _ he, hq⟩
    · cases he
  ran := by
    rw [hran, List.filter_append, List.map_append, ← hl.ran, List.filter_singleton]
    cases response.hasRun
    · exact (List.append_nil _).symm
    · rfl

theorem Recorded.call_lt (hr : Recorded h s order) {e : Effect σ α} (he : e ∈ order) :
    e.call < s.calls.length := by
  obtain ⟨c, hc, -⟩ := hr.taken e he
  exact lt_of_getElem? hc

theorem Recorded.start (hr : Recorded h s order) (request : Request σ α) :
    Recorded (h ++ [.started s.calls.length request]) (s.start request) order where
  distinct := hr.distinct
  started := by
    intro call c hc
    rcases getElem?_snoc.mp hc with hc | ⟨rfl, rfl⟩
    · obtain ⟨i, hi⟩ := hr.started call c hc
      exact ⟨i, getElem?_snoc.mpr (.inl hi)⟩
    · exact ⟨h.length, getElem?_snoc.mpr (.inr ⟨rfl, rfl⟩)⟩
  known := by
    intro i call request' hi
    rcases getElem?_snoc.mp hi with hi | ⟨-, he⟩
    · obtain ⟨c, hc, hq⟩ := hr.known i call request' hi
      exact ⟨c, getElem?_snoc.mpr (.inl hc), hq⟩
    · cases he
      exact ⟨{ request }, getElem?_snoc.mpr (.inr ⟨rfl, rfl⟩), rfl⟩
  returned := by
    intro i call response hi
    rcases getElem?_snoc.mp hi with hi | ⟨-, he⟩
    · obtain ⟨c, hc, hq⟩ := hr.returned i call response hi
      exact ⟨c, getElem?_snoc.mpr (.inl hc), hq⟩
    · cases he
  effective := by
    intro call c hc hn
    rcases getElem?_snoc.mp hc with hc | ⟨-, rfl⟩
    · exact hr.effective call c hc hn
    · exact absurd rfl hn
  taken := by
    intro e he
    obtain ⟨c, hc, hq⟩ := hr.taken e he
    exact ⟨c, getElem?_snoc.mpr (.inl hc), hq⟩
  claims := by
    intro call c hc hn
    rcases getElem?_snoc.mp hc with hc | ⟨-, rfl⟩
    · exact hr.claims call c hc hn
    · cases hn

/-- A call that has not returned goes to a stage, and takes effect if it is a stage after the
effect. -/
theorem Recorded.goTo (hr : Recorded h s order) {stage : Stage α} {event : Event σ α}
    {order' : List (Effect σ α)} (hc : s.calls[call]? = some c)
    (hn : ∀ response, c.stage ≠ .returned response)
    (hcalls : s'.calls = (s.goTo call stage).calls) (hd : s'.lock.table.Distinct)
    (hs : ∀ call request, event ≠ .started call request)
    (hf : ∀ call' response, event = .finished call' response →
      call' = call ∧ stage = .returned response)
    (hsub : order ⊆ order') (hother : ∀ e ∈ order', e.call ≠ call → e ∈ order)
    (he : stage.response? ≠ none → ∃ e ∈ order', e.call = call)
    (ht : ∀ e ∈ order', e.call = call →
      c.request = e.request ∧ stage.response? = some e.response)
    (hcl : stage = .claiming → ∃ key create, c.request = .findOrInsert key create) :
    Recorded (h ++ [event]) s' order' := by
  have hself : s'.calls[call]? = some { c with stage } := by
    rw [hcalls]
    exact getElem?_goTo_self hc stage
  have hne : ∀ i, i ≠ call → s'.calls[i]? = s.calls[i]? := by
    intro i hi
    rw [hcalls, getElem?_goTo]
    simp [Ne.symm hi]
  have hsame : ∀ (i : Nat) (c' : Call σ α), s.calls[i]? = some c' →
      ∃ c'' : Call σ α, s'.calls[i]? = some c'' ∧ c''.request = c'.request := by
    intro i c' hc'
    by_cases hi : i = call
    · subst hi
      rw [hc] at hc'
      cases hc'
      exact ⟨_, hself, rfl⟩
    · exact ⟨c', (hne i hi).trans hc', rfl⟩
  refine ⟨hd, ?_, ?_, ?_, ?_, ?_, ?_⟩
  · intro i c' hc'
    by_cases hi : i = call
    · subst hi
      rw [hself] at hc'
      cases hc'
      obtain ⟨j, hj⟩ := hr.started i c hc
      exact ⟨j, getElem?_snoc.mpr (.inl hj)⟩
    · rw [hne i hi] at hc'
      obtain ⟨j, hj⟩ := hr.started i c' hc'
      exact ⟨j, getElem?_snoc.mpr (.inl hj)⟩
  · intro i call' request hi
    rcases getElem?_snoc.mp hi with hi | ⟨-, rfl⟩
    · obtain ⟨c', hc', rfl⟩ := hr.known i call' request hi
      exact hsame call' c' hc'
    · exact absurd rfl (hs call' request)
  · intro i call' response hi
    rcases getElem?_snoc.mp hi with hi | ⟨-, hq⟩
    · obtain ⟨c', hc', hq⟩ := hr.returned i call' response hi
      by_cases hi : call' = call
      · subst hi
        rw [hc] at hc'
        cases hc'
        exact absurd hq (hn response)
      · exact ⟨c', (hne call' hi).trans hc', hq⟩
    · obtain ⟨rfl, rfl⟩ := hf call' response hq
      exact ⟨_, hself, rfl⟩
  · intro i c' hc' hq
    by_cases hi : i = call
    · subst hi
      rw [hself] at hc'
      cases hc'
      exact he hq
    · rw [hne i hi] at hc'
      obtain ⟨e, hm, hq⟩ := hr.effective i c' hc' hq
      exact ⟨e, hsub hm, hq⟩
  · intro e hm
    by_cases hi : e.call = call
    · obtain ⟨hq, hq'⟩ := ht e hm hi
      exact ⟨{ c with stage }, by rw [hi]; exact hself, hq, hq'⟩
    · rw [hne _ hi]
      exact hr.taken e (hother e hm hi)
  · intro i c' hc' hq
    by_cases hi : i = call
    · subst hi
      rw [hself] at hc'
      cases hc'
      exact hcl hq
    · rw [hne i hi] at hc'
      exact hr.claims i c' hc' hq

theorem Recorded.access (hl : Linearization world h s order) (hr : Recorded h s order)
    (ha : AccessStep s call s') : ∃ order', Linearization world (h ++ [.accessed call]) s' order' ∧
      Recorded (h ++ [.accessed call]) s' order' := by
  cases ha with
  | miss hc =>
    refine ⟨order, hl.still rfl rfl rfl ?_ ?_ ?_, hr.goTo hc ?_ rfl hr.distinct ?_ ?_
      (List.Subset.refl _) (fun _ he _ => he) (absurd rfl) ?_ (fun _ => ⟨_, _, rfl⟩)⟩
    · intro _ _ _ h; cases h
    · intro _ _ _ h; cases h
    · intro _ _ h; cases h
    · intro _ h; cases h
    · intro _ _ h; cases h
    · intro _ _ h; cases h
    · rintro e he rfl
      obtain ⟨c, hc', -, hq⟩ := hr.taken e he
      rw [hc] at hc'
      cases hc'
      cases hq
  | @effect c response lock world' hc hlooks ht hd =>
    have hn := Stage.response?_eq_none hlooks
    refine ⟨_, hl.effect hr hc hn ht rfl, hr.goTo hc ?_ rfl hd ?_ ?_
      (List.subset_append_left _ _) ?_ ?_ ?_ (fun h => ?_)⟩
    · intro response' hq
      rw [hq] at hn
      cases hn
    · intro _ _ h; cases h
    · intro _ _ h; cases h
    · intro e he hne
      rcases List.mem_append.mp he with he | he
      · exact he
      · rw [List.mem_singleton.mp he] at hne
        exact absurd rfl hne
    · exact fun _ => ⟨_, List.mem_append_right _ (List.mem_singleton_self _), rfl⟩
    · intro e he hq
      rcases List.mem_append.mp he with he | he
      · obtain ⟨c', hc', -, hq'⟩ := hr.taken e he
        rw [hq, hc] at hc'
        cases hc'
        rw [hn] at hq'
        cases hq'
      · rw [List.mem_singleton.mp he]
        exact ⟨rfl, rfl⟩
    · cases h

theorem Recorded.finish (hl : Linearization world h s order) (hr : Recorded h s order)
    {response : Response α} (hf : s.finish call = some (response, s')) :
    Linearization world (h ++ [.finished call response]) s' order ∧
      Recorded (h ++ [.finished call response]) s' order := by
  simp only [Shared.finish] at hf
  split at hf
  · rename_i request response' hc
    cases hf
    have he : ∀ e ∈ order, e.call = call → request = e.request ∧ response = e.response := by
      rintro e he rfl
      obtain ⟨c, hc', hq, hq'⟩ := hr.taken e he
      rw [hc] at hc'
      cases hc'
      cases hq'
      exact ⟨hq, rfl⟩
    obtain ⟨e, hm, hq⟩ := hr.effective call _ hc (by simp [Stage.response?])
    refine ⟨hl.still rfl rfl rfl ?_ ?_ ?_, hr.goTo hc ?_ rfl hr.distinct ?_ ?_
      (List.Subset.refl _) (fun _ he _ => he) (fun _ => ⟨e, hm, hq⟩) ?_ (fun h => ?_)⟩
    · intro _ _ _ h; cases h
    · intro e' he' response' h
      cases h
      exact (he e' he' rfl).2
    · intro _ _ h
      cases h
      exact ⟨e, hm, hq⟩
    · intro _ h; cases h
    · intro _ _ h; cases h
    · intro _ _ h
      cases h
      exact ⟨rfl, rfl⟩
    · intro e' he' hq'
      obtain ⟨h, h'⟩ := he e' he' hq'
      exact ⟨h, congrArg some h'⟩
    · cases h
  · cases hf

end Steps

/-- Every run has an order of its effects. -/
theorem Run.linearized {world : σ} {h : List (Event σ α)} {s : Shared σ α} (run : Run world h s) :
    ∃ order, Linearization world h s order ∧ Recorded h s order := by
  induction run with
  | empty =>
    exact ⟨[], ⟨.nil, .nil, .nil, by simp, by simp, rfl⟩,
      ⟨List.nodup_nil, by simp, by simp, by simp, by simp, by simp, by simp⟩⟩
  | @start h s run request ih =>
    obtain ⟨order, hl, hr⟩ := ih
    refine ⟨order, hl.still rfl rfl rfl ?_ ?_ ?_, hr.start request⟩
    · intro e he request' hq
      injection hq with hq
      exact absurd (hr.call_lt he) (by rw [hq]; exact Nat.lt_irrefl _)
    · intro _ _ _ h; cases h
    · intro _ _ h; cases h
  | access run hs ih =>
    obtain ⟨order, hl, hr⟩ := ih
    exact hr.access hl (access_cases hr.distinct hs)
  | finish run hs ih =>
    obtain ⟨order, hl, hr⟩ := ih
    exact ⟨order, hr.finish hl hs⟩

/-! ## Every call comes to an end -/

/-- Every call that has not returned can go on, whoever else is under way and whether or not someone
has panicked while holding the lock. -/
structure Shared.Usable (s : Shared σ α) : Prop where
  looks : ∀ (call : Nat) (c : Call σ α), s.calls[call]? = some c → 0 < c.stage.looksLeft →
    ∃ s' c', s.access call = some s' ∧ s'.calls[call]? = some c' ∧ c'.request = c.request ∧
      c'.stage.looksLeft < c.stage.looksLeft
  returns : ∀ (call : Nat) (c : Call σ α) response, s.calls[call]? = some c →
    c.stage = .done response → ∃ s', s.finish call = some (response, s')

theorem AccessStep.looksLeft {s s' : Shared σ α} {call : Nat} {c : Call σ α}
    (ha : AccessStep s call s') (hc : s.calls[call]? = some c) :
    ∃ c', s'.calls[call]? = some c' ∧ c'.request = c.request ∧
      c'.stage.looksLeft < c.stage.looksLeft := by
  cases ha with
  | miss hc' =>
    rw [hc] at hc'
    cases hc'
    exact ⟨_, getElem?_goTo_self hc _, rfl, Nat.lt_succ_self 1⟩
  | effect hc' hl =>
    rw [hc] at hc'
    cases hc'
    exact ⟨_, getElem?_goTo_self hc _, rfl, hl⟩

theorem Recorded.usable {h : List (Event σ α)} {s : Shared σ α} {order : List (Effect σ α)}
    (hr : Recorded h s order) : s.Usable where
  looks := by
    intro call c hc hl
    obtain ⟨s', hs⟩ : ∃ s', s.access call = some s' := by
      obtain ⟨request, stage⟩ := c
      cases stage with
      | begun => exact ⟨_, by rw [Shared.access, hc]⟩
      | claiming =>
        obtain ⟨key, create, rfl⟩ := hr.claims call _ hc rfl
        exact ⟨_, by rw [Shared.access, hc]⟩
      | done | returned => exact absurd hl (Nat.lt_irrefl 0)
    obtain ⟨c', h⟩ := (access_cases hr.distinct hs).looksLeft hc
    exact ⟨s', c', hs, h⟩
  returns := by
    intro call c response hc hd
    obtain ⟨request, stage⟩ := c
    subst hd
    exact ⟨_, by rw [Shared.finish, hc]⟩

/-! ## What callers may rely on -/

/-- The effects between any two instants lead from one finite map to another. If an id is not in the
first and none of the effects removes it, all who find or insert it come to one entry. -/
theorem Linearization.between {world : σ} {h : List (Event σ α)} {s : Shared σ α}
    {before arrivals after : List (Effect σ α)}
    (hl : Linearization world h s (before ++ arrivals ++ after)) (key : ConnectionId) :
    ∃ m m', Sequential (∅, world) before m ∧ Sequential m arrivals m' ∧
      Sequential m' after (s.lock.table.contents, s.world) ∧
      (m.1.lookup key = none → (∀ e ∈ arrivals, e.removes key = false) →
        Arrived key arrivals (m'.1.lookup key)) := by
  obtain ⟨m', hb, ha⟩ := hl.sequential.split rfl
  obtain ⟨m, hb, hm⟩ := hb.split rfl
  exact ⟨m, m', hb, hm, ha, hm.arrivals⟩

/-- Any run of calls on a shared table, with constructors that make an entry or panic, has an order
of effects that makes it a sequence of calls on a finite map; those who find or insert an id that is
not there come to one entry, up to its next removal, and one of them has made it; and every call can
go on to its end. -/
theorem linearizable {world : σ} {h : List (Event σ α)} {s : Shared σ α} (run : Run world h s) :
    (∃ order, Linearization world h s order ∧
      ∀ before arrivals after key, order = before ++ arrivals ++ after →
        ∃ m m', Sequential (∅, world) before m ∧ Sequential m arrivals m' ∧
          Sequential m' after (s.lock.table.contents, s.world) ∧
          (m.1.lookup key = none → (∀ e ∈ arrivals, e.removes key = false) →
            Arrived key arrivals (m'.1.lookup key))) ∧
      s.Usable := by
  obtain ⟨order, hl, hr⟩ := run.linearized
  refine ⟨⟨order, hl, ?_⟩, hr.usable⟩
  rintro before arrivals after key rfl
  exact hl.between key

/-- Four calls on one id: two would make an entry, one has a constructor that panics, and one
removes the first entry made. -/
def rivals (lock : Lock Unit) (world : Nat) (ran : List Nat) (stages : List (Stage Unit)) :
    Shared Nat Unit where
  lock
  world
  ran
  calls := List.zipWith Call.mk
    [.findOrInsert .empty fun n => (some ⟨n, ()⟩, n + 1),
      .findOrInsert .empty fun n => (some ⟨n, ()⟩, n + 1),
      .findOrInsert .empty fun n => (none, n), .removeIfSame .empty 0] stages

/-- Three calls arrive at an id and find nothing. The constructor of one panics under the lock; of
the others, the one that is first at the lock makes the entry, and both obtain it before it is
removed. -/
theorem rivals_linearizable : ∃ (h : List (Event Nat Unit)) (s : Shared Nat Unit), Run 0 h s ∧
    s.lock.poisoned = true ∧ s.ran = [2, 1] ∧ s.calls.map (·.stage.response?) =
      [some (.looked (.existing ⟨0, ()⟩)), some (.looked (.created ⟨0, ()⟩)),
        some (.looked .failed), some (.removed true)] ∧
    (∃ order, Linearization 0 h s order) ∧ s.Usable := by
  have run : Run 0 _ (rivals {} 0 [] [.begun, .begun, .begun]) :=
    ((Run.empty.start _).start _).start _
  have run : Run 0 _ (rivals {} 0 [] [.claiming, .begun, .begun]) :=
    run.access (rfl : Shared.access _ 0 = _)
  have run : Run 0 _ (rivals {} 0 [] [.claiming, .claiming, .begun]) :=
    run.access (rfl : Shared.access _ 1 = _)
  have run : Run 0 _ (rivals {} 0 [] [.claiming, .claiming, .claiming]) :=
    run.access (rfl : Shared.access _ 2 = _)
  have run : Run 0 _ (rivals ⟨{}, true⟩ 0 [2] [.claiming, .claiming, .done (.looked .failed)]) :=
    run.access (rfl : Shared.access _ 2 = _)
  have run : Run 0 _ (rivals ⟨⟨[(.empty, ⟨0, ()⟩)]⟩, true⟩ 1 [2, 1]
      [.claiming, .done (.looked (.created ⟨0, ()⟩)), .done (.looked .failed)]) :=
    run.access (rfl : Shared.access _ 1 = _)
  have run : Run 0 _ (rivals ⟨⟨[(.empty, ⟨0, ()⟩)]⟩, true⟩ 1 [2, 1]
      [.done (.looked (.existing ⟨0, ()⟩)), .done (.looked (.created ⟨0, ()⟩)),
        .done (.looked .failed)]) :=
    run.access (rfl : Shared.access _ 0 = _)
  have run : Run 0 _ (rivals ⟨⟨[(.empty, ⟨0, ()⟩)]⟩, true⟩ 1 [2, 1]
      [.returned (.looked (.existing ⟨0, ()⟩)), .done (.looked (.created ⟨0, ()⟩)),
        .done (.looked .failed)]) :=
    run.finish (rfl : Shared.finish _ 0 = _)
  have run : Run 0 _ (rivals ⟨⟨[(.empty, ⟨0, ()⟩)]⟩, true⟩ 1 [2, 1]
      [.returned (.looked (.existing ⟨0, ()⟩)), .done (.looked (.created ⟨0, ()⟩)),
        .done (.looked .failed), .begun]) :=
    run.start _
  have run : Run 0 _ (rivals ⟨{}, true⟩ 1 [2, 1]
      [.returned (.looked (.existing ⟨0, ()⟩)), .done (.looked (.created ⟨0, ()⟩)),
        .done (.looked .failed), .done (.removed true)]) :=
    run.access (rfl : Shared.access _ 3 = _)
  obtain ⟨⟨order, hl, -⟩, hu⟩ := linearizable run
  exact ⟨_, _, run, rfl, rfl, rfl, ⟨order, hl⟩, hu⟩

end Duplex.RoutingTable
