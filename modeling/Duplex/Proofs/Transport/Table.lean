import Duplex.Proofs.Connection.Phases
import Duplex.Proofs.RoutingTable
import Duplex.Proofs.Socket.Contracts
import Duplex.Proofs.Transport.Run

/-!
# What the routing table of a transport holds

A connection enters the table before the dispatcher is asked, leaves it when it is refused, and
otherwise when it is closed. So its place in all this tells whether it is in the table (`Placed`),
which every move keeps up (`InOrder`, `Run.inOrder`). When nothing is under way (`AtRest`) the table
holds the connections that were accepted and are not closed, and besides them exactly those with
which the dispatcher panicked (`table_exact_iff`): nobody takes these out.
-/

namespace Duplex

/-! ## Starts and answers -/

/-- Whether a move of a connection is one of its start. -/
def Connection.Move.ofStart : Connection.Move → Bool
  | task _ .starter | start | accept | refuse _ | panic => true
  | _ => false

/-- Whoever does not start a connection leaves its name and its start alone, and does not take back
that it is closed. -/
theorem Connection.Step.frame {S : Socket} {c c' : Connection S} {m : Connection.Move}
    (st : Connection.Step c m c') (hm : m.ofStart = false) :
    c'.id = c.id ∧ c'.starter = c.starter ∧ (c.closed = true → c'.closed = true) := by
  cases st with
  | receiver st => obtain ⟨_, _, _, rfl, -⟩ := st.frame; exact ⟨rfl, rfl, fun h => h⟩
  | sender st => obtain ⟨_, _, _, _, _, rfl, -⟩ := st.frame; exact ⟨rfl, rfl, fun h => h⟩
  | driver st => cases st <;> exact ⟨rfl, rfl, fun h => h⟩
  | shutdown => obtain ⟨_, _, e, -⟩ := c.shutdown_frame; rw [e]; exact ⟨rfl, rfl, fun h => h⟩
  | closer | fireClosed => exact ⟨rfl, rfl, fun _ => rfl⟩
  | output | input | cancelOutput | cancelInput => exact ⟨rfl, rfl, fun h => h⟩
  | _ => cases hm

/-- A start whose dispatcher has answered goes on as it must after that answer. -/
theorem Connection.StarterStep.frame {S : Socket} {c c' : Connection S}
    (st : Connection.StarterStep c c') :
    c'.id = c.id ∧ (c.closed = true → c'.closed = true) ∧
      (c.starter = .spawning ∧ c'.starter = .over none ∨
        1 ≤ c.starter.refusal ∧ 1 ≤ c'.starter.refusal) := by
  cases st with
  | spawn hs => exact ⟨rfl, fun h => h, .inl ⟨hs, rfl⟩⟩
  | release hs | close hs | finish hs =>
    refine ⟨rfl, fun h => h, .inr ⟨?_, ?_⟩⟩ <;> simp [hs, Starter.refusal]
  | signal hs => refine ⟨rfl, fun _ => rfl, .inr ⟨?_, ?_⟩⟩ <;> simp [hs, Starter.refusal]

/-- Where the start of the connection stands that the accept loop is about to start or to take out
again. -/
def Acceptor.expects {C : Carrier} : Acceptor C → Starter → Prop
  | starting _ _, s => s = .waiting
  | dispatching _ _, s => s = .dispatching
  | concluding _ _, s => s = .spawning ∨ s = .over none ∨ 1 ≤ s.refusal
  | withdrawing _ _, s => ∃ reason, s = .over (some reason)
  | _, _ => True

/-- A start that cannot go on after an answer, and was not refused, was accepted. -/
theorem Connection.starter_of_stuck {S : Socket} {c : Connection S}
    (he : c.starter = .spawning ∨ c.starter = .over none ∨ 1 ≤ c.starter.refusal)
    (hn : c.stepStarter = none) (hr : ∀ reason, c.starter ≠ .over (some reason)) :
    c.starter = .over none := by
  match hs : c.starter with
  | .spawning | .releasing _ | .closing _ | .signalling _ | .returning _ =>
    simp only [stepStarter, hs] at hn
    cases hn
  | .waiting | .dispatching | .panicked => simp [hs, Starter.refusal] at he
  | .over none => rfl
  | .over (some reason) => exact absurd hs (hr reason)

namespace Transport

/-- Where a start stands after that answer of the dispatcher. -/
def Answer.ledTo (answer : Answer) (s : Starter) : Prop :=
  match answer with
  | accept => s = .spawning ∨ s = .over none
  | refuse _ => 1 ≤ s.refusal
  | panic _ => s = .panicked

/-- After an answer the start goes on as it must. -/
theorem Answer.ledTo_go {answer : Answer} {s s' : Starter}
    (hgo : s = .spawning ∧ s' = .over none ∨ 1 ≤ s.refusal ∧ 1 ≤ s'.refusal)
    (hl : answer.ledTo s) : answer.ledTo s' := by
  rcases hgo with ⟨rfl, rfl⟩ | ⟨hr, hr'⟩
  · cases answer with
    | accept => exact .inr rfl
    | refuse => cases hl
    | panic => cases hl
  · cases answer with
    | accept => rcases hl with rfl | rfl <;> cases hr
    | refuse => exact hr'
    | panic =>
      have hs : s = .panicked := hl
      rw [hs] at hr; cases hr

variable {C : Carrier} {t t' : Transport C} {h h' : List (Event C)}

/-- The answer of the dispatcher that a move is, with the connection that it is about. -/
def Event.answer? (e : Event C) : Option (Nat × Answer) :=
  match e.move, e.before.acceptor with
  | .answer answer, .dispatching route _ => some (route, answer)
  | _, _ => none

/-- The answers of the dispatcher, each with the connection that it is about. -/
def answers (h : List (Event C)) : List (Nat × Answer) := h.filterMap Event.answer?

theorem answers_snoc (h : List (Event C)) (e : Event C) :
    answers (h ++ [e]) = answers h ++ e.answer?.toList := by
  cases he : e.answer? <;> simp [answers, he]

/-! ## Places -/

/-- Whether a connection is left alone: it was accepted and its removal is under way, or it was
not accepted and there is none. -/
def LeftAlone (s : Starter) (removal : Removal) : Prop :=
  match s with
  | .over none => removal ≠ .unborn
  | .over (some _) | .panicked => removal = .unborn
  | _ => False

/-- What the place of a connection tells: whether it is in the table, and what the dispatcher
answered. -/
structure Placed (h : List (Event C)) (t : Transport C) (i : Nat) (r : Route C) : Prop where
  filed : t.table.identity? r.connection.id = some i ↔
    t.acceptor.inHand = some i ∨ r.connection.starter = .panicked ∨ r.removal = .waiting
  hand : t.acceptor.inHand = some i →
    t.acceptor.expects r.connection.starter ∧ r.removal = .unborn
  left : t.acceptor.inHand ≠ some i → LeftAlone r.connection.starter r.removal
  closed : r.removal = .done → r.connection.closed = true
  led : ∀ answer, (i, answer) ∈ answers h → answer.ledTo r.connection.starter
  asked : r.connection.starter ≠ .waiting → r.connection.starter ≠ .dispatching →
    ∃ answer, (i, answer) ∈ answers h

/-- Every entry of the table is a connection under its id, and every connection is where its place
says. -/
structure InOrder (h : List (Event C)) (t : Transport C) : Prop where
  distinct : t.table.Distinct
  entry : ∀ k i, t.table.identity? k = some i → ∃ r, t.routes[i]? = some r ∧ r.connection.id = k
  hand : ∀ i, t.acceptor.inHand = some i → i < t.routes.length
  answered : ∀ i answer, (i, answer) ∈ answers h → i < t.routes.length
  route : ∀ i r, t.routes[i]? = some r → Placed h t i r

/-- What a move does to a connection that it does not start or remove. -/
structure Unmoved (r r' : Route C) : Prop where
  id : r'.connection.id = r.connection.id
  starter : r'.connection.starter = r.connection.starter
  removal : r'.removal = r.removal
  closed : r.connection.closed = true → r'.connection.closed = true

theorem Unmoved.refl (r : Route C) : Unmoved r r := ⟨rfl, rfl, rfl, fun h => h⟩

theorem unmoved_modify {routes : List (Route C)} {i : Nat} {f : Route C → Route C}
    (hf : ∀ r, routes[i]? = some r → Unmoved r (f r)) (j : Nat) (r' : Route C)
    (hr : (routes.modify i f)[j]? = some r') : ∃ r, routes[j]? = some r ∧ Unmoved r r' := by
  rw [List.getElem?_modify] at hr
  obtain ⟨r, hj, rfl⟩ := Option.map_eq_some_iff.mp hr
  refine ⟨r, hj, ?_⟩
  by_cases hi : i = j
  · subst hi; rw [if_pos rfl]; exact hf r hj
  · rw [if_neg hi]; exact .refl r

/-- A connection stays in its place if its entry, its start and the answers about it stay. -/
theorem Placed.unmoved {i : Nat} {r r' : Route C} (hp : Placed h t i r) (k : Unmoved r r')
    (hf : ∀ key, t'.table.identity? key = some i ↔ t.table.identity? key = some i)
    (ha : t'.acceptor = t.acceptor ∨ t.acceptor.inHand ≠ some i ∧ t'.acceptor.inHand ≠ some i)
    (hs : ∀ answer, (i, answer) ∈ answers h' ↔ (i, answer) ∈ answers h) : Placed h' t' i r' := by
  have hh : t'.acceptor.inHand = some i ↔ t.acceptor.inHand = some i := by
    rcases ha with ha | ⟨hn, hn'⟩
    · rw [ha]
    · exact iff_of_false hn' hn
  obtain ⟨p₁, p₂, p₃, p₄, p₅, p₆⟩ := hp
  constructor
  · rw [hf, k.id, k.starter, k.removal, hh]; exact p₁
  · intro hi
    have ht : t'.acceptor = t.acceptor := by
      rcases ha with ha | ⟨-, hn'⟩
      · exact ha
      · exact absurd hi hn'
    rw [k.starter, k.removal, ht]
    exact p₂ (hh.mp hi)
  · rw [k.starter, k.removal]; exact fun hi => p₃ fun hj => hi (hh.mpr hj)
  · rw [k.removal]; exact fun hd => k.closed (p₄ hd)
  · rw [k.starter]; exact fun answer hm => p₅ answer ((hs answer).mp hm)
  · rw [k.starter]
    intro hw hd
    obtain ⟨answer, hm⟩ := p₆ hw hd
    exact ⟨answer, (hs answer).mpr hm⟩

/-- Most moves leave the table and the starts alone. -/
theorem InOrder.calm (ho : InOrder h t) (ht : t'.table = t.table)
    (hl : t'.routes.length = t.routes.length)
    (hr : ∀ (j : Nat) (r' : Route C), t'.routes[j]? = some r' →
      ∃ r, t.routes[j]? = some r ∧ Unmoved r r')
    (ha : t'.acceptor = t.acceptor ∨ t.acceptor.inHand = none ∧ t'.acceptor.inHand = none)
    (hs : answers h' = answers h) : InOrder h' t' where
  distinct := by rw [ht]; exact ho.distinct
  entry := fun k i hi => by
    rw [ht] at hi
    obtain ⟨r, hj, hk⟩ := ho.entry k i hi
    have hlt : i < t'.routes.length := by
      rw [hl]; exact (List.getElem?_eq_some_iff.mp hj).1
    obtain ⟨r₀, hj₀, kept⟩ := hr i _ (List.getElem?_eq_getElem hlt)
    rw [hj] at hj₀
    obtain rfl := Option.some.inj hj₀
    exact ⟨_, List.getElem?_eq_getElem hlt, kept.id.trans hk⟩
  hand := fun i hi => by
    rw [hl]
    rcases ha with ha | ⟨-, hn⟩
    · exact ho.hand i (ha ▸ hi)
    · rw [hn] at hi; cases hi
  answered := fun i answer hm => by rw [hl]; exact ho.answered i answer (hs ▸ hm)
  route := fun i r' hi => by
    obtain ⟨r, hj, kept⟩ := hr i r' hi
    refine (ho.route i r hj).unmoved kept (fun key => by rw [ht]) ?_ (fun answer => by rw [hs])
    rcases ha with ha | ⟨hn, hn'⟩
    · exact .inl ha
    · exact .inr ⟨by simp [hn], by simp [hn']⟩

/-- The others concern one connection. -/
theorem InOrder.focus (ho : InOrder h t) (i : Nat) (hd : t'.table.Distinct)
    (hl : t.routes.length ≤ t'.routes.length) (hi : i < t'.routes.length)
    (hr : ∀ j : Nat, j ≠ i → t'.routes[j]? = t.routes[j]?)
    (hf : ∀ j, j ≠ i → ∀ k, t'.table.identity? k = some j ↔ t.table.identity? k = some j)
    (hk : ∀ k, t'.table.identity? k = some i → ∃ r, t'.routes[i]? = some r ∧ r.connection.id = k)
    (ha : t'.acceptor = t.acceptor ∨
      ∀ j, j ≠ i → t.acceptor.inHand ≠ some j ∧ t'.acceptor.inHand ≠ some j)
    (hs : ∀ j, j ≠ i → ∀ answer, (j, answer) ∈ answers h' ↔ (j, answer) ∈ answers h)
    (hp : ∀ r, t'.routes[i]? = some r → Placed h' t' i r) : InOrder h' t' where
  distinct := hd
  entry := fun k j hj => by
    by_cases hji : j = i
    · subst hji; exact hk k hj
    · obtain ⟨r, hr', hid⟩ := ho.entry k j ((hf j hji k).mp hj)
      exact ⟨r, (hr j hji).trans hr', hid⟩
  hand := fun j hj => by
    by_cases hji : j = i
    · rw [hji]; exact hi
    · rcases ha with ha | ha
      · exact Nat.lt_of_lt_of_le (ho.hand j (ha ▸ hj)) hl
      · exact absurd hj (ha j hji).2
  answered := fun j answer hm => by
    by_cases hji : j = i
    · rw [hji]; exact hi
    · exact Nat.lt_of_lt_of_le (ho.answered j answer ((hs j hji answer).mp hm)) hl
  route := fun j r hj => by
    by_cases hji : j = i
    · subst hji; exact hp r hj
    · refine (ho.route j r ((hr j hji).symm.trans hj)).unmoved (.refl r) (hf j hji) ?_ (hs j hji)
      rcases ha with ha | ha
      · exact .inl ha
      · exact .inr (ha j hji)

/-- A move that changes what is left alone: nothing in hand, or the same. -/
theorem InOrder.same (ho : InOrder h t) (ht : t'.table = t.table) (hr : t'.routes = t.routes)
    (ha : t'.acceptor = t.acceptor ∨ t.acceptor.inHand = none ∧ t'.acceptor.inHand = none)
    (hs : answers h' = answers h) : InOrder h' t' :=
  ho.calm ht (by rw [hr]) (fun j r' hj => ⟨r', hr ▸ hj, .refl r'⟩) ha hs

/-- A move that changes one connection, but not its start. -/
theorem InOrder.modify (ho : InOrder h t) {i : Nat} {f : Route C → Route C}
    (hf : ∀ r, t.routes[i]? = some r → Unmoved r (f r)) (ht : t'.table = t.table)
    (hr : t'.routes = t.routes.modify i f)
    (ha : t'.acceptor = t.acceptor ∨ t.acceptor.inHand = none ∧ t'.acceptor.inHand = none)
    (hs : answers h' = answers h) : InOrder h' t' :=
  ho.calm ht (by rw [hr, List.length_modify])
    (fun j r' hj => unmoved_modify hf j r' (hr ▸ hj)) ha hs

theorem unmoved_onSocket (r : Route C) (f : C.socket.State → C.socket.State) :
    Unmoved r { r with
      connection :=
        if r.connection.socketHeld then { r.connection with socket := f r.connection.socket }
        else r.connection } := by
  split <;> exact ⟨rfl, rfl, rfl, fun h => h⟩

/-! ## What the accept loop does to the connection in its hands -/

/-- A change of the connection that the accept loop has in its hands. -/
theorem InOrder.handle (ho : InOrder h t) {i : Nat} {r : Route C} {f : Route C → Route C}
    (hi : t.acceptor.inHand = some i) (hr : t.routes[i]? = some r)
    (hid : (f r).connection.id = r.connection.id) (ht : t'.table = t.table)
    (hrs : t'.routes = t.routes.modify i f)
    (ha : t'.acceptor.inHand = some i ∨ t'.acceptor.inHand = none)
    (hs : ∀ j, j ≠ i → ∀ answer, (j, answer) ∈ answers h' ↔ (j, answer) ∈ answers h)
    (hp : Placed h' t' i (f r)) : InOrder h' t' := by
  have hf : t'.routes[i]? = some (f r) := by
    rw [hrs, List.getElem?_modify_eq, hr]; rfl
  have hl : t'.routes.length = t.routes.length := by rw [hrs, List.length_modify]
  refine ho.focus i (by rw [ht]; exact ho.distinct) (Nat.le_of_eq hl.symm)
    (List.getElem?_eq_some_iff.mp hf).1 ?_ (fun _ _ k => by rw [ht]) ?_ ?_ hs ?_
  · intro j hj
    rw [hrs, List.getElem?_modify_ne _ _ (Ne.symm hj)]
  · intro k hk
    rw [ht] at hk
    obtain ⟨r₀, hr₀, hk⟩ := ho.entry k i hk
    rw [hr] at hr₀
    obtain rfl := Option.some.inj hr₀
    exact ⟨_, hf, hid.trans hk⟩
  · right
    intro j hj
    rw [hi]
    refine ⟨fun e => hj (Option.some.inj e).symm, fun e => ?_⟩
    rcases ha with ha | ha
    · exact hj (Option.some.inj (e.symm.trans ha))
    · rw [ha] at e; cases e
  · intro r' hr'
    rw [hf] at hr'
    obtain rfl := Option.some.inj hr'
    exact hp

theorem InOrder.claim (ho : InOrder h t) {a : Arrival C} (hc : t.acceptor = .claiming a)
    (hg : t.table.get? a.key = none) (hs : answers h' = answers h) :
    InOrder h' { t with
      table := { entries := t.table.entries ++ [(a.key, ⟨t.routes.length, ()⟩)] }
      queues := t.queues.assign.2
      routes := t.routes ++ [t.newRoute a t.queues.assign.1]
      acceptor := .starting t.routes.length a.payload } := by
  have hn : t.table.identity? a.key = none := by rw [RoutingTable.identity?, hg]; rfl
  have hlast : (t.routes ++ [t.newRoute a t.queues.assign.1])[t.routes.length]? =
      some (t.newRoute a t.queues.assign.1) := by simp
  refine ho.focus t.routes.length (ho.distinct.insert hg _) (by simp) (by simp) ?_ ?_ ?_ ?_
    (fun _ _ _ => by rw [hs]) ?_
  · intro j hj
    by_cases hlt : j < t.routes.length
    · exact List.getElem?_append_left hlt
    · rw [List.getElem?_eq_none (by simp; omega), List.getElem?_eq_none (by omega)]
  · intro j hj k
    rw [RoutingTable.identity?_insert _ _ _ hg]
    by_cases hk : k = a.key
    · rw [if_pos hk, hk, hn]
      exact iff_of_false (fun e => hj (Option.some.inj e).symm) fun e => by cases e
    · rw [if_neg hk]
  · intro k hk
    rw [RoutingTable.identity?_insert _ _ _ hg] at hk
    by_cases he : k = a.key
    · exact ⟨_, hlast, he.symm⟩
    · rw [if_neg he] at hk
      obtain ⟨r, hr, -⟩ := ho.entry k _ hk
      rw [List.getElem?_eq_none (Nat.le_refl _)] at hr
      cases hr
  · right
    intro j hj
    rw [hc]
    exact ⟨fun e => (by cases e), fun e => hj (Option.some.inj e).symm⟩
  · intro r hr
    obtain rfl := Option.some.inj (hlast.symm.trans hr)
    exact {
      filed := by
        refine iff_of_true ?_ (.inl rfl)
        rw [RoutingTable.identity?_insert _ _ _ hg]
        exact if_pos rfl
      hand := fun _ => ⟨rfl, rfl⟩
      left := fun hj => absurd rfl hj
      closed := fun hd => by cases hd
      led := fun answer hm => by
        rw [hs] at hm
        exact absurd (ho.answered _ answer hm) (Nat.lt_irrefl _)
      asked := fun hw => absurd rfl hw }

/-- The connection in hand is in the table. -/
theorem Placed.inTable {i : Nat} {r : Route C} (hp : Placed h t i r)
    (hi : t.acceptor.inHand = some i) : t.table.identity? r.connection.id = some i :=
  hp.filed.mpr (.inl hi)

/-- Before the dispatcher is asked it has not answered. -/
theorem Placed.unanswered {i : Nat} {r : Route C} (hp : Placed h t i r)
    (hs : r.connection.starter = .waiting ∨ r.connection.starter = .dispatching)
    (answer : Answer) : (i, answer) ∉ answers h := by
  intro hm
  have hl := hp.led answer hm
  rcases hs with hs | hs <;> rw [hs] at hl <;> cases answer <;>
    simp [Answer.ledTo, Starter.refusal] at hl

/-- A connection is taken out of the table, which changes nothing for the others, whatever their
ids. -/
theorem InOrder.takeOut (ho : InOrder h t) {i : Nat} {r : Route C} {f : Route C → Route C}
    (hr : t.routes[i]? = some r) (hin : t.table.identity? r.connection.id = some i)
    (hid : (f r).connection.id = r.connection.id)
    (hst : (f r).connection.starter = r.connection.starter)
    (ht : t'.table = (t.table.removeIfSame r.connection.id i).2)
    (hrs : t'.routes = t.routes.modify i f)
    (ha : t'.acceptor = t.acceptor ∨ t.acceptor.inHand = some i ∧ t'.acceptor.inHand = none)
    (hn : t'.acceptor.inHand ≠ some i) (hs : answers h' = answers h)
    (hp : r.connection.starter ≠ .panicked) (hw : (f r).removal ≠ .waiting)
    (hl : LeftAlone (f r).connection.starter (f r).removal)
    (hc : (f r).removal = .done → (f r).connection.closed = true) : InOrder h' t' := by
  have hf : t'.routes[i]? = some (f r) := by
    rw [hrs, List.getElem?_modify_eq, hr]; rfl
  have hlen : t'.routes.length = t.routes.length := by rw [hrs, List.length_modify]
  refine ho.focus i (by rw [ht]; exact ho.distinct.removeIfSame _ _) (Nat.le_of_eq hlen.symm)
    (List.getElem?_eq_some_iff.mp hf).1 ?_ ?_ ?_ ?_ (fun _ _ _ => by rw [hs]) ?_
  · intro j hj
    rw [hrs, List.getElem?_modify_ne _ _ (Ne.symm hj)]
  · intro j hj k
    rw [ht, RoutingTable.identity?_removeIfSame]
    by_cases hk : k = r.connection.id
    · rw [if_pos ⟨hk, hin⟩, hk, hin]
      exact iff_of_false nofun fun e => hj (Option.some.inj e).symm
    · rw [if_neg fun e => hk e.1]
  · intro k hk
    rw [ht, RoutingTable.identity?_removeIfSame] at hk
    split at hk
    · cases hk
    · obtain ⟨r₀, hr₀, hk⟩ := ho.entry k i hk
      obtain rfl := Option.some.inj (hr.symm.trans hr₀)
      exact ⟨_, hf, hid.trans hk⟩
  · rcases ha with ha | ⟨hi, ha⟩
    · exact .inl ha
    · right
      intro j hj
      rw [hi, ha]
      exact ⟨fun e => hj (Option.some.inj e).symm, nofun⟩
  · intro r' hr'
    obtain rfl := Option.some.inj (hf.symm.trans hr')
    have p := ho.route i r hr
    exact {
      filed := by
        rw [ht, RoutingTable.identity?_removeIfSame, hid, if_pos ⟨rfl, hin⟩, hst]
        refine iff_of_false nofun ?_
        rintro (hi | hp' | hw')
        · exact hn hi
        · exact hp hp'
        · exact hw hw'
      hand := fun hi => absurd hi hn
      left := fun _ => hl
      closed := hc
      led := fun answer hm => by rw [hst]; exact p.led answer (hs ▸ hm)
      asked := fun hw hd => by
        rw [hst] at hw hd
        rw [hs]; exact p.asked hw hd }

/-- The accept loop begins a start. -/
theorem InOrder.start (ho : InOrder h t) {i : Nat} {payload : Option Bytes} {r : Route C}
    (ha : t.acceptor = .starting i payload) (hr : t.routes[i]? = some r)
    (hw : r.connection.starter = .waiting) (hs : answers h' = answers h) :
    InOrder h'
      { t.onConnection i (fun _ => { r.connection with starter := .dispatching }) with
        dispatched := t.dispatched + 1
        acceptor := .dispatching i payload } := by
  have hi : t.acceptor.inHand = some i := by rw [ha]; rfl
  have hp := ho.route i r hr
  refine ho.handle hi hr rfl rfl rfl (.inl rfl) (fun _ _ _ => by rw [hs]) ?_
  exact {
    filed := iff_of_true (hp.inTable hi) (.inl rfl)
    hand := fun _ => ⟨rfl, (hp.hand hi).2⟩
    left := fun hj => absurd rfl hj
    closed := hp.closed
    led := fun answer hm => absurd (hs ▸ hm) (hp.unanswered (.inl hw) answer)
    asked := fun _ hd => absurd rfl hd }

/-- A start goes on after its answer. -/
theorem InOrder.conclude (ho : InOrder h t) {i : Nat} {payload : Option Bytes} {r : Route C}
    {c : Connection C.socket} (ha : t.acceptor = .concluding i payload)
    (hr : t.routes[i]? = some r) (hc : Connection.StarterStep r.connection c)
    (hs : answers h' = answers h) : InOrder h' (t.onConnection i fun _ => c) := by
  have hi : t.acceptor.inHand = some i := by rw [ha]; rfl
  have hp := ho.route i r hr
  obtain ⟨hid, hcl, hgo⟩ := hc.frame
  refine ho.handle hi hr hid rfl rfl (.inl hi) (fun _ _ _ => by rw [hs]) ?_
  exact {
    filed := iff_of_true (hid ▸ hp.inTable hi) (.inl hi)
    hand := fun _ => by
      refine ⟨?_, (hp.hand hi).2⟩
      rw [show (t.onConnection i fun _ => c).acceptor = _ from ha]
      rcases hgo with ⟨-, hgo⟩ | ⟨-, hgo⟩
      · exact .inr (.inl hgo)
      · exact .inr (.inr hgo)
    left := fun hj => absurd hi hj
    closed := fun hd => hcl (hp.closed hd)
    led := fun answer hm => Answer.ledTo_go hgo (hp.led answer (hs ▸ hm))
    asked := fun _ _ => by
      rw [hs]
      refine hp.asked ?_ ?_ <;> (intro e; rw [e] at hgo; simp [Starter.refusal] at hgo) }

/-- A refused connection waits to be taken out again. -/
theorem InOrder.refused (ho : InOrder h t) {i : Nat} {payload : Option Bytes} {r : Route C}
    {reason : String} (ha : t.acceptor = .concluding i payload) (hr : t.routes[i]? = some r)
    (ho' : r.connection.starter = .over (some reason)) (hs : answers h' = answers h) :
    InOrder h' { t with acceptor := .withdrawing i (.dispatch reason) } := by
  have hi : t.acceptor.inHand = some i := by rw [ha]; rfl
  have hp := ho.route i r hr
  refine ho.handle (f := fun r => r) hi hr rfl rfl (List.modify_id _ _).symm (.inl rfl)
    (fun _ _ _ => by rw [hs]) ?_
  exact {
    filed := iff_of_true (hp.inTable hi) (.inl rfl)
    hand := fun _ => ⟨⟨reason, ho'⟩, (hp.hand hi).2⟩
    left := fun hj => absurd rfl hj
    closed := hp.closed
    led := fun answer hm => hp.led answer (hs ▸ hm)
    asked := fun hw hd => by rw [hs]; exact hp.asked hw hd }

/-- An accepted connection stays in the table, and its removal waits for it to close. -/
theorem InOrder.accepted (ho : InOrder h t) {i : Nat} {payload : Option Bytes} {r : Route C}
    (ha : t.acceptor = .concluding i payload) (hr : t.routes[i]? = some r)
    (hn : r.connection.stepStarter = none)
    (hn' : ∀ reason, r.connection.starter ≠ .over (some reason)) (hs : answers h' = answers h) :
    InOrder h' { t with
      routes := t.routes.modify i fun r => { r with removal := .waiting }
      acceptor := .offering i payload } := by
  have hi : t.acceptor.inHand = some i := by rw [ha]; rfl
  have hp := ho.route i r hr
  have ho' : r.connection.starter = .over none := by
    have he := (hp.hand hi).1
    rw [ha] at he
    exact Connection.starter_of_stuck he hn hn'
  refine ho.handle (f := fun r => { r with removal := .waiting }) hi hr rfl rfl rfl (.inr rfl)
    (fun _ _ _ => by rw [hs]) ?_
  exact {
    filed := iff_of_true (hp.inTable hi) (.inr (.inr rfl))
    hand := nofun
    left := fun _ => by
      show LeftAlone r.connection.starter .waiting
      rw [ho']; exact nofun
    closed := nofun
    led := fun answer hm => hp.led answer (hs ▸ hm)
    asked := fun hw hd => by rw [hs]; exact hp.asked hw hd }

/-- A connection that was not accepted is taken out again. -/
theorem InOrder.withdraw (ho : InOrder h t) {i : Nat} {error : TransportError} {r : Route C}
    (ha : t.acceptor = .withdrawing i error) (hr : t.routes[i]? = some r)
    (hs : answers h' = answers h) :
    InOrder h' { t.onSocket i C.endFeed with
      table := (t.table.removeIfSame r.connection.id i).2
      acceptor := .ended (some error) } := by
  have hi : t.acceptor.inHand = some i := by rw [ha]; rfl
  have hp := ho.route i r hr
  obtain ⟨reason, ho'⟩ : ∃ reason, r.connection.starter = .over (some reason) := by
    have he := (hp.hand hi).1
    rwa [ha] at he
  have hu : r.removal = .unborn := (hp.hand hi).2
  have k := unmoved_onSocket r C.endFeed
  refine ho.takeOut hr (hp.inTable hi) k.id k.starter rfl rfl (.inr ⟨hi, rfl⟩) nofun hs
    ?_ ?_ ?_ ?_
  · rw [ho']; exact nofun
  · rw [k.removal, hu]; exact nofun
  · rw [k.removal, k.starter, ho', hu]; rfl
  · rw [k.removal, hu]; exact nofun

theorem InOrder.acceptor (ho : InOrder h t) (st : AcceptorStep t t') (hs : answers h' = answers h) :
    InOrder h' t' := by
  cases st with
  | tooLong ha | opened ha | finish ha | known ha | unknown ha | taken ha | offerNothing ha =>
    exact ho.same rfl rfl (.inr ⟨by rw [ha]; rfl, rfl⟩) hs
  | offer ha =>
    exact ho.modify (fun r _ => unmoved_onSocket r _) rfl rfl (.inr ⟨by rw [ha]; rfl, rfl⟩) hs
  | claim ha hg => exact ho.claim ha hg hs
  | start ha hr hw => exact ho.start ha hr hw hs
  | startAgain ha hr hw =>
    -- The connection in hand has not been started.
    have he := ((ho.route _ _ hr).hand (by rw [ha]; rfl)).1
    rw [ha] at he
    exact absurd he hw
  | conclude ha hr hc => exact ho.conclude ha hr hc hs
  | refused ha hr ho' => exact ho.refused ha hr ho' hs
  | accepted ha hr hn hn' => exact ho.accepted ha hr hn hn' hs
  | withdraw ha hr => exact ho.withdraw ha hr hs

theorem InOrder.removal (ho : InOrder h t) {i : Nat} (st : RemovalStep t i t')
    (hs : answers h' = answers h) : InOrder h' t' := by
  cases st with
  | @remove r hr hw hc =>
    have hp := ho.route i r hr
    have hi : t.acceptor.inHand ≠ some i := fun hi => by
      rw [(hp.hand hi).2] at hw; cases hw
    have ho' : r.connection.starter = .over none := by
      have hl := hp.left hi
      rw [hw] at hl
      match hs : r.connection.starter with
      | .over none => rfl
      | .over (some _) | .panicked => rw [hs] at hl; cases hl
      | .waiting | .dispatching | .spawning | .releasing _ | .closing _ | .signalling _
      | .returning _ => rw [hs] at hl; cases hl
    have k := unmoved_onSocket r C.endFeed
    refine ho.takeOut hr (hp.filed.mpr (.inr (.inr hw))) k.id k.starter rfl
      (List.modify_modify_eq _ _ _ _) (.inl rfl) hi hs ?_ ?_ ?_ ?_
    · rw [ho']; exact nofun
    · exact nofun
    · rw [Function.comp_apply, k.starter, ho']; exact nofun
    · exact fun _ => k.closed hc

/-- The dispatcher answers: the accept loop goes on with the start, or has ended in a panic. -/
theorem InOrder.answer (ho : InOrder h t) {i : Nat} {payload : Option Bytes} (answer : Answer)
    (f : Connection C.socket → Connection C.socket) (ha : t.acceptor = .dispatching i payload)
    (ht : t'.table = t.table) (hrs : t'.routes = (t.onConnection i f).routes)
    (hid : ∀ c, (f c).id = c.id)
    (hl : ∀ c, c.starter = .dispatching → answer.ledTo (f c).starter)
    (ha' : t'.acceptor = .concluding i payload ∧ (∀ message, answer ≠ .panic message) ∨
      (∃ failure, t'.acceptor = .ended failure) ∧ ∃ message, answer = .panic message)
    (hs : answers h' = answers h ++ [(i, answer)]) : InOrder h' t' := by
  have hi : t.acceptor.inHand = some i := by rw [ha]; rfl
  obtain ⟨r, hr⟩ : ∃ r, t.routes[i]? = some r := ⟨_, List.getElem?_eq_getElem (ho.hand i hi)⟩
  have hp := ho.route i r hr
  obtain ⟨hd, hu⟩ := hp.hand hi
  rw [ha] at hd
  have hl := hl r.connection hd
  have key : t'.acceptor.inHand = some i ∧ t'.acceptor.expects (f r.connection).starter ∨
      t'.acceptor.inHand = none ∧ (f r.connection).starter = .panicked := by
    rcases ha' with ⟨ha', hn⟩ | ⟨⟨failure, ha'⟩, message, rfl⟩
    · left
      rw [ha']
      refine ⟨rfl, ?_⟩
      cases answer with
      | accept => exact hl.imp_right .inl
      | refuse => exact .inr (.inr hl)
      | panic message => exact absurd rfl (hn message)
    · right
      rw [ha']
      exact ⟨rfl, hl⟩
  refine ho.handle hi hr (hid r.connection) ht hrs (key.imp And.left And.left) ?_ ?_
  · intro j hj answer'
    rw [hs, List.mem_append, List.mem_singleton]
    exact or_iff_left fun e => hj (congrArg Prod.fst e)
  · exact {
      filed := by
        rw [ht, show (f r.connection).id = r.connection.id from hid _]
        exact iff_of_true (hp.inTable hi) (key.imp And.left fun k => .inl k.2)
      hand := fun hi' => by
        rcases key with ⟨-, he⟩ | ⟨hn, -⟩
        · exact ⟨he, hu⟩
        · rw [hn] at hi'; cases hi'
      left := fun hi' => by
        rcases key with ⟨hk, -⟩ | ⟨-, hk⟩
        · exact absurd hk hi'
        · show LeftAlone (f r.connection).starter r.removal
          rw [hk]; exact hu
      closed := fun hd => by
        rw [show r.removal = .done from hd] at hu; cases hu
      led := fun answer' hm => by
        rw [hs, List.mem_append, List.mem_singleton] at hm
        rcases hm with hm | hm
        · exact absurd hm (hp.unanswered (.inr hd) answer')
        · rw [(Prod.mk.inj hm).2]; exact hl
      asked := fun _ _ => ⟨answer, by rw [hs]; exact List.mem_append_right _ List.mem_cons_self⟩ }

theorem InOrder.connection (ho : InOrder h t) {i : Nat} {r : Route C} {c : Connection C.socket}
    {m : Connection.Move} (hr : t.routes[i]? = some r) (hm : m.ofStart = false)
    (hc : Connection.Step r.connection m c) (hs : answers h' = answers h) :
    InOrder h' (t.onConnection i fun _ => c) := by
  obtain ⟨hid, hst, hcl⟩ := hc.frame hm
  refine ho.modify (fun r' hr' => ?_) rfl rfl (.inl rfl) hs
  obtain rfl := Option.some.inj (hr.symm.trans hr')
  exact ⟨hid, hst, rfl, hcl⟩

theorem InOrder.step {m : Move C} (ho : InOrder h t) (hl : Listening t) (st : Step t m t') :
    InOrder (h ++ [⟨t, m⟩]) t' := by
  have hs : Event.answer? ⟨t, m⟩ = none → answers (h ++ [⟨t, m⟩]) = answers h := fun e => by
    rw [answers_snoc, e]; exact List.append_nil _
  cases st with
  | acceptor st => exact ho.acceptor st (hs rfl)
  | supervisor st => cases st <;> exact ho.same rfl rfl (.inl rfl) (hs rfl)
  | unbinder st =>
    cases st with
    | abort =>
      refine ho.modify (fun r _ => ?_) rfl rfl (.inl rfl) (hs rfl)
      obtain ⟨_, _, e, -⟩ := r.connection.shutdown_frame
      simp only [Connection.abort, e]
      exact ⟨rfl, rfl, rfl, fun h => h⟩
    | _ => exact ho.same rfl rfl (.inl rfl) (hs rfl)
  | removal st => exact ho.removal st (hs rfl)
  | @connection _ task _ _ hr hk hc =>
    refine ho.connection hr ?_ hc (hs rfl)
    cases task with
    | starter => exact absurd rfl hk
    | _ => rfl
  | @outside _ move _ _ hr hm hc =>
    refine ho.connection hr ?_ hc (hs rfl)
    cases move <;> first | rfl | cases hm
  | arrive ha | listenEnd ha => exact ho.same rfl rfl (.inr ⟨by rw [ha]; rfl, rfl⟩) (hs rfl)
  | accept ha =>
    refine ho.answer .accept (·.accept) ha rfl rfl ?_ ?_ (.inl ⟨rfl, fun _ h => by cases h⟩) ?_
    · intro c; simp only [Connection.accept]; split <;> rfl
    · intro c hd; simp only [Connection.accept, hd]; exact .inl rfl
    · rw [answers_snoc, Event.answer?, ha]; rfl
  | @refuse _ _ reason ha =>
    refine ho.answer (.refuse reason) (·.refuse reason) ha rfl rfl ?_ ?_
      (.inl ⟨rfl, fun _ h => by cases h⟩) ?_
    · intro c; simp only [Connection.refuse]; split <;> rfl
    · intro c hd; simp only [Connection.refuse, hd]; exact Nat.le_refl 1
    · rw [answers_snoc, Event.answer?, ha]; rfl
  | @panic _ _ message ha =>
    refine ho.answer (.panic message) (·.panicStart) ha rfl rfl ?_ ?_ (.inr ⟨⟨_, rfl⟩, _, rfl⟩) ?_
    · intro c; simp only [Connection.panicStart]; split <;> rfl
    · intro c hd; simp only [Connection.panicStart, hd]; rfl
    · rw [answers_snoc, Event.answer?, ha]; rfl
  | bind hf hi =>
    refine ho.same rfl rfl (.inr ⟨?_, rfl⟩) (hs rfl)
    rcases hl.quiet hf hi with ha | ⟨failure, ha⟩ <;> rw [ha] <;> rfl
  | listenOn | unbind | unbindNothing | setEndpoint | disposePool =>
    exact ho.same rfl rfl (.inl rfl) (hs rfl)

variable {M : Socket.Medium C.socket}

theorem inOrder_create (configuration : Configuration) (endpoint : Endpoint) :
    InOrder [] (create C configuration endpoint) where
  distinct := List.nodup_nil
  entry := fun k i hi => by cases hi
  hand := fun i hi => by cases hi
  answered := fun i answer hm => by cases hm
  route := fun i r hr => by cases hr

theorem Run.inOrder (run : Run M h t) : InOrder h t ∧ Listening t := by
  induction run with
  | create configuration endpoint => exact ⟨inOrder_create _ _, listening_create _ _⟩
  | move run m hm ha ih =>
    have st := step_of_perform ih.1.hand hm
    exact ⟨ih.1.step ih.2 st, ih.2.step st⟩
  | @change h t i r socket run hr hs ih =>
    let f (r : Route C) : Route C := { r with connection := { r.connection with socket } }
    have hf : ∀ r, t.routes[i]? = some r → Unmoved r (f r) := fun _ _ => ⟨rfl, rfl, rfl, fun h => h⟩
    exact ⟨ih.1.modify hf rfl rfl (.inl rfl) rfl, ih.2.congr rfl rfl rfl rfl⟩

/-- What holds at some moment of a run, and is kept by the moves of some kind and by the medium,
holds as long as there are no other moves. -/
theorem Run.lasting (run : Run M h t) {P : List (Event C) → Transport C → Prop}
    {Q : Event C → Prop} (start : P [] t)
    (move : ∀ {h g : List (Event C)} {u u' : Transport C} {m : Move C}, InOrder h u →
      Listening u → m.perform u = some u' → Q ⟨u, m⟩ → P g u → P (g ++ [⟨u, m⟩]) u')
    (change : ∀ {g : List (Event C)} {u : Transport C} (i : Nat) (socket : C.socket.State),
      P g u → P g (u.onConnection i fun c => { c with socket }))
    {g : List (Event C)} {u : Transport C} (later : Later M t g u) (hq : ∀ e ∈ g, Q e) :
    P g u := by
  induction later with
  | refl => exact start
  | @move g u u' later m hm ha ih =>
    obtain ⟨ho, hl⟩ := (run.later later).inOrder
    exact move ho hl hm (hq _ (List.mem_append_right _ (List.mem_singleton_self _)))
      (ih fun e he => hq e (List.mem_append_left _ he))
  | change _ _ _ ih => exact change _ _ (ih hq)

/-! ## Transports at rest -/

/-- The accept loop waits for traffic, or there is none, and every removal that can run has run. -/
structure AtRest (t : Transport C) : Prop where
  acceptor : t.acceptor = .waiting ∨ t.acceptor = .unborn ∨ ∃ failure, t.acceptor = .ended failure
  removals : ∀ i, t.stepRemoval i = none

/-- The dispatcher accepted the connection, and its closed signal has not fired. -/
def Live (h : List (Event C)) (t : Transport C) (k : ConnectionId) (i : Nat) : Prop :=
  ∃ r, t.routes[i]? = some r ∧ r.connection.id = k ∧ (i, .accept) ∈ answers h ∧
    r.connection.closed = false

/-- The dispatcher panicked over the connection. -/
def Stranded (h : List (Event C)) (t : Transport C) (k : ConnectionId) (i : Nat) : Prop :=
  ∃ r, t.routes[i]? = some r ∧ r.connection.id = k ∧ ∃ message, (i, .panic message) ∈ answers h

theorem AtRest.inHand (hr : AtRest t) (i : Nat) : t.acceptor.inHand ≠ some i := by
  rcases hr.acceptor with ha | ha | ⟨failure, ha⟩ <;> rw [ha] <;> exact nofun

/-- A closed connection whose removal is under way can be removed. -/
theorem AtRest.open (hr : AtRest t) {i : Nat} {r : Route C} (hi : t.routes[i]? = some r)
    (hw : r.removal = .waiting) : r.connection.closed = false := by
  have hn := hr.removals i
  simp only [stepRemoval, hi, hw] at hn
  cases hc : r.connection.closed with
  | false => rfl
  | true => rw [hc] at hn; cases hn

/-- A connection that is left alone was accepted, was refused or met with a panic. -/
theorem Placed.cases {i : Nat} {r : Route C} (hp : Placed h t i r)
    (hi : t.acceptor.inHand ≠ some i) :
    r.connection.starter = .over none ∧ (i, .accept) ∈ answers h ∧ r.removal ≠ .unborn ∨
      (∃ reason, r.connection.starter = .over (some reason)) ∧ r.removal = .unborn ∨
      r.connection.starter = .panicked ∧ ∃ message, (i, .panic message) ∈ answers h := by
  have hl := hp.left hi
  match hs : r.connection.starter with
  | .over (some reason) =>
    rw [hs] at hl
    exact .inr (.inl ⟨⟨reason, rfl⟩, hl⟩)
  | .over none =>
    rw [hs] at hl
    obtain ⟨answer, hm⟩ := hp.asked (by rw [hs]; exact nofun) (by rw [hs]; exact nofun)
    have ha := hp.led answer hm
    rw [hs] at ha
    cases answer with
    | accept => exact .inl ⟨rfl, hm, hl⟩
    | refuse | panic => cases ha
  | .panicked =>
    obtain ⟨answer, hm⟩ := hp.asked (by rw [hs]; exact nofun) (by rw [hs]; exact nofun)
    have ha := hp.led answer hm
    rw [hs] at ha
    cases answer with
    | accept => rcases ha with ha | ha <;> cases ha
    | refuse => cases ha
    | panic message => exact .inr (.inr ⟨rfl, message, hm⟩)
  | .waiting | .dispatching | .spawning | .releasing _ | .closing _ | .signalling _
  | .returning _ => rw [hs] at hl; cases hl

/-- Nobody has two answers. -/
theorem Placed.not_both {i : Nat} {r : Route C} (hp : Placed h t i r) {message : Option String}
    (ha : (i, .accept) ∈ answers h) : (i, .panic message) ∉ answers h := by
  intro hm
  have hs : r.connection.starter = .panicked := hp.led _ hm
  have hl := hp.led _ ha
  rw [hs] at hl
  rcases hl with hl | hl <;> cases hl

theorem InOrder.holds (ho : InOrder h t) (hr : AtRest t) (k : ConnectionId) (i : Nat) :
    t.table.identity? k = some i ↔ Live h t k i ∨ Stranded h t k i := by
  constructor
  · intro hk
    obtain ⟨r, hi, rfl⟩ := ho.entry k i hk
    have hp := ho.route i r hi
    rcases hp.cases (hr.inHand i) with ⟨hs, ha, -⟩ | ⟨⟨reason, hs⟩, hu⟩ | ⟨-, message, hm⟩
    · rcases hp.filed.mp hk with hh | hs' | hw
      · exact absurd hh (hr.inHand i)
      · rw [hs] at hs'; cases hs'
      · exact .inl ⟨r, hi, rfl, ha, hr.open hi hw⟩
    · rcases hp.filed.mp hk with hh | hs' | hw
      · exact absurd hh (hr.inHand i)
      · rw [hs] at hs'; cases hs'
      · rw [hu] at hw; cases hw
    · exact .inr ⟨r, hi, rfl, message, hm⟩
  · rintro (⟨r, hi, rfl, ha, hc⟩ | ⟨r, hi, rfl, message, hm⟩)
    · have hp := ho.route i r hi
      have hl := hp.led _ ha
      rcases hp.cases (hr.inHand i) with ⟨-, -, hu⟩ | ⟨⟨reason, hs⟩, -⟩ | ⟨-, message, hm⟩
      · refine hp.filed.mpr (.inr (.inr ?_))
        cases hw : r.removal with
        | unborn => exact absurd hw hu
        | waiting => rfl
        | done => rw [hp.closed hw] at hc; cases hc
      · rw [hs] at hl
        rcases hl with hl | hl <;> cases hl
      · exact absurd hm (hp.not_both ha)
    · have hp := ho.route i r hi
      exact hp.filed.mpr (.inr (.inl (hp.led _ hm)))

/-- The routing table holds exactly the live connections. -/
def Exact (h : List (Event C)) (t : Transport C) : Prop :=
  ∀ k i, t.table.identity? k = some i ↔ Live h t k i

/-- **The routing table holds the live connections, and those over which the dispatcher panicked.**
So a table at rest is exact as long as the dispatcher has not panicked, and then only. Every entry
is found under its id, a connection that was refused is not in the table, and a removal takes out
the connection that it is for and no other, whatever their ids. -/
theorem table_exact_iff (run : Run M h t) :
    (AtRest t → (Exact h t ↔ ∀ i message, (i, .panic message) ∉ answers h) ∧
      (∀ k i, t.table.identity? k = some i ↔ Live h t k i ∨ Stranded h t k i) ∧
      ∀ i reason, (i, .refuse reason) ∈ answers h → ∀ k, t.table.identity? k ≠ some i) ∧
    (∀ k entry, (k, entry) ∈ t.table.entries ↔ t.table.get? k = some entry) ∧
    ∀ i t', t.stepRemoval i = some t' →
      ∀ k j, j ≠ i → (t'.table.identity? k = some j ↔ t.table.identity? k = some j) := by
  obtain ⟨ho, -⟩ := run.inOrder
  refine ⟨fun hr => ⟨?_, ho.holds hr, ?_⟩,
    fun k entry => t.table.mem_entries_iff ho.distinct entry, ?_⟩
  · constructor
    · intro he i message hm
      have hlt := ho.answered i _ hm
      have hi := List.getElem?_eq_getElem hlt
      have hst : Stranded h t _ i := ⟨_, hi, rfl, message, hm⟩
      obtain ⟨_, -, -, ha, -⟩ := (he _ i).mp ((ho.holds hr _ i).mpr (.inr hst))
      exact (ho.route i _ hi).not_both ha hm
    · intro hn k i
      rw [ho.holds hr]
      exact or_iff_left fun ⟨_, _, _, message, hm⟩ => hn i message hm
  · intro i reason hm k hk
    obtain ⟨r, hi, rfl⟩ := ho.entry k i hk
    have hp := ho.route i r hi
    have hl : 1 ≤ r.connection.starter.refusal := hp.led _ hm
    rcases hp.cases (hr.inHand i) with ⟨hs, -⟩ | ⟨⟨reason, hs⟩, hu⟩ | ⟨hs, -⟩
    · rw [hs] at hl; cases hl
    · rcases hp.filed.mp hk with hh | hs' | hw
      · exact hr.inHand i hh
      · rw [hs] at hs'; cases hs'
      · rw [hu] at hw; cases hw
    · rw [hs] at hl; cases hl
  · intro i t' hst k j hj
    cases stepRemoval_cases hst with
    | @remove r hr hw hc =>
      show (t.table.removeIfSame r.connection.id i).2.identity? k = some j ↔ _
      rw [RoutingTable.identity?_removeIfSame]
      split
      · rename_i hk
        rw [hk.1, hk.2]
        exact iff_of_false nofun fun e => hj (Option.some.inj e).symm
      · rfl

/-! ## Two ways to meet the dispatcher -/

/-- The socket of a new connection. -/
theorem socket_of_arrivalOf {t : Transport .datagram} {datagram : Bytes} {peer : SocketAddress}
    {link : Socket.Link} {arrival : Arrival .datagram}
    (ha : t.arrivalOf? datagram peer link = some arrival) :
    arrival.socket = { Socket.Datagram.create t.configuration.maxDatagramSize
      t.configuration.datagramChannelCapacity with link } := by
  simp only [arrivalOf?] at ha
  split at ha
  · cases ha
  · split at ha
    · cases ha
    · cases ha; rfl

/-- It has not been used. -/
theorem initial_of_arrivalOf {t : Transport .datagram} {datagram : Bytes} {peer : SocketAddress}
    {link : Socket.Link} {arrival : Arrival .datagram}
    (ha : t.arrivalOf? datagram peer link = some arrival) :
    Socket.Medium.datagram.Initial arrival.socket := by
  rw [socket_of_arrivalOf ha]
  exact ⟨rfl, rfl⟩

/-- A transport for datagrams that is not bound. -/
def unbound : Transport .datagram :=
  create .datagram { maxDatagramSize := 64 } { address := .ofPort 4433 }

/-- It is bound, and its accept loop begins to wait. -/
def opening : List (Move .datagram) := [.bind {}, .task .acceptor]

/-- An id of eight bytes. -/
def fives : ConnectionId := .fit (.replicate 8 5)

/-- A datagram for that id. -/
def hello : Bytes :=
  [0x7f, 0, 0, 0, 1, 0x51, 5, 5, 5, 5, 5, 5, 5, 5, 9, 9, 9, 9, 2, 0, 0, 0, 1, 0x7a, 0x7a]

/-- What that datagram is to the transport. -/
def greeting : List (Arrival .datagram) :=
  (((unbound.performAll opening).getD unbound).arrivalOf? hello (.ofPort 50000)
    fun _ => .taken).toList

/-- The datagram arrives, and the dispatcher is asked. -/
def asking : List (Move .datagram) :=
  greeting.map .arrive ++ .replicate 3 (.task .acceptor)

theorem initial_of_greeting {arrival : Arrival .datagram} (ha : arrival ∈ greeting) :
    Socket.Medium.datagram.Initial arrival.socket :=
  initial_of_arrivalOf (Option.mem_toList.mp ha)

/-- The dispatcher panics over the first connection. -/
def panicking : List (Move .datagram) := opening ++ asking ++ [.answer (.panic (some "boom"))]

/-- The transport after `panicking`. -/
def panicked : Transport .datagram := (unbound.performAll panicking).getD unbound

theorem run_panicked : Run .datagram (unbound.trace panicking) panicked := by
  have hc : Run .datagram [] unbound := .create _ _
  refine hc.moves (show unbound.performAll panicking = some panicked from rfl) ?_
  intro arrival hm
  exact initial_of_greeting (by simpa [panicking, opening, asking] using hm)

theorem atRest_panicked : AtRest panicked where
  acceptor := .inr (.inr ⟨_, rfl⟩)
  removals i := by
    cases i with
    | zero => rfl
    | succ => rfl

theorem table_not_exact_after_panic :
    Run .datagram (unbound.trace panicking) panicked ∧ AtRest panicked ∧
      ¬ Exact (unbound.trace panicking) panicked := by
  refine ⟨run_panicked, atRest_panicked, fun he => ?_⟩
  have hk : panicked.table.identity? fives = some 0 := rfl
  have hs : answers (unbound.trace panicking) = [(0, .panic (some "boom"))] := rfl
  obtain ⟨-, -, -, ha, -⟩ := (he _ 0).mp hk
  rw [hs] at ha
  cases List.mem_singleton.mp ha

/-- How the tasks of a connection end it when its output is complete. -/
def windingUp : List Connection.Task :=
  [.driver, .sender, .sender] ++ .replicate 3 .driver ++ .replicate 5 .receiver ++
    .replicate 5 .driver ++ [.closer]

/-- The application completes the output of the first connection, which closes and is removed. -/
def closing : List (Move .datagram) :=
  .connection 0 (.output (.complete none)) ::
    windingUp.map (fun k => .task (.connection 0 k)) ++ [.task (.removal 0)]

/-- The dispatcher accepts. -/
def accepting : List (Move .datagram) := .answer .accept :: .replicate 3 (.task .acceptor)

/-- The id is used by one connection, and by another one when that is gone. -/
def reusing : List (Move .datagram) :=
  opening ++ asking ++ accepting ++ closing ++ asking ++ accepting

/-- The transport after `reusing`. -/
def reused : Transport .datagram := (unbound.performAll reusing).getD unbound

theorem run_reused : Run .datagram (unbound.trace reusing) reused := by
  have hc : Run .datagram [] unbound := .create _ _
  refine hc.moves (show unbound.performAll reusing = some reused from rfl) ?_
  intro arrival hm
  exact initial_of_greeting (by simpa [reusing, opening, asking, accepting, closing] using hm)

theorem atRest_reused : AtRest reused where
  acceptor := .inl rfl
  removals i := by
    match i with
    | 0 => rfl
    | 1 => rfl
    | _ + 2 => rfl

theorem id_reused :
    Run .datagram (unbound.trace reusing) reused ∧ AtRest reused ∧
      Exact (unbound.trace reusing) reused ∧
      reused.routes.map (·.connection.id) = [fives, fives] ∧
      reused.table.identity? fives = some 1 := by
  have hs : answers (unbound.trace reusing) = [(0, .accept), (1, .accept)] := rfl
  refine ⟨run_reused, atRest_reused, ?_, rfl, rfl⟩
  refine ((table_exact_iff run_reused).1 atRest_reused).1.mpr fun i message hm => ?_
  rw [hs] at hm
  simp at hm

end Transport

end Duplex
