import Duplex.Proofs.Transport.Routes

/-!
# How the accept loop handles what arrives

The id of what arrives is looked up once. If it is in the table, the datagram is offered to the
connection found there. If it is not, a connection is made, the dispatcher is asked about it, and
then the datagram is offered to it (`plan`). From the lookup on, what has been done and what the
accept loop is about to do make up that plan, unless the dispatcher does not accept (`Course`). The
accept loop waits for nobody but the dispatcher (`stepAcceptor_of_busy`), and each of its steps
leaves less to do (`Step.ahead`).

The moves of the others are of no account here (`Aside`): they take ids out of the table, but they
put none in and leave the start of every connection alone.
-/

namespace Duplex

namespace Transport

variable {C : Carrier}

/-! ## Deeds -/

/-- What the accept loop does about what has arrived. -/
inductive Deed where
  /-- A connection is made and inserted. -/
  | made (route : Nat)
  /-- The dispatcher is asked. -/
  | asked (route : Nat)
  | offered (route : Nat) (datagram : Bytes)
deriving DecidableEq

namespace Deed

def isMade : Deed → Bool
  | made _ => true
  | asked _ | offered _ _ => false

def isAsked : Deed → Bool
  | asked _ => true
  | made _ | offered _ _ => false

end Deed

/-- What is done with a datagram when the table says this about its id, and there are `n`
connections already. -/
def plan (n : Nat) (datagram : Bytes) : Option Nat → List Deed
  | some i => [.offered i datagram]
  | none => [.made n, .asked n, .offered n datagram]

/-- The deed that a move is. -/
def Event.deed? (e : Event C) : Option Deed :=
  match e.move, e.before.acceptor with
  | .task .acceptor, .claiming a =>
    if (e.before.table.get? a.key).isNone then some (.made e.before.routes.length) else none
  | .task .acceptor, .starting i _ => some (.asked i)
  | .task .acceptor, .offering i (some datagram) => some (.offered i datagram)
  | _, _ => none

/-- What the table says about an id when the accept loop looks something up. -/
def Event.lookup? (key : ConnectionId) (e : Event C) : Option (Option Nat) :=
  match e.move, e.before.acceptor with
  | .task .acceptor, .routing _ => some (e.before.table.identity? key)
  | _, _ => none

def deeds (g : List (Event C)) : List Deed := g.filterMap Event.deed?

def lookups (key : ConnectionId) (g : List (Event C)) : List (Option Nat) :=
  g.filterMap (Event.lookup? key)

theorem deeds_snoc (g : List (Event C)) (e : Event C) :
    deeds (g ++ [e]) = deeds g ++ e.deed?.toList := by
  cases he : e.deed? <;> simp [deeds, he]

theorem lookups_snoc (key : ConnectionId) (g : List (Event C)) (e : Event C) :
    lookups key (g ++ [e]) = lookups key g ++ (e.lookup? key).toList := by
  cases he : e.lookup? key <;> simp [lookups, he]

end Transport

/-! ## Where the accept loop stands -/

/-- Whether the accept loop is about something that has arrived. -/
def Acceptor.busy {C : Carrier} : Acceptor C → Bool
  | routing _ | claiming _ | starting _ _ | dispatching _ _ | concluding _ _ | withdrawing _ _
  | offering _ _ => true
  | unborn | opening | waiting | ended _ => false

/-- Whether the accept loop has found or made a connection and goes on with it. -/
def Acceptor.going {C : Carrier} : Acceptor C → Bool
  | starting _ _ | dispatching _ _ | concluding _ _ | offering _ _ => true
  | _ => false

/-- What the accept loop is about to do once the id was looked up. -/
def Acceptor.due {C : Carrier} (n : Nat) (datagram : Bytes) : Acceptor C → List Transport.Deed
  | claiming _ => Transport.plan n datagram none
  | starting i _ => [.asked i, .offered i datagram]
  | dispatching i _ | concluding i _ | offering i _ => [.offered i datagram]
  | _ => []

/-- The steps of a start after its answer. -/
def Starter.ahead : Starter → Nat
  | .releasing _ => 4
  | .closing _ => 3
  | .signalling _ => 2
  | .returning _ | .spawning => 1
  | .waiting | .dispatching | .over _ | .panicked => 0

theorem Starter.ahead_le (s : Starter) : s.ahead ≤ 4 := by
  cases s <;> simp [ahead]

theorem Connection.StarterStep.ahead {S : Socket} {c c' : Connection S}
    (st : Connection.StarterStep c c') : c'.starter.ahead + 1 = c.starter.ahead := by
  cases st <;> simp only [*, Starter.ahead]

namespace Transport

variable {C : Carrier} {t t' : Transport C} {m : Move C} {h g g' : List (Event C)} {n : Nat}
  {a : Arrival C} {datagram : Bytes}

/-- Where the start of a connection stands. -/
def starterOf (t : Transport C) (i : Nat) : Option Starter :=
  t.routes[i]?.map (·.connection.starter)

/-- The most steps of the accept loop, the answer of the dispatcher among them, until it waits
again. -/
def ahead (t : Transport C) : Nat :=
  match t.acceptor with
  | .routing _ => 10
  | .claiming _ => 9
  | .starting _ _ => 8
  | .dispatching _ _ => 7
  | .concluding i _ => 2 + ((t.starterOf i).map Starter.ahead).getD 0
  | .withdrawing _ _ | .offering _ _ => 1
  | .unborn | .opening | .waiting | .ended _ => 0

/-- Whether a move takes the accept loop on with what has arrived. -/
def Event.handles (e : Event C) : Bool :=
  e.before.acceptor.busy &&
    match e.move with
    | .task .acceptor | .answer _ => true
    | _ => false

/-- What the others make of what the accept loop looks at. -/
structure Aside (t t' : Transport C) : Prop where
  acceptor : t'.acceptor = t.acceptor
  starter : ∀ i, t'.starterOf i = t.starterOf i
  absent : ∀ k, t.table.identity? k = none → t'.table.identity? k = none

theorem starterOf_modify {j : Nat} {f : Route C → Route C}
    (hf : ∀ r, t.routes[j]? = some r → (f r).connection.starter = r.connection.starter)
    (hr : t'.routes = t.routes.modify j f) (i : Nat) : t'.starterOf i = t.starterOf i := by
  rw [starterOf, starterOf, hr]
  by_cases hj : j = i
  · subst hj
    rw [List.getElem?_modify_eq]
    cases hi : t.routes[j]? with
    | none => rfl
    | some r => exact congrArg some (hf r hi)
  · rw [List.getElem?_modify_ne _ _ hj]

theorem Aside.same (ha : t'.acceptor = t.acceptor) (hr : t'.routes = t.routes)
    (ht : t'.table = t.table) : Aside t t' :=
  ⟨ha, fun i => by rw [starterOf, starterOf, hr], fun k hk => by rw [ht]; exact hk⟩

theorem Aside.modify {j : Nat} {f : Route C → Route C}
    (hf : ∀ r, t.routes[j]? = some r → (f r).connection.starter = r.connection.starter)
    (ha : t'.acceptor = t.acceptor) (hr : t'.routes = t.routes.modify j f)
    (ht : t'.table = t.table) : Aside t t' :=
  ⟨ha, starterOf_modify hf hr, fun k hk => by rw [ht]; exact hk⟩

theorem Aside.connection {i : Nat} {r : Route C} {c : Connection C.socket} {move : Connection.Move}
    (hr : t.routes[i]? = some r) (hm : move.ofStart = false)
    (hc : Connection.Step r.connection move c) : Aside t (t.onConnection i fun _ => c) := by
  refine .modify (fun r' hr' => ?_) rfl rfl rfl
  obtain rfl := Option.some.inj (hr.symm.trans hr')
  exact (hc.frame hm).2.1

theorem Aside.ahead (hx : Aside t t') : t'.ahead = t.ahead := by
  simp only [Transport.ahead, hx.acceptor, hx.starter]

/-- While the accept loop is about something, whoever does not take it on stands aside. -/
theorem Step.aside (hl : Listening t) (hb : t.acceptor.busy = true)
    (hm : Event.handles ⟨t, m⟩ = false) (st : Step t m t') : Aside t t' := by
  rw [Event.handles, hb] at hm
  cases st with
  | acceptor | accept | refuse | panic => cases hm
  | supervisor st => cases st <;> exact .same rfl rfl rfl
  | unbinder st =>
    cases st with
    | abort =>
      refine .modify (fun r _ => ?_) rfl rfl rfl
      obtain ⟨_, _, e, -⟩ := r.connection.shutdown_frame
      simp only [Connection.abort, e]
      rfl
    | _ => exact .same rfl rfl rfl
  | removal st =>
    cases st with
    | remove =>
      refine ⟨rfl, fun i => ?_, fun k hk => ?_⟩
      · refine starterOf_modify (fun r _ => ?_) (List.modify_modify_eq _ _ _ _) i
        exact (unmoved_onSocket r C.endFeed).starter
      · rw [RoutingTable.identity?_removeIfSame, hk]
        exact ite_self _
  | @connection _ task _ _ hr hk hc =>
    refine .connection hr ?_ hc
    cases task with
    | starter => exact absurd rfl hk
    | _ => rfl
  | @outside _ move _ _ hr hf hc =>
    refine .connection hr ?_ hc
    cases move <;> first | rfl | cases hf
  | arrive ha | listenEnd ha => rw [ha] at hb; cases hb
  | bind hf hi =>
    rcases hl.quiet hf hi with ha | ⟨failure, ha⟩ <;> rw [ha] at hb <;> cases hb
  | listenOn | unbind | unbindNothing | setEndpoint | disposePool => exact .same rfl rfl rfl

/-- While the accept loop is about nothing, only something that arrives changes that. -/
theorem Step.idle (hb : t.acceptor.busy = false) (hm : ∀ b, m ≠ .arrive b) (st : Step t m t') :
    t'.acceptor.busy = false := by
  cases st with
  | acceptor st =>
    cases st with
    | tooLong | opened | finish => rfl
    | known ha | unknown ha | claim ha | taken ha | start ha | startAgain ha | conclude ha
    | refused ha | accepted ha | withdraw ha | offer ha | offerNothing ha =>
      rw [ha] at hb; cases hb
  | supervisor st => cases st <;> exact hb
  | unbinder st => cases st <;> exact hb
  | removal st => cases st; exact hb
  | arrive => exact absurd rfl (hm _)
  | accept ha | refuse ha => rw [ha] at hb; cases hb
  | listenEnd | panic | bind => rfl
  | connection | outside | listenOn | unbind | unbindNothing | setEndpoint | disposePool => exact hb

/-- Nothing is done and nothing is looked up but by the accept loop while it is about something. -/
theorem Event.idle {e : Event C} (he : e.handles = false) (key : ConnectionId) :
    e.deed? = none ∧ e.lookup? key = none := by
  obtain ⟨t, m⟩ := e
  cases m with
  | task k =>
    cases k with
    | acceptor =>
      cases ha : t.acceptor with
      | unborn | opening | waiting | ended =>
        exact ⟨by simp only [Event.deed?, ha], by simp only [Event.lookup?, ha]⟩
      | _ => simp only [Event.handles, ha, Acceptor.busy, Bool.and_self] at he; cases he
    | _ => exact ⟨rfl, rfl⟩
  | _ => exact ⟨rfl, rfl⟩

/-! ## Progress -/

theorem ahead_of_idle (hb : t.acceptor.busy = false) : t.ahead = 0 := by
  cases ha : t.acceptor with
  | unborn | opening | waiting | ended => simp only [ahead, ha]
  | _ => rw [ha] at hb; cases hb

theorem ahead_of_concluding {i : Nat} {payload : Option Bytes}
    (ha : t.acceptor = .concluding i payload) : t.ahead ≤ 6 := by
  simp only [ahead, ha]
  cases hs : t.starterOf i with
  | none => decide
  | some s => exact Nat.add_le_add_left s.ahead_le 2

theorem AcceptorStep.ahead (hb : t.acceptor.busy = true) (st : AcceptorStep t t') :
    t'.ahead + 1 ≤ t.ahead := by
  cases st with
  | tooLong ha | opened ha | finish ha => rw [ha] at hb; cases hb
  | @conclude i payload r c ha hr hc =>
    have ha' : (t.onConnection i fun _ => c).acceptor = .concluding i payload := ha
    have hs : (t.onConnection i fun _ => c).starterOf i = some c.starter := by
      simp only [starterOf, onConnection, List.getElem?_modify_eq, hr]
      rfl
    have hs' : t.starterOf i = some r.connection.starter := by rw [starterOf, hr]; rfl
    have hlt := hc.ahead
    simp only [Transport.ahead, ha, ha', hs, hs', Option.map_some, Option.getD_some]
    omega
  | known ha | unknown ha | claim ha | taken ha | start ha | startAgain ha | refused ha
  | accepted ha | withdraw ha | offer ha | offerNothing ha =>
    simp only [Transport.ahead, ha]
    omega

/-- Each step of the accept loop leaves less to do, and nobody else leaves more. -/
theorem Step.ahead (hl : Listening t) (hm : ∀ b, m ≠ .arrive b) (st : Step t m t') :
    t'.ahead + (Event.handles ⟨t, m⟩).toNat ≤ t.ahead := by
  cases hb : t.acceptor.busy with
  | false =>
    rw [Event.handles, hb, ahead_of_idle (st.idle hb hm)]
    exact Nat.zero_le _
  | true =>
    cases he : Event.handles ⟨t, m⟩ with
    | false => exact Nat.le_of_eq (st.aside hl hb he).ahead
    | true =>
      cases st with
      | acceptor st => exact st.ahead hb
      | accept ha | refuse ha =>
        have hd : t.ahead = 7 := by simp only [Transport.ahead, ha]
        rw [hd]
        exact Nat.succ_le_succ (ahead_of_concluding rfl)
      | panic ha => simp only [Transport.ahead, ha]; decide
      | _ => simp [Event.handles] at he

/-! ## What is done -/

theorem deed_of_claiming (ha : t.acceptor = .claiming a) (hg : t.table.get? a.key = none) :
    Event.deed? ⟨t, .task .acceptor⟩ = some (.made t.routes.length) := by
  simp only [Event.deed?, ha, hg, Option.isNone_none, if_true]

theorem Event.of_lookup {e : Event C} {key : ConnectionId} {found : Option Nat}
    (hk : e.lookup? key = some found) : e.before.table.identity? key = found := by
  simp only [Event.lookup?] at hk
  split at hk
  · exact Option.some.inj hk
  · cases hk

theorem Event.of_asked {e : Event C} {i : Nat} (hd : e.deed? = some (.asked i)) :
    ∃ payload, e.before.acceptor = .starting i payload := by
  simp only [Event.deed?] at hd
  split at hd
  case h_1 => split at hd <;> cases hd
  case h_2 ha => cases hd; exact ⟨_, ha⟩
  all_goals cases hd

theorem Event.of_made {e : Event C} {i : Nat} (hd : e.deed? = some (.made i)) :
    i = e.before.routes.length := by
  simp only [Event.deed?] at hd
  split at hd
  case h_1 =>
    split at hd
    · cases hd; rfl
    · cases hd
  all_goals cases hd

theorem Event.of_offered {e : Event C} {i : Nat} (hd : e.deed? = some (.offered i datagram)) :
    e.move = .task .acceptor ∧ e.before.acceptor = .offering i (some datagram) := by
  simp only [Event.deed?] at hd
  split at hd
  case h_1 => split at hd <;> cases hd
  case h_3 hm ha => cases hd; exact ⟨hm, ha⟩
  all_goals cases hd

/-- The deeds are all the connections that are made, and all the calls of the dispatcher. -/
theorem Step.tally (ho : InOrder h t) (st : Step t m t') :
    t'.routes.length =
        t.routes.length + (Event.deed? ⟨t, m⟩).toList.countP Deed.isMade ∧
      t'.dispatched = t.dispatched + (Event.deed? ⟨t, m⟩).toList.countP Deed.isAsked := by
  cases st with
  | acceptor st =>
    cases st with
    | claim ha hg =>
      rw [deed_of_claiming ha hg]
      exact ⟨List.length_append, rfl⟩
    | start ha =>
      simp only [Event.deed?, ha]
      exact ⟨List.length_modify .., rfl⟩
    | startAgain ha hr hs => exact absurd (ho.unstarted ha hr) hs
    | taken ha hg =>
      simp only [Event.deed?, ha, hg]
      exact ⟨rfl, rfl⟩
    | conclude ha | accepted ha | withdraw ha | offer ha =>
      simp only [Event.deed?, ha]
      exact ⟨List.length_modify .., rfl⟩
    | tooLong ha | opened ha | finish ha | known ha | unknown ha | refused ha | offerNothing ha =>
      simp only [Event.deed?, ha]
      exact ⟨rfl, rfl⟩
  | supervisor st => cases st <;> exact ⟨rfl, rfl⟩
  | unbinder st =>
    cases st with
    | abort => exact ⟨List.length_modify .., rfl⟩
    | _ => exact ⟨rfl, rfl⟩
  | removal st => cases st; exact ⟨(List.length_modify ..).trans (List.length_modify ..), rfl⟩
  | connection | outside | accept | refuse | panic => exact ⟨List.length_modify .., rfl⟩
  | _ => exact ⟨rfl, rfl⟩

/-- What the accept loop carries along. -/
def Carries (a : Arrival C) (datagram : Bytes) (g : List (Event C)) (t : Transport C) : Prop :=
  match t.acceptor with
  | .routing _ | .withdrawing _ _ => False
  | .claiming b => b = a ∧ t.table.identity? a.key = none
  | .starting _ payload | .dispatching _ payload | .offering _ payload => payload = some datagram
  | .concluding i payload => payload = some datagram ∧ ∃ answer, (i, answer) ∈ answers g
  | .unborn | .opening | .waiting | .ended _ => True

/-- How far what has arrived was handled by the moves `g`. -/
inductive Course (n : Nat) (a : Arrival C) (datagram : Bytes) (g : List (Event C))
    (t : Transport C) : Prop
  | arrived (ha : t.acceptor = .routing a) (hl : lookups a.key g = []) (hd : deeds g = [])
  | planned {found} (hl : lookups a.key g = [found])
    (hd : deeds g ++ t.acceptor.due n datagram = plan n datagram found)
    (hc : Carries a datagram g t)
  /-- The dispatcher did not accept, and the rest is not done. -/
  | broken {found rest} (hl : lookups a.key g = [found])
    (hd : deeds g ++ rest = plan n datagram found) (hn : ∃ p ∈ answers g, p.2 ≠ .accept)
    (hb : t.acceptor.busy = true → ∃ i error, t.acceptor = .withdrawing i error)

theorem due_of_idle (hb : t.acceptor.busy = false) : t.acceptor.due n datagram = [] := by
  cases ha : t.acceptor with
  | unborn | opening | waiting | ended => rfl
  | _ => rw [ha] at hb; cases hb

theorem carries_of_idle (hb : t.acceptor.busy = false) : Carries a datagram g t := by
  cases ha : t.acceptor with
  | unborn | opening | waiting | ended => simp only [Carries, ha]
  | _ => rw [ha] at hb; cases hb

/-- A connection is made before the dispatcher is asked about it. -/
theorem made_of_plan {deeds : List Deed} {found : Option Nat} {i : Nat}
    (hd : deeds ++ [.asked i, .offered i datagram] = plan n datagram found) : .made i ∈ deeds := by
  cases found with
  | some j => simpa [plan] using congrArg List.length hd
  | none =>
    have hd : deeds ++ [.asked i, .offered i datagram] =
      [.made n] ++ [.asked n, .offered n datagram] := hd
    obtain ⟨rfl, he⟩ := List.append_inj' hd rfl
    cases he
    exact List.mem_cons_self

/-- Nothing is done before a connection is made. -/
theorem nothing_of_plan {deeds : List Deed} {found : Option Nat}
    (hd : deeds ++ plan n datagram none = plan n datagram found) : deeds = [] ∧ found = none := by
  have hl := congrArg List.length hd
  cases found with
  | none => exact ⟨List.append_left_eq_self.mp hd, rfl⟩
  | some i => simp [plan] at hl

/-- Nothing has been done yet when a connection is about to be made. -/
theorem Course.of_claiming {b : Arrival C} (hc : Course n a datagram g t)
    (ha : t.acceptor = .claiming b) :
    b = a ∧ t.table.identity? a.key = none ∧ lookups a.key g = [none] ∧ deeds g = [] := by
  cases hc with
  | arrived ha' => rw [ha] at ha'; cases ha'
  | planned hl hd hc =>
    rw [Carries, ha] at hc
    rw [ha] at hd
    obtain ⟨hn, rfl⟩ := nothing_of_plan hd
    exact ⟨hc.1, hc.2, hl, hn⟩
  | broken _ _ _ hb =>
    obtain ⟨i, error, hw⟩ := hb (by rw [ha]; rfl)
    rw [ha] at hw; cases hw

/-- An accept loop that goes on goes by the plan. -/
theorem Course.of_going (hc : Course n a datagram g t) (hg : t.acceptor.going = true) :
    ∃ found, lookups a.key g = [found] ∧
      deeds g ++ t.acceptor.due n datagram = plan n datagram found ∧ Carries a datagram g t := by
  cases hc with
  | arrived ha => rw [ha] at hg; cases hg
  | planned hl hd hc => exact ⟨_, hl, hd, hc⟩
  | broken _ _ _ hb =>
    have hb' : t.acceptor.busy = true := by
      cases ha : t.acceptor <;> rw [ha] at hg <;> first | rfl | cases hg
    obtain ⟨i, error, ha⟩ := hb hb'
    rw [ha] at hg; cases hg

/-- Moves that do nothing about what has arrived. -/
theorem Course.aside (hc : Course n a datagram g t) (hx : Aside t t')
    (hl' : lookups a.key g' = lookups a.key g) (hd' : deeds g' = deeds g)
    (hs : ∀ p ∈ answers g, p ∈ answers g') : Course n a datagram g' t' := by
  cases hc with
  | arrived ha hl hd => exact .arrived (hx.acceptor.trans ha) (hl'.trans hl) (hd'.trans hd)
  | planned hl hd hc =>
    refine .planned (hl'.trans hl) (by rw [hd', hx.acceptor]; exact hd) ?_
    rw [Carries, hx.acceptor]
    rw [Carries] at hc
    split <;> rename_i ha <;> rw [ha] at hc
    case h_3 => exact ⟨hc.1, hx.absent _ hc.2⟩
    case h_7 => exact ⟨hc.1, hc.2.imp fun _ => hs _⟩
    all_goals exact hc
  | broken hl hd hn hb =>
    obtain ⟨p, hp, hn⟩ := hn
    exact .broken (hl'.trans hl) (by rw [hd']; exact hd) ⟨p, hs p hp, hn⟩
      (by rw [hx.acceptor]; exact hb)

theorem Course.of_routing {b : Arrival C} (hc : Course n a datagram g t)
    (ha : t.acceptor = .routing b) : b = a ∧ lookups a.key g = [] ∧ deeds g = [] := by
  cases hc with
  | arrived ha' hl hd => exact ⟨Acceptor.routing.inj (ha.symm.trans ha'), hl, hd⟩
  | planned _ _ hc => rw [Carries, ha] at hc; exact hc.elim
  | broken _ _ _ hb =>
    obtain ⟨i, error, hw⟩ := hb (by rw [ha]; rfl)
    rw [ha] at hw; cases hw

theorem Course.of_withdrawing {i : Nat} {error : TransportError} (hc : Course n a datagram g t)
    (ha : t.acceptor = .withdrawing i error) :
    ∃ found rest, lookups a.key g = [found] ∧ deeds g ++ rest = plan n datagram found ∧
      ∃ p ∈ answers g, p.2 ≠ .accept := by
  cases hc with
  | arrived ha' => rw [ha] at ha'; cases ha'
  | planned _ _ hc => rw [Carries, ha] at hc; exact hc.elim
  | broken hl hd hn => exact ⟨_, _, hl, hd, hn⟩

/-- A move that does the first of what is due, or nothing, and leaves the rest. -/
theorem Course.onward {e : Event C} (hc : Course n a datagram g t) (hg : t.acceptor.going = true)
    (hn : e.lookup? a.key = none)
    (hx : e.deed?.toList ++ t'.acceptor.due n datagram = t.acceptor.due n datagram)
    (hk : Carries a datagram g t → Carries a datagram (g ++ [e]) t') :
    Course n a datagram (g ++ [e]) t' := by
  obtain ⟨found, hl, hd, hc⟩ := hc.of_going hg
  have hl' : lookups a.key (g ++ [e]) = [found] := by rw [lookups_snoc, hl, hn]; rfl
  exact .planned hl' (by rw [deeds_snoc, List.append_assoc, hx, hd]) (hk hc)

/-- A move with which the dispatcher has not accepted. -/
theorem Course.stop {e : Event C} {found : Option Nat} {rest : List Deed}
    (hl : lookups a.key g = [found]) (hd : deeds g ++ rest = plan n datagram found)
    (hn : e.lookup? a.key = none) (hx : e.deed? = none)
    (hs : ∃ p ∈ answers (g ++ [e]), p.2 ≠ .accept)
    (hb : t'.acceptor.busy = true → ∃ i error, t'.acceptor = .withdrawing i error) :
    Course n a datagram (g ++ [e]) t' := by
  have hl' : lookups a.key (g ++ [e]) = [found] := by rw [lookups_snoc, hl, hn]; rfl
  have hd' : deeds (g ++ [e]) = deeds g := by rw [deeds_snoc, hx]; exact List.append_nil _
  exact .broken hl' (by rw [hd', hd]) hs hb

/-- A step of the accept loop does what is due. -/
theorem Course.acceptor (hc : Course n a datagram g t) (hp : a.payload = some datagram)
    (ho : InOrder h t) (hb : t.acceptor.busy = true) (hs : ∀ p ∈ answers g, p ∈ answers h)
    (hlen : t.routes.length = n + (deeds g).countP Deed.isMade) (st : AcceptorStep t t') :
    Course n a datagram (g ++ [⟨t, .task .acceptor⟩]) t' := by
  have hans : answers (g ++ [⟨t, .task .acceptor⟩]) = answers g := by
    rw [answers_snoc]; exact List.append_nil _
  cases st with
  | tooLong ha | opened ha | finish ha => rw [ha] at hb; cases hb
  | @known b entry ha hg =>
    obtain ⟨rfl, hl, hd⟩ := hc.of_routing ha
    have hk : t.table.identity? b.key = some entry.identity := by
      rw [RoutingTable.identity?, hg]; rfl
    have hl' : lookups b.key (g ++ [⟨t, .task .acceptor⟩]) = [some entry.identity] := by
      simp only [lookups_snoc, hl, Event.lookup?, ha, hk]; rfl
    exact .planned hl' (by simp only [deeds_snoc, hd, Event.deed?, ha]; rfl) hp
  | @unknown b ha hg =>
    obtain ⟨rfl, hl, hd⟩ := hc.of_routing ha
    have hk : t.table.identity? b.key = none := by rw [RoutingTable.identity?, hg]; rfl
    have hl' : lookups b.key (g ++ [⟨t, .task .acceptor⟩]) = [none] := by
      simp only [lookups_snoc, hl, Event.lookup?, ha, hk]; rfl
    exact .planned hl' (by simp only [deeds_snoc, hd, Event.deed?, ha]; rfl) ⟨rfl, hk⟩
  | @claim b ha hg =>
    obtain ⟨rfl, -, hl, hd⟩ := hc.of_claiming ha
    rw [hd] at hlen
    have hl' : lookups b.key (g ++ [⟨t, .task .acceptor⟩]) = [none] := by
      simp only [lookups_snoc, hl, Event.lookup?, ha]; rfl
    exact .planned hl' (by simp only [deeds_snoc, hd, deed_of_claiming ha hg, hlen]; rfl) hp
  | taken ha hg =>
    obtain ⟨rfl, hk, -⟩ := hc.of_claiming ha
    rw [RoutingTable.identity?, hg] at hk
    cases hk
  | startAgain ha hr hw => exact absurd (ho.unstarted ha hr) hw
  | start ha =>
    refine hc.onward (by rw [ha]; rfl) (by simp only [Event.lookup?, ha])
      (by simp only [Event.deed?, ha]; rfl) fun hc => ?_
    rw [Carries, ha] at hc
    exact hc
  | @conclude i payload r c ha hr hx =>
    have ha' : (t.onConnection i fun _ => c).acceptor = .concluding i payload := ha
    refine hc.onward (by rw [ha]; rfl) (by simp only [Event.lookup?, ha])
      (by simp only [Event.deed?, ha, ha']; rfl) fun hc => ?_
    rw [Carries, ha] at hc
    rw [Carries, ha', hans]
    exact hc
  | @refused i payload r reason ha hr hw =>
    obtain ⟨found, hl, hd, hc⟩ := hc.of_going (by rw [ha]; rfl)
    rw [Carries, ha] at hc
    obtain ⟨-, answer, hm⟩ := hc
    have hled := (ho.route i r hr).led answer (hs _ hm)
    refine .stop hl hd (by simp only [Event.lookup?, ha]) (by simp only [Event.deed?, ha])
      ⟨_, by rw [hans]; exact hm, ?_⟩ fun _ => ⟨_, _, rfl⟩
    rintro rfl
    rw [hw] at hled
    rcases hled with e | e <;> cases e
  | accepted ha =>
    refine hc.onward (by rw [ha]; rfl) (by simp only [Event.lookup?, ha])
      (by simp only [Event.deed?, ha]; rfl) fun hc => ?_
    rw [Carries, ha] at hc
    exact hc.1
  | withdraw ha =>
    obtain ⟨found, rest, hl, hd, hn⟩ := hc.of_withdrawing ha
    exact .stop hl hd (by simp only [Event.lookup?, ha]) (by simp only [Event.deed?, ha])
      (by rw [hans]; exact hn) fun h => by cases h
  | offer ha =>
    obtain ⟨-, -, -, hc'⟩ := hc.of_going (by rw [ha]; rfl)
    rw [Carries, ha] at hc'
    cases hc'
    exact hc.onward (by rw [ha]; rfl) (by simp only [Event.lookup?, ha])
      (by simp only [Event.deed?, ha]; rfl) fun _ => trivial
  | offerNothing ha =>
    obtain ⟨-, -, -, hc⟩ := hc.of_going (by rw [ha]; rfl)
    rw [Carries, ha] at hc
    cases hc

/-- The dispatcher answers: the accept loop goes on, or nothing more is done. -/
theorem Course.answer {i : Nat} {payload : Option Bytes} {answer : Answer}
    (hc : Course n a datagram g t) (ha : t.acceptor = .dispatching i payload)
    (ha' : t'.acceptor = .concluding i payload ∨
      answer ≠ .accept ∧ ∃ failure, t'.acceptor = .ended failure) :
    Course n a datagram (g ++ [⟨t, .answer answer⟩]) t' := by
  have hg : t.acceptor.going = true := by rw [ha]; rfl
  have hm : (i, answer) ∈ answers (g ++ [⟨t, .answer answer⟩]) := by
    rw [answers_snoc, Event.answer?, ha]
    exact List.mem_append_right _ List.mem_cons_self
  rcases ha' with ha' | ⟨hn, failure, ha'⟩
  · refine hc.onward hg rfl (by rw [ha, ha']; rfl) fun hc => ?_
    rw [Carries, ha] at hc
    rw [Carries, ha']
    exact ⟨hc, answer, hm⟩
  · obtain ⟨found, hl, hd, -⟩ := hc.of_going hg
    exact .stop hl hd rfl rfl ⟨_, hm, hn⟩ fun h => by rw [ha'] at h; cases h

/-- Nothing more happens to what was handled. -/
theorem Course.idle (hc : Course n a datagram g t) (hb : t.acceptor.busy = false)
    (hb' : t'.acceptor.busy = false) (hl' : lookups a.key g' = lookups a.key g)
    (hd' : deeds g' = deeds g) (hs : ∀ p ∈ answers g, p ∈ answers g') :
    Course n a datagram g' t' := by
  cases hc with
  | arrived ha => rw [ha] at hb; cases hb
  | planned hl hd =>
    rw [due_of_idle hb] at hd
    exact .planned (hl'.trans hl) (by rw [hd', due_of_idle hb']; exact hd) (carries_of_idle hb')
  | broken hl hd hn =>
    obtain ⟨p, hp, hn⟩ := hn
    refine .broken (hl'.trans hl) (by rw [hd']; exact hd) ⟨p, hs p hp, hn⟩ fun h => ?_
    rw [hb'] at h; cases h

/-! ## Runs -/

/-- What a connection is called by and sends to does not change. -/
theorem Event.Leads.fixed {e : Event C} {i : Nat} {r r' : Route C} (hx : e.Leads i r r') :
    Connection.Fixed r.connection r'.connection := by
  obtain ⟨c, hc, he⟩ := hx
  refine (Connection.fixed_performAll hc).trans ?_
  rw [he, Connection.onSocket]
  split <;> exact ⟨rfl, rfl, rfl, rfl, rfl⟩

theorem fixed_perform {i : Nat} {r : Route C} (ho : InOrder h t) (hm : m.perform t = some t')
    (hr : t.routes[i]? = some r) :
    ∃ r', t'.routes[i]? = some r' ∧ Connection.Fixed r.connection r'.connection := by
  obtain ⟨r', hr', hx⟩ := leads_perform ho hm hr
  exact ⟨r', hr', hx.fixed⟩

/-- What has been done since something arrived in `t₀`, by the moves `g` that have led to `t`. -/
structure Followed (t₀ : Transport C) (a : Arrival C) (datagram : Bytes) (g : List (Event C))
    (t : Transport C) : Prop where
  course : Course t₀.routes.length a datagram g t
  steps : g.countP Event.handles + t.ahead ≤ 10
  routes : t.routes.length = t₀.routes.length + (deeds g).countP Deed.isMade
  dispatched : t.dispatched = t₀.dispatched + (deeds g).countP Deed.isAsked
  known : ∀ i, some i ∈ lookups a.key g → ∃ r, t.routes[i]? = some r ∧ r.connection.id = a.key
  made : ∀ i, .made i ∈ deeds g → ∃ r, t.routes[i]? = some r ∧ r.connection.id = a.key ∧
    r.connection.remoteAddress = a.peer
  inserted : ∀ e ∈ g, ∀ i, e.deed? = some (.asked i) → e.before.table.identity? a.key = some i

variable {t₀ : Transport C}

theorem Followed.move_course (hf : Followed t₀ a datagram g t) (hp : a.payload = some datagram)
    (ho : InOrder h t) (hl : Listening t) (hs : ∀ p ∈ answers g, p ∈ answers h)
    (hm : ∀ b, m ≠ .arrive b) (st : Step t m t') :
    Course t₀.routes.length a datagram (g ++ [⟨t, m⟩]) t' := by
  have hmore : ∀ p ∈ answers g, p ∈ answers (g ++ [⟨t, m⟩]) := by
    intro p hp
    rw [answers_snoc]
    exact List.mem_append_left _ hp
  cases he : Event.handles ⟨t, m⟩ with
  | false =>
    obtain ⟨hd, hk⟩ := Event.idle he a.key
    have hd' : deeds (g ++ [⟨t, m⟩]) = deeds g := by rw [deeds_snoc, hd]; exact List.append_nil _
    have hl' : lookups a.key (g ++ [⟨t, m⟩]) = lookups a.key g := by
      rw [lookups_snoc, hk]; exact List.append_nil _
    cases hb : t.acceptor.busy with
    | false => exact hf.course.idle hb (st.idle hb hm) hl' hd' hmore
    | true => exact hf.course.aside (st.aside hl hb he) hl' hd' hmore
  | true =>
    have hb : t.acceptor.busy = true := by
      rw [Event.handles, Bool.and_eq_true] at he; exact he.1
    cases st with
    | acceptor st => exact hf.course.acceptor hp ho hb hs hf.routes st
    | accept ha | refuse ha => exact hf.course.answer ha (.inl rfl)
    | panic ha => exact hf.course.answer ha (.inr ⟨fun h => (by cases h), _, rfl⟩)
    | _ => simp [Event.handles] at he

theorem Followed.move (hf : Followed t₀ a datagram g t) (hp : a.payload = some datagram)
    (ho : InOrder h t) (hl : Listening t) (hs : ∀ p ∈ answers g, p ∈ answers h)
    (hn : ∀ b, m ≠ .arrive b) (hm : m.perform t = some t') :
    Followed t₀ a datagram (g ++ [⟨t, m⟩]) t' := by
  have st := step_of_perform ho.hand hm
  obtain ⟨hr, hd⟩ := st.tally ho
  constructor
  · exact hf.move_course hp ho hl hs hn st
  · have := st.ahead hl hn
    have := hf.steps
    rw [List.countP_append, List.countP_singleton]
    cases he : Event.handles ⟨t, m⟩ <;> simp only [he, Bool.toNat_false, Bool.toNat_true,
      Bool.false_eq_true, if_true, if_false] at * <;> omega
  · rw [hr, hf.routes, deeds_snoc, List.countP_append, Nat.add_assoc]
  · rw [hd, hf.dispatched, deeds_snoc, List.countP_append, Nat.add_assoc]
  · intro i hi
    rw [lookups_snoc, List.mem_append, Option.mem_toList] at hi
    have hk : ∃ r, t.routes[i]? = some r ∧ r.connection.id = a.key := by
      rcases hi with hi | hi
      · exact hf.known i hi
      · exact ho.entry _ i (Event.of_lookup hi)
    obtain ⟨r, hri, hid⟩ := hk
    obtain ⟨r', hri', hx⟩ := fixed_perform ho hm hri
    exact ⟨r', hri', hx.id.trans hid⟩
  · intro i hi
    rw [deeds_snoc, List.mem_append, Option.mem_toList] at hi
    rcases hi with hi | hi
    · obtain ⟨r, hri, hid, hra⟩ := hf.made i hi
      obtain ⟨r', hri', hx⟩ := fixed_perform ho hm hri
      exact ⟨r', hri', hx.id.trans hid, hx.remoteAddress.trans hra⟩
    · obtain rfl := Event.of_made hi
      rw [hi] at hr
      rcases st.routes_cases with ⟨hl', -⟩ | ⟨b, ha, -, -, hrs, -⟩
      · rw [hl'] at hr
        simp [Deed.isMade] at hr
      · obtain ⟨rfl, -⟩ := hf.course.of_claiming ha
        exact ⟨_, by rw [hrs]; exact List.getElem?_concat_length, rfl, rfl⟩
  · intro e he i hi
    rw [List.mem_append, List.mem_singleton] at he
    rcases he with he | rfl
    · exact hf.inserted e he i hi
    · obtain ⟨payload, ha⟩ := Event.of_asked hi
      obtain ⟨found, -, hd', -⟩ := hf.course.of_going (by rw [ha]; rfl)
      rw [ha] at hd'
      obtain ⟨r, hri, hid, -⟩ := hf.made i (made_of_plan hd')
      rw [← hid]
      exact (ho.route i r hri).inTable (by rw [ha]; rfl)

theorem Followed.change (hf : Followed t₀ a datagram g t) (i : Nat) (socket : C.socket.State) :
    Followed t₀ a datagram g (t.onConnection i fun c => { c with socket }) := by
  have hx : Aside t (t.onConnection i fun c => { c with socket }) :=
    .modify (f := fun r => { r with connection := { r.connection with socket } })
      (fun _ _ => rfl) rfl rfl rfl
  have same (j : Nat) (r : Route C) (hr : t.routes[j]? = some r) :
      ∃ r', (t.onConnection i fun c => { c with socket }).routes[j]? = some r' ∧
        Connection.Fixed r.connection r'.connection := by
    rw [onConnection]
    by_cases hi : i = j
    · subst hi
      exact ⟨{ r with connection := { r.connection with socket } },
        by rw [List.getElem?_modify_eq, hr]; rfl, rfl, rfl, rfl, rfl, rfl⟩
    · exact ⟨r, by rw [List.getElem?_modify_ne _ _ hi, hr], rfl, rfl, rfl, rfl, rfl⟩
  refine ⟨hf.course.aside hx rfl rfl fun _ h => h, by rw [hx.ahead]; exact hf.steps,
    (List.length_modify ..).trans hf.routes, hf.dispatched, fun j hj => ?_, fun j hj => ?_,
    hf.inserted⟩
  · obtain ⟨r, hr, hid⟩ := hf.known j hj
    obtain ⟨r', hr', hx⟩ := same j r hr
    exact ⟨r', hr', hx.id.trans hid⟩
  · obtain ⟨r, hr, hid, hra⟩ := hf.made j hj
    obtain ⟨r', hr', hx⟩ := same j r hr
    exact ⟨r', hr', hx.id.trans hid, hx.remoteAddress.trans hra⟩

variable {M : Socket.Medium C.socket} {h₁ : List (Event C)}

end Transport

end Duplex
