import Duplex.Proofs.Connection.Run
import Duplex.Transport.Run

/-!
# Runs of a transport

A transport moves by the steps of its tasks, and those around it move it too: something arrives,
the dispatcher answers, the host binds and unbinds, and whoever holds a connection works on it
(`Move`). A run (`Run`) makes moves in any order, while the medium changes the sockets of the
connections; its history keeps the transport as it was before each move. What a run goes on with
after some moment is of the same kind (`Later`).

The calls that bind and unbind share a lock, which an unbinding holds until it has collected the
failure that was kept (`Unbinder.holdsLock`). What a stop does after that is done beside other
calls; a later call may take its place, and then the rest of it is a matter of the other moves.

What a step of a task does is listed once (`AcceptorStep`, `SupervisorStep`, `UnbinderStep`,
`RemovalStep`).
-/

namespace Duplex

/-- Whether those who hold a connection can make the move. The start of a connection and its tasks
belong to the transport. -/
def Connection.Move.fromOutside : Connection.Move → Bool
  | output _ | input _ | cancelOutput | cancelInput | shutdown | fireClosed => true
  | task _ _ | start | accept | refuse _ | panic => false

/-- Whether nobody else can bind or unbind. -/
def Unbinder.holdsLock : Unbinder → Bool
  | marking _ | signalling _ | joining _ | unmarking _ | collecting _ => true
  | idle | listing _ | aborting _ _ | disposing _ | returned _ => false

/-- The connection that the accept loop is about to start or to take out again. -/
def Acceptor.inHand {C : Carrier} : Acceptor C → Option Nat
  | .starting route _ | .dispatching route _ | .concluding route _ | .withdrawing route _ =>
    some route
  | .unborn | .opening | .waiting | .routing _ | .claiming _ | .offering _ _ | .ended _ => none

namespace Transport

variable {C : Carrier}

/-! ## Moves -/

/-- What moves a transport. -/
inductive Move (C : Carrier) where
  | task (task : Task)
  | arrive (arrival : Arrival C)
  | listenError (error : IoError)
  | answer (answer : Answer)
  | bind (network : Network)
  /-- Begins an unbind, or a stop. -/
  | unbind (stopping : Bool)
  | connection (route : Nat) (move : Connection.Move)
  /-- Those who share the endpoint change it. -/
  | setEndpoint (endpoint : Endpoint)
  | disposePool

/-- One move of a connection of the transport, if it can be made. -/
def moveConnection (t : Transport C) (route : Nat) (move : Connection.Move) :
    Option (Transport C) :=
  match t.routes[route]? with
  | none => none
  | some r => (move.perform r.connection).map fun c => t.onConnection route fun _ => c

/-- The transport after a move, if it can be made. -/
def Move.perform (m : Move C) (t : Transport C) : Option (Transport C) :=
  match m with
  | .task k => t.step k
  | .arrive a => t.arrive a
  | .listenError error => t.listenError error
  | .answer a => t.answer a
  | .bind network => if t.unbinder.holdsLock then none else (t.bind network).1.toOption
  | .unbind stopping => if t.unbinder.holdsLock then none else some (t.beginUnbind stopping)
  | .connection route move => if move.fromOutside then t.moveConnection route move else none
  | .setEndpoint endpoint => some { t with endpoint }
  | .disposePool => some { t with pool := t.pool.dispose }

/-- A move, and the transport before it. -/
structure Event (C : Carrier) where
  before : Transport C
  move : Move C

/-- `Run M h t`: over sockets in the medium `M`, the moves of the history `h` lead to `t`. -/
inductive Run (M : Socket.Medium C.socket) : List (Event C) → Transport C → Prop
  | create (configuration : Configuration) (endpoint : Endpoint) :
    Run M [] (create C configuration endpoint)
  | move {h : List (Event C)} {t t' : Transport C} (run : Run M h t) (m : Move C)
    (hm : m.perform t = some t') (ha : ∀ arrival, m = .arrive arrival → M.Initial arrival.socket) :
    Run M (h ++ [⟨t, m⟩]) t'
  | change {h : List (Event C)} {t : Transport C} {route : Nat} {r : Route C}
    {socket : C.socket.State} (run : Run M h t) (hr : t.routes[route]? = some r)
    (hs : M.Change r.connection.socket socket) :
    Run M h (t.onConnection route fun c => { c with socket })

/-- The transport after moves made one after the other, if all of them can be made. -/
def performAll (t : Transport C) (moves : List (Move C)) : Option (Transport C) :=
  moves.foldlM (fun t m => m.perform t) t

/-- The history of moves made one after the other. -/
def trace (t : Transport C) : List (Move C) → List (Event C)
  | [] => []
  | m :: moves => ⟨t, m⟩ :: ((m.perform t).elim [] (trace · moves))

/-- `Later M t g u`: over sockets in the medium `M`, the moves of `g` lead from `t` to `u`. -/
inductive Later (M : Socket.Medium C.socket) (t : Transport C) :
    List (Event C) → Transport C → Prop
  | refl : Later M t [] t
  | move {g : List (Event C)} {u u' : Transport C} (later : Later M t g u) (m : Move C)
    (hm : m.perform u = some u') (ha : ∀ arrival, m = .arrive arrival → M.Initial arrival.socket) :
    Later M t (g ++ [⟨u, m⟩]) u'
  | change {g : List (Event C)} {u : Transport C} {route : Nat} {r : Route C}
    {socket : C.socket.State} (later : Later M t g u) (hr : u.routes[route]? = some r)
    (hs : M.Change r.connection.socket socket) :
    Later M t g (u.onConnection route fun c => { c with socket })

section Later

variable {M : Socket.Medium C.socket} {g g' h : List (Event C)} {t u v : Transport C}

theorem Run.later (run : Run M h t) (later : Later M t g u) : Run M (h ++ g) u := by
  induction later with
  | refl => rwa [List.append_nil]
  | move _ m hm ha ih => rw [← List.append_assoc]; exact ih.move m hm ha
  | change _ hr hs ih => exact ih.change hr hs

theorem Later.trans (later : Later M t g u) (later' : Later M u g' v) : Later M t (g ++ g') v := by
  induction later' with
  | refl => rwa [List.append_nil]
  | move _ m hm ha ih => rw [← List.append_assoc]; exact ih.move m hm ha
  | change _ hr hs ih => exact ih.change hr hs

theorem Later.moves {moves : List (Move C)} (hm : t.performAll moves = some u)
    (ha : ∀ arrival, .arrive arrival ∈ moves → M.Initial arrival.socket) :
    Later M t (t.trace moves) u := by
  induction moves generalizing t with
  | nil =>
    obtain rfl := Option.some_inj.mp hm
    exact .refl
  | cons m moves ih =>
    rw [performAll, List.foldlM_cons] at hm
    obtain ⟨v, hv, hm⟩ := Option.bind_eq_some_iff.mp hm
    have first : Later M t [⟨t, m⟩] v :=
      .move .refl m hv fun arrival e => ha arrival (e ▸ List.mem_cons_self)
    rw [trace, hv]
    exact first.trans (ih hm fun arrival hmem => ha arrival (List.mem_cons_of_mem _ hmem))

theorem Run.moves (run : Run M h t) {moves : List (Move C)} (hm : t.performAll moves = some u)
    (ha : ∀ arrival, .arrive arrival ∈ moves → M.Initial arrival.socket) :
    Run M (h ++ t.trace moves) u :=
  run.later (.moves hm ha)

end Later

/-! ## Steps of the tasks -/

/-- What one step of the accept loop does. -/
inductive AcceptorStep (t : Transport C) : Transport C → Prop
  | tooLong (h : t.acceptor = .opening) :
    AcceptorStep t { t with acceptor := .ended (some bufferTooLong) }
  | opened (h : t.acceptor = .opening) : AcceptorStep t { t with acceptor := .waiting }
  | finish (h : t.acceptor = .waiting) (hs : t.signalled = true) :
    AcceptorStep t { t with acceptor := .ended none }
  | known {a entry} (h : t.acceptor = .routing a) (hg : t.table.get? a.key = some entry) :
    AcceptorStep t { t with acceptor := .offering entry.identity a.payload }
  | unknown {a} (h : t.acceptor = .routing a) (hg : t.table.get? a.key = none) :
    AcceptorStep t { t with acceptor := .claiming a }
  | claim {a} (h : t.acceptor = .claiming a) (hg : t.table.get? a.key = none) :
    AcceptorStep t { t with
      table := { entries := t.table.entries ++ [(a.key, ⟨t.routes.length, ()⟩)] }
      queues := t.queues.assign.2
      routes := t.routes ++ [t.newRoute a t.queues.assign.1]
      acceptor := .starting t.routes.length a.payload }
  | taken {a entry} (h : t.acceptor = .claiming a) (hg : t.table.get? a.key = some entry) :
    AcceptorStep t { t with acceptor := .offering entry.identity a.payload }
  | start {route payload r} (h : t.acceptor = .starting route payload)
    (hr : t.routes[route]? = some r) (hs : r.connection.starter = .waiting) :
    AcceptorStep t
      { t.onConnection route (fun _ => { r.connection with starter := .dispatching }) with
      dispatched := t.dispatched + 1
      acceptor := .dispatching route payload }
  | startAgain {route payload r} (h : t.acceptor = .starting route payload)
    (hr : t.routes[route]? = some r) (hs : r.connection.starter ≠ .waiting) :
    AcceptorStep t { t with acceptor := .withdrawing route .alreadyStarted }
  | conclude {route payload r c} (h : t.acceptor = .concluding route payload)
    (hr : t.routes[route]? = some r) (hc : Connection.StarterStep r.connection c) :
    AcceptorStep t (t.onConnection route fun _ => c)
  | refused {route payload r reason} (h : t.acceptor = .concluding route payload)
    (hr : t.routes[route]? = some r) (hs : r.connection.starter = .over (some reason)) :
    AcceptorStep t { t with acceptor := .withdrawing route (.dispatch reason) }
  | accepted {route payload r} (h : t.acceptor = .concluding route payload)
    (hr : t.routes[route]? = some r) (hn : r.connection.stepStarter = none)
    (hs : ∀ reason, r.connection.starter ≠ .over (some reason)) :
    AcceptorStep t { t with
      routes := t.routes.modify route fun r => { r with removal := .waiting }
      acceptor := .offering route payload }
  | withdraw {route error r} (h : t.acceptor = .withdrawing route error)
    (hr : t.routes[route]? = some r) :
    AcceptorStep t { t.onSocket route C.endFeed with
      table := (t.table.removeIfSame r.connection.id route).2
      acceptor := .ended (some error) }
  | offer {route datagram} (h : t.acceptor = .offering route (some datagram)) :
    AcceptorStep t { t.onSocket route (C.offer datagram) with acceptor := .waiting }
  | offerNothing {route} (h : t.acceptor = .offering route none) :
    AcceptorStep t { t with acceptor := .waiting }

theorem stepAcceptor_cases {t t' : Transport C}
    (hk : ∀ route, t.acceptor.inHand = some route → route < t.routes.length)
    (h : t.stepAcceptor = some t') : AcceptorStep t t' := by
  simp only [stepAcceptor] at h
  split at h
  case h_1 | h_2 | h_3 => cases h
  case h_4 ha =>
    cases h
    by_cases hl : maxBuffer < C.receiveBuffer t.configuration
    · simp only [hl, if_true]; exact .tooLong ha
    · simp only [hl, if_false]; exact .opened ha
  case h_5 ha =>
    split at h
    · cases h; exact .finish ha ‹_›
    · cases h
  case h_6 a ha =>
    split at h
    case h_1 hg => cases h; exact .known ha hg
    case h_2 hg => cases h; exact .unknown ha hg
  case h_7 a ha =>
    simp only [RoutingTable.claim, makeRoute] at h
    cases hg : t.table.get? a.key with
    | some entry => rw [hg] at h; cases h; exact .taken ha hg
    | none => rw [hg] at h; cases h; exact .claim ha hg
  case h_8 route payload ha =>
    obtain ⟨r, hr⟩ : ∃ r, t.routes[route]? = some r :=
      ⟨_, List.getElem?_eq_getElem (hk route (by rw [ha]; rfl))⟩
    by_cases hs : r.connection.starter = .waiting
    · simp only [hr, Connection.beginStart, hs] at h
      cases h; exact .start ha hr hs
    · simp only [hr, Connection.beginStart] at h
      cases h; exact .startAgain ha hr hs
  case h_9 route payload ha =>
    obtain ⟨r, hr⟩ : ∃ r, t.routes[route]? = some r :=
      ⟨_, List.getElem?_eq_getElem (hk route (by rw [ha]; rfl))⟩
    rw [hr] at h
    simp only at h
    cases hc : r.connection.stepStarter with
    | some c => rw [hc] at h; cases h; exact .conclude ha hr (Connection.stepStarter_cases hc)
    | none =>
      rw [hc] at h
      by_cases hs : ∃ reason, r.connection.starter = .over (some reason)
      · obtain ⟨reason, hs⟩ := hs
        simp only [afterStart, hs] at h
        cases h; exact .refused ha hr hs
      · have hs : ∀ reason, r.connection.starter ≠ .over (some reason) :=
          fun reason e => hs ⟨reason, e⟩
        simp only [afterStart] at h
        cases h; exact .accepted ha hr hc hs
  case h_10 route error ha =>
    obtain ⟨r, hr⟩ : ∃ r, t.routes[route]? = some r :=
      ⟨_, List.getElem?_eq_getElem (hk route (by rw [ha]; rfl))⟩
    rw [hr] at h
    cases h
    exact .withdraw ha hr
  case h_11 route payload ha =>
    cases payload with
    | some datagram => cases h; exact .offer ha
    | none => cases h; exact .offerNothing ha

/-- What one step of the supervisor does. -/
inductive SupervisorStep (t : Transport C) : Transport C → Prop
  | ended (h : t.supervisor = .watching) (ha : t.acceptor = .ended none) :
    SupervisorStep t { t with supervisor := .done }
  | expected {error} (h : t.supervisor = .watching) (ha : t.acceptor = .ended (some error))
    (hu : t.unbinding = true) : SupervisorStep t { t with supervisor := .done }
  | failed {error} (h : t.supervisor = .watching) (ha : t.acceptor = .ended (some error))
    (hu : t.unbinding = false) : SupervisorStep t { t with supervisor := .keeping error }
  | keep {error} (h : t.supervisor = .keeping error) :
    SupervisorStep t { t with fatal := t.fatal.or (some error), supervisor := .stopping }
  | stop (h : t.supervisor = .stopping) :
    SupervisorStep t { t with stopRequests := t.stopRequests + 1, supervisor := .done }

theorem stepSupervisor_cases {t t' : Transport C} (h : t.stepSupervisor = some t') :
    SupervisorStep t t' := by
  simp only [stepSupervisor] at h
  split at h
  case h_1 | h_2 => cases h
  case h_3 hs =>
    split at h
    case h_1 ha => cases h; exact .ended hs ha
    case h_2 ha =>
      by_cases hu : t.unbinding = true
      · rw [if_pos hu] at h; cases h; exact .expected hs ha hu
      · rw [if_neg hu] at h; cases h; exact .failed hs ha (Bool.eq_false_iff.mpr hu)
    case h_3 => cases h
  case h_4 hs => cases h; exact .keep hs
  case h_5 hs => cases h; exact .stop hs

/-- What one step of the call that unbinds does. -/
inductive UnbinderStep (t : Transport C) : Transport C → Prop
  | mark {stopping} (h : t.unbinder = .marking stopping) :
    UnbinderStep t { t with unbinding := true, unbinder := .signalling stopping }
  | signal {stopping} (h : t.unbinder = .signalling stopping) :
    UnbinderStep t { t with signalled := true, unbinder := .joining stopping }
  | join {stopping} (h : t.unbinder = .joining stopping) (hs : t.supervisor = .done) :
    UnbinderStep t { t with unbinder := .unmarking stopping }
  | unmark {stopping} (h : t.unbinder = .unmarking stopping) :
    UnbinderStep t { t with unbinding := false, unbinder := .collecting stopping }
  | collect {stopping} (h : t.unbinder = .collecting stopping) :
    UnbinderStep t { t with
      fatal := none
      unbinder := if stopping then .listing t.fatal else .returned t.fatal }
  | list {failure} (h : t.unbinder = .listing failure) :
    UnbinderStep t { t with unbinder := .aborting (t.table.snapshot.map (·.identity)) failure }
  | abort {route routes failure} (h : t.unbinder = .aborting (route :: routes) failure) :
    UnbinderStep t { t.onConnection route (·.abort) with unbinder := .aborting routes failure }
  | aborted {failure} (h : t.unbinder = .aborting [] failure) :
    UnbinderStep t { t with unbinder := .disposing failure }
  | dispose {failure} (h : t.unbinder = .disposing failure) :
    UnbinderStep t { t with pool := t.pool.dispose, unbinder := .returned failure }

theorem stepUnbinder_cases {t t' : Transport C} (h : t.stepUnbinder = some t') :
    UnbinderStep t t' := by
  simp only [stepUnbinder] at h
  split at h
  case h_1 | h_2 => cases h
  case h_3 hu => cases h; exact .mark hu
  case h_4 hu => cases h; exact .signal hu
  case h_5 hu =>
    split at h
    · cases h; exact .join hu ‹_›
    · cases h
  case h_6 hu => cases h; exact .unmark hu
  case h_7 hu => cases h; exact .collect hu
  case h_8 hu => cases h; exact .list hu
  case h_9 hu => cases h; exact .aborted hu
  case h_10 hu => cases h; exact .abort hu
  case h_11 hu => cases h; exact .dispose hu

/-- What the removal of a connection does in its one step. -/
inductive RemovalStep (t : Transport C) (route : Nat) : Transport C → Prop
  | remove {r} (hr : t.routes[route]? = some r) (hw : r.removal = .waiting)
    (hc : r.connection.closed = true) :
    RemovalStep t route { t with
      table := (t.table.removeIfSame r.connection.id route).2
      routes := (t.onSocket route C.endFeed).routes.modify route fun r =>
        { r with removal := .done } }

theorem stepRemoval_cases {t t' : Transport C} {route : Nat} (h : t.stepRemoval route = some t') :
    RemovalStep t route t' := by
  simp only [stepRemoval] at h
  split at h
  case h_1 => cases h
  case h_2 r hr =>
    split at h
    case h_1 | h_2 => cases h
    case h_3 hw =>
      split at h
      · cases h; exact .remove hr hw ‹_›
      · cases h

/-! ## All moves -/

/-- What a move does. -/
inductive Step (t : Transport C) : Move C → Transport C → Prop
  | acceptor {t'} (h : AcceptorStep t t') : Step t (.task .acceptor) t'
  | supervisor {t'} (h : SupervisorStep t t') : Step t (.task .supervisor) t'
  | unbinder {t'} (h : UnbinderStep t t') : Step t (.task .unbinder) t'
  | removal {route t'} (h : RemovalStep t route t') : Step t (.task (.removal route)) t'
  | connection {route task r c} (hr : t.routes[route]? = some r) (hk : task ≠ .starter)
    (hc : Connection.Step r.connection (.task t.pool task) c) :
    Step t (.task (.connection route task)) (t.onConnection route fun _ => c)
  | outside {route move r c} (hr : t.routes[route]? = some r) (hm : move.fromOutside = true)
    (hc : Connection.Step r.connection move c) :
    Step t (.connection route move) (t.onConnection route fun _ => c)
  | arrive {arrival} (h : t.acceptor = .waiting) (hs : t.signalled = false) :
    Step t (.arrive arrival) { t with acceptor := .routing arrival }
  | listenOn {error} (h : t.acceptor = .waiting) (hs : t.signalled = false)
    (he : error.kind = .connectionReset ∨ t.unbinding = false) : Step t (.listenError error) t
  | listenEnd {error} (h : t.acceptor = .waiting) (hs : t.signalled = false)
    (he : error.kind ≠ .connectionReset) (hu : t.unbinding = true) :
    Step t (.listenError error) { t with acceptor := .ended none }
  | accept {route payload} (h : t.acceptor = .dispatching route payload) :
    Step t (.answer .accept)
      { t.onConnection route (·.accept) with acceptor := .concluding route payload }
  | refuse {route payload reason} (h : t.acceptor = .dispatching route payload) :
    Step t (.answer (.refuse reason))
      { t.onConnection route (·.refuse reason) with acceptor := .concluding route payload }
  | panic {route payload message} (h : t.acceptor = .dispatching route payload) :
    Step t (.answer (.panic message))
      { t.onConnection route (·.panicStart) with
        acceptor := .ended (some (.panic (panicMessage message))) }
  | bind {network bound} (hl : t.unbinder.holdsLock = false) (hi : t.installed = false)
    (hb : (network.bind t.configuration.mode t.endpoint.address t.openAddresses).1 = .ok bound) :
    Step t (.bind network) { t with
      endpoint :=
        if t.endpoint.address.port = 0 then { t.endpoint with address := bound } else t.endpoint
      installed := true
      listenAddress := bound
      signalled := false
      acceptor := .opening
      supervisor := .watching }
  | unbind {stopping} (hl : t.unbinder.holdsLock = false) (hi : t.installed = true) :
    Step t (.unbind stopping) { t with installed := false, unbinder := .marking stopping }
  | unbindNothing {stopping} (hl : t.unbinder.holdsLock = false) (hi : t.installed = false) :
    Step t (.unbind stopping)
      { t with unbinder := if stopping then .listing none else .returned none }
  | setEndpoint {endpoint} : Step t (.setEndpoint endpoint) { t with endpoint }
  | disposePool : Step t .disposePool { t with pool := t.pool.dispose }

theorem step_of_perform {m : Move C} {t t' : Transport C}
    (hk : ∀ route, t.acceptor.inHand = some route → route < t.routes.length)
    (h : m.perform t = some t') : Step t m t' := by
  cases m with
  | task k =>
    cases k with
    | acceptor => exact .acceptor (stepAcceptor_cases hk h)
    | supervisor => exact .supervisor (stepSupervisor_cases h)
    | unbinder => exact .unbinder (stepUnbinder_cases h)
    | removal route => exact .removal (stepRemoval_cases h)
    | connection route task =>
      simp only [Move.perform, step, stepConnection] at h
      split at h
      · cases h
      · rename_i hs
        cases hr : t.routes[route]? with
        | none => rw [hr] at h; cases h
        | some r =>
          rw [hr] at h
          obtain ⟨c, hc, rfl⟩ := Option.map_eq_some_iff.mp h
          have hp : Connection.Move.perform (.task t.pool task) r.connection = some c := hc
          exact .connection hr hs (Connection.step_of_perform hp)
  | arrive a =>
    simp only [Move.perform, Transport.arrive] at h
    split at h
    · rename_i ha
      split at h
      · cases h
      · cases h; exact .arrive ha (Bool.eq_false_iff.mpr ‹_›)
    · cases h
  | listenError error =>
    simp only [Move.perform, Transport.listenError] at h
    split at h
    · rename_i ha
      split at h
      · cases h
      · rename_i hs
        have hs := Bool.eq_false_iff.mpr hs
        split at h
        · rename_i he; cases h; exact .listenEnd ha hs he.1 he.2
        · rename_i he
          cases h
          refine .listenOn ha hs ?_
          by_cases hr : error.kind = .connectionReset
          · exact .inl hr
          · exact .inr (Bool.eq_false_iff.mpr fun hu => he ⟨hr, hu⟩)
    · cases h
  | answer a =>
    simp only [Move.perform, Transport.answer] at h
    split at h
    · rename_i ha
      cases a with
      | accept => cases h; exact .accept ha
      | refuse => cases h; exact .refuse ha
      | panic => cases h; exact .panic ha
    · cases h
  | bind network =>
    simp only [Move.perform, Transport.bind] at h
    split at h
    · cases h
    · rename_i hl
      split at h
      · cases h
      · rename_i hi
        have hl := Bool.eq_false_iff.mpr hl
        have hi := Bool.eq_false_iff.mpr hi
        cases hb : network.bind t.configuration.mode t.endpoint.address t.openAddresses with
        | mk result network' =>
          rw [hb] at h
          cases result with
          | error source => cases h
          | ok bound => cases h; exact .bind hl hi (by rw [hb])
  | unbind stopping =>
    simp only [Move.perform, beginUnbind] at h
    split at h
    · cases h
    · rename_i hl
      have hl := Bool.eq_false_iff.mpr hl
      cases h
      split
      · exact .unbind hl ‹_›
      · rename_i hi
        cases stopping with
        | true => exact .unbindNothing hl (Bool.eq_false_iff.mpr hi)
        | false => exact .unbindNothing hl (Bool.eq_false_iff.mpr hi)
  | connection route move =>
    simp only [Move.perform, moveConnection] at h
    split at h
    · rename_i hm
      cases hr : t.routes[route]? with
      | none => rw [hr] at h; cases h
      | some r =>
        rw [hr] at h
        obtain ⟨c, hc, rfl⟩ := Option.map_eq_some_iff.mp h
        exact .outside hr hm (Connection.step_of_perform hc)
    · cases h
  | setEndpoint => cases h; exact .setEndpoint
  | disposePool => cases h; exact .disposePool

/-! ## The listener -/

/-- How the accept loop, its supervisor and the lock belong together. -/
structure Listening (t : Transport C) : Prop where
  unborn : t.supervisor = .unborn → t.acceptor = .unborn
  ended : t.supervisor ≠ .unborn → t.supervisor ≠ .watching →
    ∃ failure, t.acceptor = .ended failure
  held : t.unbinder.holdsLock = true → t.installed = false
  joined : ∀ stopping, t.unbinder = .unmarking stopping ∨ t.unbinder = .collecting stopping →
    t.supervisor = .done
  free : t.unbinder.holdsLock = false → t.installed = false →
    t.supervisor = .unborn ∨ t.supervisor = .done

theorem listening_create (configuration : Configuration) (endpoint : Endpoint) :
    Listening (create C configuration endpoint) where
  unborn := fun _ => rfl
  ended := fun hn => absurd rfl hn
  held := fun hb => by cases hb
  joined := fun stopping hj => by rcases hj with hj | hj <;> cases hj
  free := fun _ _ => .inl rfl

/-- Whoever watches has an accept loop to watch. -/
theorem Listening.watching {t : Transport C} (hl : Listening t) (hu : t.acceptor ≠ .unborn)
    (he : ∀ failure, t.acceptor ≠ .ended failure) : t.supervisor = .watching := by
  by_cases hs : t.supervisor = .unborn
  · exact absurd (hl.unborn hs) hu
  · by_cases hw : t.supervisor = .watching
    · exact hw
    · obtain ⟨failure, h⟩ := hl.ended hs hw
      exact absurd h (he failure)

/-- Where nobody listens and nobody unbinds, no accept loop runs. -/
theorem Listening.quiet {t : Transport C} (hl : Listening t) (hf : t.unbinder.holdsLock = false)
    (hi : t.installed = false) : t.acceptor = .unborn ∨ ∃ failure, t.acceptor = .ended failure := by
  rcases hl.free hf hi with hs | hs
  · exact .inl (hl.unborn hs)
  · exact .inr (hl.ended (by simp [hs]) (by simp [hs]))

/-- A change that concerns neither the accept loop nor its supervisor, nor those who unbind. -/
theorem Listening.congr {t t' : Transport C} (hl : Listening t)
    (ha : t'.acceptor = t.acceptor) (hs : t'.supervisor = t.supervisor)
    (hu : t'.unbinder = t.unbinder) (hi : t'.installed = t.installed) : Listening t' := by
  constructor
  · rw [hs, ha]; exact hl.unborn
  · rw [hs, ha]; exact hl.ended
  · rw [hu, hi]; exact hl.held
  · rw [hu, hs]; exact hl.joined
  · rw [hu, hi, hs]; exact hl.free

/-- An accept loop that moves is watched, wherever it goes. -/
theorem Listening.accepting {t t' : Transport C} (hl : Listening t) (hu : t.acceptor ≠ .unborn)
    (he : ∀ failure, t.acceptor ≠ .ended failure) (hs : t'.supervisor = t.supervisor)
    (hb : t'.unbinder = t.unbinder) (hi : t'.installed = t.installed) : Listening t' := by
  have hw := hl.watching hu he
  constructor
  · rw [hs, hw]; exact nofun
  · rw [hs, hw]; exact fun _ hn => absurd rfl hn
  · rw [hb, hi]; exact hl.held
  · rw [hb, hs]; exact hl.joined
  · rw [hb, hi, hs]; exact hl.free

/-- A supervisor that has seen the accept loop end goes on as it likes. -/
theorem Listening.supervising {t t' : Transport C} (hl : Listening t)
    (hu : t.supervisor ≠ .unborn) (hd : t.supervisor ≠ .done) {failure : Option TransportError}
    (ha : t'.acceptor = .ended failure) (hn : t'.supervisor ≠ .unborn)
    (hb : t'.unbinder = t.unbinder) (hi : t'.installed = t.installed) : Listening t' := by
  constructor
  · exact fun hs => absurd hs hn
  · exact fun _ _ => ⟨failure, ha⟩
  · rw [hb, hi]; exact hl.held
  · rw [hb]; exact fun stopping hj => absurd (hl.joined stopping hj) hd
  · rw [hb, hi]
    intro hf hi
    rcases hl.free hf hi with hs | hs
    · exact absurd hs hu
    · exact absurd hs hd

theorem Listening.supervisor {t t' : Transport C} (hl : Listening t) (st : SupervisorStep t t') :
    Listening t' := by
  have hu : t.supervisor ≠ .unborn := by cases st <;> simp [*]
  have hd : t.supervisor ≠ .done := by cases st <;> simp [*]
  cases st with
  | ended hs ha | expected hs ha | failed hs ha =>
    exact hl.supervising hu hd ha (by simp) rfl rfl
  | keep hs | stop hs =>
    obtain ⟨failure, ha⟩ := hl.ended hu (by simp [hs])
    exact hl.supervising hu hd ha (by simp) rfl rfl

theorem Listening.unbinder {t t' : Transport C} (hl : Listening t) (st : UnbinderStep t t') :
    Listening t' := by
  cases st with
  | mark hu | signal hu =>
    have hi := hl.held (by rw [hu]; rfl)
    exact ⟨hl.unborn, hl.ended, fun _ => hi, by simp, fun hf => by simp [Unbinder.holdsLock] at hf⟩
  | join hu hs =>
    have hi := hl.held (by rw [hu]; rfl)
    exact ⟨hl.unborn, hl.ended, fun _ => hi, fun _ _ => hs, fun _ _ => .inr hs⟩
  | unmark hu =>
    have hi := hl.held (by rw [hu]; rfl)
    have hs := hl.joined _ (.inl hu)
    exact ⟨hl.unborn, hl.ended, fun _ => hi, fun _ _ => hs, fun _ _ => .inr hs⟩
  | @collect stopping hu =>
    have hi := hl.held (by rw [hu]; rfl)
    have hs := hl.joined _ (.inr hu)
    exact ⟨hl.unborn, hl.ended, fun _ => hi, fun _ _ => hs, fun _ _ => .inr hs⟩
  | list hu | abort hu | aborted hu | dispose hu =>
    exact ⟨hl.unborn, hl.ended, fun hf => by simp [Unbinder.holdsLock] at hf, by simp,
      fun _ hi => hl.free (by rw [hu]; rfl) hi⟩

theorem Listening.step {t t' : Transport C} {m : Move C} (hl : Listening t) (st : Step t m t') :
    Listening t' := by
  cases st with
  | acceptor st =>
    refine hl.accepting ?_ ?_ ?_ ?_ ?_
    · cases st <;> simp [*]
    · cases st <;> simp [*]
    · cases st <;> rfl
    · cases st <;> rfl
    · cases st <;> rfl
  | supervisor st => exact hl.supervisor st
  | unbinder st => exact hl.unbinder st
  | removal st => cases st; exact hl.congr rfl rfl rfl rfl
  | arrive ha | listenEnd ha | accept ha | refuse ha | panic ha =>
    exact hl.accepting (by simp [ha]) (by simp [ha]) rfl rfl rfl
  | bind hf hi =>
    have hn : ∀ stopping,
        ¬ (t.unbinder = .unmarking stopping ∨ t.unbinder = .collecting stopping) := by
      rintro stopping (hu | hu) <;> rw [hu] at hf <;> cases hf
    exact ⟨nofun, fun _ hw => absurd rfl hw, fun hb => absurd (hf.symm.trans hb) (by decide),
      fun stopping hj => absurd hj (hn stopping), nofun⟩
  | unbind hf hi =>
    exact ⟨hl.unborn, hl.ended, fun _ => rfl, by simp, fun hb => by simp [Unbinder.holdsLock] at hb⟩
  | @unbindNothing stopping hf hi =>
    refine ⟨hl.unborn, hl.ended, fun _ => hi, ?_, fun _ _ => hl.free hf hi⟩
    cases stopping <;> simp
  | connection | outside | listenOn | setEndpoint | disposePool => exact hl.congr rfl rfl rfl rfl

end Transport

end Duplex
