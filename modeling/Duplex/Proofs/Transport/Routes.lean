import Duplex.Proofs.Transport.Table

/-!
# The connections of a transport

A move of a transport is a few moves of each of its connections, most often none (`Event.moves`),
and may hand something to the socket of one (`Event.feed`). So a run of a transport is a run of each
of its connections (`Run.connection`), in a medium that allows for what is handed over. Whatever
holds of the runs of a connection holds of the connections of a transport.
-/

namespace Duplex

/-- The connection with its socket changed, if it still has it. -/
def Connection.onSocket {S : Socket} (c : Connection S) (f : S.State → S.State) : Connection S :=
  if c.socketHeld then { c with socket := f c.socket } else c

theorem Connection.onSocket_id {S : Socket} (c : Connection S) {f : S.State → S.State}
    (hf : ∀ s, f s = s) : c.onSocket f = c := by
  simp only [Connection.onSocket, hf]
  split <;> rfl

/-- What a start does after its answer is its next step. -/
theorem Connection.StarterStep.perform {S : Socket} {c c' : Connection S}
    (st : Connection.StarterStep c c') : c.stepStarter = some c' := by
  cases st <;> simp only [Connection.stepStarter, *]

/-- What has arrived, as long as the accept loop has not found or made its connection. -/
def Acceptor.arrival? {C : Carrier} : Acceptor C → Option (Arrival C)
  | .routing a | .claiming a => some a
  | _ => none

namespace Transport

variable {C : Carrier} {t t' : Transport C} {m : Move C} {h : List (Event C)} {i : Nat}
  {r : Route C}

/-! ## What a move is to a connection -/

/-- The move of a connection that an answer is. -/
def Answer.move : Answer → Connection.Move
  | accept => .accept
  | refuse reason => .refuse reason
  | panic _ => .panic

/-- The moves of the connection `i` that a move is. -/
def Event.moves (i : Nat) (e : Event C) : List Connection.Move :=
  match e.move with
  | .task .acceptor =>
    match e.before.acceptor with
    | .starting j _ => if j = i then [.start] else []
    | .concluding j _ =>
      if j = i ∧ (e.before.routes[i]?.bind (·.connection.stepStarter)).isSome then
        [.task e.before.pool .starter]
      else []
    | _ => []
  | .task .unbinder =>
    match e.before.unbinder with
    | .aborting (j :: _) _ => if j = i then [.shutdown, .cancelOutput] else []
    | _ => []
  | .task (.connection j task) => if j = i then [.task e.before.pool task] else []
  | .answer answer =>
    match e.before.acceptor with
    | .dispatching j _ => if j = i then [answer.move] else []
    | _ => []
  | .connection j move => if j = i then [move] else []
  | _ => []

/-- What a move makes of the socket of the connection `i`, if the connection still has it. -/
def Event.feed (i : Nat) (e : Event C) (s : C.socket.State) : C.socket.State :=
  match e.move with
  | .task .acceptor =>
    match e.before.acceptor with
    | .offering j (some datagram) => if j = i then C.offer datagram s else s
    | .withdrawing j _ => if j = i then C.endFeed s else s
    | _ => s
  | .task (.removal j) => if j = i then C.endFeed s else s
  | _ => s

/-- The connection `i` after a move, which it was before it. -/
def Event.Leads (i : Nat) (e : Event C) (r r' : Route C) : Prop :=
  ∃ c, r.connection.performAll (e.moves i) = some c ∧ r'.connection = c.onSocket (e.feed i)

/-- The moves of the connection `i` in a history. -/
def onRoute (i : Nat) (h : List (Event C)) : List (Connection.Event C.socket) :=
  h.flatMap fun e => e.before.routes[i]?.elim [] fun r => r.connection.trace (e.moves i)

theorem onRoute_snoc (i : Nat) (h : List (Event C)) (e : Event C) :
    onRoute i (h ++ [e]) = onRoute i h ++
      e.before.routes[i]?.elim [] fun r => r.connection.trace (e.moves i) := by
  simp [onRoute]

/-- A move that is none of the connection. -/
theorem Event.leads_still {e : Event C} {r' : Route C} (hm : e.moves i = [])
    (hf : ∀ s, e.feed i s = s) (hr : r'.connection = r.connection) : e.Leads i r r' :=
  ⟨r.connection, by rw [hm]; rfl, by rw [hr, Connection.onSocket_id _ hf]⟩

/-- A move that changes one connection leaves the others where they are. -/
theorem Event.leads_modify {e : Event C} {routes : List (Route C)} {j : Nat}
    {f : Route C → Route C} (hr : routes[i]? = some r) (hi : j = i → e.Leads i r (f r))
    (hn : j ≠ i → e.moves i = [] ∧ ∀ s, e.feed i s = s) :
    ∃ r', (routes.modify j f)[i]? = some r' ∧ e.Leads i r r' := by
  by_cases hj : j = i
  · subst hj
    exact ⟨f r, by rw [List.getElem?_modify_eq, hr]; rfl, hi rfl⟩
  · obtain ⟨hm, hf⟩ := hn hj
    exact ⟨r, by rw [List.getElem?_modify_ne _ _ hj, hr], leads_still hm hf rfl⟩

/-- A move that leaves every connection where it is. -/
theorem Event.leads_same {e : Event C} {routes : List (Route C)} (hr : routes[i]? = some r)
    (hm : e.moves i = []) (hf : ∀ s, e.feed i s = s) :
    ∃ r', routes[i]? = some r' ∧ e.Leads i r r' :=
  ⟨r, hr, leads_still hm hf rfl⟩

/-- The connection that the accept loop is about to start has not been started. -/
theorem InOrder.unstarted (ho : InOrder h t) {payload : Option Bytes}
    (ha : t.acceptor = .starting i payload) (hr : t.routes[i]? = some r) :
    r.connection.starter = .waiting := by
  have he := ((ho.route i r hr).hand (by rw [ha]; rfl)).1
  rwa [ha] at he

theorem leads_acceptor (ho : InOrder h t) (st : AcceptorStep t t') (hr : t.routes[i]? = some r) :
    ∃ r', t'.routes[i]? = some r' ∧ Event.Leads i ⟨t, .task .acceptor⟩ r r' := by
  cases st with
  | tooLong ha | opened ha | finish ha | known ha | unknown ha | taken ha | offerNothing ha =>
    exact Event.leads_same hr (by simp only [Event.moves, ha]) fun _ => by
      simp only [Event.feed, ha]
  | startAgain ha hr' hs => exact absurd (ho.unstarted ha hr') hs
  | claim ha =>
    have hlt : i < t.routes.length := (List.getElem?_eq_some_iff.mp hr).1
    refine ⟨r, (List.getElem?_append_left hlt).trans hr, Event.leads_still ?_ (fun _ => ?_) rfl⟩
    · simp only [Event.moves, ha]
    · simp only [Event.feed, ha]
  | refused ha hr' hs =>
    refine Event.leads_same hr ?_ fun _ => by simp only [Event.feed, ha]
    simp only [Event.moves, ha]
    rw [if_neg]
    rintro ⟨rfl, hc⟩
    rw [hr', Option.bind_some, Connection.stepStarter, hs] at hc
    cases hc
  | accepted ha hr' hn =>
    refine Event.leads_modify hr (fun e => ?_) fun e => ?_
    · subst e
      refine Event.leads_still ?_ (fun _ => by simp only [Event.feed, ha]) rfl
      simp only [Event.moves, ha]
      rw [if_neg]
      rintro ⟨-, hc⟩
      rw [hr', Option.bind_some, hn] at hc
      cases hc
    · simp only [Event.moves, Event.feed, ha, e, false_and, if_false]
      exact ⟨trivial, fun _ => trivial⟩
  | start ha hr' hs =>
    refine Event.leads_modify hr (fun e => ?_) fun e => ?_
    · subst e
      obtain rfl := Option.some.inj (hr.symm.trans hr')
      refine ⟨{ r.connection with starter := .dispatching }, ?_, ?_⟩
      · simp only [Event.moves, ha, if_true, Connection.performAll, List.foldlM_cons,
          Connection.Move.perform, Connection.beginStart, hs]
        rfl
      · exact (Connection.onSocket_id _ fun _ => by simp only [Event.feed, ha]).symm
    · simp only [Event.moves, Event.feed, ha, e, if_false]
      exact ⟨trivial, fun _ => trivial⟩
  | conclude ha hr' hc =>
    refine Event.leads_modify hr (fun e => ?_) fun e => ?_
    · subst e
      obtain rfl := Option.some.inj (hr.symm.trans hr')
      refine ⟨_, ?_, (Connection.onSocket_id _ fun _ => by simp only [Event.feed, ha]).symm⟩
      have hp := hc.perform
      simp only [Event.moves, ha, hr, Option.bind_some, hp, Option.isSome_some, and_self, if_true,
        Connection.performAll, List.foldlM_cons, Connection.Move.perform, Connection.step]
      rfl
    · simp only [Event.moves, Event.feed, ha, e, false_and, if_false]
      exact ⟨trivial, fun _ => trivial⟩
  | withdraw ha hr' =>
    refine Event.leads_modify hr (fun e => ?_) fun e => ?_
    · subst e
      refine ⟨r.connection, by simp only [Event.moves, ha]; rfl, ?_⟩
      simp only [Connection.onSocket, Event.feed, ha, if_true]
    · simp only [Event.moves, Event.feed, ha, e, if_false]
      exact ⟨trivial, fun _ => trivial⟩
  | offer ha =>
    refine Event.leads_modify hr (fun e => ?_) fun e => ?_
    · subst e
      refine ⟨r.connection, by simp only [Event.moves, ha]; rfl, ?_⟩
      simp only [Connection.onSocket, Event.feed, ha, if_true]
    · simp only [Event.moves, Event.feed, ha, e, if_false]
      exact ⟨trivial, fun _ => trivial⟩

/-- The dispatcher answers about the connection that it was asked about. -/
theorem leads_answer (ho : InOrder h t) (answer : Answer) {j : Nat} {payload : Option Bytes}
    (ha : t.acceptor = .dispatching j payload) {f : Connection C.socket → Connection C.socket}
    (hf : ∀ c : Connection C.socket, c.starter = .dispatching →
      answer.move.perform c = some (f c)) (hr : t.routes[i]? = some r) :
    ∃ r', (t.onConnection j f).routes[i]? = some r' ∧ Event.Leads i ⟨t, .answer answer⟩ r r' := by
  refine Event.leads_modify hr (fun e => ?_) fun e => ?_
  · subst e
    have hd := ((ho.route _ _ hr).hand (by rw [ha]; rfl)).1
    rw [ha] at hd
    refine ⟨f r.connection, ?_, (Connection.onSocket_id _ fun _ => rfl).symm⟩
    simp only [Event.moves, ha, if_true, Connection.performAll, List.foldlM_cons, hf _ hd]
    rfl
  · simp only [Event.moves, ha, e, if_false]
    exact ⟨trivial, fun _ => rfl⟩

theorem leads_step (ho : InOrder h t) (st : Step t m t') (hr : t.routes[i]? = some r)
    (hc : ∀ j task, m ≠ .task (.connection j task)) (ho' : ∀ j move, m ≠ .connection j move) :
    ∃ r', t'.routes[i]? = some r' ∧ Event.Leads i ⟨t, m⟩ r r' := by
  cases st with
  | acceptor st => exact leads_acceptor ho st hr
  | supervisor st => cases st <;> exact Event.leads_same hr rfl fun _ => rfl
  | unbinder st =>
    cases st with
    | abort hu =>
      refine Event.leads_modify hr (fun e => ?_) fun e => ?_
      · subst e
        refine ⟨r.connection.abort, ?_, (Connection.onSocket_id _ fun _ => rfl).symm⟩
        simp only [Event.moves, hu, if_true]
        rfl
      · simp only [Event.moves, hu, e, if_false]
        exact ⟨trivial, fun _ => rfl⟩
    | _ => exact Event.leads_same hr (by simp only [Event.moves, *]) fun _ => rfl
  | removal st =>
    cases st with
    | remove =>
      dsimp only [onSocket, onConnection]
      rw [List.modify_modify_eq]
      refine Event.leads_modify hr (fun e => ?_) fun e => ?_
      · subst e
        refine ⟨r.connection, rfl, ?_⟩
        simp only [Connection.onSocket, Event.feed, if_true]
        rfl
      · simp only [Event.feed, e, if_false]
        exact ⟨rfl, fun _ => trivial⟩
  | connection => exact absurd rfl (hc _ _)
  | outside => exact absurd rfl (ho' _ _)
  | accept ha =>
    exact leads_answer ho .accept ha (fun c hd => if_pos hd) hr
  | @refuse _ _ reason ha =>
    exact leads_answer ho (.refuse reason) ha (fun c hd => if_pos hd) hr
  | @panic _ _ message ha =>
    exact leads_answer ho (.panic message) ha (fun c hd => if_pos hd) hr
  | _ => exact Event.leads_same hr rfl fun _ => rfl

/-- A move of the connection `j` is one of the connection `i` if that is the same. -/
theorem leads_connection {j : Nat} {move : Connection.Move} (hr : t.routes[i]? = some r)
    (hm : t.moveConnection j move = some t') {e : Event C}
    (he : e.moves i = if j = i then [move] else []) (hf : ∀ s, e.feed i s = s) :
    ∃ r', t'.routes[i]? = some r' ∧ e.Leads i r r' := by
  simp only [moveConnection] at hm
  cases hj : t.routes[j]? with
  | none => rw [hj] at hm; cases hm
  | some r₀ =>
    rw [hj] at hm
    obtain ⟨c, hc, rfl⟩ := Option.map_eq_some_iff.mp hm
    refine Event.leads_modify hr (fun h => ?_) fun h => ⟨by rw [he, if_neg h], hf⟩
    subst h
    obtain rfl := Option.some.inj (hr.symm.trans hj)
    refine ⟨c, ?_, (Connection.onSocket_id _ hf).symm⟩
    rw [he, if_pos rfl, Connection.performAll, List.foldlM_cons, hc]
    rfl

/-- What a move makes of a connection that there is. -/
theorem leads_perform (ho : InOrder h t) (hm : m.perform t = some t') (hr : t.routes[i]? = some r) :
    ∃ r', t'.routes[i]? = some r' ∧ Event.Leads i ⟨t, m⟩ r r' := by
  have st := step_of_perform ho.hand hm
  cases m with
  | task k =>
    cases k with
    | connection j task =>
      have hm : t.moveConnection j (.task t.pool task) = some t' := by
        simp only [Move.perform, step, stepConnection] at hm
        split at hm
        · cases hm
        · exact hm
      exact leads_connection hr hm rfl fun _ => rfl
    | _ => exact leads_step ho st hr (by simp) (by simp)
  | connection j move =>
    have hm : t.moveConnection j move = some t' := by
      simp only [Move.perform] at hm
      split at hm
      · exact hm
      · cases hm
    exact leads_connection hr hm rfl fun _ => rfl
  | _ => exact leads_step ho st hr (by simp) (by simp)

/-! ## New connections -/

/-- Connections come into being in one place only, and only there a queue is drawn. -/
theorem Step.routes_cases (st : Step t m t') :
    t'.routes.length = t.routes.length ∧ t'.queues = t.queues ∨
      ∃ a, t.acceptor = .claiming a ∧ t.table.get? a.key = none ∧ m = .task .acceptor ∧
        t'.routes = t.routes ++ [t.newRoute a t.queues.assign.1] ∧
        t'.queues = t.queues.assign.2 := by
  cases st with
  | acceptor st =>
    cases st with
    | claim ha hg => exact .inr ⟨_, ha, hg, rfl, rfl, rfl⟩
    | start | conclude | withdraw | offer => exact .inl ⟨List.length_modify .., rfl⟩
    | accepted => exact .inl ⟨List.length_modify .., rfl⟩
    | _ => exact .inl ⟨rfl, rfl⟩
  | supervisor st => cases st <;> exact .inl ⟨rfl, rfl⟩
  | unbinder st =>
    cases st with
    | abort => exact .inl ⟨List.length_modify .., rfl⟩
    | _ => exact .inl ⟨rfl, rfl⟩
  | removal st =>
    cases st
    exact .inl ⟨(List.length_modify ..).trans (List.length_modify ..), rfl⟩
  | connection | outside | accept | refuse | panic => exact .inl ⟨List.length_modify .., rfl⟩
  | _ => exact .inl ⟨rfl, rfl⟩

/-- A connection that was not there has been made for what has arrived. -/
theorem Step.born (st : Step t m t') (hr : t.routes[i]? = none) (hr' : t'.routes[i]? = some r) :
    ∃ a, t.acceptor = .claiming a ∧ r = t.newRoute a t.queues.assign.1 := by
  have hi := List.getElem?_eq_none_iff.mp hr
  have hi' := (List.getElem?_eq_some_iff.mp hr').1
  rcases st.routes_cases with ⟨hl, -⟩ | ⟨a, ha, -, -, hrs, -⟩
  · exact absurd hi' (by omega)
  · rw [hrs, List.length_append, List.length_singleton] at hi'
    rw [hrs, List.getElem?_append_right hi, show i - t.routes.length = 0 by omega] at hr'
    exact ⟨a, ha, (Option.some.inj hr').symm⟩

/-- Connections do not go away. -/
theorem Step.unborn (st : Step t m t') (hr' : t'.routes[i]? = none) : t.routes[i]? = none := by
  have hi := List.getElem?_eq_none_iff.mp hr'
  refine List.getElem?_eq_none_iff.mpr ?_
  rcases st.routes_cases with ⟨hl, -⟩ | ⟨a, -, -, -, hrs, -⟩
  · omega
  · rw [hrs, List.length_append] at hi; omega

/-- What the accept loop is about to make a connection for has arrived. -/
theorem Step.arrival_cases (st : Step t m t') {a : Arrival C} (ha : t'.acceptor.arrival? = some a) :
    t.acceptor.arrival? = some a ∨ m = .arrive a := by
  cases st with
  | acceptor st =>
    cases st with
    | unknown h => rw [h]; exact .inl ha
    | conclude h =>
      rw [show (t.onConnection _ _).acceptor = _ from h] at ha
      cases ha
    | _ => cases ha
  | supervisor st => cases st <;> exact .inl ha
  | unbinder st => cases st <;> exact .inl ha
  | removal st => cases st; exact .inl ha
  | arrive => exact .inr (congrArg Move.arrive (Option.some.inj ha))
  | listenEnd | accept | refuse | panic | bind => cases ha
  | _ => exact .inl ha

/-! ## Runs -/

/-- A connection after one of them was changed is that one, changed, or is as it was. -/
theorem onConnection_cases {j : Nat} {f : Connection C.socket → Connection C.socket}
    (hr : (t.onConnection j f).routes[i]? = some r) :
    ∃ r₀, t.routes[i]? = some r₀ ∧
      (j = i ∧ r = { r₀ with connection := f r₀.connection } ∨ r = r₀) := by
  rw [onConnection, List.getElem?_modify] at hr
  obtain ⟨r₀, hi, rfl⟩ := Option.map_eq_some_iff.mp hr
  refine ⟨r₀, hi, ?_⟩
  by_cases hj : j = i
  · exact .inl ⟨hj, if_pos hj⟩
  · exact .inr (if_neg hj)

theorem onConnection_none {j : Nat} {f : Connection C.socket → Connection C.socket}
    (hr : (t.onConnection j f).routes[i]? = none) : t.routes[i]? = none := by
  rw [onConnection, List.getElem?_eq_none_iff, List.length_modify] at hr
  exact List.getElem?_eq_none_iff.mpr hr

/-- What a transport over sockets in the medium `M` does to a socket, the medium `M'` does too. -/
structure Allows (M M' : Socket.Medium C.socket) : Prop where
  initial : ∀ s, M.Initial s → M'.Initial s
  change : ∀ s s', M.Change s s' → M'.Change s s'
  offer : ∀ datagram s, M'.Change s (C.offer datagram s)
  endFeed : ∀ s, M'.Change s (C.endFeed s)

/-- How the connections of a transport have come to where they are. -/
structure Conducted (M : Socket.Medium C.socket) (h : List (Event C)) (t : Transport C) : Prop where
  route : ∀ i r, t.routes[i]? = some r → Connection.Run M (onRoute i h) r.connection
  unborn : ∀ i, t.routes[i]? = none → onRoute i h = []
  arrival : ∀ a, t.acceptor.arrival? = some a → M.Initial a.socket

theorem feed_cases (i : Nat) (e : Event C) :
    (∀ s, e.feed i s = s) ∨
      (∃ datagram, (e.move = .task .acceptor ∧ e.before.acceptor = .offering i (some datagram)) ∧
        ∀ s, e.feed i s = C.offer datagram s) ∨
      ∀ s, e.feed i s = C.endFeed s := by
  obtain ⟨t, m⟩ := e
  cases m with
  | task k =>
    cases k with
    | acceptor =>
      cases ha : t.acceptor with
      | offering j payload =>
        cases payload with
        | none => exact .inl fun _ => by simp only [Event.feed, ha]
        | some datagram =>
          by_cases hj : j = i
          · subst hj
            refine .inr (.inl ⟨datagram, ⟨rfl, rfl⟩, fun _ => ?_⟩)
            simp only [Event.feed, ha, if_true]
          · exact .inl fun _ => by simp only [Event.feed, ha, hj, if_false]
      | withdrawing j error =>
        by_cases hj : j = i
        · exact .inr (.inr fun _ => by simp only [Event.feed, ha, hj, if_true])
        · exact .inl fun _ => by simp only [Event.feed, ha, hj, if_false]
      | _ => exact .inl fun _ => by simp only [Event.feed, ha]
    | removal j =>
      by_cases hj : j = i
      · exact .inr (.inr fun _ => by simp only [Event.feed, hj, if_true])
      · exact .inl fun _ => by simp only [Event.feed, hj, if_false]
    | _ => exact .inl fun _ => rfl
  | _ => exact .inl fun _ => rfl

/-- What a transport hands to a socket is a change of its medium. -/
theorem Allows.onSocket {M M' : Socket.Medium C.socket} (hM : Allows M M')
    {g : List (Connection.Event C.socket)} {c : Connection C.socket} (run : Connection.Run M' g c)
    (i : Nat) (e : Event C) : Connection.Run M' g (c.onSocket (e.feed i)) := by
  rcases feed_cases i e with hf | ⟨datagram, -, hf⟩ | hf
  · rw [Connection.onSocket_id c hf]; exact run
  · simp only [Connection.onSocket, hf]
    split
    · exact run.change (hM.offer datagram _)
    · exact run
  · simp only [Connection.onSocket, hf]
    split
    · exact run.change (hM.endFeed _)
    · exact run

variable {M M' : Socket.Medium C.socket}

theorem Conducted.perform (hM : Allows M M') (hc : Conducted M' h t) (ho : InOrder h t)
    (hm : m.perform t = some t') (ha : ∀ arrival, m = .arrive arrival → M.Initial arrival.socket) :
    Conducted M' (h ++ [⟨t, m⟩]) t' := by
  have st := step_of_perform ho.hand hm
  constructor
  · intro i r' hr'
    rw [onRoute_snoc]
    cases hr : t.routes[i]? with
    | some r =>
      obtain ⟨r₁, hr₁, c, hp, he⟩ := leads_perform ho hm hr
      obtain rfl := Option.some.inj (hr'.symm.trans hr₁)
      rw [he]
      exact hM.onSocket ((hc.route i r hr).moves hp) i ⟨t, m⟩
    | none =>
      obtain ⟨a, hcl, rfl⟩ := st.born hr hr'
      rw [hc.unborn i hr]
      exact .create _ _ _ _ _ _ _ (hc.arrival a (by rw [hcl]; rfl))
  · intro i hr'
    have hr := st.unborn hr'
    rw [onRoute_snoc, hc.unborn i hr, hr]
    rfl
  · intro a ha'
    rcases st.arrival_cases ha' with h | h
    · exact hc.arrival a h
    · exact hM.initial _ (ha a h)

/-- **A run of a transport is a run of each of its connections**, in a medium that allows for what
the transport hands to their sockets. -/
theorem Run.conducted (hM : Allows M M') (run : Run M h t) : Conducted M' h t := by
  induction run with
  | create =>
    exact ⟨fun i r hr => (by cases hr), fun _ _ => rfl, fun a ha => (by cases ha)⟩
  | move run m hm ha ih => exact ih.perform hM run.inOrder.1 hm ha
  | @change h t j r₀ socket run hr₀ hs ih =>
    refine ⟨fun i r hr => ?_, fun i hr => ih.unborn i (onConnection_none hr), ih.arrival⟩
    obtain ⟨r, hi, ⟨rfl, rfl⟩ | rfl⟩ := onConnection_cases hr
    · obtain rfl := Option.some.inj (hi.symm.trans hr₀)
      exact (ih.route _ _ hi).change (hM.change _ _ hs)
    · exact ih.route _ _ hi

theorem Run.connection (hM : Allows M M') (run : Run M h t) (hr : t.routes[i]? = some r) :
    Connection.Run M' (onRoute i h) r.connection :=
  (run.conducted hM).route i r hr

end Transport

end Duplex
