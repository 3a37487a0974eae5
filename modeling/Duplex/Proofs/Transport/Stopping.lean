import Duplex.Proofs.BufferPool
import Duplex.Proofs.Connection.Aborting
import Duplex.Proofs.Transport.Reports

/-!
# Stopping

A stop takes the listener out, waits for the accept loop and its supervisor, lists the connections
in the routing table, aborts them one after the other and disposes of the buffer pool. When it comes
to the list no accept loop runs (`Listening.silent`), so from then on no connection is made and the
table only shrinks (`Step.silent`). Whatever is in the table is on the list or has been aborted
(`Covered`), which every step of the stop and every move of others keeps up (`Stops.pursued`, by
induction on the way of the stop), and so does every move after the stop that is not a bind
(`Run.stayed`). An abort that has been made has reached its connection for good.

From the list on a stop does not hold the lock. Another call that begins then takes its place in the
transport, and the stop goes on beside it (`Stops.beside`): what it still does to the transport is
what it would have done in its place (`sweep_eq`).
-/

namespace Duplex

/-- Connections of the same kind over sockets that count. -/
def Carrier.counted (C : Carrier) : Carrier where
  socket := C.socket.counted
  offer bytes s := { s with state := C.offer bytes s.state }
  endFeed s := { s with state := C.endFeed s.state }
  receiveBuffer := C.receiveBuffer

namespace Transport

variable {C : Carrier} {t t' u v : Transport C} {m : Move C} {g g' h : List (Event C)}
  {M : Socket.Medium C.socket} {i : Nat} {routes : List Nat} {failure : Option TransportError}

/-! ## Where no accept loop runs -/

theorem isListening_eq_false_iff :
    t.isListening = false ↔ t.acceptor = .unborn ∨ ∃ failure, t.acceptor = .ended failure := by
  rw [isListening]
  cases t.acceptor <;> simp

/-- Where nobody listens and nobody unbinds, no accept loop runs. -/
theorem Listening.silent (hl : Listening t) (hf : t.unbinder.holdsLock = false)
    (hi : t.installed = false) : t.isListening = false :=
  isListening_eq_false_iff.mpr (hl.quiet hf hi)

theorem AcceptorStep.isListening (st : AcceptorStep t t') : t.isListening = true := by
  cases st <;> simp only [Transport.isListening, *]

/-- What a move makes of a transport whose accept loop does not run, unless it binds. -/
structure Silent (t t' : Transport C) : Prop where
  acceptor : t'.acceptor = t.acceptor
  routes : t'.routes.length = t.routes.length
  table : ∀ k i, t'.table.identity? k = some i → t.table.identity? k = some i

theorem Step.silent (st : Step t m t') (hs : t.isListening = false)
    (hb : ∀ network, m ≠ .bind network) : Silent t t' := by
  cases st with
  | acceptor st => rw [st.isListening] at hs; cases hs
  | supervisor st => cases st <;> exact ⟨rfl, rfl, fun _ _ h => h⟩
  | unbinder st =>
    cases st with
    | abort => exact ⟨rfl, List.length_modify .., fun _ _ h => h⟩
    | _ => exact ⟨rfl, rfl, fun _ _ h => h⟩
  | removal st =>
    cases st with
    | remove =>
      refine ⟨rfl, (List.length_modify ..).trans (List.length_modify ..), fun k i h => ?_⟩
      rw [RoutingTable.identity?_removeIfSame] at h
      split at h
      · cases h
      · exact h
  | connection | outside => exact ⟨rfl, List.length_modify .., fun _ _ h => h⟩
  | arrive ha | listenEnd ha | accept ha | refuse ha | panic ha =>
    simp only [Transport.isListening, ha] at hs
    cases hs
  | bind => exact absurd rfl (hb _)
  | listenOn | unbind | unbindNothing | setEndpoint | disposePool =>
    exact ⟨rfl, rfl, fun _ _ h => h⟩

/-- Only a bind installs a listener. -/
theorem Step.uninstalled (st : Step t m t') (hi : t.installed = false)
    (hb : ∀ network, m ≠ .bind network) : t'.installed = false := by
  cases st with
  | acceptor st => cases st <;> exact hi
  | supervisor st => cases st <;> exact hi
  | unbinder st => cases st <;> exact hi
  | removal st => cases st; exact hi
  | bind => exact absurd rfl (hb _)
  | unbind => rfl
  | _ => exact hi

/-- A pool that is disposed of stays so. -/
theorem Step.disposed (st : Step t m t') (hd : t.pool.disposed = true) :
    t'.pool.disposed = true := by
  cases st with
  | acceptor st => cases st <;> exact hd
  | supervisor st => cases st <;> exact hd
  | unbinder st =>
    cases st with
    | dispose => exact t.pool.disposed_dispose
    | _ => exact hd
  | removal st => cases st; exact hd
  | disposePool => exact t.pool.disposed_dispose
  | _ => exact hd

/-- Between two calls only the call that unbinds moves itself. -/
theorem Step.unbinder_eq (st : Step t m t') (hu : m ≠ .task .unbinder) (hc : m.isCall = false) :
    t'.unbinder = t.unbinder := by
  cases st with
  | acceptor st => cases st <;> rfl
  | supervisor st => cases st <;> rfl
  | unbinder => exact absurd rfl hu
  | removal st => cases st; rfl
  | bind | unbind | unbindNothing => cases hc
  | _ => rfl

/-- Nobody takes the lock once it is released. -/
theorem UnbinderStep.lockFree (st : UnbinderStep t t') (hf : t.unbinder.holdsLock = false) :
    t'.unbinder.holdsLock = false := by
  cases st with
  | mark hu | signal hu | join hu | unmark hu | collect hu => rw [hu] at hf; cases hf
  | list | abort | aborted | dispose => rfl

/-- Where nobody listens, a call that does not bind finds the lock free and leaves it so. -/
theorem Step.called (st : Step t m t') (hi : t.installed = false) (hc : m.isCall = true)
    (hb : ∀ network, m ≠ .bind network) :
    t.unbinder.holdsLock = false ∧ t'.unbinder.holdsLock = false ∧ t'.unbinder.taken = none := by
  cases st with
  | bind => exact absurd rfl (hb _)
  | unbind _ hi' => rw [hi] at hi'; cases hi'
  | @unbindNothing stopping hf => cases stopping <;> exact ⟨hf, rfl, rfl⟩
  | _ => cases hc

/-- Where nobody listens, no move that does not bind takes the lock, or a failure. -/
theorem Step.unlocked (st : Step t m t') (hi : t.installed = false)
    (hf : t.unbinder.holdsLock = false) (hn : t.unbinder.taken = none)
    (hb : ∀ network, m ≠ .bind network) :
    t'.unbinder.holdsLock = false ∧ t'.unbinder.taken = none := by
  by_cases hu : m = .task .unbinder
  · subst hu
    cases st with
    | unbinder st =>
      cases st with
      | mark hu | signal hu | join hu | unmark hu | collect hu => rw [hu] at hf; cases hf
      | list hu | abort hu | aborted hu => rw [hu] at hn; exact ⟨rfl, hn⟩
      | dispose => exact ⟨rfl, rfl⟩
  · cases hc : m.isCall with
    | false => rw [st.unbinder_eq hu hc]; exact ⟨hf, hn⟩
    | true => exact (st.called hi hc hb).2

/-! ## Aborts -/

/-- The connection `i` has been shut down, and its read canceled. -/
def Aborted (i : Nat) (g : List (Event C)) : Prop :=
  (∃ x ∈ onRoute i g, x.move = .shutdown) ∧ ∃ x ∈ onRoute i g, x.move = .cancelOutput

theorem Aborted.mono (ha : Aborted i g) (hg : ∀ e ∈ g, e ∈ h) : Aborted i h := by
  have hx : ∀ x ∈ onRoute i g, x ∈ onRoute i h := by
    intro x hx
    obtain ⟨e, he, hx⟩ := List.mem_flatMap.mp hx
    exact List.mem_flatMap.mpr ⟨e, hg e he, hx⟩
  obtain ⟨⟨x, hs, hm⟩, y, hc, hm'⟩ := ha
  exact ⟨⟨x, hx x hs, hm⟩, y, hx y hc, hm'⟩

/-- Every connection in the table is one of `routes`, or has been aborted. -/
def Covered (g : List (Event C)) (routes : List Nat) (t : Transport C) : Prop :=
  ∀ k i, t.table.identity? k = some i → i ∈ routes ∨ Aborted i g

/-- Connections that leave the table need no abort. -/
theorem Covered.mono (hc : Covered g routes t)
    (ht : ∀ k i, t'.table.identity? k = some i → t.table.identity? k = some i)
    (g' : List (Event C)) : Covered (g ++ g') routes t' := by
  intro k i hk
  exact (hc k i (ht k i hk)).imp_right fun ha => ha.mono fun _ => List.mem_append_left _

theorem covered_snapshot (g : List (Event C)) (t : Transport C) :
    Covered g (t.table.snapshot.map (·.identity)) t := by
  intro k i hk
  obtain ⟨entry, hg, rfl⟩ := Option.map_eq_some_iff.mp hk
  obtain ⟨p, hf, rfl⟩ := Option.map_eq_some_iff.mp hg
  exact .inl (List.mem_map_of_mem (List.mem_map_of_mem (List.mem_of_find?_eq_some hf)))

/-- The next connection of the list is aborted. -/
theorem Covered.abort {j : Nat} (hc : Covered g (j :: routes) t) (ho : InOrder h t)
    (ht : t'.table = t.table) (ha : ∀ r, t.routes[j]? = some r → Aborted j g') :
    Covered (g ++ g') routes t' := by
  intro k i hk
  rw [ht] at hk
  rcases hc k i hk with hm | ha'
  · rcases List.mem_cons.mp hm with rfl | hm
    · obtain ⟨r, hr, -⟩ := ho.entry k i hk
      exact .inr ((ha r hr).mono fun _ => List.mem_append_right _)
    · exact .inl hm
  · exact .inr (ha'.mono fun _ => List.mem_append_left _)

theorem exists_onRoute {e : Event C} {r : Route C} {move : Connection.Move}
    {moves : List Connection.Move} (hr : e.before.routes[i]? = some r)
    (hv : e.moves i = move :: moves) (he : e ∈ g) : ∃ x ∈ onRoute i g, x.move = move := by
  refine ⟨⟨r.connection, move⟩, List.mem_flatMap.mpr ⟨e, he, ?_⟩, rfl⟩
  rw [hr, hv]
  exact List.mem_cons_self

theorem moves_connection (t : Transport C) (i : Nat) (move : Connection.Move) :
    Event.moves i ⟨t, .connection i move⟩ = [move] := by
  simp only [Event.moves, if_true]

/-- A stop in its place aborts a connection in one step. -/
theorem aborted_task {r : Route C} (hu : t.unbinder = .aborting (i :: routes) failure)
    (hr : t.routes[i]? = some r) : Aborted i [⟨t, .task .unbinder⟩] := by
  have hv : Event.moves i ⟨t, .task .unbinder⟩ = [.shutdown, .cancelOutput] := by
    simp only [Event.moves, hu, if_true]
  have hx : onRoute i [⟨t, .task .unbinder⟩] =
      r.connection.trace [.shutdown, .cancelOutput] := by
    rw [onRoute, List.flatMap_singleton, hr, hv]
    rfl
  rw [Aborted, hx]
  exact ⟨⟨_, List.mem_cons_self .., rfl⟩,
    ⟨_, List.mem_cons_of_mem _ (List.mem_cons_self ..), rfl⟩⟩

/-! ## A stop on its way -/

/-- What a stop that stands there does in its next step, as moves of those who hold connections and
the pool. -/
def sweep (C : Carrier) : Unbinder → List (Move C)
  | .aborting (i :: _) _ => [.connection i .shutdown, .connection i .cancelOutput]
  | .disposing _ => [.disposePool]
  | _ => []

/-- `Stops M t own place g u`: a stop that began in `t` stands at `place` in `u`, after the moves
`g`. The transport keeps its place as long as nobody has called since (`own`). If somebody has, the
stop goes on with the moves of its `sweep`. Meanwhile anything happens but a bind. -/
inductive Stops (M : Socket.Medium C.socket) (t : Transport C) :
    Bool → Unbinder → List (Event C) → Transport C → Prop
  | begin : Stops M t true (t.beginUnbind true).unbinder [] (t.beginUnbind true)
  | step {place g u u'} (stop : Stops M t true place g u)
    (hm : Move.perform (.task .unbinder) u = some u') :
    Stops M t true u'.unbinder (g ++ [⟨u, .task .unbinder⟩]) u'
  | beside {place g u v u'} (stop : Stops M t false place g u)
    (hs : stepUnbinder { u with unbinder := place } = some v)
    (hm : u.performAll (sweep C place) = some u') :
    Stops M t false v.unbinder (g ++ u.trace (sweep C place)) u'
  | other {own place g u u'} (stop : Stops M t own place g u) (m : Move C)
    (hm : m.perform u = some u') (hb : ∀ network, m ≠ .bind network)
    (ho : own = true → m ≠ .task .unbinder)
    (ha : ∀ arrival, m = .arrive arrival → M.Initial arrival.socket) :
    Stops M t (own && !m.isCall) place (g ++ [⟨u, m⟩]) u'
  | change {own place g u} {route : Nat} {r : Route C} {socket : C.socket.State}
    (stop : Stops M t own place g u) (hr : u.routes[route]? = some r)
    (hs : M.Change r.connection.socket socket) :
    Stops M t own place g (u.onConnection route fun c => { c with socket })

variable {own : Bool} {place : Unbinder}

theorem Stops.later (stop : Stops M t own place g u) :
    Later M (t.beginUnbind true) g u := by
  induction stop with
  | begin => exact .refl
  | step _ hm ih => exact ih.move _ hm fun _ e => by cases e
  | @beside place _ _ _ _ _ _ hm ih =>
    refine ih.trans (.moves hm fun arrival ha => ?_)
    revert ha
    simp only [sweep]
    split <;> simp
  | other _ m hm _ _ ha ih => exact ih.move m hm ha
  | change _ hr hs ih => exact ih.change hr hs

/-- As long as a stop is in its place, the transport can go on with it alone. -/
theorem Stops.alone {n : Nat} (stop : Stops M t true u.unbinder g u)
    (hm : u.performAll (.replicate n (.task .unbinder)) = some v) :
    Stops M t true v.unbinder (g ++ u.trace (.replicate n (.task .unbinder))) v := by
  induction n generalizing g u with
  | zero =>
    obtain rfl := Option.some_inj.mp hm
    rw [List.replicate_zero, trace, List.append_nil]
    exact stop
  | succ n ih =>
    rw [List.replicate_succ, performAll, List.foldlM_cons] at hm
    obtain ⟨w, hw, hm⟩ := Option.bind_eq_some_iff.mp hm
    have ht : u.trace (.replicate (n + 1) (.task .unbinder)) =
        ⟨u, .task .unbinder⟩ :: w.trace (.replicate n (.task .unbinder)) := by
      rw [List.replicate_succ, trace, hw]
      rfl
    rw [ht, List.append_cons]
    exact ih (stop.step hw) hm

/-! ## Beside the transport -/

/-- A connection that there is may be changed to what the change makes of it. -/
theorem onConnection_eq {r : Route C} (hr : t.routes[i]? = some r)
    (f : Connection C.socket → Connection C.socket) :
    (t.onConnection i fun _ => f r.connection) = t.onConnection i f := by
  rw [onConnection, onConnection]
  congr 1
  refine List.ext_getElem? fun j => ?_
  rw [List.getElem?_modify, List.getElem?_modify]
  by_cases hj : i = j
  · subst hj
    rw [hr]
    simp
  · simp [hj]

theorem perform_outside {r : Route C} {move : Connection.Move}
    {f : Connection C.socket → Connection C.socket} (hr : t.routes[i]? = some r)
    (ho : move.fromOutside = true) (hm : move.perform r.connection = some (f r.connection)) :
    Move.perform (.connection i move) t = some (t.onConnection i f) := by
  simp only [Move.perform, ho, if_true, moveConnection, hr, hm, Option.map_some]
  rw [onConnection_eq hr]

theorem perform_shutdown {r : Route C} (hr : u.routes[i]? = some r) :
    Move.perform (.connection i .shutdown) u = some (u.onConnection i (·.shutdown)) :=
  perform_outside (f := (·.shutdown)) hr rfl rfl

theorem getElem?_onConnection {r : Route C} (hr : u.routes[i]? = some r)
    (f : Connection C.socket → Connection C.socket) :
    (u.onConnection i f).routes[i]? = some { r with connection := f r.connection } := by
  rw [onConnection, List.getElem?_modify_eq, hr]
  rfl

theorem perform_cancelOutput {r : Route C} (hr : u.routes[i]? = some r) :
    Move.perform (.connection i .cancelOutput) (u.onConnection i (·.shutdown)) =
      some (u.onConnection i (·.abort)) := by
  have hr' := getElem?_onConnection hr (·.shutdown)
  rw [perform_outside (f := (·.cancelOutput)) hr' rfl rfl]
  simp only [onConnection, List.modify_modify_eq]
  rfl

/-- Beside the transport a stop does what it would do in its place. -/
theorem sweep_eq (hf : place.holdsLock = false)
    (st : UnbinderStep { u with unbinder := place } v)
    (hm : u.performAll (sweep C place) = some t') : t' = { v with unbinder := u.unbinder } := by
  cases st with
  | mark h | signal h | join h | unmark h | collect h =>
    obtain rfl : place = _ := h
    cases hf
  | list h | aborted h | dispose h =>
    obtain rfl : place = _ := h
    exact (Option.some_inj.mp hm).symm
  | @abort i routes failure h =>
    obtain rfl : place = _ := h
    rw [sweep, performAll, List.foldlM_cons] at hm
    cases hr : u.routes[i]? with
    | none =>
      have hn : Move.perform (.connection i .shutdown) u = none := by
        simp only [Move.perform, moveConnection, hr, ite_self]
      rw [hn] at hm
      cases hm
    | some r =>
      rw [perform_shutdown hr, Option.bind_eq_bind, Option.bind_some, List.foldlM_cons,
        perform_cancelOutput hr] at hm
      exact (Option.some_inj.mp hm).symm

/-- A stop beside the transport aborts a connection in two steps. -/
theorem aborted_sweep {r : Route C} (hr : u.routes[i]? = some r) :
    Aborted i (u.trace (sweep C (.aborting (i :: routes) failure))) := by
  have ht : u.trace (sweep C (.aborting (i :: routes) failure)) =
      [⟨u, .connection i .shutdown⟩,
        ⟨u.onConnection i (·.shutdown), .connection i .cancelOutput⟩] := by
    rw [sweep, trace, perform_shutdown hr, Option.elim_some, trace, perform_cancelOutput hr]
    rfl
  have hr' := getElem?_onConnection hr (·.shutdown)
  rw [ht]
  exact ⟨exists_onRoute hr (moves_connection ..) (List.mem_cons_self ..),
    exists_onRoute hr' (moves_connection ..) (List.mem_cons_of_mem _ (List.mem_cons_self ..))⟩

/-! ## What a stop has done -/

/-- What the place of a stop tells of the connections, after the moves `g`. -/
def Stopping (place : Unbinder) (g : List (Event C)) (t : Transport C) : Prop :=
  match place with
  | .idle => False
  | .marking stopping | .signalling stopping | .joining stopping | .unmarking stopping
  | .collecting stopping => stopping = true
  | .listing _ => True
  | .aborting routes _ => Covered g routes t
  | .disposing _ => Covered g [] t
  | .returned _ => Covered g [] t ∧ t.pool.disposed = true

theorem installed_beginUnbind (t : Transport C) (stopping : Bool) :
    (t.beginUnbind stopping).installed = false := by
  rw [beginUnbind]
  split
  · rfl
  · split <;> exact Bool.eq_false_iff.mpr ‹_›

theorem stopping_beginUnbind (t : Transport C) :
    Stopping (t.beginUnbind true).unbinder [] (t.beginUnbind true) := by
  rw [beginUnbind]
  split
  · exact rfl
  · trivial

/-- A step of the stop in its place. -/
theorem Stopping.step (hs : Stopping t.unbinder g t) (ho : InOrder h t) (st : UnbinderStep t t') :
    Stopping t'.unbinder (g ++ [⟨t, .task .unbinder⟩]) t' := by
  cases st with
  | mark hu | signal hu | join hu | unmark hu => rw [hu] at hs; exact hs
  | collect hu =>
    rw [hu] at hs
    obtain rfl : _ = true := hs
    exact trivial
  | list => exact covered_snapshot _ _
  | abort hu =>
    rw [hu] at hs
    exact Covered.abort hs ho rfl fun r hr => aborted_task hu hr
  | aborted hu =>
    rw [hu] at hs
    exact Covered.mono hs (fun _ _ h => h) _
  | dispose hu =>
    rw [hu] at hs
    exact ⟨Covered.mono hs (fun _ _ h => h) _, t.pool.disposed_dispose⟩

/-- A step of the stop beside the transport. -/
theorem Stopping.beside (hs : Stopping place g u) (ho : InOrder h u)
    (hf : place.holdsLock = false) (st : UnbinderStep { u with unbinder := place } v) :
    Stopping v.unbinder (g ++ u.trace (sweep C place)) { v with unbinder := u.unbinder } := by
  cases st with
  | mark h | signal h | join h | unmark h | collect h =>
    obtain rfl : place = _ := h
    cases hf
  | list h =>
    obtain rfl : place = _ := h
    exact covered_snapshot _ _
  | abort h =>
    obtain rfl : place = _ := h
    exact Covered.abort hs ho rfl fun r hr => aborted_sweep hr
  | aborted h =>
    obtain rfl : place = _ := h
    exact Covered.mono hs (fun _ _ h => h) _
  | dispose h =>
    obtain rfl : place = _ := h
    exact ⟨Covered.mono hs (fun _ _ h => h) _, u.pool.disposed_dispose⟩

/-- Moves of others leave a stop where it is. Once it has a list the table only shrinks. -/
theorem Stopping.other (hs : Stopping place g t)
    (hq : place.holdsLock = false → Silent t t')
    (hd : t.pool.disposed = true → t'.pool.disposed = true) (g' : List (Event C)) :
    Stopping place (g ++ g') t' := by
  cases place with
  | idle => exact hs
  | marking | signalling | joining | unmarking | collecting => exact hs
  | listing => trivial
  | aborting | disposing => exact Covered.mono hs (hq rfl).table _
  | returned => exact ⟨hs.1.mono (hq rfl).table _, hd hs.2⟩

/-- How a stop and the transport stand to each other. -/
structure Pursued (own : Bool) (place : Unbinder) (g : List (Event C)) (t : Transport C) :
    Prop where
  installed : t.installed = false
  kept : own = true → t.unbinder = place
  /-- Only a stop that has let go of the lock has been called after. -/
  free : own = false → place.holdsLock = false
  /-- Whoever has called since holds nothing. -/
  unlocked : own = false → t.unbinder.holdsLock = false ∧ t.unbinder.taken = none
  stopping : Stopping place g t

theorem Pursued.lockFree (hp : Pursued own place g t) (hf : place.holdsLock = false) :
    t.unbinder.holdsLock = false := by
  cases own with
  | true => rw [hp.kept rfl]; exact hf
  | false => exact (hp.unlocked rfl).1

theorem Pursued.other (hp : Pursued own place g t) (hl : Listening t) (st : Step t m t')
    (hb : ∀ network, m ≠ .bind network) (ho : own = true → m ≠ .task .unbinder) :
    Pursued (own && !m.isCall) place (g ++ [⟨t, m⟩]) t' := by
  have silent (hf : place.holdsLock = false) : Silent t t' :=
    st.silent (hl.silent (hp.lockFree hf) hp.installed) hb
  have hs := hp.stopping.other silent st.disposed [⟨t, m⟩]
  have hi := st.uninstalled hp.installed hb
  cases own with
  | false =>
    obtain ⟨hf, hn⟩ := hp.unlocked rfl
    exact ⟨hi, nofun, fun _ => hp.free rfl, fun _ => st.unlocked hp.installed hf hn hb, hs⟩
  | true =>
    have hu := hp.kept rfl
    cases hc : m.isCall with
    | false =>
      exact ⟨hi, fun _ => (st.unbinder_eq (ho rfl) hc).trans hu, nofun, nofun, hs⟩
    | true =>
      obtain ⟨hf, hf', hn⟩ := st.called hp.installed hc hb
      exact ⟨hi, nofun, fun _ => hu ▸ hf, fun _ => ⟨hf', hn⟩, hs⟩

theorem Stops.pursued (run : Run M h (t.beginUnbind true)) (stop : Stops M t own place g u) :
    Pursued own place g u := by
  induction stop with
  | begin =>
    exact ⟨installed_beginUnbind t true, fun _ => rfl, nofun, nofun, stopping_beginUnbind t⟩
  | @step place g u u' stop hm ih =>
    obtain ⟨ho, hl⟩ := (run.later stop.later).inOrder
    have st := step_of_perform ho.hand hm
    obtain rfl := ih.kept rfl
    refine ⟨st.uninstalled ih.installed (fun _ e => by cases e), fun _ => rfl, nofun, nofun, ?_⟩
    cases st with
    | unbinder st => exact ih.stopping.step ho st
  | @beside place g u v u' stop hs hm ih =>
    obtain ⟨ho, hl⟩ := (run.later stop.later).inOrder
    have st := stepUnbinder_cases hs
    obtain rfl := sweep_eq (ih.free rfl) st hm
    exact ⟨(Step.unbinder st).uninstalled ih.installed (fun _ e => by cases e), nofun,
      fun _ => st.lockFree (ih.free rfl), fun _ => ih.unlocked rfl,
      ih.stopping.beside ho (ih.free rfl) st⟩
  | @other own place g u u' stop m hm hb ho ha ih =>
    obtain ⟨hio, hl⟩ := (run.later stop.later).inOrder
    exact ih.other hl (step_of_perform hio.hand hm) hb ho
  | change _ _ _ ih => exact ⟨ih.installed, ih.kept, ih.free, ih.unlocked, ih.stopping⟩

/-! ## Afterwards -/

/-- A stop has returned, and nobody has bound since. -/
structure Stayed (g : List (Event C)) (t : Transport C) : Prop where
  installed : t.installed = false
  unlocked : t.unbinder.holdsLock = false
  untaken : t.unbinder.taken = none
  covered : Covered g [] t
  pool : t.pool.disposed = true

theorem Pursued.stayed (hp : Pursued own (.returned failure) g t) : Stayed g t := by
  refine ⟨hp.installed, hp.lockFree rfl, ?_, hp.stopping.1, hp.stopping.2⟩
  cases own with
  | true => rw [hp.kept rfl]; rfl
  | false => exact (hp.unlocked rfl).2

/-- A call that returns there returns without a failure. -/
theorem returned_eq_none (hm : m.perform t = some t')
    (hk : ∀ route, t.acceptor.inHand = some route → route < t.routes.length)
    (hi : t.installed = false) (hf : t.unbinder.holdsLock = false)
    (hn : t.unbinder.taken = none) {result : Option TransportError}
    (hr : Event.report? ⟨t, m⟩ = some (.returned result)) : result = none := by
  have of_returned {x : Option (Option TransportError)}
      (hx : x.map Report.returned = some (.returned result)) : x = some result := by
    obtain ⟨y, rfl, hy⟩ := Option.map_eq_some_iff.mp hx
    cases hy
    rfl
  cases step_of_perform hk hm with
  | unbinder st =>
    have he := of_returned ((report_of_unbinder hm).symm.trans hr)
    cases st with
    | mark hu | signal hu | join hu | unmark hu | collect hu => rw [hu] at hf; cases hf
    | list | abort | aborted => cases he
    | dispose hu =>
      rw [hu] at hn
      cases he
      exact hn
  | unbind _ hi' => rw [hi] at hi'; cases hi'
  | @unbindNothing stopping =>
    have he := of_returned ((report_of_unbind hm).symm.trans hr)
    cases stopping <;> cases he
    rfl
  | supervisor st =>
    simp only [Event.report?, supervisorReport?] at hr
    split at hr
    · split at hr <;> cases hr
    · cases hr
    · cases hr
  | _ => cases hr

theorem Stayed.step (hs : Stayed g t) (hl : Listening t) (st : Step t m t')
    (hb : ∀ network, m ≠ .bind network) : Stayed (g ++ [⟨t, m⟩]) t' := by
  obtain ⟨hf, hn⟩ := st.unlocked hs.installed hs.unlocked hs.untaken hb
  have hq := st.silent (hl.silent hs.unlocked hs.installed) hb
  exact ⟨st.uninstalled hs.installed hb, hf, hn, hs.covered.mono hq.table _, st.disposed hs.pool⟩

/-- From a stop on no connection is made, and no call returns with a failure. -/
theorem Run.stayed (run : Run M h t) (hs : Stayed g t) (later : Later M t g' u)
    (hb : ∀ e ∈ g', ∀ network, e.move ≠ .bind network) :
    Stayed (g ++ g') u ∧ u.routes.length = t.routes.length ∧
      ∀ result, .returned result ∈ reports g' → result = none := by
  refine run.lasting (P := fun g' u => Stayed (g ++ g') u ∧ u.routes.length = t.routes.length ∧
    ∀ result, .returned result ∈ reports g' → result = none)
    ⟨by rwa [List.append_nil], rfl, fun result hr => by cases hr⟩ ?_ ?_ later hb
  · intro h g' u u' m ho hl hm hb ⟨hs, hr, hn⟩
    have st := step_of_perform ho.hand hm
    have hq := st.silent (hl.silent hs.unlocked hs.installed) hb
    rw [← List.append_assoc]
    refine ⟨hs.step hl st hb, hq.routes.trans hr, fun result hx => ?_⟩
    rw [reports_snoc] at hx
    rcases List.mem_append.mp hx with hx | hx
    · exact hn result hx
    · exact returned_eq_none hm ho.hand hs.installed hs.unlocked hs.untaken
        (Option.mem_toList.mp hx)
  · intro g' u i socket ⟨hs, hr, hn⟩
    exact ⟨⟨hs.installed, hs.unlocked, hs.untaken, hs.covered, hs.pool⟩,
      (List.length_modify ..).trans hr, hn⟩

/-- Where nobody listens, a stop needs nobody else to return. -/
theorem stop_returns (hi : t.installed = false) (hf : t.unbinder.holdsLock = false) :
    ∃ n u, t.performAll (.unbind true :: .replicate n (.task .unbinder)) = some u ∧
      u.unbinder = .returned none := by
  have aborting : ∀ (routes : List Nat) (t : Transport C), t.unbinder = .aborting routes none →
      ∃ n u, t.performAll (.replicate n (.task .unbinder)) = some u ∧
        u.unbinder = .returned none := by
    intro routes
    induction routes with
    | nil =>
      intro t hu
      refine ⟨2, { t with pool := t.pool.dispose, unbinder := .returned none }, ?_, rfl⟩
      simp only [performAll, List.replicate, List.foldlM_cons, List.foldlM_nil, Move.perform, step,
        stepUnbinder, hu, Option.bind_eq_bind, Option.bind_some]
      rfl
    | cons route routes ih =>
      intro t hu
      obtain ⟨n, u, hp, hr⟩ :=
        ih { t.onConnection route (·.abort) with unbinder := .aborting routes none } rfl
      refine ⟨n + 1, u, ?_, hr⟩
      rw [List.replicate_succ, performAll, List.foldlM_cons]
      simp only [Move.perform, step, stepUnbinder, hu, Option.bind_eq_bind, Option.bind_some]
      exact hp
  have hu : Move.perform (.unbind true) t = some { t with unbinder := .listing none } := by
    simp only [Move.perform, hf, beginUnbind, hi, Bool.false_eq_true, if_false, if_true]
  obtain ⟨n, u, hp, hr⟩ := aborting _
    { t with unbinder := .aborting (t.table.snapshot.map (·.identity)) none } rfl
  refine ⟨n + 1, u, ?_, hr⟩
  rw [performAll, List.foldlM_cons, hu, List.replicate_succ]
  exact hp

/-! ## What a stop reaches -/

/-- A connection that is in the table while no accept loop runs has not been refused. -/
theorem InOrder.unrefused (ho : InOrder h t) (hs : t.isListening = false) {k : ConnectionId}
    {r : Route C} (hk : t.table.identity? k = some i) (hr : t.routes[i]? = some r) :
    r.connection.starter.refusal = 0 := by
  have hp := ho.route i r hr
  have hi : t.acceptor.inHand ≠ some i := by
    rcases isListening_eq_false_iff.mp hs with ha | ⟨failure, ha⟩ <;> rw [ha] <;> nofun
  obtain ⟨r', hr', rfl⟩ := ho.entry k i hk
  obtain rfl := Option.some.inj (hr.symm.trans hr')
  rcases hp.cases hi with ⟨he, -⟩ | ⟨⟨reason, he⟩, hu⟩ | ⟨he, -⟩
  · rw [he]; rfl
  · rcases hp.filed.mp hk with hh | he' | hw
    · exact absurd hh hi
    · rw [he] at he'; cases he'
    · rw [hu] at hw; cases hw
  · rw [he]; rfl

/-- Any medium, over sockets that count. -/
def anyMedium (C : Carrier) : Socket.Medium C.counted.socket :=
  Socket.Medium.counted (S := C.socket) ⟨fun _ => True, fun _ _ => True⟩

theorem allows_anyMedium (M : Socket.Medium C.socket) :
    Allows (C := C.counted) M.counted (anyMedium C) where
  initial _ hs := ⟨trivial, hs.2⟩
  change _ _ hs := ⟨trivial, hs.2⟩
  offer _ _ := ⟨trivial, rfl, rfl⟩
  endFeed _ := ⟨trivial, rfl, rfl⟩

/-- What holds when a stop has returned. -/
structure Stopped (t : Transport C.counted) : Prop where
  /-- No accept loop runs, and no listener is installed. -/
  silent : t.isListening = false ∧ t.installed = false
  reached : ∀ k i, t.table.identity? k = some i →
    ∃ r, t.routes[i]? = some r ∧ Connection.Reached r.connection
  pool : t.pool.disposed = true

theorem Stayed.stopped {h g : List (Event C.counted)} {t : Transport C.counted}
    (run : Run (C := C.counted) M.counted h t) (hs : Stayed g t) (hg : ∀ e ∈ g, e ∈ h) :
    Stopped t := by
  obtain ⟨ho, hl⟩ := run.inOrder
  have hq := hl.silent hs.unlocked hs.installed
  refine ⟨⟨hq, hs.installed⟩, fun k i hk => ?_, hs.pool⟩
  obtain ⟨r, hr, -⟩ := ho.entry k i hk
  obtain ⟨hd, hc⟩ := ((hs.covered k i hk).resolve_left List.not_mem_nil).mono hg
  have hrun := run.connection (allows_anyMedium M) hr
  exact ⟨r, hr, hrun.reached (ho.unrefused hq hk hr) hd hc⟩

/-- **A stop reaches every connection.** Take any run, over sockets that count, to a moment at which
a stop can begin, and let it begin there and return, with a failure or without, while anything else
happens, other calls included, but a bind. Then no accept loop runs, every connection in the routing
table has been shut down once and has its read canceled, and the buffer pool is disposed of. This
stays so until somebody binds: no connection is made, a stop can be made again without any help, and
every call returns without a failure. -/
theorem stop_reaches_all {h g : List (Event C.counted)} {t u : Transport C.counted}
    (run : Run (C := C.counted) M.counted h t) (hf : t.unbinder.holdsLock = false)
    (stop : Stops (C := C.counted) M.counted t own (.returned failure) g u) :
    Stopped u ∧ ∀ g' v, Later (C := C.counted) M.counted u g' v →
      (∀ e ∈ g', ∀ network, e.move ≠ .bind network) →
      Stopped v ∧ v.routes.length = u.routes.length ∧
        (∀ result, .returned result ∈ reports g' → result = none) ∧
        ∃ n w, v.performAll (.unbind true :: .replicate n (.task .unbinder)) = some w ∧
          w.unbinder = .returned none := by
  have hb : Move.perform (.unbind true) t = some (t.beginUnbind true) := by
    simp only [Move.perform, hf, Bool.false_eq_true, if_false]
  have begun := run.move (.unbind true) hb (fun _ e => by cases e)
  have hs := (stop.pursued begun).stayed
  have returned := begun.later stop.later
  refine ⟨hs.stopped returned fun e he => List.mem_append_right _ he, fun g' v after hn => ?_⟩
  obtain ⟨hs', hl, hx⟩ := returned.stayed hs after hn
  refine ⟨hs'.stopped (returned.later after) fun e he => ?_, hl, hx,
    stop_returns hs'.installed hs'.unlocked⟩
  rw [List.append_assoc]
  exact List.mem_append_right _ he

/-- A transport for datagrams, over sockets that count. -/
def counting : Transport Carrier.datagram.counted :=
  create Carrier.datagram.counted { maxDatagramSize := 64 } { address := .ofPort 4433 }

/-- A datagram for a new connection of that id. -/
def countedArrival (key : ConnectionId) : Arrival Carrier.datagram.counted where
  key
  peer := .ofPort 50000
  localAddress := .ofPort 4433
  socket := ({ state := Socket.Datagram.create 64 4 } : Socket.Counted Socket.Datagram)
  payload := some hello

/-- The dispatcher accepts one connection and refuses another one, and the supervisor sees the
accept loop end. -/
def diedOut : List (Move Carrier.datagram.counted) :=
  [.bind {}, .task .acceptor, .arrive (countedArrival fives)] ++ .replicate 3 (.task .acceptor) ++
    .answer .accept :: .replicate 3 (.task .acceptor) ++
    .arrive (countedArrival .empty) :: .replicate 3 (.task .acceptor) ++
    .answer (.refuse "full") :: .replicate 6 (.task .acceptor) ++
    .replicate 3 (.task .supervisor)

/-- The transport after `diedOut`. -/
def dead : Transport Carrier.datagram.counted := (counting.performAll diedOut).getD counting

/-- A stop has let go of the lock. -/
def released : Transport Carrier.datagram.counted :=
  ((dead.beginUnbind true).performAll (.replicate 5 (.task .unbinder))).getD dead

/-- Somebody else has unbound since. -/
def overtaken : Transport Carrier.datagram.counted :=
  ((Move.unbind false).perform released).getD released

/-- The stop has gone on beside that, and has returned. -/
def stopped : Transport Carrier.datagram.counted :=
  { overtaken.onConnection 0 (·.abort) with pool := overtaken.pool.dispose }

theorem run_dead :
    Run (C := Carrier.datagram.counted) Socket.Medium.datagram.counted (counting.trace diedOut)
      dead := by
  have hc : Run (C := Carrier.datagram.counted) Socket.Medium.datagram.counted [] counting :=
    .create _ _
  refine hc.moves (show counting.performAll diedOut = some dead from rfl) fun arrival hm => ?_
  have ha : ∃ key, arrival = countedArrival key := by
    simp [diedOut] at hm
    rcases hm with rfl | rfl <;> exact ⟨_, rfl⟩
  obtain ⟨key, rfl⟩ := ha
  exact ⟨⟨rfl, rfl⟩, rfl, rfl⟩

theorem dead_stop_reaches_all :
    ∃ g, Stops (C := Carrier.datagram.counted) Socket.Medium.datagram.counted dead false
        (.returned (some (.dispatch "full"))) g stopped ∧
      dead.isListening = false ∧ stopped.table.identity? fives = some 0 ∧ Stopped stopped := by
  let kept : Option TransportError := some (.dispatch "full")
  have begun : Stops (C := Carrier.datagram.counted) Socket.Medium.datagram.counted dead true
      (.listing kept) _ released :=
    Stops.begin.alone (n := 5) (show _ = some released from rfl)
  have taken : Stops (C := Carrier.datagram.counted) Socket.Medium.datagram.counted dead false
      (.listing kept) _ overtaken :=
    begun.other (.unbind false) rfl (fun _ e => by cases e) (fun _ e => by cases e)
      fun _ e => by cases e
  have listed : Stops (C := Carrier.datagram.counted) Socket.Medium.datagram.counted dead false
      (.aborting [0] kept) _ overtaken := taken.beside rfl rfl
  have aborted : Stops (C := Carrier.datagram.counted) Socket.Medium.datagram.counted dead false
      (.aborting [] kept) _ (overtaken.onConnection 0 (·.abort)) := listed.beside rfl rfl
  have swept : Stops (C := Carrier.datagram.counted) Socket.Medium.datagram.counted dead false
      (.disposing kept) _ (overtaken.onConnection 0 (·.abort)) := aborted.beside rfl rfl
  have stop : Stops (C := Carrier.datagram.counted) Socket.Medium.datagram.counted dead false
      (.returned kept) _ stopped := swept.beside rfl rfl
  exact ⟨_, stop, rfl, rfl, (stop_reaches_all run_dead rfl stop).1⟩

end Transport

end Duplex
