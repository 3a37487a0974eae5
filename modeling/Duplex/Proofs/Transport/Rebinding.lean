import Duplex.Proofs.Transport.Stopping

/-!
# Binding again

A socket is open as long as anybody holds it, and every connection for datagrams holds the listening
socket; a stream stays at an address of its own on the listener's port. So what an unbind leaves
open is the sockets of the connections that have not let go of them (`openAddresses_of_silent`). A
bind to the same endpoint fails if one of those is at an address that clashes with it, and succeeds
otherwise (`bind_of_blocked`, `bind_of_free`). The connections made since the first bind are at such
addresses, as long as what arrives is addressed to the listener (`Sited`).
-/

namespace Duplex

/-! ## Addresses that clash -/

theorem IpAddress.overlaps_self (a : IpAddress) : a.overlaps a = true := by
  rw [overlaps]
  cases a.canonical <;> simp

theorem SocketAddress.clashes_self (a : SocketAddress) : a.clashes a = true := by
  rw [clashes, beq_self_eq_true, a.host.overlaps_self]
  rfl

/-- An unspecified address of either version covers the addresses of version 4. -/
theorem IpAddress.overlaps_localhost {a : IpAddress} (ha : a.isUnspecified = true) :
    a.overlaps .localhost = true := by
  cases a with
  | v4 bits =>
    obtain rfl : bits = 0 := beq_iff_eq.mp ha
    rfl
  | v6 bits zone =>
    obtain rfl : bits = 0 := beq_iff_eq.mp ha
    rfl

/-- What is accepted from the same machine stays at an address that clashes with the listener's. -/
theorem SocketAddress.clashes_asSeenLocally (a : SocketAddress) :
    a.clashes a.asSeenLocally = true := by
  rw [asSeenLocally]
  split
  · rw [clashes, beq_self_eq_true, IpAddress.overlaps_localhost ‹_›]
    rfl
  · exact a.clashes_self

/-! ## The network -/

namespace Network

/-- Nothing keeps the network from binding a socket to the address but sockets of the transport. -/
structure Grants (n : Network) (mode : ListenMode) (a : SocketAddress) : Prop where
  granted : n.refusal? mode a = none
  others : ∀ b ∈ n.others, a.clashes b = false

variable {n : Network} {mode : ListenMode} {a bound : SocketAddress} {taken : List SocketAddress}

theorem bind_of_grants (hg : n.Grants mode a) (hp : a.port ≠ 0) (taken : List SocketAddress) :
    n.bind mode a taken =
      if taken.any a.clashes then (.error .addressInUse, n) else (.ok a, n) := by
  have ho : n.others.any a.clashes = false :=
    List.any_eq_false.mpr fun b hb => by rw [hg.others b hb]; exact Bool.false_ne_true
  simp only [bind, hg.granted, hp, if_false, List.any_append, ho, Bool.or_false]

/-- A socket is bound where it was asked for, with a port if none was asked for. -/
theorem eq_of_bind (hb : (n.bind mode a taken).1 = .ok bound) :
    bound = if a.port = 0 then { a with port := n.nextPort } else a := by
  simp only [bind] at hb
  split at hb
  · cases hb
  · split at hb
    · cases hb
      rw [if_pos ‹_›]
      rfl
    · rw [if_neg ‹_›]
      split at hb
      · cases hb
      · cases hb
        rfl

end Network

namespace Transport

variable {C : Carrier} {t t' u bound during : Transport C} {m : Move C} {g g' h : List (Event C)}
  {M : Socket.Medium C.socket} {i k : Nat} {a : SocketAddress} {first again : Network}
  {stopping : Bool}

/-! ## What a bind does -/

/-- After a bind the endpoint names the address that the listening socket is bound to. -/
theorem Step.endpoint (st : Step t (.bind first) t') (hp : 0 < first.nextPort) :
    t'.endpoint.address = t'.listenAddress ∧ t'.endpoint.address.port ≠ 0 := by
  cases st with
  | @bind _ bound hl hi hb =>
    have he := Network.eq_of_bind hb
    by_cases h0 : t.endpoint.address.port = 0
    · simp only [h0, if_true] at he ⊢
      subst he
      exact ⟨trivial, Nat.pos_iff_ne_zero.mp hp⟩
    · simp only [h0, if_false] at he ⊢
      exact ⟨he.symm, h0⟩

/-- A connection holds a socket beside which no other one can be bound to the address. -/
def Blocked (t : Transport C) (a : SocketAddress) : Prop :=
  ∃ r ∈ t.routes, r.connection.socketHeld = true ∧ a.clashes r.connection.localAddress = true

/-- Where no accept loop runs, only connections hold sockets. -/
theorem openAddresses_of_silent (hs : t.isListening = false) (a : SocketAddress) :
    t.openAddresses.any a.clashes = true ↔ t.Blocked a := by
  simp only [openAddresses, hs, Bool.false_eq_true, if_false, List.any_map, List.any_eq_true,
    List.mem_filter, Function.comp_apply, Blocked, and_assoc]

theorem bind_of_blocked (hi : t.installed = false) (hs : t.isListening = false)
    (hp : t.endpoint.address.port ≠ 0)
    (hg : again.Grants t.configuration.mode t.endpoint.address)
    (ht : t.Blocked t.endpoint.address) :
    t.bind again = (.error (.addressInUse t.endpoint.address .addressInUse), again) := by
  have hb := Network.bind_of_grants hg hp t.openAddresses
  rw [if_pos ((openAddresses_of_silent hs _).mpr ht)] at hb
  simp only [bind, hi, Bool.false_eq_true, if_false, hb]
  rfl

theorem bind_of_free (hi : t.installed = false) (hs : t.isListening = false)
    (hp : t.endpoint.address.port ≠ 0)
    (hg : again.Grants t.configuration.mode t.endpoint.address)
    (ht : ¬ t.Blocked t.endpoint.address) :
    t.bind again = (.ok { t with
      installed := true
      listenAddress := t.endpoint.address
      signalled := false
      acceptor := .opening
      supervisor := .watching }, again) := by
  have hb := Network.bind_of_grants hg hp t.openAddresses
  rw [if_neg (mt (openAddresses_of_silent hs _).mp ht)] at hb
  simp only [bind, hi, Bool.false_eq_true, if_false, hb, hp]

/-! ## What stays behind -/

/-- A move that does not bind leaves the listening socket where it is. -/
theorem Step.listenAddress (st : Step t m t') (hb : ∀ network, m ≠ .bind network) :
    t'.listenAddress = t.listenAddress := by
  cases st with
  | acceptor st => cases st <;> rfl
  | supervisor st => cases st <;> rfl
  | unbinder st => cases st <;> rfl
  | removal st => cases st; rfl
  | bind => exact absurd rfl (hb _)
  | _ => rfl

/-- What arrives does so at an address that clashes with that of the listening socket. -/
def Event.AtListener (e : Event C) : Prop :=
  ∀ arrival, e.move = .arrive arrival →
    e.before.listenAddress.clashes arrival.localAddress = true

/-- Datagrams arrive at the listening socket. -/
theorem atListener_arrivalOf {t : Transport .datagram} {datagram : Bytes} {peer : SocketAddress}
    {link : Socket.Link} {arrival : Arrival .datagram}
    (ha : t.arrivalOf? datagram peer link = some arrival) :
    Event.AtListener ⟨t, .arrive arrival⟩ := by
  have hl : arrival.localAddress = t.listenAddress := by
    simp only [arrivalOf?] at ha
    split at ha
    · cases ha
    · split at ha
      · cases ha
      · cases ha; rfl
  intro arrival' he
  cases he
  rw [hl]
  exact t.listenAddress.clashes_self

/-- Streams are accepted at the listening address, as those who connect to it see it. -/
theorem atListener_asSeenLocally {arrival : Arrival C}
    (ha : arrival.localAddress = t.listenAddress.asSeenLocally) :
    Event.AtListener ⟨t, .arrive arrival⟩ := by
  intro arrival' he
  cases he
  rw [ha]
  exact t.listenAddress.clashes_asSeenLocally

/-- The connections from `k` on, and what one is about to be made for, are at addresses that clash
with `a`. -/
structure Sited (a : SocketAddress) (k : Nat) (t : Transport C) : Prop where
  listener : t.listenAddress = a
  route : ∀ i r, k ≤ i → t.routes[i]? = some r → a.clashes r.connection.localAddress = true
  arrival : ∀ arrival, t.acceptor.arrival? = some arrival →
    a.clashes arrival.localAddress = true

theorem Sited.perform (hs : Sited a k t) (ho : InOrder h t) (hm : m.perform t = some t')
    (hb : ∀ network, m ≠ .bind network) (ha : Event.AtListener ⟨t, m⟩) : Sited a k t' := by
  have st := step_of_perform ho.hand hm
  constructor
  · exact (st.listenAddress hb).trans hs.listener
  · intro i r' hi hr'
    cases hr : t.routes[i]? with
    | some r =>
      obtain ⟨r₁, hr₁, hx⟩ := fixed_perform ho hm hr
      obtain rfl := Option.some.inj (hr'.symm.trans hr₁)
      rw [hx.localAddress]
      exact hs.route i r hi hr
    | none =>
      obtain ⟨arrival, hc, rfl⟩ := st.born hr hr'
      exact hs.arrival arrival (by rw [hc]; rfl)
  · intro arrival he
    rcases st.arrival_cases he with he | he
    · exact hs.arrival arrival he
    · rw [← hs.listener]
      exact ha arrival he

theorem Sited.change (hs : Sited a k t) (i : Nat) (socket : C.socket.State) :
    Sited a k (t.onConnection i fun c => { c with socket }) := by
  refine ⟨hs.listener, fun j r' hj hr' => ?_, hs.arrival⟩
  obtain ⟨r, hr, ⟨-, rfl⟩ | rfl⟩ := onConnection_cases hr'
  · exact hs.route j r hj hr
  · exact hs.route j _ hj hr

/-- Every connection made since a bind is at an address that clashes with the listening socket's. -/
theorem Run.sited (run : Run M h t) (hb : (Move.bind first).perform t = some bound)
    (later : Later M bound g u) (hn : ∀ e ∈ g, ∀ network, e.move ≠ .bind network)
    (ha : ∀ e ∈ g, e.AtListener) : Sited bound.listenAddress bound.routes.length u := by
  have begun := run.move (.bind first) hb fun _ e => by cases e
  have start : Sited bound.listenAddress bound.routes.length bound := by
    refine ⟨rfl, fun i r hi hr => absurd (List.getElem?_eq_some_iff.mp hr).1 (by omega), ?_⟩
    cases step_of_perform run.inOrder.1.hand hb with
    | bind => exact fun arrival he => by cases he
  refine begun.lasting (P := fun _ u => Sited bound.listenAddress bound.routes.length u)
    (Q := fun e => (∀ network, e.move ≠ .bind network) ∧ e.AtListener) start ?_ ?_ later
    fun e he => ⟨hn e he, ha e he⟩
  · exact fun ho _ hm hq hs => hs.perform ho hm hq.1 hq.2
  · exact fun i socket hs => hs.change i socket

/-- Only a bind installs a listener. -/
theorem Run.uninstalled (run : Run M h t) (hi : t.installed = false) (later : Later M t g u)
    (hn : ∀ e ∈ g, ∀ network, e.move ≠ .bind network) : u.installed = false := by
  refine run.lasting (P := fun _ u => u.installed = false)
    (Q := fun e => ∀ network, e.move ≠ .bind network) hi ?_ ?_ later hn
  · exact fun ho _ hm hb hi => (step_of_perform ho.hand hm).uninstalled hi hb
  · exact fun _ _ hi => hi

/-! ## The same endpoint -/

/-- **An endpoint can be bound again unless a connection holds a socket that clashes with it.** Take
any run in which a bind succeeds, on a port of its own choice or on one that the network gave it,
and in which an unbind begins later, or a stop, without another bind in between. The accept loop may
have died meanwhile. When the call has let go of the lock, as it has when it has returned, with a
failure or without, let somebody bind to the same endpoint, and let the network have no reason of
its own to refuse it. Then the transport listens there again, unless a connection still holds a
socket that clashes with the address: then the address is in use. Every connection made since the
first bind does clash, if what arrives is addressed to the listener. -/
theorem rebind_unless_blocked (run : Run M h t) (hp : 0 < first.nextPort)
    (hb : (Move.bind first).perform t = some bound) (listening : Later M bound g during)
    (hf : during.unbinder.holdsLock = false)
    (unbinding : Later M (during.beginUnbind stopping) g' u)
    (hn : ∀ e ∈ g ++ g', ∀ network, e.move ≠ .bind network)
    (hr : u.unbinder.holdsLock = false) (he : u.endpoint.address = bound.endpoint.address)
    (hg : again.Grants u.configuration.mode u.endpoint.address) :
    (¬ u.Blocked u.endpoint.address → ∃ v, u.bind again = (.ok v, again) ∧
      v.isListening = true ∧ v.listenAddress = u.endpoint.address ∧ v.endpoint = u.endpoint ∧
      v.routes = u.routes) ∧
    (u.Blocked u.endpoint.address →
      u.bind again = (.error (.addressInUse u.endpoint.address .addressInUse), again)) ∧
    ((∀ e ∈ g ++ g', e.AtListener) → ∀ i r, bound.routes.length ≤ i → u.routes[i]? = some r →
      r.connection.socketHeld = true → u.Blocked u.endpoint.address) := by
  have begun := run.move (.bind first) hb fun _ e => by cases e
  obtain ⟨hl, hport⟩ := (step_of_perform run.inOrder.1.hand hb).endpoint hp
  rw [← he] at hport
  have hu : Move.perform (.unbind stopping) during = some (during.beginUnbind stopping) := by
    simp only [Move.perform, hf, Bool.false_eq_true, if_false]
  have left := listening.move (.unbind stopping) hu fun _ e => by cases e
  have unbound := begun.later left
  have hi : u.installed = false :=
    unbound.uninstalled (installed_beginUnbind during stopping) unbinding fun e hm =>
      hn e (List.mem_append_right _ hm)
  have hs : u.isListening = false := (unbound.later unbinding).inOrder.2.silent hr hi
  refine ⟨fun ht => ⟨_, bind_of_free hi hs hport hg ht, rfl, rfl, rfl, rfl⟩,
    bind_of_blocked hi hs hport hg, fun ha i r hk hr hh => ?_⟩
  have all {Q : Event C → Prop} (hq : ∀ e ∈ g ++ g', Q e) (hc : Q ⟨during, .unbind stopping⟩) :
      ∀ e ∈ g ++ [⟨during, .unbind stopping⟩] ++ g', Q e := by
    simp only [List.mem_append, List.mem_singleton] at hq ⊢
    rintro e ((hm | rfl) | hm)
    · exact hq e (.inl hm)
    · exact hc
    · exact hq e (.inr hm)
  have sited := run.sited hb (left.trans unbinding)
    (all hn fun network e => by cases e) (all ha fun _ e => by cases e)
  rw [he, hl]
  exact ⟨r, List.mem_of_getElem? hr, hh, sited.route i r hk hr⟩

/-- A transport for datagrams, on any port. -/
def anywhere : Transport .datagram :=
  create .datagram { maxDatagramSize := 64 } { address := .ofPort 0 }

/-- It is bound, and the network gives it a port. -/
def somewhere : Transport .datagram := ((Move.bind {}).perform anywhere).getD anywhere

/-- A datagram for the address that it has then. -/
def arriving : List (Arrival .datagram) :=
  (somewhere.arrivalOf? hello (.ofPort 50000) fun _ => .taken).toList

/-- The dispatcher accepts a connection for the datagram. -/
def serving : List (Move .datagram) :=
  .task .acceptor :: arriving.map .arrive ++ .replicate 3 (.task .acceptor) ++ accepting

/-- The transport after `serving`. -/
def served : Transport .datagram := (somewhere.performAll serving).getD somewhere

/-- The accept loop and its supervisor end, and the call that unbinds returns. -/
def leaving : List (Move .datagram) :=
  .replicate 2 (.task .unbinder) ++ [.task .acceptor, .task .supervisor] ++
    .replicate 3 (.task .unbinder)

/-- The transport after an unbind, with its connection alive. -/
def left : Transport .datagram := ((served.beginUnbind false).performAll leaving).getD served

theorem later_served : Later .datagram somewhere (somewhere.trace serving) served := by
  refine .moves (show _ = some served from rfl) fun arrival hm => ?_
  refine initial_of_arrivalOf (Option.mem_toList.mp (?_ : arrival ∈ arriving))
  simpa [serving, accepting] using hm

theorem later_left :
    Later .datagram (served.beginUnbind false) ((served.beginUnbind false).trace leaving) left :=
  .moves (show _ = some left from rfl) fun arrival hm => by simp [leaving] at hm

/-- A transport that has unbound cannot be bound again beside its connection. -/
theorem rebind_beside_connection :
    Run .datagram [] anywhere ∧ (Move.bind {}).perform anywhere = some somewhere ∧
      Later .datagram somewhere (somewhere.trace serving) served ∧
      Later .datagram (served.beginUnbind false) ((served.beginUnbind false).trace leaving) left ∧
      left.unbinder = .returned none ∧ left.connectionCount = 1 ∧
      left.endpoint = somewhere.endpoint ∧
      Network.Grants {} left.configuration.mode left.endpoint.address ∧
      left.bind {} = (.error (.addressInUse somewhere.endpoint.address .addressInUse), {}) ∧
      ¬ ∃ v, (left.bind {}).1 = .ok v := by
  have hb : left.bind {} =
      (.error (.addressInUse somewhere.endpoint.address .addressInUse), {}) := rfl
  refine ⟨.create _ _, rfl, later_served, later_left, rfl, rfl, rfl, ⟨rfl, nofun⟩, hb, ?_⟩
  rintro ⟨v, hv⟩
  rw [hb] at hv
  cases hv

/-- The transport when its connection has closed. -/
def emptied : Transport .datagram := (left.performAll closing).getD left

theorem later_emptied :
    Later .datagram (served.beginUnbind false)
      ((served.beginUnbind false).trace leaving ++ left.trace closing) emptied :=
  later_left.trans (.moves (show _ = some emptied from rfl) fun arrival hm => by
    simp [closing] at hm)

theorem rebind_when_emptied :
    left.bind {} = (.error (.addressInUse (.ofPort 65536) .addressInUse), {}) ∧
      ∃ v, emptied.bind {} = (.ok v, {}) ∧ v.isListening = true ∧
        v.listenAddress = .ofPort 65536 := by
  have run : Run .datagram [] anywhere := .create _ _
  have port : 0 < Network.nextPort {} := by decide
  have quiet {g : List (Event .datagram)} (hg : g.all (!·.move.isCall) = true) :
      ∀ e ∈ g, ∀ network, e.move ≠ .bind network := by
    intro e he network hm
    have hc := List.all_eq_true.mp hg e he
    rw [hm] at hc
    cases hc
  have addressed : (somewhere.trace serving ++ (served.beginUnbind false).trace leaving).all
      (fun e => match e.move with
        | .arrive arrival => e.before.listenAddress.clashes arrival.localAddress
        | _ => true) = true := rfl
  constructor
  · obtain ⟨-, blocked, held⟩ := rebind_unless_blocked run port rfl later_served rfl later_left
      (quiet rfl) rfl rfl (show Network.Grants {} _ _ from ⟨rfl, nofun⟩)
    refine blocked (held (fun e he arrival hm => ?_) 0 _ (Nat.zero_le _) rfl rfl)
    have hc := List.all_eq_true.mp addressed e he
    rwa [hm] at hc
  · obtain ⟨free, -⟩ := rebind_unless_blocked run port rfl later_served rfl later_emptied
      (quiet rfl) rfl rfl (show Network.Grants {} _ _ from ⟨rfl, nofun⟩)
    obtain ⟨v, hv, hl, ha, -⟩ := free fun hb => by
      have hc := (openAddresses_of_silent rfl _).mpr hb
      cases hc
    exact ⟨v, hv, hl, ha⟩

end Transport

end Duplex
