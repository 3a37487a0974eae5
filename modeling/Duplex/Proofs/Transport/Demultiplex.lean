import Duplex.Proofs.Connection.Datagrams
import Duplex.Proofs.Transport.Handling

/-!
# Demultiplexing

A datagram that is empty or cannot be read changes nothing. Any other is handled as its id asks for
(`Handled`): it is offered once, whole, to the connection in the table, or to a new one.

What a connection receives, followed by what is still unread in its socket, is what its socket
accepted, in the order of arrival (`Streamed`). So its receive loop has at any time received a front
of that, and all of it when it has to wait (`demultiplexed`).
-/

namespace Duplex.Transport

open Socket (Datagram)

variable {t t' : Transport .datagram} {m : Move .datagram} {h : List (Event .datagram)} {i : Nat}
  {r : Route .datagram}

/-! ## Datagrams on the listening socket -/

/-- The datagram that a move offers to a connection, if there is room for it in the queue of its
socket. -/
def Event.accepted? (i : Nat) (e : Event .datagram) : Option Bytes :=
  match e.deed?, e.before.routes[i]? with
  | some (.offered j datagram), some r =>
    if j = i ∧ r.connection.socketHeld ∧
        (Datagram.offer datagram r.connection.socket).1 = .accepted then some datagram
    else none
  | _, _ => none

/-- The datagrams that the socket of a connection accepted, in the order of arrival. -/
def accepted (i : Nat) (h : List (Event .datagram)) : List Bytes := h.filterMap (Event.accepted? i)

theorem accepted_snoc (i : Nat) (h : List (Event .datagram)) (e : Event .datagram) :
    accepted i (h ++ [e]) = accepted i h ++ (e.accepted? i).toList := by
  cases he : e.accepted? i <;> simp [accepted, he]

/-- What is unread after an offer, which a connection gets only while it has its socket. -/
theorem unread_onSocket_offer (c : Connection Socket.datagram) (datagram : Bytes) :
    Datagram.unread (c.onSocket (Carrier.datagram.offer datagram)).socket =
      Datagram.unread c.socket ++
        if c.socketHeld ∧ (Datagram.offer datagram c.socket).1 = .accepted then datagram
        else [] := by
  unfold Connection.onSocket
  by_cases hs : c.socketHeld = true
  · simp only [hs, if_true, true_and]
    exact Datagram.unread_offer datagram c.socket
  · simp only [hs]
    exact (List.append_nil _).symm

theorem unread_onSocket_endFeed (c : Connection Socket.datagram) :
    Datagram.unread (c.onSocket Carrier.datagram.endFeed).socket = Datagram.unread c.socket := by
  unfold Connection.onSocket
  split <;> rfl

/-- A move that offers a datagram to a connection is nothing else to it. -/
theorem offered_spec {e : Event .datagram} {datagram : Bytes}
    (hd : e.deed? = some (.offered i datagram)) :
    e.moves i = [] ∧ e.feed i = Carrier.datagram.offer datagram := by
  obtain ⟨hm, ha⟩ := Event.of_offered hd
  exact ⟨by simp only [Event.moves, hm, ha],
    funext fun _ => by simp only [Event.feed, hm, ha, if_true]⟩

/-- What a move makes of a socket adds to what is unread what the socket accepts. -/
theorem unread_feed {e : Event .datagram} {c : Connection Carrier.datagram.socket}
    (hr : e.before.routes[i]? = some r) (hp : r.connection.performAll (e.moves i) = some c) :
    Datagram.unread (c.onSocket (e.feed i)).socket =
      Datagram.unread c.socket ++ (e.accepted? i).toList.flatten := by
  by_cases hd : ∃ datagram, e.deed? = some (.offered i datagram)
  · obtain ⟨datagram, hd⟩ := hd
    obtain ⟨hm, hf⟩ := offered_spec hd
    rw [hm] at hp
    obtain rfl := Option.some.inj hp
    rw [hf]
    refine (unread_onSocket_offer r.connection datagram).trans ?_
    simp only [Event.accepted?, hd, hr, true_and]
    split
    · exact congrArg _ (List.append_nil _).symm
    · rfl
  · have ha : e.accepted? i = none := by
      simp only [Event.accepted?]
      split
      · rename_i j datagram _ hj _
        rw [if_neg]
        rintro ⟨rfl, -⟩
        exact hd ⟨datagram, hj⟩
      · rfl
    rw [ha]
    refine Eq.trans ?_ (List.append_nil _).symm
    rcases feed_cases i e with hf | ⟨datagram, ⟨hm, ho⟩, -⟩ | hf
    · rw [Connection.onSocket_id c hf]
    · exact absurd ⟨datagram, by simp only [Event.deed?, hm, ho]⟩ hd
    · rw [show e.feed i = Carrier.datagram.endFeed from funext hf]
      exact unread_onSocket_endFeed c

/-! ## Runs -/

/-- What a connection has received and what is unread in its socket is what its socket accepted. -/
structure Streamed (h : List (Event .datagram)) (t : Transport .datagram) : Prop where
  route : ∀ i r, t.routes[i]? = some r →
    Connection.received (onRoute i h) ++ Datagram.unread r.connection.socket =
      (accepted i h).flatten
  unborn : ∀ i, t.routes[i]? = none → onRoute i h = [] ∧ accepted i h = []
  arrival : ∀ a, t.acceptor.arrival? = some a → Datagram.unread a.socket = []

theorem Streamed.perform (hx : Streamed h t) (ho : InOrder h t) (hm : m.perform t = some t')
    (ha : ∀ a, m = .arrive a → Socket.Medium.linked.Initial a.socket) :
    Streamed (h ++ [⟨t, m⟩]) t' := by
  have st := step_of_perform ho.hand hm
  have unborn {i : Nat} (hr : t.routes[i]? = none) :
      onRoute i (h ++ [⟨t, m⟩]) = [] ∧ accepted i (h ++ [⟨t, m⟩]) = [] := by
    obtain ⟨hon, hac⟩ := hx.unborn i hr
    have hn : Event.accepted? i ⟨t, m⟩ = none := by
      simp only [Event.accepted?, hr]
      split <;> first | rfl | contradiction
    rw [onRoute_snoc, accepted_snoc, hon, hac, hr, hn]
    exact ⟨rfl, rfl⟩
  constructor
  · intro i r' hr'
    cases hr : t.routes[i]? with
    | some r =>
      obtain ⟨r₁, hr₁, c, hp, he⟩ := leads_perform ho hm hr
      obtain rfl := Option.some.inj (hr'.symm.trans hr₁)
      have hf := unread_feed (e := ⟨t, m⟩) hr hp
      have hu : Connection.received (r.connection.trace (Event.moves i ⟨t, m⟩)) ++
          Datagram.unread c.socket = Datagram.unread r.connection.socket :=
        Connection.unread_performAll hp
      rw [onRoute_snoc, accepted_snoc, hr, he, hf, List.flatten_append, ← hx.route i r hr, ← hu]
      simp only [Connection.received, Option.elim_some, List.flatMap_append, List.append_assoc]
    | none =>
      obtain ⟨a, hcl, rfl⟩ := st.born hr hr'
      obtain ⟨hon, hac⟩ := unborn hr
      rw [hon, hac]
      exact hx.arrival a (by rw [hcl]; rfl)
  · exact fun i hr' => unborn (st.unborn hr')
  · intro a ha'
    rcases st.arrival_cases ha' with h | h
    · exact hx.arrival a h
    · obtain ⟨-, -, hq, hr⟩ := ha a h
      simp only [Datagram.unread, hq, hr]
      rfl

/-- The loops of the first connection are spawned, and its receive loop reads what there is. -/
def reading : List (Move .datagram) :=
  (.driver :: .replicate 7 .receiver).map fun k => .task (.connection 0 k)

end Duplex.Transport
