import Duplex.Proofs.Transport.Handling
import Mathlib.Data.Int.CardIntervalMod

/-!
# Queues and connections

A queue is drawn where a connection is made, and nowhere else (`Step.drawn`). So the pool has
counted the connections of the transport, and the connection at each place has the queue that a
round-robin gives to it (`Run.dealt`). Counted over the connections made so far, refused ones among
them, every queue has its share, or one more (`Dealt.share`).
-/

namespace Duplex.Transport

open scoped Numbers

variable {C : Carrier} {M : Socket.Medium C.socket} {t t' : Transport C} {m : Move C}
  {h : List (Event C)}

/-! ## Drawing a queue -/

/-- A move makes no connection and draws no queue, or it makes one and draws the next queue. -/
def Draws (t : Transport C) (m : Move C) (t' : Transport C) : Prop :=
  (Event.deed? ⟨t, m⟩).toList.filter Deed.isMade = [] ∧ t'.queues = t.queues ∧
      t'.routes.length = t.routes.length ∨
    ∃ a, t.acceptor = .claiming a ∧ t.table.get? a.key = none ∧
      Event.deed? ⟨t, m⟩ = some (.made t.routes.length) ∧ t'.queues = t.queues.assign.2 ∧
      t'.routes = t.routes ++ [t.newRoute a t.queues.assign.1]

theorem Step.drawn (ho : InOrder h t) (st : Step t m t') : Draws t m t' := by
  obtain ⟨hl, -⟩ := st.tally ho
  rcases st.routes_cases with ⟨hr, hq⟩ | ⟨a, ha, hg, rfl, hr, hq⟩
  · refine .inl ⟨?_, hq, hr⟩
    rw [← List.length_eq_zero_iff, ← List.countP_eq_length_filter]
    omega
  · exact .inr ⟨a, ha, hg, deed_of_claiming ha hg, hq, hr⟩

theorem Step.configuration (st : Step t m t') : t'.configuration = t.configuration := by
  cases st with
  | acceptor st => cases st <;> rfl
  | supervisor st => cases st <;> rfl
  | unbinder st => cases st <;> rfl
  | removal st => cases st; rfl
  | _ => rfl

/-- Receiving a datagram, readable or not, draws no queue and makes no connection. -/
theorem queues_receive (t : Transport .datagram) (datagram : Bytes) (peer : SocketAddress)
    (link : Socket.Link) :
    (t.receive datagram peer link).queues = t.queues ∧
      (t.receive datagram peer link).routes = t.routes := by
  rw [receive]
  split
  · rename_i a _
    rw [arrive]
    split
    · split <;> exact ⟨rfl, rfl⟩
    · exact ⟨rfl, rfl⟩
  · exact ⟨rfl, rfl⟩

/-! ## The queue of each connection -/

/-- How the queues of a transport have been drawn. The counter starts again at 2^64. -/
structure Dealt (h : List (Event C)) (t : Transport C) : Prop where
  configuration : ∀ e ∈ h, e.before.configuration = t.configuration
  size : t.queues.size = max t.configuration.queueCount 1
  made : (deeds h).filter Deed.isMade = (List.range t.routes.length).map Deed.made
  assignments : t.queues.assignments = UInt64.ofNat t.routes.length
  index : ∀ i r, t.routes[i]? = some r → r.connection.queueIndex = i % 2 ^ 64 % t.queues.size

theorem dealt_create (configuration : Configuration) (endpoint : Endpoint) :
    Dealt [] (create C configuration endpoint) where
  configuration := fun e he => by cases he
  size := rfl
  made := rfl
  assignments := rfl
  index := fun i r hr => by cases hr

theorem Dealt.perform (hd : Dealt h t) (ho : InOrder h t) (hm : m.perform t = some t') :
    Dealt (h ++ [⟨t, m⟩]) t' := by
  have st := step_of_perform ho.hand hm
  have hc : t'.configuration = t.configuration := st.configuration
  have configured : ∀ e ∈ h ++ [⟨t, m⟩], e.before.configuration = t'.configuration := by
    intro e he
    rw [hc]
    rcases List.mem_append.mp he with he | he
    · exact hd.configuration e he
    · rw [List.mem_singleton.mp he]
  have kept : ∀ i r', i < t.routes.length → t'.routes[i]? = some r' →
      r'.connection.queueIndex = i % 2 ^ 64 % t.queues.size := by
    intro i r' hi hr'
    have hr := List.getElem?_eq_getElem hi
    obtain ⟨r₁, hr₁, hx⟩ := fixed_perform ho hm hr
    obtain rfl := Option.some.inj (hr'.symm.trans hr₁)
    rw [hx.queueIndex]
    exact hd.index i _ hr
  rcases st.drawn ho with ⟨hn, hq, hl⟩ | ⟨a, -, -, hn, hq, hr⟩
  · refine ⟨configured, by rw [hq, hc, hd.size], ?_, by rw [hq, hl, hd.assignments],
      fun i r' hr' => ?_⟩
    · rw [deeds_snoc, List.filter_append, hd.made, hn, hl, List.append_nil]
    · rw [hq]
      exact kept i r' (by rw [← hl]; exact (List.getElem?_eq_some_iff.mp hr').1) hr'
  · have hl : t'.routes.length = t.routes.length + 1 := by
      rw [hr, List.length_append, List.length_singleton]
    have hs : t'.queues.size = t.queues.size := by rw [hq]; rfl
    refine ⟨configured, by rw [hs, hc, hd.size], ?_, ?_, fun i r' hr' => ?_⟩
    · rw [deeds_snoc, List.filter_append, hd.made, hn, hl, List.range_succ, List.map_append]
      rfl
    · rw [hq, hl, UInt64.ofNat_add, ← hd.assignments]
      rfl
    · rw [hs]
      have hi := (List.getElem?_eq_some_iff.mp hr').1
      by_cases hlt : i < t.routes.length
      · exact kept i r' hlt hr'
      · -- The connection that has come last has the queue that the counter stood at.
        obtain rfl : i = t.routes.length := by omega
        rw [hr, List.getElem?_concat_length] at hr'
        obtain rfl := Option.some.inj hr'
        show t.queues.assignments.toNat % t.queues.size = _
        rw [hd.assignments, UInt64.toNat_ofNat']

theorem Dealt.change (hd : Dealt h t) (i : Nat) (socket : C.socket.State) :
    Dealt h (t.onConnection i fun c => { c with socket }) := by
  have hl : (t.onConnection i fun c => { c with socket }).routes.length = t.routes.length :=
    List.length_modify ..
  refine ⟨hd.configuration, hd.size, by rw [hl]; exact hd.made,
    by rw [hl]; exact hd.assignments, fun j r' hr' => ?_⟩
  obtain ⟨r, hr, ⟨-, rfl⟩ | rfl⟩ := onConnection_cases hr'
  · exact hd.index j r hr
  · exact hd.index j _ hr

theorem Run.dealt (run : Run M h t) : Dealt h t := by
  induction run with
  | create => exact dealt_create _ _
  | move run m hm _ ih => exact ih.perform run.inOrder.1 hm
  | change _ _ _ ih => exact ih.change _ _

/-! ## Shares -/

/-- How many of the first `n` connections were assigned to the queue `q`. -/
def assigned (t : Transport C) (n q : Nat) : Nat :=
  (t.routes.take n).countP fun r => r.connection.queueIndex == q

theorem Dealt.indices (hd : Dealt h t) {n : Nat} (hn : n ≤ t.routes.length) (hw : n ≤ 2 ^ 64) :
    (t.routes.take n).map (·.connection.queueIndex) =
      (List.range n).map (· % t.queues.size) := by
  refine List.ext_getElem (by simp [hn]) fun i hi _ => ?_
  rw [List.length_map, List.length_take] at hi
  have hi' : i < n := by omega
  rw [List.getElem_map, List.getElem_map, List.getElem_take, List.getElem_range,
    hd.index i _ (List.getElem?_eq_getElem (by omega)), Nat.mod_eq_of_lt (by omega : i < 2 ^ 64)]

/-- The first `n` connections are shared out evenly, and what is left over goes to the first
queues. -/
theorem Dealt.share (hd : Dealt h t) {n q : Nat} (hn : n ≤ t.routes.length) (hw : n ≤ 2 ^ 64)
    (hq : q < t.queues.size) :
    t.assigned n q = n / t.queues.size + if q < n % t.queues.size then 1 else 0 := by
  have hc : t.assigned n q = (List.range n).countP (· ≡ q [MOD t.queues.size]) := by
    show (t.routes.take n).countP ((· == q) ∘ (·.connection.queueIndex)) = _
    rw [← List.countP_map, hd.indices hn hw, List.countP_map]
    refine List.countP_congr fun i _ => ?_
    simp [Nat.ModEq, Nat.mod_eq_of_lt hq]
  rw [hc]
  have := Nat.count_modEq_card n t.queues.size_pos q
  rwa [Nat.mod_eq_of_lt hq] at this

/-- What holds of the queues of a transport that the moves `h` have led to `t`. -/
structure RoundRobin (h : List (Event C)) (t : Transport C) : Prop where
  /-- There is at least one queue, and as many as the configuration says, -/
  size : t.queues.size = max t.configuration.queueCount 1
  /-- which has not changed. -/
  configuration : ∀ e ∈ h, e.before.configuration = t.configuration
  /-- Each connection that was created has the next place, whatever became of it. -/
  created : (deeds h).filter Deed.isMade = (List.range t.routes.length).map Deed.made
  /-- An index was drawn for each, and for nothing else, -/
  drawn : t.queues.assignments = UInt64.ofNat ((deeds h).countP Deed.isMade)
  /-- and so it goes on, whatever move comes next. -/
  next : ∀ m t', m.perform t = some t' → Draws t m t'
  /-- The connection at each place has the index of its turn, and runs on that queue. -/
  index : ∀ i r, t.routes[i]? = some r → i < 2 ^ 64 →
    r.connection.queueIndex = i % max t.configuration.queueCount 1 ∧
      t.queues.resolve r.connection.queueIndex = r.connection.queueIndex
  /-- After any number of creations, no queue is ahead of another one by more than one. -/
  balanced : ∀ n p q, n ≤ t.routes.length → n ≤ 2 ^ 64 → p < max t.configuration.queueCount 1 →
    q < max t.configuration.queueCount 1 → t.assigned n p ≤ t.assigned n q + 1

theorem Dealt.roundRobin (hd : Dealt h t) (ho : InOrder h t) : RoundRobin h t where
  size := hd.size
  configuration := hd.configuration
  created := hd.made
  drawn := by
    rw [hd.assignments, List.countP_eq_length_filter, hd.made, List.length_map, List.length_range]
  next := fun m t' hm => (step_of_perform ho.hand hm).drawn ho
  index := fun i r hr hi => by
    rw [QueuePool.resolve, hd.index i r hr, Nat.mod_eq_of_lt hi, Nat.mod_mod, hd.size]
    exact ⟨rfl, rfl⟩
  balanced := fun n p q hn hw hp hq => by
    rw [← hd.size] at hp hq
    rw [hd.share hn hw hp, hd.share hn hw hq]
    split <;> split <;> omega

/-- **Connections are assigned to queues in turn, by their creations only.** Whatever arrives, the
dispatcher answers and the host does, the connection that is created as number `i`, counted from 0
and with those that are refused, has queue `i` modulo the number of queues, as long as there are at
most 2^64 of them. Nothing else draws a queue, and the listening socket draws none when it receives,
whether the datagram can be read or not. So after any number of creations the queues have been given
as many connections as each other, but for one. -/
theorem assigned_in_turn (run : Run M h t) :
    RoundRobin h t ∧ ∀ (u : Transport .datagram) datagram peer link,
      (u.receive datagram peer link).queues = u.queues ∧
        (u.receive datagram peer link).routes = u.routes :=
  ⟨run.dealt.roundRobin run.inOrder.1, queues_receive⟩

/-- A transport with two queues. -/
def paired : Transport .datagram :=
  create .datagram { maxDatagramSize := 64, queueCount := 2 } { address := .ofPort 4433 }

/-- A datagram for a connection that there is. -/
def greetingAgain : List (Move .datagram) :=
  greeting.map .arrive ++ .replicate 2 (.task .acceptor)

/-- A connection is accepted, is sent another datagram and closes. Its id is used again, and then
the dispatcher refuses. -/
def alternating : List (Move .datagram) :=
  opening ++ asking ++ accepting ++ greetingAgain ++ closing ++ asking ++
    [.answer (.refuse "one is enough")]

/-- The transport after `alternating`. -/
def alternated : Transport .datagram := (paired.performAll alternating).getD paired

theorem run_alternated : Run .datagram (paired.trace alternating) alternated := by
  have hc : Run .datagram [] paired := .create _ _
  refine hc.moves (show paired.performAll alternating = some alternated from rfl) ?_
  intro arrival hm
  exact initial_of_greeting (by
    simpa [alternating, opening, asking, accepting, greetingAgain, closing] using hm)

/-- The second connection, though refused, has the second queue, and each queue has had one. -/
theorem two_queues_in_turn :
    Run .datagram (paired.trace alternating) alternated ∧
      answers (paired.trace alternating) = [(0, .accept), (1, .refuse "one is enough")] ∧
      alternated.routes.length = 2 ∧ alternated.queues.assignments = 2 ∧
      (∀ r, alternated.routes[1]? = some r → r.connection.queueIndex = 1) ∧
      alternated.assigned 2 0 = 1 ∧ alternated.assigned 2 0 ≤ alternated.assigned 2 1 + 1 := by
  have hr := (assigned_in_turn run_alternated).1
  have hq : alternated.queues.assignments = 2 := hr.drawn
  exact ⟨run_alternated, rfl, rfl, hq, fun r hi => (hr.index 1 r hi (by decide)).1, rfl,
    hr.balanced 2 0 1 (Nat.le_refl _) (by decide) (by decide) (by decide)⟩

end Duplex.Transport
