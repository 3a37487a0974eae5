import Duplex.Proofs.Socket.Contracts
import Duplex.Proofs.Socket.Underway

/-!
# Datagrams of a send

A datagram socket sends a region in pieces: datagrams of the greatest size, the last of which may be
shorter (`Pieces`, `pieces_cut`). No piece is of two regions. A send of several regions hands the
network the pieces of all of them in their order (`pollSend_gives`), whatever happens to the socket
in between.

As long as the network takes every datagram and the socket is open, no look at a send has to wait or
fails (`pollSend_calm`), so that the send comes to its end (`exists_poll_calm`). Otherwise it may
end early, and says so (`pollSend_failed`). A send that begins after the socket was shut down never
gets past the beginning of a region (`steady_fresh`). These make up `send_splits`.
-/

namespace Duplex.Socket.Datagram

open scoped Numbers

/-! ## Pieces -/

/-- The datagrams of one region. -/
structure Pieces (size : Nat) (region : Bytes) (datagrams : List Bytes) : Prop where
  flatten : datagrams.flatten = region
  /-- As many as the region has sizes, a part of a size being one more. -/
  length : datagrams.length = (region.length + (size - 1)) / size
  ne_nil : ∀ datagram ∈ datagrams, datagram ≠ []
  length_le : ∀ datagram ∈ datagrams, datagram.length ≤ size
  /-- All but the last are full. -/
  full : ∀ datagram ∈ datagrams.dropLast, datagram.length = size

theorem pieces_cut {size : Nat} (hs : 0 < size) (region : Bytes) :
    Pieces size region (cut size region) := by
  fun_induction cut size region with
  | case1 region h =>
    obtain rfl : region = [] := h.resolve_left (by omega)
    refine ⟨rfl, ?_, nofun, nofun, nofun⟩
    exact (Nat.div_eq_of_lt (by simp only [List.length_nil]; omega)).symm
  | case2 region h next =>
    have hr : 0 < region.length := List.length_pos_iff.mpr fun h0 => h (.inr h0)
    have hd : (region.drop size).length = region.length - size := List.length_drop
    refine ⟨?_, ?_, ?_, ?_, ?_⟩
    · rw [List.flatten_cons, next.flatten, List.take_append_drop]
    · rw [List.length_cons, next.length, hd, ← Nat.add_div_right _ hs]
      by_cases hle : size ≤ region.length
      · congr 1
        omega
      · have one : ∀ count, size ≤ count → count < 2 * size → count / size = 1 :=
          fun count h₁ h₂ => Nat.div_eq_of_lt_le (by omega) (by omega)
        rw [one _ (by omega) (by omega), one _ (by omega) (by omega)]
    · rw [List.forall_mem_cons]
      refine ⟨List.ne_nil_of_length_pos ?_, next.ne_nil⟩
      rw [List.length_take]
      omega
    · rw [List.forall_mem_cons]
      exact ⟨List.length_take_le _ _, next.length_le⟩
    · -- A piece that is not the last has something behind it.
      by_cases hn : cut size (region.drop size) = []
      · rw [hn]
        nofun
      · rw [List.dropLast_cons_of_ne_nil hn, List.forall_mem_cons]
        refine ⟨?_, next.full⟩
        have hne : region.drop size ≠ [] := fun h0 => hn (by rw [h0, cut, if_pos (.inr rfl)])
        have hpos := List.length_pos_iff.mpr hne
        rw [List.length_take]
        omega

/-! ## Looks at a send -/

variable {size : Nat} {s t : Datagram} {call : SendEach Send}

/-- The datagrams that a send of one region has not emitted. -/
def Send.left (size : Nat) : Send → List Bytes
  | entering region => cut size region
  | emitting waiting _ => waiting

/-- A bound on the moves that it has before it. -/
def Send.ahead (size : Nat) : Send → Nat
  | entering region => 1 + (cut size region).length
  | emitting waiting _ => waiting.length

/-- The datagrams that a send has not emitted, its regions being cut into pieces of `size`. -/
def unsent (size : Nat) (call : SendEach Send) : List Bytes :=
  call.left (cut size) (Send.left size)

/-- A bound on the moves that a send has before it. -/
def ahead (size : Nat) : SendEach Send → Nat :=
  SendEach.ahead (fun region => 1 + (cut size region).length) (Send.ahead size)

theorem pollOne_gives (call : Send) (hs : s.maxSize = size) :
    Gives emitted (Send.left size) call s (s.pollOne call) := by
  have hl := sendLook call s
  generalize s.pollOne call = x at hl
  cases hl with
  | shutDown | disposed | stalled | failed => rfl
  | entered =>
    refine ⟨[], (List.append_nil _).symm, ?_⟩
    rw [hs]
    rfl
  | ended => exact ⟨rfl, rfl⟩
  | taken => exact ⟨[_], rfl, rfl⟩

theorem pollOne_ahead {current next : Send} (hs : s.maxSize = size)
    (h : s.pollOne current = (.again next, t)) : next.ahead size < current.ahead size := by
  have hl := sendLook current s
  rw [h] at hl
  cases hl with
  | entered =>
    simp only [Send.ahead, hs]
    omega
  | taken => exact Nat.lt_succ_self _

theorem pollSend_ahead {next : SendEach Send} (hs : s.maxSize = size)
    (h : s.pollSend call = (.again next, t)) : ahead size next < ahead size call :=
  SendEach.ahead_lt (fun _ => rfl) (fun h => pollOne_ahead hs h) h

theorem ahead_begin (size : Nat) (regions : List Bytes) :
    ahead size { waiting := regions } =
      3 * regions.length + (regions.flatMap (cut size)).length := by
  simp only [ahead, SendEach.ahead, Option.elim_none, Nat.zero_add]
  induction regions with
  | nil => rfl
  | cons region regions ih =>
    simp only [List.map_cons, List.sum_cons, List.length_cons, List.flatMap_cons,
      List.length_append, ih]
    omega

theorem pollSend_gives (call : SendEach Send) (hs : s.maxSize = size) :
    Gives emitted (unsent size) call s (s.pollSend call) :=
  SendEach.gives (fun _ => ⟨rfl, rfl⟩) (fun current => pollOne_gives current hs) call

/-- A send waits only for a network that stalls the next datagram. -/
theorem pollSend_pending (h : s.pollSend call = (.pending, t)) :
    s.disposed = false ∧ ∃ datagram rest, unsent size call = datagram :: rest ∧
      s.link datagram.length = .stalled := by
  have hp := polled_pollSend call s
  rw [h] at hp
  cases hp with
  | @waited current _ hc hl =>
    have hx := sendLook current s
    rw [hl] at hx
    cases hx with
    | stalled hd hk => exact ⟨hd, _, _, by rw [unsent, SendEach.left, hc]; rfl, hk⟩

/-- Why a send fails. -/
theorem pollSend_failed {error : IoError} (h : s.pollSend call = (.done (.error error), t)) :
    s.closed = true ∧ error = .socketShutDown ∨ s.disposed = true ∧ error = .socketDisposed ∨
      s.disposed = false ∧ ∃ datagram rest, unsent size call = datagram :: rest ∧
        s.link datagram.length = .failed error := by
  have hp := polled_pollSend call s
  rw [h] at hp
  cases hp with
  | @failed current _ _ hc hl =>
    have hx := sendLook current s
    rw [hl] at hx
    cases hx with
    | shutDown hs => exact .inl ⟨hs, rfl⟩
    | disposed hd => exact .inr (.inl ⟨hd, rfl⟩)
    | failed hd hk =>
      exact .inr (.inr ⟨hd, _, _, by rw [unsent, SendEach.left, hc]; rfl, hk⟩)

/-- The socket is open, and the network takes all datagrams of its size. -/
structure Calm (s : Datagram) : Prop where
  closed : s.closed = false
  disposed : s.disposed = false
  taken : ∀ length ≤ s.maxSize, s.link length = .taken

/-- It neither waits nor fails then. -/
theorem pollSend_calm (hs : Calm s)
    (hl : ∀ datagram ∈ unsent s.maxSize call, datagram.length ≤ s.maxSize) :
    (∀ t, s.pollSend call ≠ (.pending, t)) ∧
      ∀ error t, s.pollSend call ≠ (.done (.error error), t) := by
  have taken : ∀ {datagram rest}, unsent s.maxSize call = datagram :: rest →
      s.link datagram.length = .taken := fun h =>
    hs.taken _ (hl _ (h ▸ List.mem_cons_self))
  constructor
  · intro t h
    obtain ⟨-, _, _, hu, hk⟩ := pollSend_pending h
    cases (taken hu).symm.trans hk
  · intro error t h
    rcases pollSend_failed h with ⟨hc, -⟩ | ⟨hd, -⟩ | ⟨-, _, _, hu, hk⟩
    · cases hs.closed.symm.trans hc
    · cases hs.disposed.symm.trans hd
    · cases (taken hu).symm.trans hk

/-! ## Whole sends -/

/-- Whatever happens to a datagram socket between two looks at a send: datagrams come and are
received, it is shut down and disposed of, the link changes. But nobody else sends, and what is shut
down stays so. -/
structure Elsewhere (s t : Datagram) : Prop where
  maxSize : t.maxSize = s.maxSize
  emitted : t.emitted = s.emitted
  closed : s.closed = true → t.closed = true

theorem elsewhere_offer (datagram : Bytes) (s : Datagram) : Elsewhere s (s.offer datagram).2 := by
  rw [offer]
  split <;> exact ⟨rfl, rfl, id⟩

theorem elsewhere_pollReceive (call : Receive) (s : Datagram) :
    Elsewhere s (s.pollReceive call).2 := by
  obtain ⟨_, _, _, _, e⟩ := pollReceive_frame call s
  rw [e]
  exact ⟨rfl, rfl, id⟩

theorem elsewhere_shutdown (s : Datagram) : Elsewhere s s.shutdown.2 := ⟨rfl, rfl, fun _ => rfl⟩

theorem elsewhere_dispose (s : Datagram) : Elsewhere s s.dispose := ⟨rfl, rfl, fun _ => rfl⟩

theorem steady_maxSize (size : Nat) :
    Steady pollSend Elsewhere fun _ t => t.maxSize = size := by
  have look : ∀ {call x t t'}, t.maxSize = size → pollSend call t = (x, t') →
      t'.maxSize = size := by
    intro call x t t' hs h
    obtain ⟨-, _, e⟩ := pollSend_pays call t
    rw [h] at e
    obtain rfl : t' = _ := e
    exact hs
  exact ⟨fun hs he => he.maxSize.trans hs, look, look⟩

theorem maxSize_underway {start : SendEach Send} {n : Nat} (hs : s.maxSize = size)
    (u : Underway pollSend Elsewhere start s n call t) : t.maxSize = size :=
  u.steady (P := fun _ t => t.maxSize = size) (steady_maxSize size) hs

/-- No region's send has got past its beginning. -/
def Fresh (call : SendEach Send) : Prop :=
  ∀ current, call.current = some current → ∃ region, current = .entering region

/-- Once the socket is shut down it does not get past it. -/
theorem pollSend_fresh {x : Progress (SendEach Send) (Except IoError Nat)} (hs : s.closed = true)
    (hf : Fresh call) (h : s.pollSend call = (x, t)) :
    t = s ∧ ∀ next, x = .again next → Fresh next := by
  have hp := polled_pollSend call s
  rw [h] at hp
  -- The single send in flight finds the socket shut down.
  have shut : ∀ {current x t}, call.current = some current → pollOne current s = (x, t) →
      x = .done (.error .socketShutDown) ∧ t = s := by
    intro current x t hc hl
    obtain ⟨region, rfl⟩ := hf current hc
    rw [pollOne, if_pos hs] at hl
    cases hl
    exact ⟨rfl, rfl⟩
  cases hp with
  | ended => exact ⟨rfl, fun _ h => by cases h⟩
  | begun =>
    refine ⟨rfl, ?_⟩
    rintro _ ⟨⟩ _ ⟨⟩
    exact ⟨_, rfl⟩
  | waited hc hl => cases (shut hc hl).1
  | moved hc hl => cases (shut hc hl).1
  | sent hc hl => cases (shut hc hl).1
  | failed hc hl => exact ⟨(shut hc hl).2, fun _ h => by cases h⟩

theorem steady_fresh (e : List Bytes) :
    Steady pollSend Elsewhere fun call t => t.closed = true ∧ t.emitted = e ∧ Fresh call where
  other h he := ⟨he.closed h.1, he.emitted.trans h.2.1, h.2.2⟩
  waited := by
    rintro call t t' ⟨hc, he, hf⟩ h
    obtain ⟨rfl, -⟩ := pollSend_fresh hc hf h
    exact ⟨hc, he, hf⟩
  moved := by
    rintro call next t t' ⟨hc, he, hf⟩ h
    obtain ⟨rfl, hn⟩ := pollSend_fresh hc hf h
    exact ⟨hc, he, hn _ rfl⟩

/-- What holds of a send of `regions` after `n` moves, at the place `call` and in the state `t`. It
began in the state `s`, and `size` is the size of a datagram. -/
structure InPieces (size : Nat) (regions : List Bytes) (s : Datagram) (n : Nat)
    (call : SendEach Send) (t : Datagram) : Prop where
  /-- The network has taken a front of the datagrams, and the rest is still to be sent. -/
  emitted : ∃ out, t.emitted = s.emitted ++ out ∧
    regions.flatMap (cut size) = out ++ unsent size call
  moves_le : n ≤ 3 * regions.length + (regions.flatMap (cut size)).length
  /-- It goes on, or has succeeded, where nothing is in its way. -/
  calm : Calm t → (∃ next t', pollSend call t = (.again next, t')) ∨
    ∃ total t', pollSend call t = (.done (.ok total), t')
  /-- It waits only for a network that stalls the next datagram. -/
  pending : ∀ t', pollSend call t = (.pending, t') → t'.emitted = t.emitted ∧
    t.disposed = false ∧ ∃ datagram rest, unsent size call = datagram :: rest ∧
      t.link datagram.length = .stalled
  error : ∀ error t', pollSend call t = (.done (.error error), t') → t'.emitted = t.emitted ∧
    (t.closed = true ∧ error = .socketShutDown ∨ t.disposed = true ∧ error = .socketDisposed ∨
      t.disposed = false ∧ ∃ datagram rest, unsent size call = datagram :: rest ∧
        t.link datagram.length = .failed error)
  /-- A send that succeeds has left nothing unsent. -/
  ok : ∀ total t', pollSend call t = (.done (.ok total), t') →
    total = (regions.map List.length).sum ∧
      t'.emitted = s.emitted ++ regions.flatMap (cut size)
  /-- A send that begins after the socket was shut down emits nothing. -/
  shutDown : s.closed = true → t.emitted = s.emitted ∧
    ∀ x t', pollSend call t = (x, t') → t'.emitted = s.emitted

theorem inPieces {regions : List Bytes} {n : Nat} (hs : s.maxSize = size) (hp : 0 < size)
    (u : Underway pollSend Elsewhere { waiting := regions } s n call t) :
    InPieces size regions s n call t := by
  have ht : t.maxSize = size := maxSize_underway hs u
  have hg := pollSend_gives call ht
  obtain ⟨out, ho, hl⟩ := u.gives (P := fun _ t => t.maxSize = size) (steady_maxSize size) hs
    (fun he => he.emitted) fun ht => pollSend_gives _ ht
  have hl : regions.flatMap (cut size) = out ++ unsent size call := hl
  refine ⟨⟨out, ho, hl⟩, ?_, fun hc => ?_, fun t' h => ?_, fun error t' h => ?_,
    fun total t' h => ?_, fun hc => ?_⟩
  · have hm := u.moves_le (P := fun _ t => t.maxSize = size) (ahead size) (steady_maxSize size) hs
      fun ht h => pollSend_ahead ht h
    have hb := ahead_begin size regions
    omega
  · have hle : ∀ datagram ∈ unsent t.maxSize call, datagram.length ≤ t.maxSize := by
      intro datagram hd
      rw [ht] at hd ⊢
      have hd : datagram ∈ regions.flatMap (cut size) := hl ▸ List.mem_append_right _ hd
      obtain ⟨region, -, hd⟩ := List.mem_flatMap.mp hd
      exact (pieces_cut hp region).length_le _ hd
    obtain ⟨hw, hf⟩ := pollSend_calm hc hle
    generalize hx : pollSend call t = x
    obtain ⟨_ | next | error | total, t'⟩ := x
    · exact absurd hx (hw t')
    · exact .inl ⟨next, t', rfl⟩
    · exact absurd hx (hf error t')
    · exact .inr ⟨total, t', rfl⟩
  · rw [h] at hg
    exact ⟨hg, pollSend_pending h⟩
  · rw [h] at hg
    exact ⟨hg, pollSend_failed h⟩
  · have hsum := u.total_eq (fun call t => (pollSend_pays call t).1) h
    rw [h] at hg
    obtain ⟨he, hn⟩ := hg
    rw [hn, List.append_nil] at hl
    exact ⟨by rw [hsum]; simp [SendEach.owed], by rw [he, ho, hl]⟩
  · obtain ⟨hc, he, hf⟩ := u.steady (steady_fresh s.emitted)
      ⟨hc, rfl, (by rintro _ ⟨⟩)⟩
    refine ⟨he, fun x t' h => ?_⟩
    obtain ⟨rfl, -⟩ := pollSend_fresh hc hf h
    exact he

/-- A send comes to its end if nothing is in its way and it is looked at often enough. -/
theorem exists_poll_calm {regions : List Bytes} (hs : s.maxSize = size) (hp : 0 < size)
    (hc : Calm s) :
    ∃ looks t, Progress.poll pollSend looks { waiting := regions } s =
        (.inr (.ok (regions.map List.length).sum), t) ∧
      t.emitted = s.emitted ++ regions.flatMap (cut size) := by
  let P (call : SendEach Send) (t : Datagram) : Prop :=
    Calm t ∧ ∃ n, Underway pollSend Elsewhere { waiting := regions } s n call t
  have hmoved : ∀ {call next t t'}, P call t → pollSend call t = (.again next, t') →
      P next t' ∧ ahead size next < ahead size call := by
    rintro call next t t' ⟨hc, n, u⟩ h
    refine ⟨⟨?_, n + 1, u.moved h⟩, pollSend_ahead (maxSize_underway hs u) h⟩
    obtain ⟨-, _, e⟩ := pollSend_pays call t
    rw [h] at e
    obtain rfl : t' = _ := e
    exact ⟨hc.closed, hc.disposed, hc.taken⟩
  have hwaits : ∀ {call t t'}, P call t → pollSend call t ≠ (.pending, t') := by
    rintro call t t' ⟨hc, n, u⟩ h
    rcases (inPieces hs hp u).calm hc with ⟨_, _, hr⟩ | ⟨_, _, hr⟩ <;> rw [h] at hr <;> cases hr
  obtain ⟨looks, call, t, result, t', hpoll, ⟨hc, n, u⟩, hd⟩ :=
    exists_poll hmoved hwaits ⟨hc, 0, .begun⟩
  have hi := inPieces hs hp u
  rcases hi.calm hc with ⟨_, _, hr⟩ | ⟨total, _, hr⟩ <;> rw [hd] at hr <;> cases hr
  obtain ⟨rfl, he⟩ := hi.ok total t' hd
  exact ⟨looks, t', hpoll, he⟩

/-- A send of regions over a datagram socket. The datagrams are the pieces of the regions, in their
order, and make up the regions. Where the network takes every datagram and the socket is open, the
send comes to its end, and the network has taken all of them. Whatever happens to the socket in the
meantime, the send is where `InPieces` says. -/
theorem send_splits {size capacity : Nat} (regions : List Bytes)
    (hs : s.maxSize = (create size capacity).maxSize) :
    (∀ region ∈ regions, Pieces (max size 1) region (cut (max size 1) region)) ∧
    (regions.flatMap (cut (max size 1))).flatten = regions.flatten ∧
    (Calm s → ∃ looks t, Progress.poll datagram.pollSend looks (datagram.sendVectored regions s).1
        (datagram.sendVectored regions s).2 = (.inr (.ok (regions.map List.length).sum), t) ∧
      t.emitted = s.emitted ++ regions.flatMap (cut (max size 1))) ∧
    ∀ {n call t}, Underway datagram.pollSend Elsewhere (datagram.sendVectored regions s).1
      (datagram.sendVectored regions s).2 n call t → InPieces (max size 1) regions s n call t := by
  have hp : 0 < max size 1 := by omega
  refine ⟨fun region _ => pieces_cut hp region, ?_, fun hc => ?_, fun u => inPieces hs hp u⟩
  · induction regions with
    | nil => rfl
    | cons region regions ih =>
      rw [List.flatMap_cons, List.flatten_append, (pieces_cut hp region).flatten, ih,
        List.flatten_cons]
  · exact exists_poll_calm hs hp hc

/-- Datagrams of four bytes carry three regions, the second of which is empty. If the socket is
disposed of after the first datagram, the next look fails. If it is shut down then, the rest of the
region is sent, and the next region fails. A send after that emits nothing. -/
theorem cut_short_in_pieces :
    (∃ looks t, Progress.poll pollSend looks { waiting := [[1, 2, 3, 4, 5, 6], [], [7, 8]] }
        (create 4 8) = (.inr (.ok 8), t) ∧ t.emitted = [[1, 2, 3, 4], [5, 6], [7, 8]]) ∧
    (∃ call t t', Underway pollSend Elsewhere { waiting := [[1, 2, 3, 4, 5, 6], [], [7, 8]] }
        (create 4 8) 3 call t ∧ pollSend call t = (.done (.error .socketDisposed), t') ∧
      t'.emitted = t.emitted ∧ t.emitted = [[1, 2, 3, 4]]) ∧
    (∃ call t t', Underway pollSend Elsewhere { waiting := [[1, 2, 3, 4, 5, 6], [], [7, 8]] }
        (create 4 8) 6 call t ∧ pollSend call t = (.done (.error .socketShutDown), t') ∧
      t'.emitted = t.emitted ∧ t.emitted = [[1, 2, 3, 4], [5, 6]]) ∧
    ∃ call t t', Underway pollSend Elsewhere { waiting := [[7, 8]] }
        (create 4 8).shutdown.2 1 call t ∧ pollSend call t = (.done (.error .socketShutDown), t') ∧
      t'.emitted = [] := by
  have hc : cut 4 [1, 2, 3, 4, 5, 6] = [[1, 2, 3, 4], [5, 6]] := by simp [cut]
  have hall : [[1, 2, 3, 4, 5, 6], [], [7, 8]].flatMap (cut (max 4 1)) =
      [[1, 2, 3, 4], [5, 6], [7, 8]] := by simp [cut]
  have hs : (create 4 8).maxSize = (create 4 8).maxSize := rfl
  obtain ⟨-, -, calm, course⟩ := send_splits [[1, 2, 3, 4, 5, 6], [], [7, 8]] hs
  have entered : Underway pollSend Elsewhere { waiting := [[1, 2, 3, 4, 5, 6], [], [7, 8]] }
      (create 4 8) 2
      { current := some (.emitting [[1, 2, 3, 4], [5, 6]] 6), waiting := [[], [7, 8]] }
      (create 4 8) :=
    .moved (.moved .begun rfl) (by simp [pollSend, SendEach.poll, pollOne, hc, create])
  have first : Underway pollSend Elsewhere { waiting := [[1, 2, 3, 4, 5, 6], [], [7, 8]] }
      (create 4 8) 3 { current := some (.emitting [[5, 6]] 6), waiting := [[], [7, 8]] }
      { create 4 8 with emitted := [[1, 2, 3, 4]] } := .moved entered rfl
  have disposed := Underway.other first (elsewhere_dispose _)
  have shut := Underway.other first (elsewhere_shutdown _)
  have second : Underway pollSend Elsewhere { waiting := [[1, 2, 3, 4, 5, 6], [], [7, 8]] }
      (create 4 8) 6 { current := some (.entering []), waiting := [[7, 8]], total := 6 } _ :=
    .moved (.moved (.moved shut rfl) rfl) rfl
  have late : Underway pollSend Elsewhere { waiting := [[7, 8]] } (create 4 8).shutdown.2 1
      { current := some (.entering [7, 8]), waiting := [] } _ := .moved .begun rfl
  refine ⟨?_, ?_, ?_, ?_⟩
  · obtain ⟨looks, t, hp, he⟩ := calm ⟨rfl, rfl, fun _ _ => rfl⟩
    exact ⟨looks, t, hp, he.trans hall⟩
  · exact ⟨_, _, _, disposed, rfl, ((course disposed).error _ _ rfl).1, rfl⟩
  · exact ⟨_, _, _, second, rfl, ((course second).error _ _ rfl).1, rfl⟩
  · have hs : (create 4 8).shutdown.2.maxSize = (create 4 8).maxSize := rfl
    obtain ⟨-, -, -, course⟩ := send_splits [[7, 8]] hs
    exact ⟨_, _, _, late, rfl, ((course late).shutDown rfl).2 _ _ rfl⟩

end Duplex.Socket.Datagram
