import Duplex.Proofs.Socket.Contracts

/-!
# Receives that are outstanding together

Several receives may be outstanding on a datagram socket, and any of them may be cancelled at any
time. `Leads` says what an event makes of a socket and its receives.

What the flags of the socket say has happened (`Marks`, `Leads.marks`). Who waits for a turn is
outstanding, and the other way round (`Line`, `Leads.line`), so that a turn never stays with a
receive that is gone: somebody gets on, unless there is nothing to read (`Line.exists_end`).
-/

namespace Duplex.Socket.Datagram

/-! ## Histories -/

/-- A datagram socket and its unfinished receives. -/
structure Readers where
  socket : Datagram
  /-- The unfinished receives, by number. -/
  calls : Nat → Option Receive := fun _ => none
  /-- The number of the next receive. -/
  next : Nat := 0

/-- A new socket, on which nobody receives. -/
def opened (size capacity : Nat) : Readers := { socket := create size capacity }

/-- The receive of that number stands at another place, or no longer exists. -/
def Readers.put (number : Nat) (call : Option Receive) (socket : Datagram) (s : Readers) :
    Readers :=
  { s with socket, calls := fun n => if n = number then call else s.calls n }

/-- What happens to a socket and its receives. -/
inductive Event where
  | accepted (datagram : Bytes)
  /-- There was no room for a datagram. -/
  | refused (datagram : Bytes)
  /-- The last sender of datagrams is gone. -/
  | feedEnded
  | started (number room : Nat)
  /-- A look at a receive does not end it. -/
  | looked (number : Nat)
  | ended (number room : Nat) (result : Except IoError Bytes)
  | cancelled (number : Nat)
  | shutDown
  | disposed
  /-- A send goes on, or the network changes. -/
  | sending

/-- What an event makes of a socket and its receives. -/
inductive Leads : Readers → Event → Readers → Prop
  | accepted {s datagram socket} (hf : s.socket.fed = true)
    (h : s.socket.offer datagram = (.accepted, socket)) :
    Leads s (.accepted datagram) { s with socket }
  | refused {s datagram socket} (hf : s.socket.fed = true)
    (h : s.socket.offer datagram = (.full, socket)) :
    Leads s (.refused datagram) { s with socket }
  | feedEnded {s} : Leads s .feedEnded { s with socket := { s.socket with fed := false } }
  | started {s} (room : Nat) :
    Leads s (.started s.next room)
      ({ s with next := s.next + 1 }.put s.next (some (Socket.datagram.receive room s.socket).1)
        (Socket.datagram.receive room s.socket).2)
  | waited {s number call socket} (hc : s.calls number = some call)
    (h : s.socket.pollReceive call = (.pending, socket)) :
    Leads s (.looked number) { s with socket }
  | moved {s number call next socket} (hc : s.calls number = some call)
    (h : s.socket.pollReceive call = (.again next, socket)) :
    Leads s (.looked number) (s.put number (some next) socket)
  | ended {s number call result socket} (hc : s.calls number = some call)
    (h : s.socket.pollReceive call = (.done result, socket)) :
    Leads s (.ended number call.room result) (s.put number none socket)
  | cancelled {s number call} (hc : s.calls number = some call) :
    Leads s (.cancelled number) (s.put number none (s.socket.abandonReceive call))
  | shutDown {s} : Leads s .shutDown { s with socket := s.socket.shutdown.2 }
  | disposed {s} : Leads s .disposed { s with socket := s.socket.dispose }
  | sending {s link emitted} : Leads s .sending { s with socket := { s.socket with link, emitted } }

/-! ## Effects on the socket -/

theorem of_offer_accepted {socket socket' : Datagram} {datagram : Bytes}
    (h : socket.offer datagram = (.accepted, socket')) :
    socket' = { socket with queue := socket.queue ++ [datagram] } := by
  rw [offer] at h
  split at h <;> cases h
  rfl

theorem of_offer_full {socket socket' : Datagram} {datagram : Bytes}
    (h : socket.offer datagram = (.full, socket')) : socket' = socket := by
  rw [offer] at h
  split at h <;> cases h
  rfl

/-- A receive that is given up changes who waits for a turn. -/
theorem abandonReceive_frame (call : Receive) (socket : Datagram) :
    ∃ turns, socket.abandonReceive call = { socket with turns } := by
  cases call <;> exact ⟨_, rfl⟩

variable {s t : Readers} {e : Event} {h : List Event} {socket : Datagram}

/-! ## Flags -/

/-- What the flags of a socket say has happened to it. -/
structure Marks (h : List Event) (socket : Datagram) : Prop where
  closed : socket.closed = true ↔ .shutDown ∈ h ∨ .disposed ∈ h
  disposed : socket.disposed = true ↔ .disposed ∈ h
  fed : socket.fed = false ↔ .feedEnded ∈ h

/-- Whether an event raises a flag. -/
def Event.flags : Event → Bool
  | feedEnded | shutDown | disposed => true
  | _ => false

theorem Marks.other (m : Marks h socket) {socket' : Datagram} (hc : socket'.closed = socket.closed)
    (hd : socket'.disposed = socket.disposed) (hf : socket'.fed = socket.fed)
    (he : e.flags = false) : Marks (h ++ [e]) socket' := by
  have same : ∀ {e'}, e'.flags = true → (e' ∈ h ++ [e] ↔ e' ∈ h) := by
    intro e' he'
    rw [List.mem_append, List.mem_singleton, or_iff_left]
    rintro rfl
    cases he.symm.trans he'
  constructor
  · rw [hc, m.closed, same rfl, same rfl]
  · rw [hd, m.disposed, same rfl]
  · rw [hf, m.fed, same rfl]

theorem Leads.marks (st : Leads s e t) (m : Marks h s.socket) : Marks (h ++ [e]) t.socket := by
  cases st with
  | shutDown =>
    exact ⟨by simp [shutdown], by simp [shutdown, m.disposed], by simp [shutdown, m.fed]⟩
  | disposed => exact ⟨by simp [dispose], by simp [dispose], by simp [dispose, m.fed]⟩
  | feedEnded => exact ⟨by simp [m.closed], by simp [m.disposed], by simp⟩
  | accepted _ ho =>
    obtain rfl := of_offer_accepted ho
    exact m.other rfl rfl rfl rfl
  | refused _ ho =>
    obtain rfl := of_offer_full ho
    exact m.other rfl rfl rfl rfl
  | started | sending => exact m.other rfl rfl rfl rfl
  | @cancelled _ call =>
    obtain ⟨_, e⟩ := abandonReceive_frame call s.socket
    rw [e]
    exact m.other rfl rfl rfl rfl
  | @waited _ call _ _ hp | @moved _ call _ _ _ hp | @ended _ call _ _ _ hp =>
    obtain ⟨_, _, _, _, e⟩ := pollReceive_frame call s.socket
    rw [hp] at e
    obtain rfl := e
    exact m.other rfl rfl rfl rfl

/-! ## The line -/

section Line

variable {number : Nat} {room ticket : Nat} {call : Receive}

theorem calls_put_none {n : Nat} :
    (s.put number none socket).calls n = some call ↔ n ≠ number ∧ s.calls n = some call := by
  simp only [Readers.put]
  split <;> simp [*]

theorem calls_put_some {n : Nat} {next : Receive} :
    (s.put number (some next) socket).calls n = some call ↔
      n = number ∧ next = call ∨ n ≠ number ∧ s.calls n = some call := by
  simp only [Readers.put]
  split <;> simp [*]

/-- Who waits for a turn is outstanding, and the other way round. -/
structure Line (s : Readers) : Prop where
  began : ∀ {number call}, s.calls number = some call → number < s.next
  ticket_lt : ∀ {ticket}, ticket ∈ s.socket.turns → ticket < s.socket.nextTicket
  owned : ∀ {ticket}, ticket ∈ s.socket.turns →
    ∃ number room, s.calls number = some (.queued ticket room)
  waits : ∀ {number ticket room}, s.calls number = some (.queued ticket room) →
    ticket ∈ s.socket.turns
  alone : ∀ {number number' ticket room room'}, s.calls number = some (.queued ticket room) →
    s.calls number' = some (.queued ticket room') → number = number'

namespace Line

theorem congr (l : Line s) (ht : socket.turns = s.socket.turns)
    (hn : socket.nextTicket = s.socket.nextTicket) : Line { s with socket } where
  began := l.began
  ticket_lt := by rw [ht, hn]; exact l.ticket_lt
  owned := by rw [ht]; exact l.owned
  waits := by rw [ht]; exact l.waits
  alone := l.alone

theorem start (l : Line s) (room : Nat) :
    Line ({ s with next := s.next + 1 }.put s.next (some (.entering room)) s.socket) := by
  -- Nobody has the number yet.
  have hne : ∀ {number call}, s.calls number = some call → number ≠ s.next := fun h =>
    Nat.ne_of_lt (l.began h)
  constructor
  · intro number call h
    show number < s.next + 1
    rcases calls_put_some.mp h with ⟨rfl, -⟩ | ⟨-, h⟩
    · omega
    · have hlt := l.began h
      omega
  · exact l.ticket_lt
  · intro ticket ht
    obtain ⟨number, room', h⟩ := l.owned ht
    exact ⟨number, room', calls_put_some.mpr (.inr ⟨hne h, h⟩)⟩
  · intro number ticket room' h
    rcases calls_put_some.mp h with ⟨-, h⟩ | ⟨-, h⟩
    · cases h
    · exact l.waits h
  · intro number number' ticket room₁ room₂ h h'
    rcases calls_put_some.mp h with ⟨-, h⟩ | ⟨-, h⟩
    · cases h
    · rcases calls_put_some.mp h' with ⟨-, h'⟩ | ⟨-, h'⟩
      · cases h'
      · exact l.alone h h'

theorem queue (l : Line s) (hc : s.calls number = some (.entering room)) :
    Line (s.put number (some (.queued s.socket.nextTicket room))
      { s.socket with
        turns := s.socket.turns ++ [s.socket.nextTicket]
        nextTicket := s.socket.nextTicket + 1 }) := by
  -- Nobody has the ticket yet.
  have hne : ∀ {n ticket room'}, s.calls n = some (.queued ticket room') →
      ticket < s.socket.nextTicket := fun h => l.ticket_lt (l.waits h)
  constructor
  · intro n call h
    show n < s.next
    rcases calls_put_some.mp h with ⟨rfl, -⟩ | ⟨-, h⟩
    · exact l.began hc
    · exact l.began h
  · intro ticket ht
    show ticket < s.socket.nextTicket + 1
    rcases List.mem_append.mp ht with ht | ht
    · have hlt := l.ticket_lt ht
      omega
    · obtain rfl := List.mem_singleton.mp ht
      omega
  · intro ticket ht
    rcases List.mem_append.mp ht with ht | ht
    · obtain ⟨n, room', h⟩ := l.owned ht
      refine ⟨n, room', calls_put_some.mpr (.inr ⟨?_, h⟩)⟩
      rintro rfl
      cases hc.symm.trans h
    · obtain rfl := List.mem_singleton.mp ht
      exact ⟨number, room, calls_put_some.mpr (.inl ⟨rfl, rfl⟩)⟩
  · intro n ticket room' h
    show ticket ∈ s.socket.turns ++ [s.socket.nextTicket]
    rcases calls_put_some.mp h with ⟨-, h⟩ | ⟨-, h⟩
    · cases h
      exact List.mem_append_right _ (List.mem_singleton.mpr rfl)
    · exact List.mem_append_left _ (l.waits h)
  · intro n n' ticket room₁ room₂ h h'
    rcases calls_put_some.mp h with ⟨e, hq⟩ | ⟨-, hq⟩ <;>
      rcases calls_put_some.mp h' with ⟨e', hq'⟩ | ⟨-, hq'⟩
    · exact e.trans e'.symm
    · cases hq
      exact absurd (hne hq') (Nat.lt_irrefl _)
    · cases hq'
      exact absurd (hne hq) (Nat.lt_irrefl _)
    · exact l.alone hq hq'

/-- A receive that never waited for a turn goes. -/
theorem drop (l : Line s) (hc : s.calls number = some (.entering room)) :
    Line (s.put number none s.socket) where
  began h := l.began (calls_put_none.mp h).2
  ticket_lt := l.ticket_lt
  owned ht := by
    obtain ⟨n, room', h⟩ := l.owned ht
    refine ⟨n, room', calls_put_none.mpr ⟨?_, h⟩⟩
    rintro rfl
    cases hc.symm.trans h
  waits h := l.waits (calls_put_none.mp h).2
  alone h h' := l.alone (calls_put_none.mp h).2 (calls_put_none.mp h').2

/-- A receive goes and gives its place in the line up. -/
theorem leave (l : Line s) (hc : s.calls number = some (.queued ticket room))
    (ht : socket.turns = s.socket.turns) (hn : socket.nextTicket = s.socket.nextTicket) :
    Line (s.put number none (socket.leave ticket)) := by
  have mem : ∀ {ticket'}, ticket' ∈ (socket.leave ticket).turns ↔
      ticket' ∈ s.socket.turns ∧ ticket' ≠ ticket := by
    simp [Datagram.leave, ht]
  constructor
  · exact fun h => l.began (calls_put_none.mp h).2
  · intro ticket' h
    show ticket' < socket.nextTicket
    rw [hn]
    exact l.ticket_lt (mem.mp h).1
  · intro ticket' h
    obtain ⟨ht', hne⟩ := mem.mp h
    obtain ⟨n, room', hq⟩ := l.owned ht'
    refine ⟨n, room', calls_put_none.mpr ⟨fun e => ?_, hq⟩⟩
    rw [e, hc] at hq
    cases hq
    exact hne rfl
  · intro n ticket' room' h
    obtain ⟨hne, hq⟩ := calls_put_none.mp h
    refine mem.mpr ⟨l.waits hq, fun e => ?_⟩
    rw [e] at hq
    exact hne (l.alone hq hc)
  · exact fun h h' => l.alone (calls_put_none.mp h).2 (calls_put_none.mp h').2

/-- Two looks end some receive that is outstanding, unless there is nothing to read and more can
come. -/
theorem exists_end (l : Line s) (hc : s.calls number = some call) :
    (∃ number call result socket, s.calls number = some call ∧
      Progress.poll pollReceive 2 call s.socket = (.inr result, socket)) ∨
    s.socket.unread = [] ∧ s.socket.fed = true ∧ s.socket.closed = false ∧
      s.socket.disposed = false := by
  have idle : ∀ {room'}, s.socket.take room' = none → s.socket.unread = [] ∧
      s.socket.fed = true ∧ s.socket.closed = false ∧ s.socket.disposed = false := by
    intro room' hx
    obtain ⟨hr, hq, hf, hc, hd⟩ := take_eq_none_iff.mp hx
    exact ⟨by rw [unread, hr, hq]; rfl, hf, hc, hd⟩
  cases ht : s.socket.turns with
  | cons first turns =>
    -- The first in line is at its turn.
    obtain ⟨n, room', hn⟩ := l.owned (ht ▸ List.mem_cons_self)
    have hf : s.socket.turns.head? = some first := by rw [ht]; rfl
    cases hx : s.socket.take room' with
    | none => exact .inr (idle hx)
    | some x =>
      obtain ⟨result, socket⟩ := x
      refine .inl ⟨n, _, result, socket.leave first, hn, ?_⟩
      simp only [Progress.poll, pollReceive, if_pos hf, hx]
  | nil =>
    cases call with
    | queued ticket room => exact absurd (ht ▸ l.waits hc) List.not_mem_nil
    | entering room =>
      by_cases hd : s.socket.disposed = true
      · refine .inl ⟨number, _, .error .socketDisposed, s.socket, hc, ?_⟩
        simp only [Progress.poll, pollReceive, if_pos hd]
      · -- Its first look makes it the only one in line, and its second is at its turn.
        let queued : Datagram :=
          { s.socket with
            turns := s.socket.turns ++ [s.socket.nextTicket]
            nextTicket := s.socket.nextTicket + 1 }
        have hq : s.socket.pollReceive (.entering room) =
            (.again (.queued s.socket.nextTicket room), queued) := by rw [pollReceive, if_neg hd]
        have hh : queued.turns.head? = some s.socket.nextTicket := by
          show (s.socket.turns ++ [s.socket.nextTicket]).head? = _
          rw [ht]
          rfl
        cases hx : queued.take room with
        | none =>
          have hn := take_eq_none_iff.mp hx
          have hx : s.socket.take room = none := take_eq_none_iff.mpr hn
          exact .inr (idle hx)
        | some x =>
          obtain ⟨result, socket⟩ := x
          refine .inl ⟨number, _, result, socket.leave s.socket.nextTicket, hc, ?_⟩
          simp only [Progress.poll, hq]
          simp only [pollReceive, if_pos hh, hx]

end Line

theorem Leads.line (st : Leads s e t) (l : Line s) : Line t := by
  cases st with
  | accepted _ ho =>
    obtain rfl := of_offer_accepted ho
    exact l.congr rfl rfl
  | refused _ ho =>
    obtain rfl := of_offer_full ho
    exact l
  | feedEnded | shutDown | disposed | sending => exact l.congr rfl rfl
  | started room => exact l.start room
  | @cancelled number call hc =>
    cases call with
    | entering => exact l.drop hc
    | queued => exact l.leave hc rfl rfl
  | @waited number call _ hc hp =>
    have hl := receiveLook call s.socket
    rw [hp] at hl
    cases hl with
    | behind | waits => exact l
  | @moved number call _ _ hc hp =>
    have hl := receiveLook call s.socket
    rw [hp] at hl
    cases hl with
    | queued => exact l.queue hc
  | @ended number call _ _ hc hp =>
    have hl := receiveLook call s.socket
    rw [hp] at hl
    cases hl with
    | refused => exact l.drop hc
    | served _ h =>
      obtain ⟨⟨_, _, rfl⟩, -⟩ := take_frame h
      exact l.leave hc rfl rfl

end Line

end Duplex.Socket.Datagram
