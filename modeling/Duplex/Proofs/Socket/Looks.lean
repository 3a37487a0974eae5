import Duplex.Socket.Datagram

/-!
# Looks at calls on a datagram socket

`Taken` lists what a receive finds at its turn, `ReceiveLook` what a look at a receive finds, at its
turn or before it, and `SendLook` what a look at a send of one region finds. What is proved of such
looks is proved by these cases.

What a look at a receive yields was at the front of what is unread, and nothing else is missing from
there (`pollReceive_unread`). A receive at its turn has to wait only while there is nothing to read
and more can come (`take_eq_none_iff`).
-/

namespace Duplex.Socket.Datagram

/-! ## The turn of a receive -/

/-- What a receive finds at its turn. -/
inductive Taken (room : Nat) (s : Datagram) : Option (Except IoError Bytes × Datagram) → Prop
  /-- A datagram that was read in part comes first, whatever has happened to the socket. -/
  | rest {rest} (hr : s.remainder = some rest) :
    Taken room s (some (.ok (s.serve room rest).1, (s.serve room rest).2))
  | disposed (hr : s.remainder = none) (hd : s.disposed = true) :
    Taken room s (some (.error .socketDisposed, s))
  | shutDown (hr : s.remainder = none) (hd : s.disposed = false) (hc : s.closed = true) :
    Taken room s (some (.ok [], s))
  | datagram {datagram queue} (hr : s.remainder = none) (hd : s.disposed = false)
    (hc : s.closed = false) (hq : s.queue = datagram :: queue) :
    Taken room s (some (.ok ({ s with queue }.serve room datagram).1,
      ({ s with queue }.serve room datagram).2))
  | fedOut (hr : s.remainder = none) (hd : s.disposed = false) (hc : s.closed = false)
    (hq : s.queue = []) (hf : s.fed = false) : Taken room s (some (.ok [], s))
  | nothing (hr : s.remainder = none) (hd : s.disposed = false) (hc : s.closed = false)
    (hq : s.queue = []) (hf : s.fed = true) : Taken room s none

theorem taken (room : Nat) (s : Datagram) : Taken room s (s.take room) := by
  rw [take]
  split
  · rename_i rest hr
    exact .rest hr
  · rename_i hr
    by_cases hd : s.disposed = true
    · rw [if_pos hd]
      exact .disposed hr hd
    rw [if_neg hd]
    have hd : s.disposed = false := Bool.eq_false_iff.mpr hd
    by_cases hc : s.closed = true
    · rw [if_pos hc]
      exact .shutDown hr hd hc
    rw [if_neg hc]
    have hc : s.closed = false := Bool.eq_false_iff.mpr hc
    split
    · exact .datagram hr hd hc ‹_›
    · rename_i hq
      by_cases hf : s.fed = true
      · rw [if_pos hf]
        exact .nothing hr hd hc hq hf
      · rw [if_neg hf]
        exact .fedOut hr hd hc hq (Bool.eq_false_iff.mpr hf)

theorem take_eq_none_iff {s : Datagram} {room : Nat} : s.take room = none ↔
    s.remainder = none ∧ s.queue = [] ∧ s.fed = true ∧ s.closed = false ∧ s.disposed = false := by
  constructor
  · intro h
    have ht := taken room s
    rw [h] at ht
    cases ht with
    | nothing hr hd hc hq hf => exact ⟨hr, hq, hf, hc, hd⟩
  · rintro ⟨hr, hq, hf, hc, hd⟩
    simp only [take, hr, hq, hf, hc, hd]
    rfl

/-- What is found at a turn fits into the buffer, and finding it changes what is to come at most. -/
theorem take_frame {s t : Datagram} {room : Nat} {result : Except IoError Bytes}
    (h : s.take room = some (result, t)) :
    (∃ remainder queue, t = { s with remainder, queue }) ∧
      ∀ received, result = .ok received → received.length ≤ room := by
  have ht := taken room s
  rw [h] at ht
  cases ht with
  | rest | datagram =>
    refine ⟨⟨_, _, rfl⟩, ?_⟩
    rintro _ ⟨⟩
    exact List.length_take_le _ _
  | disposed => exact ⟨⟨_, _, rfl⟩, nofun⟩
  | shutDown | fedOut =>
    refine ⟨⟨_, _, rfl⟩, ?_⟩
    rintro _ ⟨⟩
    exact Nat.zero_le _

/-! ## Receives -/

/-- What a look at a receive finds, and what it leads to. -/
inductive ReceiveLook (s : Datagram) :
    Receive → Progress Receive (Except IoError Bytes) × Datagram → Prop
  | refused {room} (hd : s.disposed = true) :
    ReceiveLook s (.entering room) (.done (.error .socketDisposed), s)
  | queued {room} (hd : s.disposed = false) :
    ReceiveLook s (.entering room) (.again (.queued s.nextTicket room),
      { s with turns := s.turns ++ [s.nextTicket], nextTicket := s.nextTicket + 1 })
  | behind {ticket room} (ht : s.turns.head? ≠ some ticket) :
    ReceiveLook s (.queued ticket room) (.pending, s)
  | waits {ticket room} (ht : s.turns.head? = some ticket) (h : s.take room = none) :
    ReceiveLook s (.queued ticket room) (.pending, s)
  | served {ticket room result t} (ht : s.turns.head? = some ticket)
    (h : s.take room = some (result, t)) :
    ReceiveLook s (.queued ticket room) (.done result, t.leave ticket)

theorem receiveLook (call : Receive) (s : Datagram) : ReceiveLook s call (s.pollReceive call) := by
  cases call with
  | entering room =>
    by_cases hd : s.disposed = true
    · rw [pollReceive, if_pos hd]
      exact .refused hd
    · rw [pollReceive, if_neg hd]
      exact .queued (Bool.eq_false_iff.mpr hd)
  | queued ticket room =>
    by_cases ht : s.turns.head? = some ticket
    · rw [pollReceive, if_pos ht]
      split
      · exact .served ht ‹_›
      · exact .waits ht ‹_›
    · rw [pollReceive, if_neg ht]
      exact .behind ht

/-- A look at a receive changes what is to come and who waits for it. -/
theorem pollReceive_frame (call : Receive) (s : Datagram) :
    ∃ remainder queue turns nextTicket,
      (s.pollReceive call).2 = { s with remainder, queue, turns, nextTicket } := by
  have hl := receiveLook call s
  generalize s.pollReceive call = x at hl
  cases hl with
  | refused | queued | behind | waits => exact ⟨_, _, _, _, rfl⟩
  | served _ h =>
    obtain ⟨⟨_, _, rfl⟩, -⟩ := take_frame h
    exact ⟨_, _, _, _, rfl⟩

/-! ## Sends -/

/-- What a look at a send of one region finds, and what it leads to. -/
inductive SendLook (s : Datagram) : Send → Progress Send (Except IoError Nat) × Datagram → Prop
  | shutDown {region} (hc : s.closed = true) :
    SendLook s (.entering region) (.done (.error .socketShutDown), s)
  | entered {region} (hc : s.closed = false) :
    SendLook s (.entering region) (.again (.emitting (cut s.maxSize region) region.length), s)
  | ended {length} : SendLook s (.emitting [] length) (.done (.ok length), s)
  | disposed {datagram waiting length} (hd : s.disposed = true) :
    SendLook s (.emitting (datagram :: waiting) length) (.done (.error .socketDisposed), s)
  | taken {datagram waiting length} (hd : s.disposed = false)
    (hl : s.link datagram.length = .taken) :
    SendLook s (.emitting (datagram :: waiting) length)
      (.again (.emitting waiting length), { s with emitted := s.emitted ++ [datagram] })
  | stalled {datagram waiting length} (hd : s.disposed = false)
    (hl : s.link datagram.length = .stalled) :
    SendLook s (.emitting (datagram :: waiting) length) (.pending, s)
  | failed {datagram waiting length error} (hd : s.disposed = false)
    (hl : s.link datagram.length = .failed error) :
    SendLook s (.emitting (datagram :: waiting) length) (.done (.error error), s)

theorem sendLook (call : Send) (s : Datagram) : SendLook s call (s.pollOne call) := by
  rcases call with region | ⟨_ | ⟨datagram, waiting⟩, length⟩
  case entering =>
    by_cases hc : s.closed = true
    · rw [pollOne, if_pos hc]
      exact .shutDown hc
    · rw [pollOne, if_neg hc]
      exact .entered (Bool.eq_false_iff.mpr hc)
  case emitting.nil => exact .ended
  case emitting.cons =>
    by_cases hd : s.disposed = true
    · rw [pollOne, if_pos hd]
      exact .disposed hd
    rw [pollOne, if_neg hd]
    have hd : s.disposed = false := Bool.eq_false_iff.mpr hd
    split
    · exact .taken hd ‹_›
    · exact .stalled hd ‹_›
    · exact .failed hd ‹_›

/-! ## What is unread -/

/-- What has been offered and not yet received. -/
def unread (s : Datagram) : Bytes := s.remainder.getD [] ++ s.queue.flatten

/-- The bytes with which a look at a receive ends it. -/
def gained : Progress Receive (Except IoError Bytes) → Bytes
  | .done (.ok received) => received
  | _ => []

theorem unread_serve (room : Nat) (datagram : Bytes) (s : Datagram) :
    (s.serve room datagram).1 ++ (s.serve room datagram).2.unread =
      datagram ++ s.queue.flatten := by
  have hr : (if (datagram.drop room).isEmpty then none else some (datagram.drop room)).getD [] =
      datagram.drop room := by
    cases datagram.drop room <;> rfl
  simp only [serve, unread, hr]
  rw [← List.append_assoc, List.take_append_drop]

/-- What is found at a turn comes from the front of what is unread. -/
theorem unread_take {s t : Datagram} {room : Nat} {result : Except IoError Bytes}
    (h : s.take room = some (result, t)) :
    gained (.done result) ++ t.unread = s.unread := by
  have ht := taken room s
  rw [h] at ht
  cases ht with
  | @rest rest hr =>
    refine (unread_serve room rest s).trans ?_
    rw [unread, hr]
    rfl
  | disposed | shutDown | fedOut => rfl
  | @datagram datagram queue hr _ _ hq =>
    refine (unread_serve room datagram { s with queue }).trans ?_
    rw [unread, hr, hq]
    rfl

/-- An offer adds the datagram to what is unread, if it is accepted. -/
theorem unread_offer (datagram : Bytes) (s : Datagram) :
    (s.offer datagram).2.unread =
      s.unread ++ if (s.offer datagram).1 = .accepted then datagram else [] := by
  simp only [offer]
  split
  · simp [unread]
  · exact (List.append_nil _).symm

/-- One look at a receive: what it yields was at the front of what is unread, and the rest stays. -/
theorem pollReceive_unread (call : Receive) (s : Datagram) :
    gained (s.pollReceive call).1 ++ (s.pollReceive call).2.unread = s.unread := by
  have hl := receiveLook call s
  generalize s.pollReceive call = x at hl
  cases hl with
  | refused | queued | behind | waits => rfl
  | served _ h =>
    have hu := unread_take h
    exact hu

end Duplex.Socket.Datagram
