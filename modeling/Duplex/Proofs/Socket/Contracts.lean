import Duplex.Proofs.Socket.Looks
import Duplex.Proofs.Socket.Medium
import Duplex.Socket.Stream

/-!
# The contracts of the sockets

Both sockets of a transport keep the contracts: the stream socket on every kernel stream whose
reads stay within their buffers (`stream_endsOnDispose`, `stream_fillsWithin`,
`stream_sendsWhole`), the datagram socket whatever datagrams come and whatever becomes of its
link (`datagram_endsOnDispose`, `datagram_fillsWithin`, `datagram_sendsWhole`).
-/

namespace Duplex.Socket

open scoped Numbers

/-! ## The stream socket -/

/-- A stream socket on a kernel stream that changes in any way. -/
def Medium.stream (K : Kernel) : Medium (stream K) where
  Initial s := s.disposed = false
  Change s s' := s'.disposed = s.disposed

namespace Stream

variable {K : Kernel}

/-- One look at a receive asks the kernel unless the socket was disposed of. -/
theorem pollReceive_spec (room : Nat) (s : State K) :
    (pollReceive room s).2.disposed = s.disposed ∧
      (∀ call s', pollReceive room s ≠ (.again call, s')) ∧
      (s.disposed = true → (pollReceive room s).1 = .done (.error .socketDisposed)) := by
  simp only [pollReceive]
  split
  · exact ⟨rfl, fun _ _ => (by rintro ⟨⟩), fun _ => rfl⟩
  · rename_i hd
    split <;> exact ⟨rfl, fun _ _ => (by rintro ⟨⟩), fun h => absurd h hd⟩

/-- What a send of a stream socket owes: what it will say it wrote. -/
def Send.owed : Send → Nat
  | writing _ total => total
  | gathering regions => (regions.map List.length).sum
  | finishing _ total => total

theorem writeSome_pays {call : Send} (region : Bytes) {next : Bytes → Send} (s : State K)
    (hnext : ∀ left, (next left).owed = call.owed) :
    Pays Send.owed s.disposed call (writeSome region next s).1 ∧
      (writeSome region next s).2.disposed = s.disposed := by
  simp only [writeSome]
  split
  · exact ⟨trivial, rfl⟩
  · rename_i hd
    split
    · exact ⟨Bool.eq_false_iff.mpr hd, rfl⟩
    · exact ⟨trivial, rfl⟩
    · exact ⟨hnext _, rfl⟩
    · exact ⟨trivial, rfl⟩

theorem pollSend_pays (call : Send) (s : State K) :
    Pays Send.owed s.disposed call (pollSend call s).1 ∧
      (pollSend call s).2.disposed = s.disposed := by
  rcases call with ⟨_ | ⟨byte, left⟩, total⟩ | regions | ⟨_ | ⟨_ | ⟨byte, region⟩, regions⟩, total⟩
  case writing.nil | finishing.nil | finishing.cons.nil => exact ⟨rfl, rfl⟩
  case writing.cons | finishing.cons.cons => exact writeSome_pays _ s fun _ => rfl
  case gathering =>
    simp only [pollSend]
    split
    · exact ⟨trivial, rfl⟩
    · rename_i hd
      split
      · exact ⟨Bool.eq_false_iff.mpr hd, rfl⟩
      · exact ⟨rfl, rfl⟩
      · exact ⟨trivial, rfl⟩

theorem disposed_dispose (s : State K) : (dispose s).disposed = true := by
  simp only [dispose]
  split
  · assumption
  · rfl

end Stream

/-- What uses of a stream socket keep. -/
theorem stream_used {K : Kernel} {r t d s} (u : (Medium.stream K).Used r t d s) :
    Stream.State.disposed s = d ∧ (∀ call room, r = some (call, room) → call = room) ∧
      ∀ call regions, t = some (call, regions) →
        Stream.Send.owed call = (regions.map List.length).sum := by
  induction u with
  | initial h => exact ⟨h, nofun, nofun⟩
  | change _ h ih => exact ⟨h.trans ih.1, ih.2⟩
  | receive _ room ih =>
    refine ⟨ih.1, ?_, ih.2.2⟩
    rintro _ _ ⟨⟩; rfl
  | receiveAgain _ h ih => exact absurd h ((Stream.pollReceive_spec _ _).2.1 _ _)
  | receiveDone _ h ih =>
    obtain rfl : _ = _ := congrArg Prod.snd h
    exact ⟨(Stream.pollReceive_spec _ _).1.trans ih.1, nofun, ih.2.2⟩
  | send _ region ih =>
    refine ⟨ih.1, ih.2.1, ?_⟩
    rintro _ _ ⟨⟩; exact (Nat.add_zero _).symm
  | sendVectored _ regions ih =>
    refine ⟨ih.1, ih.2.1, ?_⟩
    rintro _ _ ⟨⟩; rfl
  | @sendAgain _ _ call _ _ s _ _ h ih =>
    obtain ⟨hp, hd⟩ := Stream.pollSend_pays call s
    change Stream.pollSend call s = _ at h
    rw [h] at hp hd
    refine ⟨hd.trans ih.1, ih.2.1, ?_⟩
    rintro _ _ ⟨⟩
    exact Eq.trans hp (ih.2.2 _ _ rfl)
  | sendDone _ h ih =>
    obtain rfl : _ = _ := congrArg Prod.snd h
    exact ⟨(Stream.pollSend_pays _ _).2.trans ih.1, ih.2.1, nofun⟩
  | shutdown _ ih => exact ih
  | dispose _ ih => exact ⟨Stream.disposed_dispose _, ih.2⟩

theorem stream_endsOnDispose (K : Kernel) : (Medium.stream K).EndsOnDispose where
  receive := by
    intro _ call _ s _ u h
    have e := (Stream.pollReceive_spec call s).2.2 (stream_used u).1
    cases (congrArg Prod.fst h).symm.trans e
  send := by
    intro _ call _ s _ u h
    have hp := (Stream.pollSend_pays call s).1
    change Stream.pollSend call s = _ at h
    rw [h, (stream_used u).1] at hp
    cases hp

theorem stream_fillsWithin {K : Kernel}
    (hK : ∀ room s received s', K.tryRead room s = (.accomplished received, s') →
      received.length ≤ room) : (Medium.stream K).FillsWithin := by
  intro _ _ call room received s _ u h
  obtain rfl := (stream_used u).2.1 _ _ rfl
  simp only [stream, Stream.pollReceive] at h
  split at h
  · cases h
  · split at h <;> cases h
    rename_i ha
    exact hK _ _ _ _ (Prod.ext ha rfl)

theorem stream_sendsWhole (K : Kernel) : (Medium.stream K).SendsWhole := by
  intro _ _ call regions sent s _ u h
  have hp := (Stream.pollSend_pays call s).1
  change Stream.pollSend call s = _ at h
  rw [h] at hp
  exact Eq.trans hp ((stream_used u).2.2 _ _ rfl)

/-! ## The datagram socket -/

/-- A datagram socket to which datagrams are offered, over a link that changes in any way. -/
def Medium.datagram : Medium datagram where
  Initial s := s.turns = [] ∧ s.disposed = false
  Change s s' := ∃ queue fed link, s' = { s with queue, fed, link }

namespace Datagram

/-- The room of a receive. -/
def Receive.room : Receive → Nat
  | entering room => room
  | queued _ room => room

/-- The receives that wait for their turn, when at most this one is unfinished. -/
def Receive.turns : Receive → List Nat
  | entering _ => []
  | queued ticket _ => [ticket]

/-- One look at the only unfinished receive: it has its turn, so that it waits only for data. -/
theorem pollReceive_spec (call : Receive) {s : Datagram} (ht : s.turns = call.turns) :
    match s.pollReceive call with
    | (.pending, _) => s.disposed = false
    | (.again call', s') => s'.turns = call'.turns ∧ call'.room = call.room ∧
        s'.disposed = s.disposed
    | (.done result, s') => s'.turns = [] ∧ s'.disposed = s.disposed ∧
        ∀ received, result = .ok received → received.length ≤ call.room := by
  have hl := receiveLook call s
  generalize s.pollReceive call = x at hl
  cases hl with
  | refused => exact ⟨ht, rfl, nofun⟩
  | queued => exact ⟨by rw [ht]; rfl, rfl, rfl⟩
  | behind hn => exact absurd (by rw [ht]; rfl) hn
  | waits _ h => exact (take_eq_none_iff.mp h).2.2.2.2
  | served _ h =>
    obtain ⟨⟨_, _, rfl⟩, hl⟩ := take_frame h
    refine ⟨?_, rfl, hl⟩
    simp [leave, ht, Receive.turns]

/-- A receive does not close the socket. -/
theorem closed_pollReceive (call : Receive) (s : Datagram) :
    (s.pollReceive call).2.closed = s.closed := by
  obtain ⟨_, _, _, _, e⟩ := pollReceive_frame call s
  rw [e]

/-- What a single send of a datagram socket owes. -/
def Send.owed : Send → Nat
  | entering region => region.length
  | emitting _ length => length

theorem pollOne_pays (call : Send) (s : Datagram) :
    Pays Send.owed s.disposed call (s.pollOne call).1 ∧
      ∃ emitted, (s.pollOne call).2 = { s with emitted } := by
  have hl := sendLook call s
  generalize s.pollOne call = x at hl
  cases hl with
  | shutDown | disposed | failed => exact ⟨trivial, _, rfl⟩
  | entered | ended | taken => exact ⟨rfl, _, rfl⟩
  | stalled hd => exact ⟨hd, _, rfl⟩

theorem polled_pollSend (call : SendEach Send) (s : Datagram) :
    SendEach.Polled (fun region s => (.entering region, s)) pollOne call s (s.pollSend call) :=
  SendEach.polled _ _ call s

theorem pollSend_pays (call : SendEach Send) (s : Datagram) :
    Pays (SendEach.owed Send.owed) s.disposed call (s.pollSend call).1 ∧
      ∃ emitted, (s.pollSend call).2 = { s with emitted } :=
  ⟨SendEach.pays (fun _ => rfl) (fun call => (pollOne_pays call s).1) call,
    SendEach.poll_induct (P := fun s' => ∃ emitted, s' = { s with emitted }) ⟨_, rfl⟩
      (fun _ => ⟨_, rfl⟩) (fun call => (pollOne_pays call s).2) call⟩

/-- Nor does a send. -/
theorem closed_pollSend (call : SendEach Send) (s : Datagram) :
    (s.pollSend call).2.closed = s.closed := by
  obtain ⟨-, _, e⟩ := pollSend_pays call s
  rw [e]

end Datagram

/-- What uses of a datagram socket keep. -/
structure DatagramUsed (r : Option (Datagram.Receive × Nat))
    (t : Option (SendEach Datagram.Send × List Bytes)) (d : Bool) (s : Datagram) : Prop where
  disposed : s.disposed = d
  turns : s.turns = r.elim [] (·.1.turns)
  room : ∀ call room, r = some (call, room) → call.room = room
  owed : ∀ call regions, t = some (call, regions) →
    call.owed Datagram.Send.owed = (regions.map List.length).sum

theorem datagram_used {r t d s} (u : Medium.datagram.Used r t d s) : DatagramUsed r t d s := by
  induction u with
  | initial h => exact ⟨h.2, h.1, nofun, nofun⟩
  | change _ h ih =>
    obtain ⟨_, _, _, rfl⟩ := h
    exact ⟨ih.disposed, ih.turns, ih.room, ih.owed⟩
  | receive _ room ih =>
    refine { ih with turns := ih.turns, room := ?_ }
    rintro _ _ ⟨⟩; rfl
  | @receiveAgain _ _ call call' room s s' _ h ih =>
    have hs := Datagram.pollReceive_spec call ih.turns
    change s.pollReceive call = _ at h
    rw [h] at hs
    obtain ⟨ht, hr, hd⟩ := hs
    refine ⟨hd.trans ih.disposed, ht, ?_, ih.owed⟩
    rintro _ _ ⟨⟩; exact hr.trans (ih.room _ _ rfl)
  | @receiveDone _ _ call room result s s' _ h ih =>
    have hs := Datagram.pollReceive_spec call ih.turns
    change s.pollReceive call = _ at h
    rw [h] at hs
    obtain ⟨ht, hd, -⟩ := hs
    exact ⟨hd.trans ih.disposed, ht, nofun, ih.owed⟩
  | send _ region ih =>
    refine { ih with owed := ?_ }
    rintro _ _ ⟨⟩; simp [datagram, Datagram.send, SendEach.owed]
  | sendVectored _ regions ih =>
    refine { ih with owed := ?_ }
    rintro _ _ ⟨⟩; simp [datagram, Datagram.send, SendEach.owed]
  | @sendAgain _ _ call _ _ s _ _ h ih =>
    obtain ⟨hp, _, e⟩ := Datagram.pollSend_pays call s
    change s.pollSend call = _ at h
    rw [h] at hp e
    subst e
    refine { ih with owed := ?_ }
    rintro _ _ ⟨⟩; exact Eq.trans hp (ih.owed _ _ rfl)
  | @sendDone _ _ call _ _ s _ _ h ih =>
    obtain ⟨-, _, e⟩ := Datagram.pollSend_pays call s
    change s.pollSend call = _ at h
    rw [h] at e
    subst e
    exact { ih with owed := nofun }
  | shutdown _ ih => exact { ih with }
  | dispose _ ih => exact { ih with disposed := rfl }

theorem datagram_endsOnDispose : Medium.datagram.EndsOnDispose where
  receive := by
    intro _ call _ s _ u h
    have hs := Datagram.pollReceive_spec call (datagram_used u).turns
    change Datagram.pollReceive call s = _ at h
    rw [h] at hs
    cases hs.symm.trans (datagram_used u).disposed
  send := by
    intro _ call _ s _ u h
    have hp := (Datagram.pollSend_pays call s).1
    change Datagram.pollSend call s = _ at h
    rw [h] at hp
    cases Eq.trans (Eq.symm hp) (datagram_used u).disposed

theorem datagram_fillsWithin : Medium.datagram.FillsWithin := by
  intro _ _ call room received s _ u h
  have hs := Datagram.pollReceive_spec call (datagram_used u).turns
  change Datagram.pollReceive call s = _ at h
  rw [h] at hs
  rw [← (datagram_used u).room _ _ rfl]
  exact hs.2.2 _ rfl

theorem datagram_sendsWhole : Medium.datagram.SendsWhole := by
  intro _ _ call regions sent s _ u h
  have hp := (Datagram.pollSend_pays call s).1
  change Datagram.pollSend call s = _ at h
  rw [h] at hp
  exact Eq.trans hp ((datagram_used u).owed _ _ rfl)

end Duplex.Socket
