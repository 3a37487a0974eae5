import Duplex.Socket.Scripted

/-!
# What users of a socket rely on

A socket is used in a medium that changes its state on its own: data arrives, a link stalls or
breaks. `Medium.Used` says which states one receive and one send at a time lead to, and the
contracts speak of these states only: a disposal ends the calls (`Medium.EndsOnDispose`), a
receive stays within the buffer it was offered (`Medium.FillsWithin`), a send writes everything
(`Medium.SendsWhole`).

The scripted socket keeps all three as long as the script does not shorten its sends
(`scripted_endsOnDispose`, `scripted_fillsWithin`, `scripted_sendsWhole`). A send that cuts its
work up owes the same at every place (`Pays`), and so does one that sends region by region
(`SendEach.pays`), whose looks are told by those at its single sends (`SendEach.Polled`).

What a socket is called with is known from a socket that behaves as it does, and counts the calls
(`Socket.counted`) or records what they give it and what it answers (`Socket.recorded`).
-/

namespace Duplex.Socket

open scoped Numbers

/-- Where a socket comes from, and what may happen to it besides its own operations. -/
structure Medium (S : Socket) where
  Initial : S.State → Prop
  Change : S.State → S.State → Prop

variable {S : Socket}

/-- `M.Used receive send disposed s`: uses of a socket in the medium `M` have led to `s`. In
flight are `receive`, with the length of its buffer, and `send`, with its regions; `disposed` says
whether the socket was disposed of. -/
inductive Medium.Used (M : Medium S) :
    Option (S.Receive × Nat) → Option (S.Send × List Bytes) → Bool → S.State → Prop
  | initial {s : S.State} (h : M.Initial s) : M.Used none none false s
  | change {r t d} {s s' : S.State} (u : M.Used r t d s) (h : M.Change s s') : M.Used r t d s'
  | receive {t d} {s : S.State} (u : M.Used none t d s) (room : Nat) :
    M.Used (some ((S.receive room s).1, room)) t d (S.receive room s).2
  | receiveAgain {t d call call' room} {s s' : S.State} (u : M.Used (some (call, room)) t d s)
    (h : S.pollReceive call s = (.again call', s')) : M.Used (some (call', room)) t d s'
  | receiveDone {t d call room result} {s s' : S.State} (u : M.Used (some (call, room)) t d s)
    (h : S.pollReceive call s = (.done result, s')) : M.Used none t d s'
  | send {r d} {s : S.State} (u : M.Used r none d s) (region : Bytes) :
    M.Used r (some ((S.send region s).1, [region])) d (S.send region s).2
  | sendVectored {r d} {s : S.State} (u : M.Used r none d s) (regions : List Bytes) :
    M.Used r (some ((S.sendVectored regions s).1, regions)) d (S.sendVectored regions s).2
  | sendAgain {r d call call' regions} {s s' : S.State} (u : M.Used r (some (call, regions)) d s)
    (h : S.pollSend call s = (.again call', s')) : M.Used r (some (call', regions)) d s'
  | sendDone {r d call regions result} {s s' : S.State} (u : M.Used r (some (call, regions)) d s)
    (h : S.pollSend call s = (.done result, s')) : M.Used r none d s'
  | shutdown {r t d} {s : S.State} (u : M.Used r t d s) : M.Used r t d (S.shutdown s).2
  | dispose {r t d} {s : S.State} (u : M.Used r t d s) : M.Used r t true (S.dispose s)

/-- After a disposal no receive or send has to wait. That they fail is more than is needed. -/
structure Medium.EndsOnDispose (M : Medium S) : Prop where
  receive {send call room s s'} (u : M.Used (some (call, room)) send true s) :
    S.pollReceive call s ≠ (.pending, s')
  send {receive call regions s s'} (u : M.Used receive (some (call, regions)) true s) :
    S.pollSend call s ≠ (.pending, s')

/-- A receive yields no more bytes than its buffer holds. -/
def Medium.FillsWithin (M : Medium S) : Prop :=
  ∀ ⦃send disposed call room received s s'⦄, M.Used (some (call, room)) send disposed s →
    S.pollReceive call s = (.done (.ok received), s') → received.length ≤ room

/-- A send that succeeds has sent all of its regions. -/
def Medium.SendsWhole (M : Medium S) : Prop :=
  ∀ ⦃receive disposed call regions sent s s'⦄, M.Used receive (some (call, regions)) disposed s →
    S.pollSend call s = (.done (.ok sent), s') → sent = (regions.map List.length).sum

/-! ## What sends owe -/

/-- A look at a send that is to end with what the send owes: it waits only while the socket is not
disposed of, and goes on owing the same. -/
def Pays {κ : Type} (owed : κ → Nat) (disposed : Bool) (call : κ) :
    Progress κ (Except IoError Nat) → Prop
  | .pending => disposed = false
  | .again call' => owed call' = owed call
  | .done (.ok sent) => sent = owed call
  | .done (.error _) => True

/-- What a send of several regions owes, by what its single sends do. -/
def SendEach.owed {τ : Type} (owed : τ → Nat) (call : SendEach τ) : Nat :=
  call.total + call.current.elim 0 owed + (call.waiting.map List.length).sum

section SendEach

variable {σ τ : Type} {send : Bytes → σ → τ × σ}
  {look : τ → σ → Progress τ (Except IoError Nat) × σ} {s : σ}

/-- What a look at a send of several regions does, by what its single send does. -/
inductive SendEach.Polled (send : Bytes → σ → τ × σ)
    (look : τ → σ → Progress τ (Except IoError Nat) × σ) (call : SendEach τ) (s : σ) :
    Progress (SendEach τ) (Except IoError Nat) × σ → Prop
  | ended (hc : call.current = none) (hw : call.waiting = []) :
    Polled send look call s (.done (.ok call.total), s)
  | begun {region waiting} (hc : call.current = none) (hw : call.waiting = region :: waiting) :
    Polled send look call s
      (.again { call with current := some (send region s).1, waiting }, (send region s).2)
  | waited {current t} (hc : call.current = some current) (hl : look current s = (.pending, t)) :
    Polled send look call s (.pending, t)
  | moved {current next t} (hc : call.current = some current)
    (hl : look current s = (.again next, t)) :
    Polled send look call s (.again { call with current := some next }, t)
  | sent {current sent t} (hc : call.current = some current)
    (hl : look current s = (.done (.ok sent), t)) :
    Polled send look call s (.again { call with current := none, total := call.total + sent }, t)
  | failed {current error t} (hc : call.current = some current)
    (hl : look current s = (.done (.error error), t)) :
    Polled send look call s (.done (.error error), t)

theorem SendEach.polled (send : Bytes → σ → τ × σ)
    (look : τ → σ → Progress τ (Except IoError Nat) × σ) (call : SendEach τ) (s : σ) :
    Polled send look call s (call.poll send look s) := by
  obtain ⟨_ | current, waiting, total⟩ := call
  case none =>
    cases waiting with
    | nil => exact .ended rfl rfl
    | cons region waiting => exact .begun rfl rfl
  case some =>
    simp only [SendEach.poll]
    generalize hl : look current s = x
    obtain ⟨_ | next | error | sent, t⟩ := x
    · exact .waited rfl hl
    · exact .moved rfl hl
    · exact .failed rfl hl
    · exact .sent rfl hl

theorem SendEach.pays {owed : τ → Nat} {disposed : Bool}
    (hsend : ∀ region, owed (send region s).1 = region.length)
    (hlook : ∀ call, Pays owed disposed call (look call s).1) (call : SendEach τ) :
    Pays (SendEach.owed owed) disposed call (call.poll send look s).1 := by
  have hp := SendEach.polled send look call s
  generalize call.poll send look s = x at hp
  cases hp with
  | ended hc hw => simp [Pays, SendEach.owed, hc, hw]
  | begun hc hw => simp [Pays, SendEach.owed, hc, hw, hsend, Nat.add_assoc]
  | @waited current _ hc hl =>
    have h := hlook current
    rw [hl] at h
    exact h
  | @moved current next _ hc hl =>
    have h := hlook current
    rw [hl] at h
    have h : owed next = owed current := h
    simp only [Pays, SendEach.owed, hc, Option.elim_some, h]
  | @sent current sent _ hc hl =>
    have h := hlook current
    rw [hl] at h
    have h : sent = owed current := h
    simp only [Pays, SendEach.owed, hc, Option.elim_some, Option.elim_none, h, Nat.add_zero]
  | failed => trivial

/-- What a single send does to the socket, a look at a send of several regions does. -/
theorem SendEach.poll_induct {P : σ → Prop} (hs : P s) (hsend : ∀ region, P (send region s).2)
    (hlook : ∀ call, P (look call s).2) (call : SendEach τ) : P (call.poll send look s).2 := by
  have hp := SendEach.polled send look call s
  generalize call.poll send look s = x at hp
  cases hp with
  | ended => exact hs
  | begun => exact hsend _
  | @waited current _ _ hl | @moved current _ _ _ hl | @sent current _ _ _ hl
  | @failed current _ _ _ hl =>
    have h := hlook current
    rw [hl] at h
    exact h

end SendEach

/-! ## Sockets that count -/

/-- The state of a socket that counts how often it was shut down and disposed of. -/
structure Counted (σ : Type) where
  state : σ
  shutdowns : Nat := 0
  disposals : Nat := 0

/-- A socket that counts. -/
def counted (S : Socket) : Socket where
  State := Counted S.State
  Receive := S.Receive
  Send := S.Send
  receive room s := ((S.receive room s.state).1, { s with state := (S.receive room s.state).2 })
  pollReceive call s :=
    ((S.pollReceive call s.state).1, { s with state := (S.pollReceive call s.state).2 })
  send region s := ((S.send region s.state).1, { s with state := (S.send region s.state).2 })
  sendVectored regions s :=
    ((S.sendVectored regions s.state).1, { s with state := (S.sendVectored regions s.state).2 })
  pollSend call s := ((S.pollSend call s.state).1, { s with state := (S.pollSend call s.state).2 })
  shutdown s :=
    ((S.shutdown s.state).1,
      { s with state := (S.shutdown s.state).2, shutdowns := s.shutdowns + 1 })
  dispose s := { s with state := S.dispose s.state, disposals := s.disposals + 1 }

/-- The medium of a socket that counts: nobody else touches the counts. -/
def Medium.counted (M : Medium S) : Medium S.counted where
  Initial s := M.Initial s.state ∧ s.shutdowns = 0 ∧ s.disposals = 0
  Change s s' :=
    M.Change s.state s'.state ∧ s'.shutdowns = s.shutdowns ∧ s'.disposals = s.disposals

/-! ## Sockets that record -/

/-- The state of a socket that records its calls. -/
structure Recording (σ : Type) where
  state : σ
  /-- The length of the buffer of every receive, in the order of the calls. -/
  rooms : List Nat := []
  /-- The regions of every send, in the order of the calls. -/
  sends : List (List Bytes) := []
  /-- What every send that has ended was answered. -/
  answers : List (Except IoError Nat) := []

/-- A socket that records what the calls that begin a receive or a send give it, and what it answers
its sends. -/
def recorded (S : Socket) : Socket where
  State := Recording S.State
  Receive := S.Receive
  Send := S.Send
  receive room s :=
    ((S.receive room s.state).1,
      { s with state := (S.receive room s.state).2, rooms := s.rooms ++ [room] })
  pollReceive call s :=
    ((S.pollReceive call s.state).1, { s with state := (S.pollReceive call s.state).2 })
  send region s :=
    ((S.send region s.state).1,
      { s with state := (S.send region s.state).2, sends := s.sends ++ [[region]] })
  sendVectored regions s :=
    ((S.sendVectored regions s.state).1,
      { s with state := (S.sendVectored regions s.state).2, sends := s.sends ++ [regions] })
  pollSend call s :=
    ((S.pollSend call s.state).1,
      { s with
        state := (S.pollSend call s.state).2
        answers := s.answers ++ (S.pollSend call s.state).1.results })
  shutdown s := ((S.shutdown s.state).1, { s with state := (S.shutdown s.state).2 })
  dispose s := { s with state := S.dispose s.state }

/-- The medium of a socket that records: nobody else touches the records. -/
def Medium.recorded (M : Medium S) : Medium S.recorded where
  Initial s := M.Initial s.state ∧ s.rooms = [] ∧ s.sends = [] ∧ s.answers = []
  Change s s' :=
    M.Change s.state s'.state ∧ s'.rooms = s.rooms ∧ s'.sends = s.sends ∧ s'.answers = s.answers

/-- Uses of a socket that records are uses of the socket. -/
theorem Medium.Used.of_recorded {M : Medium S} {r t d} {s : S.recorded.State}
    (u : M.recorded.Used r t d s) : M.Used r t d s.state := by
  induction u with
  | initial h => exact .initial h.1
  | change _ h ih => exact .change ih h.1
  | receive _ room ih => exact .receive ih room
  | receiveAgain _ h ih =>
    have hp := congrArg Prod.fst h
    obtain rfl : _ = _ := congrArg Prod.snd h
    exact .receiveAgain ih (Prod.ext hp rfl)
  | receiveDone _ h ih =>
    have hp := congrArg Prod.fst h
    obtain rfl : _ = _ := congrArg Prod.snd h
    exact .receiveDone ih (Prod.ext hp rfl)
  | send _ region ih => exact .send ih region
  | sendVectored _ regions ih => exact .sendVectored ih regions
  | sendAgain _ h ih =>
    have hp := congrArg Prod.fst h
    obtain rfl : _ = _ := congrArg Prod.snd h
    exact .sendAgain ih (Prod.ext hp rfl)
  | sendDone _ h ih =>
    have hp := congrArg Prod.fst h
    obtain rfl : _ = _ := congrArg Prod.snd h
    exact .sendDone ih (Prod.ext hp rfl)
  | shutdown _ ih => exact .shutdown ih
  | dispose _ ih => exact .dispose ih

theorem Medium.SendsWhole.recorded {M : Medium S} (hM : M.SendsWhole) : M.recorded.SendsWhole := by
  intro _ _ call regions sent s s' u h
  have hp := congrArg Prod.fst h
  exact hM u.of_recorded (Prod.ext hp rfl)

/-! ## The scripted socket -/

/-- A script that does not shorten sends; what else it sets it may set at any time. -/
def Medium.scripted : Medium scripted where
  Initial s := s.disposed = false ∧ s.shortSend = none
  Change s s' := s'.disposed = s.disposed ∧ s'.shortSend = s.shortSend

namespace Scripted

/-- What a send of a scripted socket owes. -/
def Send.owed : Send → Nat
  | whole length => length
  | each call => call.owed id

/-- One look at a receive changes what is to come at most, and never takes the receive to another
place. -/
theorem pollReceive_frame (room : Nat) (s : Scripted) :
    (∃ incoming, (s.pollReceive room).2 = { s with incoming }) ∧
      ∀ call s', s.pollReceive room ≠ (.again call, s') := by
  simp only [pollReceive]
  repeat' split
  all_goals exact ⟨⟨_, rfl⟩, fun _ _ h => by cases h⟩

theorem pollOne_pays (length : Nat) {s : Scripted} (hs : s.shortSend = none) :
    Pays id s.disposed length (s.pollOne length).1 ∧ (s.pollOne length).2 = s := by
  simp only [pollOne, hs, Option.elim_none]
  split
  · exact ⟨trivial, rfl⟩
  · rename_i hd
    split
    · exact ⟨trivial, rfl⟩
    · split
      · exact ⟨Bool.eq_false_iff.mpr hd, rfl⟩
      · exact ⟨rfl, rfl⟩

theorem pollSend_pays (call : Send) {s : Scripted} (hs : s.shortSend = none) :
    Pays Send.owed s.disposed call (s.pollSend call).1 ∧
      ∃ sends, (s.pollSend call).2 = { s with sends } := by
  cases call with
  | whole length =>
    obtain ⟨hp, he⟩ := pollOne_pays length hs
    simp only [pollSend]
    generalize s.pollOne length = x at hp he
    obtain ⟨_ | _ | _ | _, s'⟩ := x <;> exact ⟨hp, _, he⟩
  | each call =>
    have hp : Pays (SendEach.owed id) s.disposed call (call.poll sendOne pollOne s).1 :=
      SendEach.pays (fun _ => rfl) (fun length => (pollOne_pays length hs).1) call
    have he : ∃ sends, (call.poll sendOne pollOne s).2 = { s with sends } :=
      SendEach.poll_induct (P := fun s' => ∃ sends, s' = { s with sends }) ⟨_, rfl⟩
        (fun _ => ⟨_, rfl⟩) (fun length => ⟨_, (pollOne_pays length hs).2⟩) call
    simp only [pollSend]
    generalize call.poll sendOne pollOne s = x at hp he
    obtain ⟨_ | _ | _ | _, s'⟩ := x <;> exact ⟨hp, he⟩

end Scripted

/-- What uses of a scripted socket keep. -/
theorem scripted_used {r t d s} (u : Medium.scripted.Used r t d s) :
    Scripted.shortSend s = none ∧ Scripted.disposed s = d ∧
      (∀ call room, r = some (call, room) → call = room) ∧
      ∀ call regions, t = some (call, regions) →
        Scripted.Send.owed call = (regions.map List.length).sum := by
  induction u with
  | initial h => exact ⟨h.2, h.1, nofun, nofun⟩
  | change _ h ih => exact ⟨h.2.trans ih.1, h.1.trans ih.2.1, ih.2.2⟩
  | receive _ room ih =>
    refine ⟨ih.1, ih.2.1, ?_, ih.2.2.2⟩
    rintro _ _ ⟨⟩; rfl
  | @receiveAgain _ _ call _ _ s _ _ h ih => exact absurd h ((s.pollReceive_frame call).2 _ _)
  | @receiveDone _ _ call _ _ s _ _ h ih =>
    obtain ⟨⟨_, e⟩, -⟩ := Scripted.pollReceive_frame call s
    obtain rfl : _ = _ := congrArg Prod.snd h
    simp only [scripted, e]
    exact ⟨ih.1, ih.2.1, nofun, ih.2.2.2⟩
  | send _ region ih =>
    refine ⟨ih.1, ih.2.1, ih.2.2.1, ?_⟩
    rintro _ _ ⟨⟩; exact (Nat.add_zero _).symm
  | @sendVectored _ _ s _ regions ih =>
    simp only [scripted, Scripted.sendVectored]
    split
    · refine ⟨ih.1, ih.2.1, ih.2.2.1, ?_⟩
      rintro _ _ ⟨⟩; rfl
    · refine ⟨ih.1, ih.2.1, ih.2.2.1, ?_⟩
      rintro _ _ ⟨⟩; simp [Scripted.Send.owed, SendEach.owed]
  | @sendAgain _ _ call _ _ s _ _ h ih =>
    obtain ⟨hs, hd, hr, ho⟩ := ih
    obtain ⟨hp, _, e⟩ := Scripted.pollSend_pays call hs
    change s.pollSend call = _ at h
    rw [h] at hp e
    subst e
    refine ⟨hs, hd, hr, ?_⟩
    rintro _ _ ⟨⟩
    exact Eq.trans hp (ho _ _ rfl)
  | @sendDone _ _ call _ _ s _ _ h ih =>
    obtain ⟨hs, hd, hr, -⟩ := ih
    obtain ⟨-, _, e⟩ := Scripted.pollSend_pays call hs
    change s.pollSend call = _ at h
    rw [h] at e
    subst e
    exact ⟨hs, hd, hr, nofun⟩
  | shutdown _ ih => exact ih
  | dispose _ ih => exact ⟨ih.1, rfl, ih.2.2⟩

theorem scripted_endsOnDispose : Medium.scripted.EndsOnDispose where
  receive := by
    intro _ call _ s _ u h
    have hd : s.disposed = true := (scripted_used u).2.1
    simp only [scripted, Scripted.pollReceive, hd, if_true] at h
    cases h
  send := by
    intro _ call _ s _ u h
    obtain ⟨hs, hd, -⟩ := scripted_used u
    have hp := (Scripted.pollSend_pays call hs).1
    change s.pollSend call = _ at h
    rw [h, hd] at hp
    cases hp

theorem scripted_fillsWithin : Medium.scripted.FillsWithin := by
  intro _ _ call room received s _ u h
  obtain rfl := (scripted_used u).2.2.1 _ _ rfl
  simp only [scripted, Scripted.pollReceive] at h
  repeat' split at h
  all_goals cases h
  · exact Nat.zero_le _
  · exact Nat.zero_le _
  · exact List.length_take_le _ _
  · exact List.length_take_le _ _

theorem scripted_sendsWhole : Medium.scripted.SendsWhole := by
  intro _ _ call regions sent s _ u h
  obtain ⟨hs, -, -, ho⟩ := scripted_used u
  have hp := (Scripted.pollSend_pays call hs).1
  change s.pollSend call = _ at h
  rw [h] at hp
  exact Eq.trans hp (ho _ _ rfl)

end Duplex.Socket
