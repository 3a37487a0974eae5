import Duplex.Proofs.Socket.Contracts
import Duplex.Proofs.Socket.Underway
import Duplex.Socket.Loopback

/-!
# Sends of several regions over a stream

A kernel stream accepts as much as it likes of what it is offered. A send of several regions offers
all of them at once, and then, region by region, what was not accepted; wherever the first attempt
stopped, what it left begins with the next byte (`flatten_leftAfter`). So each look hands over the
front of what is left (`pollSend_gives`), every move shortens it (`pollSend_ahead`), and a look that
does not move was refused by the kernel or came after the disposal (`pollSend_pending`,
`pollSend_error`).

These make up `sendVectored_in_full`. What the kernel has accepted is kept in a record of its own
(`Kernel.recorded`).
-/

namespace Duplex.Socket

open scoped Numbers

/-! ## The record -/

/-- The state of a kernel stream, and the bytes that it has accepted. -/
structure Recorded (σ : Type) where
  state : σ
  accepted : Bytes := []

/-- How many bytes an attempt to write got rid of. -/
def Attempt.count : Attempt Nat → Nat
  | .accomplished count => count
  | .blocked | .failed _ => 0

/-- A kernel stream that keeps what it has accepted: the front of what it was offered. -/
def Kernel.recorded (K : Kernel) : Kernel where
  State := Recorded K.State
  tryRead room s := ((K.tryRead room s.state).1, { s with state := (K.tryRead room s.state).2 })
  tryWrite regions s :=
    ((K.tryWrite regions s.state).1,
      { state := (K.tryWrite regions s.state).2
        accepted := s.accepted ++ regions.flatten.take (K.tryWrite regions s.state).1.count })
  shutdown s := ((K.shutdown s.state).1, { s with state := (K.shutdown s.state).2 })

namespace Stream

/-! ## One look -/

/-- The bytes that a send has not got rid of. -/
def Send.left : Send → Bytes
  | writing left _ => left
  | gathering regions => regions.flatten
  | finishing regions _ => regions.flatten

/-- What a send offers at its next attempt. -/
def Send.offer : Send → List Bytes
  | writing left _ => [left]
  | gathering regions => regions
  | finishing regions _ => regions.take 1

/-- A bound on the moves that a send has before it. -/
def Send.ahead : Send → Nat
  | writing left _ => left.length
  | gathering regions => 1 + regions.length + regions.flatten.length
  | finishing regions _ => regions.length + regions.flatten.length

section Looks

variable {K : Kernel} {s t : State K} {call call' : Send}

/-- What a look at a send finds, and what it leads to. -/
inductive Looked (call : Send) (s : State K) :
    Progress Send (Except IoError Nat) × State K → Prop
  /-- There is nothing left to write. -/
  | ended (h : call.left = []) : Looked call s (.done (.ok call.owed), s)
  /-- The region in front has nothing left. -/
  | skipped {next : Send} (h : next.left = call.left) (ha : next.ahead < call.ahead) :
    Looked call s (.again next, s)
  | disposed (hd : s.disposed = true) : Looked call s (.done (.error .socketDisposed), s)
  | blocked {kernel} (hd : s.disposed = false)
    (h : K.tryWrite call.offer s.kernel = (.blocked, kernel)) :
    Looked call s (.pending, { s with kernel })
  | failed {error kernel} (hd : s.disposed = false)
    (h : K.tryWrite call.offer s.kernel = (.failed error, kernel)) :
    Looked call s (.done (.error error), { s with kernel })
  /-- The kernel accepts nothing of what it is offered. -/
  | nothing {kernel} (hd : s.disposed = false)
    (h : K.tryWrite call.offer s.kernel = (.accomplished 0, kernel))
    (ho : call.offer.flatten ≠ []) :
    Looked call s (.done (.error .wroteNothing), { s with kernel })
  /-- What is accepted is at the front of what is left. -/
  | written {count kernel} {next : Send} (hd : s.disposed = false)
    (h : K.tryWrite call.offer s.kernel = (.accomplished count, kernel))
    (hl : call.left = call.offer.flatten.take count ++ next.left)
    (ha : next.ahead < call.ahead) :
    Looked call s (.again next, { s with kernel })

/-- What is left after so many bytes are the bytes after them, wherever the cut falls. -/
theorem flatten_leftAfter (count : Nat) (regions : List Bytes) :
    (leftAfter count regions).flatten = regions.flatten.drop count := by
  induction regions generalizing count with
  | nil => simp [leftAfter]
  | cons region regions ih =>
    rw [leftAfter, List.flatten_cons]
    split
    · rename_i h
      rw [ih, List.drop_append, List.drop_eq_nil_of_le h, List.nil_append]
    · rename_i h
      rw [List.flatten_cons, List.flatten_filter_ne_nil, List.drop_append_of_le_length (by omega)]

theorem length_leftAfter_le (count : Nat) (regions : List Bytes) :
    (leftAfter count regions).length ≤ regions.length := by
  induction regions generalizing count with
  | nil => exact Nat.le_refl 0
  | cons region regions ih =>
    rw [leftAfter]
    split
    · exact Nat.le_succ_of_le (ih _)
    · exact Nat.succ_le_succ (List.length_filter_le _ _)

/-- An attempt to write the region in front, which is not empty. -/
theorem looked_writeSome (call : Send) (s : State K) {byte : UInt8} {region : Bytes}
    (next : Bytes → Send) (ho : call.offer = [byte :: region])
    (hl : ∀ count,
      call.left = (byte :: region).take count ++ (next ((byte :: region).drop count)).left)
    (hn : ∀ count, (next ((byte :: region).drop (count + 1))).ahead < call.ahead) :
    Looked call s (writeSome (byte :: region) next s) := by
  by_cases hd : s.disposed = true
  · rw [writeSome, if_pos hd]
    exact .disposed hd
  rw [writeSome, if_neg hd]
  have hd : s.disposed = false := Bool.eq_false_iff.mpr hd
  generalize ha : K.tryWrite [byte :: region] s.kernel = x
  rw [← ho] at ha
  obtain ⟨_ | (_ | count) | error, kernel⟩ := x
  · exact .blocked hd ha
  · refine .nothing hd ha ?_
    rw [ho]
    exact List.cons_ne_nil _ _
  · refine .written hd ha ?_ (hn count)
    rw [ho, List.flatten_singleton]
    exact hl (count + 1)
  · exact .failed hd ha

theorem looked_pollSend (call : Send) (s : State K) : Looked call s (pollSend call s) := by
  rcases call with ⟨_ | ⟨byte, left⟩, total⟩ | regions | ⟨_ | ⟨_ | ⟨byte, region⟩, regions⟩, total⟩
  case writing.nil => exact .ended rfl
  case finishing.nil => exact .ended rfl
  case writing.cons =>
    refine looked_writeSome (.writing (byte :: left) total) s (.writing · total) rfl
      (fun count => (List.take_append_drop count _).symm) fun count => ?_
    simp only [Send.ahead, List.length_drop, List.length_cons]
    omega
  case finishing.cons.nil =>
    refine .skipped rfl ?_
    simp only [Send.ahead, List.length_cons, List.flatten_cons, List.nil_append]
    omega
  case finishing.cons.cons =>
    refine looked_writeSome (.finishing ((byte :: region) :: regions) total) s
      (fun left => .finishing (left :: regions) total) rfl (fun count => ?_) fun count => ?_
    · simp only [Send.left, List.flatten_cons]
      rw [← List.append_assoc, List.take_append_drop]
    · simp only [Send.ahead, List.flatten_cons, List.length_append, List.length_drop,
        List.length_cons]
      omega
  case gathering =>
    by_cases hd : s.disposed = true
    · rw [pollSend, if_pos hd]
      exact .disposed hd
    rw [pollSend, if_neg hd]
    have hd : s.disposed = false := Bool.eq_false_iff.mpr hd
    generalize ha : K.tryWrite regions s.kernel = x
    have ha : K.tryWrite (Send.gathering regions).offer s.kernel = x := ha
    obtain ⟨_ | count | error, kernel⟩ := x
    · exact .blocked hd ha
    · refine .written hd ha ?_ ?_
      · simp only [Send.left, Send.offer, flatten_leftAfter, List.take_append_drop]
      · have hl := length_leftAfter_le count regions
        simp only [Send.ahead, flatten_leftAfter, List.length_drop]
        omega
    · exact .failed hd ha

theorem pollSend_ahead (h : pollSend call s = (.again call', t)) : call'.ahead < call.ahead := by
  have hl := looked_pollSend call s
  rw [h] at hl
  cases hl with
  | skipped _ ha => exact ha
  | written _ _ _ ha => exact ha

/-- A send waits for the kernel only. -/
theorem pollSend_pending (h : pollSend call s = (.pending, t)) :
    s.disposed = false ∧ (K.tryWrite call.offer s.kernel).1 = .blocked := by
  have hl := looked_pollSend call s
  rw [h] at hl
  cases hl with
  | blocked hd ha => exact ⟨hd, by rw [ha]⟩

/-- Why a send fails. -/
theorem pollSend_error {error : IoError} (h : pollSend call s = (.done (.error error), t)) :
    s.disposed = true ∧ error = .socketDisposed ∨
      s.disposed = false ∧ (K.tryWrite call.offer s.kernel).1 = .failed error ∨
      s.disposed = false ∧ (K.tryWrite call.offer s.kernel).1 = .accomplished 0 ∧
        call.offer.flatten ≠ [] ∧ error = .wroteNothing := by
  have hl := looked_pollSend call s
  rw [h] at hl
  cases hl with
  | disposed hd => exact .inl ⟨hd, rfl⟩
  | failed hd ha => exact .inr (.inl ⟨hd, by rw [ha]⟩)
  | nothing hd ha ho => exact .inr (.inr ⟨hd, by rw [ha], ho, rfl⟩)

end Looks

/-! ## What the kernel accepts -/

/-- The bytes that the kernel has accepted. -/
def accepted {K : Kernel} (s : State K.recorded) : Bytes := Recorded.accepted s.kernel

/-- Whatever happens to a stream socket between two looks at a send: it is shut down or disposed of,
and the kernel stream gets into any state. But nobody else writes to it. -/
def Elsewhere {K : Kernel} (s t : State K.recorded) : Prop := accepted t = accepted s

variable {K : Kernel} {s t : State K.recorded} {call : Send} {regions : List Bytes} {n : Nat}

theorem elsewhere_dispose (s : State K.recorded) : Elsewhere s (dispose s) := by
  show accepted (dispose s) = accepted s
  rw [dispose]
  split <;> rfl

theorem accepted_tryWrite {offer : List Bytes} {r r' : Recorded K.State} {attempt : Attempt Nat}
    (h : K.recorded.tryWrite offer r = (attempt, r')) :
    (K.tryWrite offer r.state).1 = attempt ∧
      r'.accepted = r.accepted ++ offer.flatten.take attempt.count := by
  obtain ⟨rfl, rfl⟩ := Prod.mk.inj h
  exact ⟨rfl, rfl⟩

theorem pollSend_gives (call : Send) (s : State K.recorded) :
    Gives accepted Send.left call s (pollSend call s) := by
  have hl := looked_pollSend call s
  generalize pollSend call s = x at hl
  have unchanged : ∀ {attempt kernel}, K.recorded.tryWrite call.offer s.kernel = (attempt, kernel) →
      attempt.count = 0 → accepted (K := K) { s with kernel } = accepted s := by
    intro attempt kernel ha h0
    refine (accepted_tryWrite ha).2.trans ?_
    rw [h0, List.take_zero, List.append_nil]
    rfl
  cases hl with
  | ended h => exact ⟨rfl, h⟩
  | skipped h => exact ⟨[], (List.append_nil _).symm, h.symm⟩
  | disposed => rfl
  | blocked _ ha => exact unchanged ha rfl
  | failed _ ha => exact unchanged ha rfl
  | nothing _ ha => exact unchanged ha rfl
  | written _ ha hl => exact ⟨_, (accepted_tryWrite ha).2, hl⟩

/-! ## Whole sends -/

/-- One look at a send of several regions by single sends, one after the other. -/
def pollEach (call : SendEach Send) (s : State K) :
    Progress (SendEach Send) (Except IoError Nat) × State K :=
  call.poll (stream K).send (stream K).pollSend s

theorem pollEach_in_full {total : Nat} {each : SendEach Send} {t' : State K.recorded}
    (u : Underway pollEach Elsewhere { waiting := regions } s n each t)
    (h : pollEach each t = (.done (.ok total), t')) :
    total = (regions.map List.length).sum ∧ accepted t' = accepted s ++ regions.flatten := by
  have hg : ∀ (each : SendEach Send) (t : State K.recorded),
      Gives accepted (SendEach.left id Send.left) each t (pollEach each t) := fun each t =>
    SendEach.gives (fun _ => ⟨rfl, rfl⟩) (fun call => pollSend_gives call t) each
  have hp : ∀ (each : SendEach Send) (t : State K.recorded),
      Pays (SendEach.owed Send.owed) t.disposed each (pollEach each t).1 := fun each t =>
    SendEach.pays (fun _ => rfl) (fun call => (pollSend_pays call t).1) each
  obtain ⟨out, ho, hl⟩ :=
    u.gives (steady_true _ _) trivial (fun he => he) fun _ => hg _ _
  have ht := u.total_eq hp h
  have hd := hg each t
  rw [h] at hd
  obtain ⟨ha, hn⟩ := hd
  rw [hn, List.append_nil] at hl
  constructor
  · rw [ht]
    simp [SendEach.owed]
  · rw [ha, ho, ← hl]
    simp [SendEach.left]

/-- A send of several regions over a stream, at any place that it comes to. What the kernel has
accepted of it is a front of the regions. It has moved no more often than there are regions and
bytes, and it waits only while the kernel does not take what it is offered. It fails because the
socket was disposed of, because the kernel fails, or because the kernel takes nothing of a region.
If it succeeds, its result is the length of all regions and the kernel has accepted them whole, as
it has after a send of the same regions one by one that succeeds. -/
theorem sendVectored_in_full
    (u : Underway (stream K.recorded).pollSend Elsewhere
      ((stream K.recorded).sendVectored regions s).1 ((stream K.recorded).sendVectored regions s).2
      n call t) :
    (∃ out, accepted t = accepted s ++ out ∧ out <+: regions.flatten) ∧
    n ≤ 1 + regions.length + regions.flatten.length ∧
    (∀ t', pollSend call t = (.pending, t') →
      accepted t' = accepted t ∧ t.disposed = false ∧
        (K.recorded.tryWrite call.offer t.kernel).1 = .blocked) ∧
    (∀ error t', pollSend call t = (.done (.error error), t') →
      accepted t' = accepted t ∧
        (t.disposed = true ∧ error = .socketDisposed ∨
          t.disposed = false ∧ (K.recorded.tryWrite call.offer t.kernel).1 = .failed error ∨
          t.disposed = false ∧ (K.recorded.tryWrite call.offer t.kernel).1 = .accomplished 0 ∧
            call.offer.flatten ≠ [] ∧ error = .wroteNothing)) ∧
    ∀ total t', pollSend call t = (.done (.ok total), t') →
      total = (regions.map List.length).sum ∧ accepted t' = accepted s ++ regions.flatten ∧
        ∀ (K' : Kernel) (r r' r'' : State K'.recorded) m each total',
          Underway pollEach Elsewhere { waiting := regions } r m each r' →
          pollEach each r' = (.done (.ok total'), r'') →
          total' = total ∧
            ∃ out, accepted t' = accepted s ++ out ∧ accepted r'' = accepted r ++ out := by
  have hg := pollSend_gives call t
  obtain ⟨out, ho, hl⟩ :=
    u.gives (steady_true _ _) trivial (fun he => he) fun _ => pollSend_gives _ _
  have hl : regions.flatten = out ++ call.left := hl
  refine ⟨⟨out, ho, call.left, hl.symm⟩, ?_, fun t' h => ?_, fun error t' h => ?_,
    fun total t' h => ?_⟩
  · have hm := u.moves_le Send.ahead (steady_true _ _) trivial fun _ h => pollSend_ahead h
    have hb : (Send.gathering regions).ahead = 1 + regions.length + regions.flatten.length := rfl
    have hm : n + call.ahead ≤ (Send.gathering regions).ahead := hm
    omega
  · rw [h] at hg
    exact ⟨hg, pollSend_pending h⟩
  · rw [h] at hg
    exact ⟨hg, pollSend_error h⟩
  · have ht := u.total_eq (fun call t => (pollSend_pays call t).1) h
    have ht : total = (regions.map List.length).sum := ht
    rw [h] at hg
    obtain ⟨ha, hn⟩ := hg
    have ho : accepted t = accepted s ++ out := ho
    have hw : accepted t' = accepted s ++ regions.flatten := by
      rw [hl, hn, List.append_nil, ha, ho]
    refine ⟨ht, hw, fun K' r r' r'' m each total' u' h' => ?_⟩
    obtain ⟨ht', hw'⟩ := pollEach_in_full u' h'
    exact ⟨ht'.trans ht.symm, _, hw, hw'⟩

/-- A stream that has room for two bytes, or for any number. -/
def narrow : State Loopback.kernel.recorded :=
  { kernel := ({ state := { window := some 2 } } : Recorded Loopback) }

def wide : State Loopback.kernel.recorded := { kernel := ({ state := {} } : Recorded Loopback) }

/-- The stream with room for two bytes after it has taken them, and again after they have been
read. -/
def filled : State Loopback.kernel.recorded :=
  { kernel :=
      ({ state := { window := some 2, departing := [1, 2] }, accepted := [1, 2] } :
        Recorded Loopback) }

def emptied : State Loopback.kernel.recorded :=
  { kernel := ({ state := { window := some 2 }, accepted := [1, 2] } : Recorded Loopback) }

/-- Two regions of three bytes, with an empty one between them, are cut off after the first region.
The third byte waits until there is room, and the send succeeds, as it does with single sends where
there is room. If the socket is disposed of in between, it fails. -/
theorem cut_off_in_full :
    (∃ t t' r r', Underway pollSend Elsewhere (.gathering [[1, 2], [], [3]]) narrow 3
        (.finishing [] 3) t ∧
      pollSend (.finishing [] 3) t = (.done (.ok 3), t') ∧ accepted t' = [1, 2, 3] ∧
      Underway pollEach Elsewhere { waiting := [[1, 2], [], [3]] } wide 8
        { waiting := [], total := 3 } r ∧
      pollEach { waiting := [], total := 3 } r = (.done (.ok 3), r') ∧
      ∃ out, accepted t' = accepted narrow ++ out ∧ accepted r' = accepted wide ++ out) ∧
    ∃ t t', Underway pollSend Elsewhere (.gathering [[1, 2], [], [3]]) narrow 1
        (.finishing [[3]] 3) t ∧
      pollSend (.finishing [[3]] 3) t = (.done (.error .socketDisposed), t') ∧
      accepted t' = accepted t ∧
      ∃ out, accepted t = accepted narrow ++ out ∧ out <+: [1, 2, 3] := by
  have first : Underway pollSend Elsewhere (.gathering [[1, 2], [], [3]]) narrow 1
      (.finishing [[3]] 3) filled := .moved .begun rfl
  have waits : pollSend (.finishing [[3]] 3) filled = (.pending, filled) := rfl
  have read : Elsewhere filled emptied := rfl
  have second : Underway pollSend Elsewhere (.gathering [[1, 2], [], [3]]) narrow 3
      (.finishing [] 3) _ := .moved (.moved (.other (.waited first waits) read) rfl) rfl
  have each : Underway pollEach Elsewhere { waiting := [[1, 2], [], [3]] } wide 8
      { waiting := [], total := 3 } _ :=
    .moved (.moved (.moved (.moved (.moved (.moved (.moved (.moved .begun
      rfl) rfl) rfl) rfl) rfl) rfl) rfl) rfl
  have cut := Underway.other first (elsewhere_dispose filled)
  constructor
  · obtain ⟨-, ha, he⟩ := (sendVectored_in_full second).2.2.2.2 3 _ rfl
    exact ⟨_, _, _, _, second, rfl, ha, each, rfl, (he _ _ _ _ _ _ _ each rfl).2⟩
  · have hs := sendVectored_in_full cut
    exact ⟨_, _, cut, rfl, (hs.2.2.2.1 .socketDisposed _ rfl).1, hs.1⟩

end Stream

end Duplex.Socket
