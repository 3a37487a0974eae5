import Duplex.Proofs.Socket.Readers
import Duplex.Proofs.Steps

/-!
# What receives return

What the receives on a datagram socket have returned ends between two datagrams, or within one whose
rest the socket keeps (`Reading`, `Leads.reading`), whoever of them was cancelled. So a receive
returns bytes of one datagram, and nothing at all only between two (`Outcome`, `Kept.outcome`). A
receive that begins after the disposal does not get as far as the line (`Late`, `Leads.late`).

These make up `receives_in_order`.
-/

namespace Duplex.Socket.Datagram

variable {s t : Readers} {e : Event} {h : List Event} {accepted : List Bytes} {returned : Bytes}
  {socket : Datagram}

/-! ## Bytes and boundaries -/

/-- How far the datagrams that were accepted have been returned. -/
inductive Reading (accepted : List Bytes) (returned : Bytes) (socket : Datagram) : Prop
  | between {read} (hr : socket.remainder = none) (ha : accepted = read ++ socket.queue)
    (hb : returned = read.flatten)
  | within {read front rest} (hr : socket.remainder = some rest) (hn : rest ≠ [])
    (ha : accepted = read ++ (front ++ rest) :: socket.queue)
    (hb : returned = read.flatten ++ front)

namespace Reading

/-- It is a matter of what is to come only. -/
theorem congr {socket' : Datagram} (r : Reading accepted returned socket)
    (hr : socket'.remainder = socket.remainder) (hq : socket'.queue = socket.queue) :
    Reading accepted returned socket' := by
  cases r with
  | between h ha hb => exact .between (hr.trans h) (by rw [hq]; exact ha) hb
  | within h hn ha hb => exact .within (hr.trans h) hn (by rw [hq]; exact ha) hb

theorem of_none (r : Reading accepted returned socket) (hr : socket.remainder = none) :
    ∃ read, accepted = read ++ socket.queue ∧ returned = read.flatten := by
  cases r with
  | between _ ha hb => exact ⟨_, ha, hb⟩
  | within h => cases hr.symm.trans h

theorem of_some {rest : Bytes} (r : Reading accepted returned socket)
    (hr : socket.remainder = some rest) :
    rest ≠ [] ∧ ∃ read front, accepted = read ++ (front ++ rest) :: socket.queue ∧
      returned = read.flatten ++ front := by
  cases r with
  | between h => cases hr.symm.trans h
  | within h hn ha hb =>
    cases hr.symm.trans h
    exact ⟨hn, _, _, ha, hb⟩

/-- The next datagram, of which nothing has been returned. -/
theorem of_queue {datagram : Bytes} {queue : List Bytes} (r : Reading accepted returned socket)
    (hr : socket.remainder = none) (hq : socket.queue = datagram :: queue) :
    ∃ read, accepted = read ++ ([] ++ datagram) :: queue ∧ returned = read.flatten ++ [] := by
  obtain ⟨read, ha, hb⟩ := r.of_none hr
  exact ⟨read, by rw [ha, hq]; rfl, by rw [hb, List.append_nil]⟩

theorem returned_append_unread (r : Reading accepted returned socket) :
    returned ++ socket.unread = accepted.flatten := by
  cases r with
  | between hr ha hb => simp [unread, hr, ha, hb]
  | within hr _ ha hb => simp [unread, hr, ha, hb]

theorem offer (r : Reading accepted returned socket) {datagram : Bytes} {socket' : Datagram}
    (h : socket.offer datagram = (.accepted, socket')) :
    Reading (accepted ++ [datagram]) returned socket' := by
  obtain rfl := of_offer_accepted h
  cases r with
  | between hr ha hb => exact .between hr (by rw [ha, List.append_assoc]) hb
  | within hr hn ha hb => exact .within hr hn (by rw [ha, List.append_assoc]; rfl) hb

/-- The front of a datagram, or of its rest, is returned. -/
theorem serve {read : List Bytes} {front rest : Bytes} (room : Nat)
    (ha : accepted = read ++ (front ++ rest) :: socket.queue)
    (hb : returned = read.flatten ++ front) :
    Reading accepted (returned ++ rest.take room) (socket.serve room rest).2 := by
  by_cases hn : rest.drop room = []
  · have hw : rest.take room = rest := List.take_of_length_le (List.drop_eq_nil_iff.mp hn)
    refine .between (by simp [Datagram.serve, hn]) (ha.trans (List.append_cons _ _ _)) ?_
    simp [hb, hw]
  · have ha' : accepted =
        read ++ ((front ++ rest.take room) ++ rest.drop room) :: socket.queue := by
      rw [List.append_assoc, List.take_append_drop]
      exact ha
    exact .within (by simp [Datagram.serve, hn]) hn ha' (by rw [hb, List.append_assoc])

theorem take (r : Reading accepted returned socket) {room : Nat} {result : Except IoError Bytes}
    {socket' : Datagram} (h : socket.take room = some (result, socket')) :
    Reading accepted (returned ++ gained (.done result)) socket' := by
  have ht := taken room socket
  rw [h] at ht
  cases ht with
  | disposed | shutDown | fedOut => exact (List.append_nil returned).symm ▸ r
  | rest hr =>
    obtain ⟨-, _, _, ha, hb⟩ := r.of_some hr
    exact serve room ha hb
  | datagram hr _ _ hq =>
    obtain ⟨_, ha, hb⟩ := r.of_queue hr hq
    exact serve room ha hb

theorem look (r : Reading accepted returned socket) (call : Receive) :
    Reading accepted (returned ++ gained (socket.pollReceive call).1)
      (socket.pollReceive call).2 := by
  have hl := receiveLook call socket
  generalize socket.pollReceive call = x at hl
  cases hl with
  | refused | behind | waits => exact (List.append_nil returned).symm ▸ r
  | queued =>
    have hn : Reading accepted (returned ++ []) socket := (List.append_nil returned).symm ▸ r
    exact hn.congr rfl rfl
  | served _ h => exact (r.take h).congr rfl rfl

end Reading

/-- The datagrams that were accepted, oldest first. -/
def acceptedIn (h : List Event) : List Bytes :=
  h.filterMap fun
    | .accepted datagram => some datagram
    | _ => none

/-- What the receives have returned that did not fail, in the order in which they ended. -/
def returnedIn (h : List Event) : List Bytes :=
  h.filterMap fun
    | .ended _ _ (.ok bytes) => some bytes
    | _ => none

theorem acceptedIn_append (h₁ h₂ : List Event) :
    acceptedIn (h₁ ++ h₂) = acceptedIn h₁ ++ acceptedIn h₂ := List.filterMap_append

theorem returnedIn_append (h₁ h₂ : List Event) :
    returnedIn (h₁ ++ h₂) = returnedIn h₁ ++ returnedIn h₂ := List.filterMap_append

theorem mem_acceptedIn {datagram : Bytes} : datagram ∈ acceptedIn h ↔ .accepted datagram ∈ h := by
  induction h with
  | nil => simp [acceptedIn]
  | cons e h ih =>
    cases e <;> simp_all [acceptedIn]

theorem flatten_returnedIn_ended (number room : Nat) (result : Except IoError Bytes) :
    (returnedIn [.ended number room result]).flatten = gained (.done result) := by
  cases result with
  | error => rfl
  | ok bytes => exact List.append_nil bytes

theorem Leads.reading (st : Leads s e t)
    (r : Reading (acceptedIn h) (returnedIn h).flatten s.socket) :
    Reading (acceptedIn (h ++ [e])) (returnedIn (h ++ [e])).flatten t.socket := by
  rw [acceptedIn_append, returnedIn_append, List.flatten_append]
  -- Only an offer adds to what was accepted, and only an end to what was returned.
  have same : ∀ {socket'}, Reading (acceptedIn h) (returnedIn h).flatten socket' →
      Reading (acceptedIn h ++ []) ((returnedIn h).flatten ++ []) socket' := by
    intro socket' r
    rwa [List.append_nil, List.append_nil]
  cases st with
  | accepted _ ho =>
    have hr := r.offer ho
    rw [← List.append_nil (returnedIn h).flatten] at hr
    exact hr
  | refused _ ho =>
    obtain rfl := of_offer_full ho
    exact same r
  | feedEnded | started | shutDown | disposed | sending => exact same (r.congr rfl rfl)
  | @cancelled _ call =>
    obtain ⟨_, e⟩ := abandonReceive_frame call s.socket
    exact same (r.congr (by rw [e]; rfl) (by rw [e]; rfl))
  | @waited _ call _ _ hp | @moved _ call _ _ _ hp =>
    have hr := r.look call
    rw [hp] at hr
    rw [← List.append_nil (acceptedIn h)] at hr
    exact hr
  | @ended number call result _ _ hp =>
    have hr := r.look call
    rw [hp, ← List.append_nil (acceptedIn h),
      ← flatten_returnedIn_ended number call.room result] at hr
    exact hr

/-! ## Receives that begin late -/

/-- A receive that began after the disposal stands where it began until it fails. -/
structure Late (number : Nat) (s : Readers) : Prop where
  disposed : s.socket.disposed = true
  began : number < s.next
  entering : ∀ {call}, s.calls number = some call → ∃ room, call = .entering room

theorem Late.look {number : Nat} (l : Late number s) {call : Receive}
    (hc : s.calls number = some call) :
    s.socket.pollReceive call = (.done (.error .socketDisposed), s.socket) := by
  obtain ⟨room, rfl⟩ := l.entering hc
  rw [pollReceive, if_pos l.disposed]

theorem Leads.late_started {number room : Nat} (st : Leads s (.started number room) t)
    (hd : s.socket.disposed = true) : Late number t := by
  cases st with
  | started =>
    refine ⟨hd, Nat.lt_succ_self _, fun hc => ?_⟩
    rcases calls_put_some.mp hc with ⟨-, rfl⟩ | ⟨hne, -⟩
    · exact ⟨room, rfl⟩
    · exact absurd rfl hne

theorem Leads.late (st : Leads s e t) {number : Nat} (l : Late number s) : Late number t := by
  have gone : ∀ {n socket}, socket.disposed = true → Late number (s.put n none socket) :=
    fun hd => ⟨hd, l.began, fun h => l.entering (calls_put_none.mp h).2⟩
  have looked : ∀ call, (s.socket.pollReceive call).2.disposed = true := by
    intro call
    obtain ⟨_, _, _, _, e⟩ := pollReceive_frame call s.socket
    rw [e]
    exact l.disposed
  cases st with
  | accepted _ ho =>
    obtain rfl := of_offer_accepted ho
    exact ⟨l.disposed, l.began, l.entering⟩
  | refused _ ho =>
    obtain rfl := of_offer_full ho
    exact l
  | feedEnded | shutDown | sending => exact ⟨l.disposed, l.began, l.entering⟩
  | disposed => exact ⟨rfl, l.began, l.entering⟩
  | started room =>
    refine ⟨l.disposed, Nat.lt_succ_of_lt l.began, fun h => ?_⟩
    rcases calls_put_some.mp h with ⟨-, rfl⟩ | ⟨-, h⟩
    · exact ⟨room, rfl⟩
    · exact l.entering h
  | @cancelled n call =>
    obtain ⟨_, e⟩ := abandonReceive_frame call s.socket
    rw [e]
    exact gone l.disposed
  | @waited n call _ _ hp =>
    have hd := looked call
    rw [hp] at hd
    exact ⟨hd, l.began, l.entering⟩
  | @moved n call next _ hc hp =>
    have hd := looked call
    rw [hp] at hd
    refine ⟨hd, l.began, fun h => ?_⟩
    rcases calls_put_some.mp h with ⟨rfl, -⟩ | ⟨-, h⟩
    · cases (l.look hc).symm.trans hp
    · exact l.entering h
  | @ended n call _ _ _ hp =>
    have hd := looked call
    rw [hp] at hd
    exact gone hd

theorem Leads.late_ended {number room : Nat} {result : Except IoError Bytes}
    (st : Leads s (.ended number room result) t) (l : Late number s) :
    result = .error .socketDisposed := by
  cases st with
  | ended hc hp =>
    cases (l.look hc).symm.trans hp
    rfl

theorem late_steps {number : Nat} (run : Steps Leads s h t) (l : Late number s) :
    Late number t ∧
      ∀ room result, .ended number room result ∈ h → result = .error .socketDisposed := by
  induction run with
  | nil => exact ⟨l, fun _ _ hm => absurd hm List.not_mem_nil⟩
  | snoc _ st ih =>
    obtain ⟨l, he⟩ := ih
    refine ⟨st.late l, fun room result hm => ?_⟩
    rcases List.mem_append.mp hm with hm | hm
    · exact he room result hm
    · obtain rfl := List.mem_singleton.mp hm
      exact st.late_ended l

/-! ## Whole histories -/

/-- A receive keeps its room. -/
def Started (h : List Event) (s : Readers) : Prop :=
  ∀ number call, s.calls number = some call → .started number call.room ∈ h

theorem Leads.started_kept (st : Leads s e t) (hs : Started h s) : Started (h ++ [e]) t := by
  have same : ∀ {number call}, s.calls number = some call → .started number call.room ∈ h ++ [e] :=
    fun hc => List.mem_append_left _ (hs _ _ hc)
  cases st with
  | accepted | refused | feedEnded | waited | shutDown | disposed | sending =>
    exact fun _ _ => same
  | ended | cancelled => exact fun _ _ hc => same (calls_put_none.mp hc).2
  | started room =>
    intro number call hc
    rcases calls_put_some.mp hc with ⟨rfl, rfl⟩ | ⟨-, hc⟩
    · exact List.mem_append_right _ (List.mem_singleton.mpr rfl)
    · exact same hc
  | @moved number call next _ hc hp =>
    intro n call' hc'
    rcases calls_put_some.mp hc' with ⟨rfl, rfl⟩ | ⟨-, hc'⟩
    · have hl := receiveLook call s.socket
      rw [hp] at hl
      cases hl with
      | queued =>
        have hm := same hc
        exact hm
    · exact same hc'

/-- What a history keeps. -/
structure Kept (h : List Event) (s : Readers) : Prop where
  reading : Reading (acceptedIn h) (returnedIn h).flatten s.socket
  marks : Marks h s.socket
  line : Line s
  started : Started h s

theorem kept {size capacity : Nat} (run : Steps Leads (opened size capacity) h s) : Kept h s := by
  induction run with
  | nil =>
    exact ⟨.between rfl rfl rfl, ⟨by simp [opened, create], by simp [opened, create],
      by simp [opened, create]⟩, ⟨nofun, nofun, nofun, nofun, nofun⟩, nofun⟩
  | snoc _ st k =>
    exact ⟨st.reading k.reading, st.marks k.marks, st.line k.line, st.started_kept k.started⟩

/-- How a receive ends after the history `h`. -/
inductive Outcome (h : List Event) (room : Nat) : Except IoError Bytes → Prop
  /-- It returns what fits of the datagram with the next byte, and so does not return nothing. -/
  | bytes {read front rest later} (ha : acceptedIn h = read ++ (front ++ rest) :: later)
    (hb : (returnedIn h).flatten = read.flatten ++ front) (hn : rest.take room ≠ []) :
    Outcome h room (.ok (rest.take room))
  /-- Where a datagram has been returned whole, and the socket was shut down or no more comes. -/
  | nothing {read later} (ha : acceptedIn h = read ++ later)
    (hb : (returnedIn h).flatten = read.flatten) (hd : .disposed ∉ h)
    (he : .shutDown ∈ h ∨ .feedEnded ∈ h ∧ later = []) : Outcome h room (.ok [])
  | failed (hd : .disposed ∈ h) : Outcome h room (.error .socketDisposed)

theorem Kept.outcome_take (k : Kept h s) {room : Nat} {result : Except IoError Bytes}
    (hd : ∀ datagram, .accepted datagram ∈ h → datagram ≠ []) (hr : 0 < room)
    (hx : s.socket.take room = some (result, socket)) : Outcome h room result := by
  have take_ne : ∀ {bytes : Bytes}, bytes ≠ [] → bytes.take room ≠ [] := by
    intro bytes hn ht
    rcases List.take_eq_nil_iff.mp ht with h0 | h0
    · omega
    · exact hn h0
  have open_ne : s.socket.disposed = false → .disposed ∉ h := by
    intro hdis hm
    cases hdis.symm.trans (k.marks.disposed.mpr hm)
  have ht := taken room s.socket
  rw [hx] at ht
  cases ht with
  | rest hrem =>
    obtain ⟨hn, _, _, ha, hb⟩ := k.reading.of_some hrem
    exact .bytes ha hb (take_ne hn)
  | disposed _ hdis => exact .failed (k.marks.disposed.mp hdis)
  | shutDown hrem hdis hclosed =>
    obtain ⟨_, ha, hb⟩ := k.reading.of_none hrem
    have hs := (k.marks.closed.mp hclosed).resolve_right (open_ne hdis)
    exact .nothing ha hb (open_ne hdis) (.inl hs)
  | @datagram datagram _ hrem _ _ hq =>
    obtain ⟨_, ha, hb⟩ := k.reading.of_queue hrem hq
    have hm : .accepted datagram ∈ h :=
      mem_acceptedIn.mp (ha ▸ List.mem_append_right _ List.mem_cons_self)
    exact .bytes ha hb (take_ne (hd _ hm))
  | fedOut hrem hdis _ hq hf =>
    obtain ⟨_, ha, hb⟩ := k.reading.of_none hrem
    exact .nothing ha hb (open_ne hdis) (.inr ⟨k.marks.fed.mp hf, hq⟩)

theorem Kept.outcome (k : Kept h s) {number room : Nat} {result : Except IoError Bytes}
    (hd : ∀ datagram, .accepted datagram ∈ h → datagram ≠ [])
    (hr : ∀ number room, .started number room ∈ h → 0 < room)
    (st : Leads s (.ended number room result) t) :
    .started number room ∈ h ∧ Outcome h room result := by
  cases st with
  | @ended _ call _ _ hc hp =>
    have hs := k.started _ _ hc
    refine ⟨hs, ?_⟩
    have hl := receiveLook call s.socket
    rw [hp] at hl
    cases hl with
    | refused hdis => exact .failed (k.marks.disposed.mp hdis)
    | served _ hx => exact k.outcome_take hd (hr _ _ hs) hx

/-- Receives on a datagram socket, into buffers that are not empty, of datagrams that are not empty.
At any time what they have returned, followed by what is unread, is what was accepted: a receive
that is cancelled takes nothing with it. Each receive ends as `Outcome` says at the time at which it
ends. One that begins after the disposal fails at its first look. As long as there is something to
read, or the socket was shut down or disposed of, or no more comes, two looks end one of those that
are outstanding. -/
theorem receives_in_order {size capacity : Nat} (run : Steps Leads (opened size capacity) h s)
    (hd : ∀ datagram, .accepted datagram ∈ h → datagram ≠ [])
    (hr : ∀ number room, .started number room ∈ h → 0 < room) :
    (returnedIn h).flatten ++ s.socket.unread = (acceptedIn h).flatten ∧
    (∀ h₁ h₂ number room result, h = h₁ ++ .ended number room result :: h₂ →
      .started number room ∈ h₁ ∧ Outcome h₁ room result) ∧
    (∀ h₁ h₂ number room, h = h₁ ++ .started number room :: h₂ → .disposed ∈ h₁ →
      (∀ room' result, .ended number room' result ∈ h₂ → result = .error .socketDisposed) ∧
      ∀ call, s.calls number = some call →
        s.socket.pollReceive call = (.done (.error .socketDisposed), s.socket)) ∧
    ∀ number call, s.calls number = some call →
      (∃ number call result socket, s.calls number = some call ∧
        Progress.poll pollReceive 2 call s.socket = (.inr result, socket)) ∨
      s.socket.unread = [] ∧ s.socket.fed = true ∧ s.socket.closed = false ∧
        s.socket.disposed = false := by
  have k := kept run
  refine ⟨k.reading.returned_append_unread, ?_, ?_, fun _ _ hc => k.line.exists_end hc⟩
  · rintro h₁ h₂ number room result rfl
    obtain ⟨s₁, _, before, st, -⟩ := run.split
    exact (kept before).outcome (fun _ hm => hd _ (List.mem_append_left _ hm))
      (fun _ _ hm => hr _ _ (List.mem_append_left _ hm)) st
  · rintro h₁ h₂ number room rfl hm
    obtain ⟨s₁, s₂, before, st, after⟩ := run.split
    have hdis : s₁.socket.disposed = true := (kept before).marks.disposed.mpr hm
    obtain ⟨l, he⟩ := late_steps after (st.late_started hdis)
    exact ⟨he, fun _ hc => l.look hc⟩

/-- Two receives begin, and the first is cancelled at its turn. -/
def abandoned : List Event :=
  [.started 0 3, .looked 0, .looked 0, .started 1 3, .looked 1, .cancelled 0,
    .accepted [1, 2, 3, 4, 5]]

/-- The datagram is returned in two parts, between which the socket is shut down, and then nothing.
After that the socket is disposed of. -/
def interrupted : List Event :=
  [.ended 1 3 (.ok [1, 2, 3]), .shutDown, .started 2 9, .looked 2, .ended 2 9 (.ok [4, 5]),
    .started 3 9, .looked 3, .ended 3 9 (.ok []), .disposed,
    .started 4 9, .ended 4 9 (.error .socketDisposed)]

/-- The second receive has its turn when the first is gone, and the shutdown does not take the rest
of the datagram away. -/
theorem interrupted_in_order :
    ∃ s t, Steps Leads (opened 4 8) abandoned s ∧
      Steps Leads (opened 4 8) (abandoned ++ interrupted) t ∧
      (∃ number call result socket, s.calls number = some call ∧
        Progress.poll pollReceive 2 call s.socket = (.inr result, socket)) ∧
      (returnedIn (abandoned ++ interrupted)).flatten ++ t.socket.unread = [1, 2, 3, 4, 5] ∧
      Outcome abandoned 3 (.ok [1, 2, 3]) ∧
      Outcome (abandoned ++ interrupted.take 4) 9 (.ok [4, 5]) ∧
      Outcome (abandoned ++ interrupted.take 7) 9 (.ok []) ∧
      ∀ room result, .ended 4 room result ∈ interrupted.drop 10 →
        result = .error .socketDisposed := by
  have before : Steps Leads (opened 4 8) abandoned _ :=
    .cons (.started 3) (.cons (.moved rfl rfl) (.cons (.waited rfl rfl) (.cons (.started 3)
      (.cons (.moved rfl rfl) (.cons (.cancelled rfl) (.cons (.accepted rfl rfl) .nil))))))
  have run : Steps Leads (opened 4 8) (abandoned ++ interrupted) _ := before.append
    (.cons (@Leads.ended _ 1 (.queued 1 3) _ _ rfl rfl) (.cons .shutDown
      (.cons (.started 9) (.cons (.moved rfl rfl)
      (.cons (@Leads.ended _ 2 (.queued 2 9) _ _ rfl rfl)
      (.cons (.started 9) (.cons (.moved rfl rfl)
      (.cons (@Leads.ended _ 3 (.queued 3 9) _ _ rfl rfl) (.cons .disposed
      (.cons (.started 9) (.cons (@Leads.ended _ 4 (.entering 9) _ _ rfl rfl) .nil)))))))))))
  have hd : ∀ datagram, .accepted datagram ∈ abandoned ++ interrupted → datagram ≠ [] := by
    simp [abandoned, interrupted]
  have hr : ∀ number room, .started number room ∈ abandoned ++ interrupted → 0 < room := by
    intro number room hm
    have hm : number = 0 ∧ room = 3 ∨ number = 1 ∧ room = 3 ∨ number = 2 ∧ room = 9 ∨
        number = 3 ∧ room = 9 ∨ number = 4 ∧ room = 9 := by
      simpa [abandoned, interrupted] using hm
    omega
  obtain ⟨-, -, -, goesOn⟩ := receives_in_order before
    (fun _ hm => hd _ (List.mem_append_left _ hm)) fun _ _ hm => hr _ _ (List.mem_append_left _ hm)
  obtain ⟨conserved, ends, late, -⟩ := receives_in_order run hd hr
  refine ⟨_, _, before, run, ?_, conserved, ?_, ?_, ?_, ?_⟩
  · exact (goesOn 1 (.queued 1 3) rfl).resolve_right fun h => by cases h.1
  · exact (ends abandoned (interrupted.drop 1) 1 3 _ rfl).2
  · exact (ends (abandoned ++ interrupted.take 4) (interrupted.drop 5) 2 9 _ rfl).2
  · exact (ends (abandoned ++ interrupted.take 7) (interrupted.drop 8) 3 9 _ rfl).2
  · exact (late (abandoned ++ interrupted.take 9) (interrupted.drop 10) 4 9 rfl
      (by simp [interrupted])).1

end Duplex.Socket.Datagram
