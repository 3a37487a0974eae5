import Duplex.Proofs.Connection.Waits

/-!
# What the socket says it sent

Every send that ends has an outcome (`outcomes`), and the counter of a connection adds up what the
sends that succeeded returned (`returned`), as a word of 64 bits that wraps (`Run.sentCounter_eq`).
As long as they return less in all, the total is the sum and only grows (`Run.bytesSent_eq`,
`Run.bytesSent_mono`). On a socket whose sends write everything they return the lengths of what they
were given (`Run.returned_eq_delivered`).
-/

namespace Duplex.Connection

open scoped Numbers

variable {S : Socket} {M : Socket.Medium S}

/-- The outcome of the send that a move ends. -/
def Event.outcome (e : Event S) : List (Except IoError Nat) :=
  match e.move, e.before.sender with
  | .task _ .sender, .sending call _ _ => (S.pollSend call e.before.socket).1.results
  | _, _ => []

/-- The outcomes of the sends that ended in a history, send by send. -/
def outcomes (h : List (Event S)) : List (Except IoError Nat) := h.flatMap Event.outcome

@[simp] theorem outcomes_snoc (h : List (Event S)) (e : Event S) :
    outcomes (h ++ [e]) = outcomes h ++ e.outcome := by
  simp [outcomes]

/-- The sum of what sends that succeeded said they sent. -/
def returned (results : List (Except IoError Nat)) : Nat :=
  (results.filterMap Except.toOption).sum

theorem returned_append (results more : List (Except IoError Nat)) :
    returned (results ++ more) = returned results + returned more := by
  simp [returned]

/-- How many bytes a send has delivered that was given those regions. -/
def accepted (regions : List Bytes) : Except IoError Nat → Nat
  | .ok _ => (regions.map List.length).sum
  | .error _ => 0

/-- How many bytes sends have delivered, by their regions and their outcomes. -/
def deliveredBy (sends : List (List Bytes)) (results : List (Except IoError Nat)) : Nat :=
  ((sends.zip results).map fun (regions, result) => accepted regions result).sum

/-- How many bytes the sends that succeeded were given. -/
def delivered (h : List (Event S)) : Nat := deliveredBy (handed h) (outcomes h)

/-- What a send has returned that the loop is about to add to the total. -/
def uncounted (c : Connection S) : Nat :=
  match c.sender with
  | .counting sent _ _ => sent
  | _ => 0

/-- The sends that have begun and not ended: one at most. -/
def inFlight (c : Connection S) : Nat :=
  match c.sender with
  | .sending _ _ _ => 1
  | _ => 0

/-- Others than the send loop neither begin nor end a send, and add nothing to the total. -/
theorem Step.sends_others {c c' : Connection S} {m : Move} (st : Step c m c')
    (ho : Orderly c) (hm : ∀ pool, m ≠ .task pool .sender) :
    Event.handed ⟨c, m⟩ = [] ∧ Event.outcome ⟨c, m⟩ = [] ∧ c'.sentCounter = c.sentCounter ∧
      c'.uncounted = c.uncounted ∧ c'.inFlight = c.inFlight := by
  refine ⟨?_, ?_, ?_, ?_⟩
  · simp only [Event.handed]
    split
    · exact absurd rfl (hm _)
    · rfl
  · simp only [Event.outcome]
    split
    · exact absurd rfl (hm _)
    · rfl
  · cases st with
    | receiver st => obtain ⟨_, _, _, rfl, -⟩ := st.frame; rfl
    | sender => exact absurd rfl (hm _)
    | driver st => cases st <;> rfl
    | starter st => cases st <;> rfl
    | shutdown => obtain ⟨_, _, e, -⟩ := c.shutdown_frame; rw [e]
    | _ => rfl
  · rcases st.sender_eq hm with e | ⟨hd, e⟩
    · simp only [uncounted, inFlight, e, and_self]
    · have hu := (ho.of_launching hd).2.1
      simp only [uncounted, inFlight, e, hu, and_self]

/-- A step of the send loop begins a send, or ends the one in flight, or does neither. -/
theorem SenderStep.sends {c c' : Connection S} (st : SenderStep c c') (pool : BufferPool) :
    (Event.handed ⟨c, .task pool .sender⟩).length + c.inFlight =
      (Event.outcome ⟨c, .task pool .sender⟩).length + c'.inFlight := by
  cases st with
  | @empty call result outbound hs =>
    obtain ⟨_, _, _ | _⟩ := result <;> simp [Event.handed, Event.outcome, inFlight, hs, nextRead]
  | @consume length last hs =>
    cases last <;> simp [Event.handed, Event.outcome, inFlight, hs, nextRead]
  | wait hs hp | fail hs hp | sent hs hp =>
    simp only [Event.handed, Event.outcome, inFlight, hs, hp]
    rfl
  | shutdown hs =>
    simp [Event.handed, Event.outcome, inFlight, hs]
  | read hs | readFail hs | canceled hs | found hs | send hs | sendVectored hs | count hs
  | classify hs =>
    simp [Event.handed, Event.outcome, inFlight, hs]

/-- Every send but the one in flight has an outcome. -/
theorem Run.sends_eq {h : List (Event S)} {c : Connection S} (run : Run M h c) :
    (handed h).length = (outcomes h).length + c.inFlight := by
  induction run with
  | create => rfl
  | change _ _ ih => exact ih
  | @move h c c' run m hm ih =>
    have st := step_of_perform hm
    rw [handed_snoc, outcomes_snoc, List.length_append, List.length_append, ih]
    rcases m.by_task .sender with ⟨pool, rfl⟩ | hs
    · cases st with
      | sender st =>
        have hl := st.sends pool
        omega
    · obtain ⟨hn, ho, -, -, hf⟩ := st.sends_others run.orderly hs
      rw [hn, ho, hf]
      rfl

/-! ## The counter -/

/-- What a move does that ends sends with `sent` bytes: it keeps them for the counter, or adds
what was kept. -/
inductive Tallied (c c' : Connection S) (sent : Nat) : Prop
  | kept (hc : c'.sentCounter = c.sentCounter) (hu : c'.uncounted = c.uncounted + sent)
  | added (hc : c'.sentCounter = c.sentCounter + UInt64.ofNat c.uncounted)
    (hu : c'.uncounted = 0) (hs : sent = 0)

theorem Tallied.counter {c c' : Connection S} {sent : Nat} (t : Tallied c c' sent) :
    c'.sentCounter + UInt64.ofNat c'.uncounted =
      c.sentCounter + UInt64.ofNat c.uncounted + UInt64.ofNat sent := by
  cases t with
  | kept hc hu => rw [hc, hu, UInt64.ofNat_add, UInt64.add_assoc]
  | added hc hu hs => rw [hc, hu, hs]

/-- A counter that has room for what is kept neither wraps nor goes back. -/
theorem Tallied.bytesSent {c c' : Connection S} {sent : Nat} (t : Tallied c c' sent)
    (hb : c.bytesSent + c.uncounted < 2 ^ (64 : Nat)) :
    c'.bytesSent + c'.uncounted = c.bytesSent + c.uncounted + sent ∧
      c.bytesSent ≤ c'.bytesSent := by
  simp only [Connection.bytesSent] at hb ⊢
  cases t with
  | kept hc hu =>
    rw [hc, hu]
    omega
  | added hc hu hs =>
    have hk : (UInt64.ofNat c.uncounted).toNat = c.uncounted :=
      UInt64.toNat_ofNat_of_lt' (Nat.lt_of_le_of_lt (Nat.le_add_left _ _) hb)
    rw [hc, hu, hs, UInt64.toNat_add, hk, Nat.mod_eq_of_lt hb]
    omega

theorem SenderStep.tallied {c c' : Connection S} (st : SenderStep c c') (pool : BufferPool) :
    Tallied c c' (returned (Event.outcome ⟨c, .task pool .sender⟩)) := by
  cases st with
  | @empty call result outbound hs =>
    refine .kept rfl ?_
    obtain ⟨_, _, _ | _⟩ := result <;> simp [Event.outcome, uncounted, returned, hs, nextRead]
  | @consume length last hs =>
    refine .kept rfl ?_
    cases last <;> simp [Event.outcome, uncounted, returned, hs, nextRead]
  | wait hs hp | fail hs hp | sent hs hp =>
    refine .kept rfl ?_
    simp only [Event.outcome, uncounted, hs, hp, Nat.zero_add]
    rfl
  | count hs =>
    refine .added ?_ rfl ?_
    · simp only [uncounted, hs]
    · simp [Event.outcome, returned, hs]
  | shutdown hs =>
    obtain ⟨_, _, e, -⟩ := c.shutdown_frame
    rw [e]
    exact .kept rfl (by simp [Event.outcome, uncounted, returned, hs])
  | read hs | readFail hs | canceled hs | found hs | send hs | sendVectored hs | classify hs =>
    exact .kept rfl (by simp [Event.outcome, uncounted, returned, hs])

theorem Step.tallied {c c' : Connection S} {m : Move} (st : Step c m c') (ho : Orderly c) :
    Tallied c c' (returned (Event.outcome ⟨c, m⟩)) := by
  rcases m.by_task .sender with ⟨pool, rfl⟩ | hs
  · cases st with
    | sender st => exact st.tallied pool
  · obtain ⟨-, hn, hc, hu, -⟩ := st.sends_others ho hs
    refine .kept hc ?_
    rw [hu, hn]
    rfl

/-- The counter is the sum of what the successful sends returned, but for the one that the loop is
about to add; it wraps as a word of 64 bits does. -/
theorem Run.sentCounter_eq {h : List (Event S)} {c : Connection S} (run : Run M h c) :
    c.sentCounter + UInt64.ofNat c.uncounted = UInt64.ofNat (returned (outcomes h)) := by
  induction run with
  | create => rfl
  | change _ _ ih => exact ih
  | @move h c c' run m hm ih =>
    have ht := (step_of_perform hm).tallied run.orderly
    rw [ht.counter, ih, outcomes_snoc, returned_append, UInt64.ofNat_add]

/-- As long as the sends return less than a word holds, the total is the sum of what they
return. -/
theorem Run.bytesSent_eq {h : List (Event S)} {c : Connection S} (run : Run M h c)
    (hb : returned (outcomes h) < 2 ^ (64 : Nat)) :
    c.bytesSent + c.uncounted = returned (outcomes h) := by
  induction run with
  | create => rfl
  | change _ _ ih => exact ih hb
  | @move h c c' run m hm ih =>
    rw [outcomes_snoc, returned_append] at hb ⊢
    have he := ih (by omega)
    have ht := (step_of_perform hm).tallied run.orderly
    rw [(ht.bytesSent (by omega)).1, he]

/-- As long as the sends return less than a word holds, the total never decreases. -/
theorem Run.bytesSent_mono {h : List (Event S)} {c : Connection S} (run : Run M h c)
    (hb : returned (outcomes h) < 2 ^ (64 : Nat)) :
    ∀ e ∈ h, e.before.bytesSent ≤ c.bytesSent := by
  induction run with
  | create => intro e he; cases he
  | change _ _ ih => exact ih hb
  | @move h c c' run m hm ih =>
    rw [outcomes_snoc, returned_append] at hb
    have hs := run.bytesSent_eq (by omega)
    have hl := (((step_of_perform hm).tallied run.orderly).bytesSent (by omega)).2
    intro e he
    rcases List.mem_append.mp he with he | he
    · exact Nat.le_trans (ih (by omega) e he) hl
    · rw [List.mem_singleton.mp he]; exact hl

/-! ## Sends that write everything -/

theorem deliveredBy_begin {sends : List (List Bytes)} {results : List (Except IoError Nat)}
    (hl : sends.length = results.length) (more : List (List Bytes)) :
    deliveredBy (sends ++ more) results = deliveredBy sends results := by
  have hz : (sends ++ more).zip results = sends.zip results :=
    calc (sends ++ more).zip results
        = (sends ++ more).zip (results ++ []) := by rw [List.append_nil]
      _ = sends.zip results ++ more.zip [] := List.zip_append hl
      _ = sends.zip results := by rw [List.zip_nil_right, List.append_nil]
  rw [deliveredBy, hz, deliveredBy]

theorem deliveredBy_end {sends : List (List Bytes)} {results : List (Except IoError Nat)}
    (hl : sends.length = results.length + 1) (result : Except IoError Nat) :
    deliveredBy sends (results ++ [result]) =
      deliveredBy sends results + accepted (sends.getLastD []) result := by
  obtain ⟨first, regions, rfl⟩ : ∃ first regions, sends = first ++ [regions] := by
    rcases List.eq_nil_or_concat sends with rfl | ⟨first, regions, e⟩
    · cases hl
    · exact ⟨first, regions, by rw [e, List.concat_eq_append]⟩
  have hf : first.length = results.length := by simpa using hl
  rw [deliveredBy_begin hf, deliveredBy, List.zip_append hf, List.map_append, List.sum_append,
    ← deliveredBy]
  simp

theorem SenderStep.delivered (hM : M.SendsWhole) {pool : BufferPool} {h : List (Event S)}
    {c c' : Connection S} {r d} (st : SenderStep c c')
    (hl : (handed h).length = (outcomes h).length + c.inFlight)
    (u : M.Used r (c.sending? (latest h)) d c.socket) :
    delivered (h ++ [⟨c, .task pool .sender⟩]) =
      delivered h + returned (Event.outcome ⟨c, .task pool .sender⟩) := by
  simp only [Connection.delivered, handed_snoc, outcomes_snoc]
  cases st with
  | send hs | sendVectored hs =>
    simp only [inFlight, hs] at hl
    simp only [Event.handed, Event.outcome, hs, List.append_nil]
    exact deliveredBy_begin hl _
  | fail hs hp =>
    simp only [inFlight, hs] at hl
    simp only [Event.handed, Event.outcome, hs, hp, Progress.results, List.append_nil]
    exact deliveredBy_end hl _
  | sent hs hp =>
    simp only [inFlight, hs] at hl
    simp only [sending?, hs] at u
    have hw := hM u hp
    simp only [Event.handed, Event.outcome, hs, hp, Progress.results, List.append_nil]
    rw [deliveredBy_end hl, hw]; rfl
  | wait hs hp =>
    simp only [Event.handed, Event.outcome, hs, hp, Progress.results, List.append_nil]; rfl
  | read hs | readFail hs | canceled hs | empty hs | found hs | count hs | consume hs | classify hs
  | shutdown hs =>
    simp only [Event.handed, Event.outcome, hs, List.append_nil]; rfl

/-- Where sends write everything, they return the lengths of what they were given. -/
theorem Run.returned_eq_delivered (hM : M.SendsWhole) {h : List (Event S)} {c : Connection S}
    (run : Run M h c) : returned (outcomes h) = delivered h := by
  induction run with
  | create => rfl
  | change _ _ ih => exact ih
  | @move h c c' run m hm ih =>
    have st := step_of_perform hm
    rw [outcomes_snoc, returned_append]
    rcases m.by_task .sender with ⟨pool, rfl⟩ | hs
    · obtain ⟨_, u, -⟩ := run.used
      cases st with
      | sender st => rw [st.delivered hM run.sends_eq u, ih]
    · obtain ⟨hn, ho, -⟩ := st.sends_others run.orderly hs
      rw [delivered, handed_snoc, outcomes_snoc, hn, ho, List.append_nil, List.append_nil,
        ← delivered, ← ih]
      rfl

end Duplex.Connection
