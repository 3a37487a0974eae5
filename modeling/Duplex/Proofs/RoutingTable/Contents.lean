import Mathlib.Data.Finmap
import Duplex.Proofs.RoutingTable
import Duplex.RoutingTable.Shared

/-!
# A routing table as a finite map

A table stands for the finite map from ids to entries that its lookups show (`contents`). What a
call that is alone with this map may come to, and what it leaves, is `Takes`; `Sequential` is one
such call after another.

As long as nobody removes an id that was not there, all who find or insert it come to one entry, and
one of them has made it (`Sequential.arrivals`).
-/

namespace Duplex.RoutingTable

variable {σ α : Type}

/-- A finite map from ids to entries. -/
abbrev Contents (α : Type) := Finmap fun _ : ConnectionId => Entry α

/-- The finite map that a table stands for. -/
def contents (table : RoutingTable α) : Contents α :=
  List.toFinmap (table.entries.map fun p => ⟨p.1, p.2⟩)

theorem lookup_contents (table : RoutingTable α) (key : ConnectionId) :
    table.contents.lookup key = table.get? key := by
  obtain ⟨entries⟩ := table
  rw [contents, Finmap.dlookup_list_toFinmap, get?]
  induction entries with
  | nil => rfl
  | cons p entries ih =>
    by_cases hk : p.1 = key
    · subst hk
      simp only [List.map_cons, List.dlookup_cons_eq, List.find?_cons, beq_self_eq_true,
        Option.map_some]
    · have hb : (p.1 == key) = false := by simpa using hk
      simp only [List.map_cons, List.find?_cons, hb]
      rw [List.dlookup_cons_ne _ _ (Ne.symm hk)]
      exact ih

theorem contents_insert {table : RoutingTable α} {key : ConnectionId}
    (hn : table.get? key = none) (entry : Entry α) :
    contents { entries := table.entries ++ [(key, entry)] } = table.contents.insert key entry := by
  refine Finmap.ext_lookup fun k => ?_
  rw [lookup_contents, get?_insert]
  by_cases hk : k = key
  · rw [if_pos hk, hk, hn, Finmap.lookup_insert, Option.none_or]
  · rw [if_neg hk, Option.or_none, Finmap.lookup_insert_of_ne _ hk, lookup_contents]

theorem contents_erase (table : RoutingTable α) (key : ConnectionId) :
    (table.erase key).contents = table.contents.erase key := by
  refine Finmap.ext_lookup fun k => ?_
  rw [lookup_contents, get?_erase]
  by_cases hk : k = key
  · rw [if_pos hk, hk, Finmap.lookup_erase]
  · rw [if_neg hk, Finmap.lookup_erase_ne hk, lookup_contents]

theorem entries_contents {table : RoutingTable α} (hd : table.Distinct) :
    table.contents.entries =
      (table.entries.map fun p => (⟨p.1, p.2⟩ : Sigma fun _ : ConnectionId => Entry α)) := by
  have hk : (table.entries.map fun p =>
      (⟨p.1, p.2⟩ : Sigma fun _ : ConnectionId => Entry α)).NodupKeys := by
    rw [List.NodupKeys, List.keys, List.map_map]
    exact hd
  have he : table.contents = AList.toFinmap ⟨_, hk⟩ := by
    refine Finmap.ext_lookup fun k => ?_
    rw [contents, Finmap.dlookup_list_toFinmap, Finmap.lookup_toFinmap]
    rfl
  rw [he]
  rfl

theorem card_keys_contents {table : RoutingTable α} (hd : table.Distinct) :
    table.contents.keys.card = table.size := by
  rw [Finmap.keys, Finset.card_mk, entries_contents hd, Multiset.coe_keys, Multiset.coe_card,
    List.keys, List.length_map, List.length_map, size]

theorem snapshot_contents {table : RoutingTable α} (hd : table.Distinct) :
    (table.snapshot : Multiset (Entry α)) = table.contents.entries.map (·.2) := by
  rw [entries_contents hd, Multiset.map_coe, List.map_map, snapshot]
  rfl

/-! ## One call at a time -/

/-- What a call that is alone with a finite map and the state of the constructors may come to, and
what it leaves of them. -/
inductive Takes : Contents α × σ → Request σ α → Response α → Contents α × σ → Prop
  | get {m s key} : Takes (m, s) (.get key) (.found (m.lookup key)) (m, s)
  | existing {m s key create entry} (hm : m.lookup key = some entry) :
    Takes (m, s) (.findOrInsert key create) (.looked (.existing entry)) (m, s)
  | created {m s key create entry s'} (hm : m.lookup key = none)
    (hc : create s = (some entry, s')) :
    Takes (m, s) (.findOrInsert key create) (.looked (.created entry)) (m.insert key entry, s')
  | failed {m s key create s'} (hm : m.lookup key = none) (hc : create s = (none, s')) :
    Takes (m, s) (.findOrInsert key create) (.looked .failed) (m, s')
  | removed {m s key entry} (hm : m.lookup key = some entry) :
    Takes (m, s) (.removeIfSame key entry.identity) (.removed true) (m.erase key, s)
  | kept {m s key identity} (hm : ∀ entry, m.lookup key = some entry → entry.identity ≠ identity) :
    Takes (m, s) (.removeIfSame key identity) (.removed false) (m, s)
  | size {m s} : Takes (m, s) .size (.counted m.keys.card) (m, s)
  | snapshot {m s} {entries : List (Entry α)}
    (hm : (entries : Multiset (Entry α)) = m.entries.map (·.2)) :
    Takes (m, s) .snapshot (.listed entries) (m, s)

/-- The instant at which a call takes effect: the number of events before it. -/
structure Effect (σ α : Type) where
  call : Nat
  time : Nat
  request : Request σ α
  response : Response α

/-- Calls that take effect one after the other. -/
inductive Sequential (start : Contents α × σ) : List (Effect σ α) → Contents α × σ → Prop
  | nil : Sequential start [] start
  | snoc {order e m m'} (h : Sequential start order m) (ht : Takes m e.request e.response m') :
    Sequential start (order ++ [e]) m'

/-! ## Arrivals at one id -/

/-- Whether a call finds or inserts the id. -/
def Request.arrivesAt (key : ConnectionId) : Request σ α → Bool
  | .findOrInsert k _ => k == key
  | _ => false

/-- Whether a call may remove the id. -/
def Request.wouldRemove (key : ConnectionId) : Request σ α → Bool
  | .removeIfSame k _ => k == key
  | _ => false

/-- Whether the caller is told that it has made the entry. -/
def Response.isCreated : Response α → Bool
  | .looked (.created _) => true
  | _ => false

/-- Whether the constructor of the call has run. -/
def Response.hasRun : Response α → Bool
  | .looked (.created _) | .looked .failed => true
  | _ => false

/-- Whether an id was removed. -/
def Response.isRemoved : Response α → Bool
  | .removed done => done
  | _ => false

/-- The entry that a call which finds or inserts has obtained. -/
def Response.entry? : Response α → Option (Entry α)
  | .looked (.existing entry) | .looked (.created entry) => some entry
  | _ => none

/-- Whether the effect is that the id is removed. -/
def Effect.removes (key : ConnectionId) (e : Effect σ α) : Bool :=
  e.request.wouldRemove key && e.response.isRemoved

/-- Whether the effect is that an entry is made for the id. -/
def Effect.creates (key : ConnectionId) (e : Effect σ α) : Bool :=
  e.request.arrivesAt key && e.response.isCreated

/-- What has become of an id that was not there and that nobody has removed: either it is still not
there and every constructor has panicked, or it is there, made by one call, and all others whose
constructors have not panicked have obtained it. -/
def Arrived (key : ConnectionId) (arrivals : List (Effect σ α)) : Option (Entry α) → Prop
  | none => arrivals.countP (·.creates key) = 0 ∧
      ∀ e ∈ arrivals, e.request.arrivesAt key = true → e.response = .looked .failed
  | some entry => arrivals.countP (·.creates key) = 1 ∧
      ∀ e ∈ arrivals, e.request.arrivesAt key = true →
        e.response = .looked .failed ∨ e.response.entry? = some entry

/-- A call that does not arrive at the id makes no difference. -/
theorem Arrived.other {key : ConnectionId} {arrivals : List (Effect σ α)} {e : Effect σ α}
    {entry : Option (Entry α)} (h : Arrived key arrivals entry)
    (he : e.request.arrivesAt key = false) : Arrived key (arrivals ++ [e]) entry := by
  have hc : (arrivals ++ [e]).countP (·.creates key) = arrivals.countP (·.creates key) := by
    rw [List.countP_append, List.countP_singleton, Effect.creates, he]
    rfl
  have hm : ∀ {P : Effect σ α → Prop},
      (∀ e ∈ arrivals, e.request.arrivesAt key = true → P e) →
      ∀ e' ∈ arrivals ++ [e], e'.request.arrivesAt key = true → P e' := by
    intro P hP e' he' ha
    rcases List.mem_append.mp he' with he' | he'
    · exact hP e' he' ha
    · rw [List.mem_singleton.mp he', he] at ha
      cases ha
  cases entry with
  | none => exact ⟨hc.trans h.1, hm h.2⟩
  | some entry => exact ⟨hc.trans h.1, hm h.2⟩

/-- A call that arrives at the id. -/
theorem Arrived.arrive {key : ConnectionId} {arrivals : List (Effect σ α)} {e : Effect σ α}
    {before after : Option (Entry α)} (h : Arrived key arrivals before)
    (he : e.request.arrivesAt key = true)
    (hr : before = after ∧ e.response.isCreated = false ∧
        (e.response = .looked .failed ∨ before ≠ none ∧ e.response.entry? = before) ∨
      before = none ∧ e.response.isCreated = true ∧ ∃ entry, after = some entry ∧
        e.response.entry? = some entry) : Arrived key (arrivals ++ [e]) after := by
  have hc : (arrivals ++ [e]).countP (·.creates key) =
      arrivals.countP (·.creates key) + if e.response.isCreated then 1 else 0 := by
    rw [List.countP_append, List.countP_singleton, Effect.creates, he, Bool.true_and]
  rcases hr with ⟨rfl, hn, ho⟩ | ⟨rfl, hn, entry, rfl, ho⟩
  · rw [hn, if_neg Bool.false_ne_true, Nat.add_zero] at hc
    cases before with
    | none =>
      refine ⟨hc.trans h.1, fun e' he' ha => ?_⟩
      rcases List.mem_append.mp he' with he' | he'
      · exact h.2 e' he' ha
      · rw [List.mem_singleton.mp he']
        exact ho.resolve_right fun ho => ho.1 rfl
    | some entry =>
      refine ⟨hc.trans h.1, fun e' he' ha => ?_⟩
      rcases List.mem_append.mp he' with he' | he'
      · exact h.2 e' he' ha
      · rw [List.mem_singleton.mp he']
        exact ho.imp_right And.right
  · rw [hn, if_pos rfl, h.1] at hc
    refine ⟨hc, fun e' he' ha => ?_⟩
    rcases List.mem_append.mp he' with he' | he'
    · exact .inl (h.2 e' he' ha)
    · rw [List.mem_singleton.mp he']
      exact .inr ho

theorem Takes.arrived {key : ConnectionId} {m m' : Contents α × σ} {e : Effect σ α}
    {arrivals : List (Effect σ α)} (ht : Takes m e.request e.response m')
    (hr : e.removes key = false) (h : Arrived key arrivals (m.1.lookup key)) :
    Arrived key (arrivals ++ [e]) (m'.1.lookup key) := by
  obtain ⟨call, time, request, response⟩ := e
  cases ht with
  | get | kept | size | snapshot => exact h.other rfl
  | @existing m s k create entry hm =>
    by_cases hk : k = key
    · subst hk
      have hn : m.lookup k ≠ none := by rw [hm]; exact Option.some_ne_none _
      exact h.arrive (beq_self_eq_true _) (.inl ⟨rfl, rfl, .inr ⟨hn, hm.symm⟩⟩)
    · exact h.other (by simpa [Request.arrivesAt] using hk)
  | @created m s k create entry s' hm hc =>
    by_cases hk : k = key
    · subst hk
      rw [hm] at h
      exact h.arrive (beq_self_eq_true _)
        (.inr ⟨rfl, rfl, entry, Finmap.lookup_insert m, rfl⟩)
    · rw [show (m.insert k entry).lookup key = m.lookup key from
        Finmap.lookup_insert_of_ne m (Ne.symm hk)]
      exact h.other (by simpa [Request.arrivesAt] using hk)
  | @failed m s k create s' hm hc =>
    by_cases hk : k = key
    · subst hk
      exact h.arrive (beq_self_eq_true _) (.inl ⟨rfl, rfl, .inl rfl⟩)
    · exact h.other (by simpa [Request.arrivesAt] using hk)
  | @removed m s k entry hm =>
    have hk : k ≠ key := by
      rintro rfl
      simp [Effect.removes, Request.wouldRemove, Response.isRemoved] at hr
    rw [show (m.erase k).lookup key = m.lookup key from Finmap.lookup_erase_ne (Ne.symm hk)]
    exact h.other rfl

/-- Calls that arrive at an id which is not there, while nobody removes it, come to one entry, and
one of them has made it. -/
theorem Sequential.arrivals {start m : Contents α × σ} {arrivals : List (Effect σ α)}
    {key : ConnectionId} (h : Sequential start arrivals m) (hs : start.1.lookup key = none)
    (hr : ∀ e ∈ arrivals, e.removes key = false) : Arrived key arrivals (m.1.lookup key) := by
  induction h with
  | nil => rw [hs]; exact ⟨rfl, by simp⟩
  | snoc h ht ih =>
    have hr := List.forall_mem_append.mp hr
    exact ht.arrived (hr.2 _ (List.mem_singleton_self _)) (ih hr.1)

theorem Sequential.split {start m : Contents α × σ} {order : List (Effect σ α)}
    (h : Sequential start order m) {before after : List (Effect σ α)}
    (he : order = before ++ after) : ∃ m', Sequential start before m' ∧ Sequential m' after m := by
  induction h generalizing after with
  | nil =>
    obtain ⟨rfl, rfl⟩ := List.append_eq_nil_iff.mp he.symm
    exact ⟨_, .nil, .nil⟩
  | snoc h ht ih =>
    rcases List.eq_nil_or_concat after with rfl | ⟨after, e, rfl⟩
    · rw [List.append_nil] at he
      rw [← he]
      exact ⟨_, .snoc h ht, .nil⟩
    · rw [List.concat_eq_append, ← List.append_assoc] at he
      obtain ⟨rfl, hl⟩ := List.append_inj' he rfl
      obtain rfl := List.singleton_inj.mp hl
      obtain ⟨m', hb, ha⟩ := ih rfl
      rw [List.concat_eq_append]
      exact ⟨m', hb, .snoc ha ht⟩

end Duplex.RoutingTable
