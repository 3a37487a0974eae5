import Duplex.Proofs.RoutingTable
import Duplex.Proofs.Wire.LongHeader

/-!
# Connection ids and their bytes

An id is kept in 18 bytes, and equality, order and lookups go by all of them. What makes an id
leaves zeros behind its bytes (`Obtained.eq_fit`): an id is the same whether it was made from given
bytes, read from a header, drawn at random or left at its default, and equal just if its bytes are
equal. An extension by zeros is as long as the padding it takes the place of, so that only the
length tells the two apart.

The order by length and padded bytes is the order by length and bytes (`compare_eq`), because
padding of one length decides nothing.
-/

namespace Duplex

/-! ## The fields of a header -/

namespace Wire.LongHeader

/-- The bytes of the destination id in the bytes of a header, of which the fifth holds the lengths
of both ids. -/
def destinationField (input : Bytes) : Bytes :=
  (input.drop 5).take (idLengthOfCode ((input.drop 4).headD 0 / 16))

/-- The bytes of the source id, which come next. -/
def sourceField (input : Bytes) : Bytes :=
  (input.drop (5 + idLengthOfCode ((input.drop 4).headD 0 / 16))).take
    (idLengthOfCode ((input.drop 4).headD 0))

theorem fields_of_read {input rest : Bytes} {header : LongHeader}
    (h : read.run input = .ok header rest) :
    destinationField input = header.destination.bytes ∧
      sourceField input = header.source.bytes := by
  obtain ⟨hd, hs, field, -, rfl⟩ := read_eq_ok_iff.mp h
  obtain ⟨after, he⟩ : ∃ after, header.frame field ++ rest =
      Bytes.ofNat 4 header.version.toNat ++ ([header.lengths] ++
        (header.destination.bytes ++ (header.source.bytes ++ after))) :=
    ⟨field ++ Bytes.ofNat 4 header.packetNumber.toNat ++ rest, by
      simp only [frame, List.append_assoc]⟩
  have hb : (header.frame field ++ rest).drop 4 = [header.lengths] ++
      (header.destination.bytes ++ (header.source.bytes ++ after)) := by
    rw [he, List.drop_left' (Bytes.length_ofNat _ _)]
  have hi : (header.frame field ++ rest).drop 5 =
      header.destination.bytes ++ (header.source.bytes ++ after) := by
    rw [show 5 = 4 + 1 from rfl, ← List.drop_drop, hb]
    rfl
  have hdl : idLengthOfCode (((header.frame field ++ rest).drop 4).headD 0 / 16) =
      header.destination.length := by
    rw [hb]
    exact idLengthOfCode_div hd hs
  have hsl : idLengthOfCode (((header.frame field ++ rest).drop 4).headD 0) =
      header.source.length := by
    rw [hb]
    exact idLengthOfCode_mod _ hs
  constructor
  · rw [destinationField, hdl, hi, List.take_left' (ConnectionId.length_bytes _)]
  · rw [sourceField, hdl, hsl, ← List.drop_drop, hi,
      List.drop_left' (ConnectionId.length_bytes _), List.take_left' (ConnectionId.length_bytes _)]

end Wire.LongHeader

namespace ConnectionId

variable {bs bs' : Bytes} {id id' : ConnectionId}

/-! ## Where ids come from -/

/-- How an id comes about, with the bytes that it is made from. -/
inductive Obtained : Bytes → ConnectionId → Prop
  | new {bs : Bytes} {id : ConnectionId} (h : ofBytes? bs = some id) : Obtained bs id
  | destination {input rest : Bytes} {header : Wire.LongHeader}
    (h : Wire.LongHeader.read.run input = .ok header rest) :
    Obtained (Wire.LongHeader.destinationField input) header.destination
  | source {input rest : Bytes} {header : Wire.LongHeader}
    (h : Wire.LongHeader.read.run input = .ok header rest) :
    Obtained (Wire.LongHeader.sourceField input) header.source
  | random (length : Nat) (draw : Nat → UInt8) :
    Obtained ((List.range (min length maxLength)).map draw) (random length draw)
  | empty : Obtained [] empty

theorem ofBytes?_eq_some_iff : ofBytes? bs = some id ↔ bs.length ≤ maxLength ∧ id = fit bs := by
  rw [ofBytes?]
  split
  · rename_i hl
    exact ⟨fun h => ⟨hl, (Option.some.inj h).symm⟩, fun h => by rw [h.2]⟩
  · rename_i hl
    exact ⟨fun h => (by cases h), fun h => absurd h.1 hl⟩

/-- However an id comes about, it is the one that is made from its bytes. -/
theorem Obtained.eq_fit (h : Obtained bs id) : bs.length ≤ 18 ∧ id = fit bs := by
  have of_bytes : ∀ id : ConnectionId, id.bytes.length ≤ 18 ∧ id = fit id.bytes := fun id =>
    ⟨by rw [length_bytes]; exact id.length_le, (fit_bytes id).symm⟩
  cases h with
  | new h => exact ofBytes?_eq_some_iff.mp h
  | destination h =>
    rw [(Wire.LongHeader.fields_of_read h).1]
    exact of_bytes _
  | source h =>
    rw [(Wire.LongHeader.fields_of_read h).2]
    exact of_bytes _
  | random length draw =>
    refine ⟨?_, rfl⟩
    rw [List.length_map, List.length_range]
    exact Nat.min_le_right _ _
  | empty => exact ⟨by decide, rfl⟩

theorem Obtained.bytes_eq (h : Obtained bs id) : id.bytes = bs := by
  obtain ⟨hl, rfl⟩ := h.eq_fit
  exact bytes_fit hl

theorem Obtained.length_eq (h : Obtained bs id) : id.length = bs.length := by
  rw [← length_bytes, h.bytes_eq]

/-- What lies behind the bytes of an id is zero. -/
theorem storage_eq (id : ConnectionId) : id.storage = id.bytes ++ Bytes.zeros (18 - id.length) := by
  rw [bytes, ← id.padding, List.take_append_drop]

theorem eq_iff_bytes : id = id' ↔ id.bytes = id'.bytes := by
  constructor
  · intro h
    rw [h]
  · intro h
    rw [← fit_bytes id, h, fit_bytes]

theorem Obtained.eq_iff (h : Obtained bs id) (h' : Obtained bs' id') : id = id' ↔ bs = bs' := by
  rw [eq_iff_bytes, h.bytes_eq, h'.bytes_eq]

/-- Two ids are equal field by field just if they are equal. -/
theorem fields_eq_iff : id.length = id'.length ∧ id.storage = id'.storage ↔ id = id' := by
  constructor
  · rintro ⟨hl, hs⟩
    rw [eq_iff_bytes, bytes, bytes, hl, hs]
  · intro h
    rw [h]
    exact ⟨rfl, rfl⟩

/-! ## Order -/

theorem compareBytes_eq (a b : Bytes) : compareBytes a b = compare a b := by
  induction a generalizing b with
  | nil => cases b <;> rfl
  | cons x a ih =>
    cases b with
    | nil => rfl
    | cons y b => rw [compareBytes, ih, List.compare_cons_cons]

/-- A byte string comes first if it is smaller at the first difference, or is a proper front. -/
theorem compareBytes_eq_lt_iff (a b : Bytes) : compareBytes a b = .lt ↔ a < b := by
  induction a generalizing b with
  | nil => cases b <;> simp [compareBytes]
  | cons x a ih =>
    cases b with
    | nil => simp [compareBytes]
    | cons y b =>
      rw [compareBytes, Ordering.then_eq_lt, ih, List.cons_lt_cons_iff, Std.compare_eq_lt,
        Std.LawfulEqOrd.compare_eq_iff_eq]

theorem compare_append {a b : Bytes} (h : a.length = b.length) (c d : Bytes) :
    compare (a ++ c) (b ++ d) = (compare a b).then (compare c d) := by
  induction a generalizing b with
  | nil =>
    obtain rfl := List.eq_nil_of_length_eq_zero h.symm
    rfl
  | cons x a ih =>
    cases b with
    | nil => cases h
    | cons y b =>
      rw [List.cons_append, List.cons_append, List.compare_cons_cons, List.compare_cons_cons,
        ih (Nat.succ.inj h), Ordering.then_assoc]

/-- Shorter ids come first, and ids of one length in the order of their bytes. -/
theorem compare_eq (id id' : ConnectionId) :
    compare id id' = (compare id.length id'.length).then (compare id.bytes id'.bytes) := by
  show (compare id.length id'.length).then (compareBytes id.storage id'.storage) = _
  cases hl : compare id.length id'.length with
  | lt => rfl
  | gt => rfl
  | eq =>
    have hl := Nat.compare_eq_eq.mp hl
    have hb : id.bytes.length = id'.bytes.length := by rw [length_bytes, length_bytes, hl]
    have hz : compare (Bytes.zeros (18 - id'.length)) (Bytes.zeros (18 - id'.length)) = .eq :=
      Std.ReflCmp.compare_self
    rw [compareBytes_eq, storage_eq id, storage_eq id', compare_append hb, hl, hz, Ordering.then_eq]

theorem compare_eq_compareLex :
    (compare : ConnectionId → ConnectionId → Ordering) =
      compareLex (compareOn fun id => id.length) (compareOn fun id => id.bytes) :=
  funext fun id => funext fun id' => compare_eq id id'

instance : Std.TransOrd ConnectionId := by
  show Std.TransCmp compare
  rw [compare_eq_compareLex]
  infer_instance

instance : Std.LawfulEqOrd ConnectionId where
  eq_of_compare h := by
    rw [compare_eq, Ordering.then_eq_eq] at h
    exact eq_iff_bytes.mpr (Std.LawfulEqCmp.eq_of_compare h.2)

theorem Obtained.compare_eq_lt_iff (h : Obtained bs id) (h' : Obtained bs' id') :
    compare id id' = .lt ↔ bs.length < bs'.length ∨ bs.length = bs'.length ∧ bs < bs' := by
  rw [compare_eq, h.bytes_eq, h'.bytes_eq, h.length_eq, h'.length_eq, Ordering.then_eq_lt,
    Nat.compare_eq_lt, Nat.compare_eq_eq, ← compareBytes_eq, compareBytes_eq_lt_iff]

/-! ## Keys -/

/-- What holds of two ids and of the byte strings that they were made from. -/
structure Keyed (bs bs' : Bytes) (id id' : ConnectionId) : Prop where
  /-- The bytes are followed by zeros. -/
  padded : id.length = bs.length ∧ id.storage = bs ++ Bytes.zeros (maxLength - bs.length)
  /-- The id is the one that is made from the bytes, wherever they came from. -/
  made : ofBytes? bs = some id
  /-- Equality goes by the length and by all 18 bytes, -/
  fields : id.length = id'.length ∧ id.storage = id'.storage ↔ bs = bs'
  beq : (id == id') = true ↔ bs = bs'
  extended : ∀ n, 0 < n → bs' = bs ++ Bytes.zeros n → id ≠ id'
  /-- and so do lookups: ids are told apart by some table just if their bytes differ. -/
  found : (∀ table : RoutingTable Unit, table.get? id = table.get? id') ↔ bs = bs'
  /-- What is inserted under one id is found under the other just if they are equal, -/
  inserted : ∀ {α σ : Type} (table : RoutingTable α) (create : σ → Option (Entry α) × σ) {s s' : σ}
    {entry : Entry α}, table.get? id = none → create s = (some entry, s') →
      (table.findOrInsert id create s).2.1.get? id' =
        if bs = bs' then some entry else table.get? id'
  /-- and the same goes for what is removed. -/
  removed : ∀ {α : Type} (table : RoutingTable α) (identity : Nat),
    (table.removeIfSame id identity).2.identity? id' =
      if bs = bs' ∧ table.identity? id = some identity then none else table.identity? id'
  /-- The order is by length first and then by the bytes, -/
  order : compare id id' = (compare bs.length bs'.length).then (compare bs bs')
  less : compare id id' = .lt ↔ bs.length < bs'.length ∨ bs.length = bs'.length ∧ bs < bs'
  /-- it decides every pair one way or the other, and two ids are equal in it just if they are, -/
  total : compare id' id = (compare id id').swap
  consistent : compare id id' = .eq ↔ id = id'
  /-- and it is transitive. -/
  trans : ∀ id'', (compare id id').isLE = true → (compare id' id'').isLE = true →
    (compare id id'').isLE = true

theorem Obtained.ofBytes? (h : Obtained bs id) : ofBytes? bs = some id :=
  ofBytes?_eq_some_iff.mpr h.eq_fit

theorem Obtained.storage_eq (h : Obtained bs id) :
    id.storage = bs ++ Bytes.zeros (maxLength - bs.length) := by
  rw [ConnectionId.storage_eq, h.bytes_eq, h.length_eq, maxLength]

/-- Some table tells two different ids apart. -/
theorem eq_of_get?_eq (h : ∀ table : RoutingTable Unit, table.get? id = table.get? id') :
    id = id' := by
  have he := h { entries := [(id, ⟨0, ()⟩)] }
  by_cases hi : id = id'
  · exact hi
  · simp [RoutingTable.get?, hi] at he

theorem get?_findOrInsert {α σ : Type} {table : RoutingTable α}
    {create : σ → Option (Entry α) × σ} {s s' : σ} {entry : Entry α} (hn : table.get? id = none)
    (hc : create s = (some entry, s')) (id' : ConnectionId) :
    (table.findOrInsert id create s).2.1.get? id' =
      if id' = id then some entry else table.get? id' := by
  simp only [RoutingTable.findOrInsert, RoutingTable.claim, hn, hc, RoutingTable.get?_insert]
  split
  · rename_i he
    rw [he, hn]
    rfl
  · exact Option.or_none

/-- **Ids are equal just if their bytes are.** Take two ids, each made from given bytes, read from a
header, drawn at random or left at its default. Behind the bytes of each there are zeros, and each
is the id that is made from its bytes. They are equal, and one and the same key of every routing
table, just if their bytes are equal; an extension by zeros is another key. Their order is total,
agrees with equality, and goes by their lengths first and then by their bytes. -/
theorem keyed_by_bytes (h : Obtained bs id) (h' : Obtained bs' id') : Keyed bs bs' id id' where
  padded := ⟨h.length_eq, h.storage_eq⟩
  made := h.ofBytes?
  fields := fields_eq_iff.trans (h.eq_iff h')
  beq := beq_iff_eq.trans (h.eq_iff h')
  extended := fun n hn hb he => by
    have hl := congrArg List.length (((h.eq_iff h').mp he).trans hb)
    rw [List.length_append, Bytes.length_zeros] at hl
    omega
  found := by
    rw [← h.eq_iff h']
    refine ⟨eq_of_get?_eq, fun he table => ?_⟩
    rw [he]
  inserted := fun table create _ _ _ hn hc => by
    simp only [get?_findOrInsert hn hc, ← h.eq_iff h', eq_comm]
  removed := fun table identity => by
    simp only [RoutingTable.identity?_removeIfSame, ← h.eq_iff h', eq_comm]
  order := by rw [compare_eq, h.bytes_eq, h'.bytes_eq, h.length_eq, h'.length_eq]
  less := h.compare_eq_lt_iff h'
  total := Std.OrientedCmp.eq_swap
  consistent := Std.LawfulEqCmp.compare_eq_iff_eq
  trans := fun _ => Std.TransCmp.isLE_trans

/-- A header for an id of four bytes, from nobody. -/
def toFour : Wire.LongHeader where
  version := 1
  destination := .fit [1, 2, 3, 4]
  source := .empty
  payloadLength := 2
  packetNumber := 7

/-- The bytes of that header. -/
def toFourBytes : Bytes := [0, 0, 0, 1, 0x10, 1, 2, 3, 4, 2, 0, 0, 0, 7]

/-- The id in a header is the one that is made from its four bytes, and neither equal nor filed
together with the one that has a zero behind them. -/
theorem zero_keyed_apart :
    Wire.LongHeader.read.run toFourBytes = .ok toFour [] ∧
      ofBytes? [1, 2, 3, 4, 0] = some (.fit [1, 2, 3, 4, 0]) ∧
      ofBytes? [1, 2, 3, 4] = some toFour.destination ∧
      toFour.destination ≠ .fit [1, 2, 3, 4, 0] ∧
      compare toFour.destination (.fit [1, 2, 3, 4, 0]) = .lt ∧
      ¬ ∀ table : RoutingTable Unit,
        table.get? toFour.destination = table.get? (.fit [1, 2, 3, 4, 0]) := by
  have hr : Wire.LongHeader.read.run toFourBytes = .ok toFour [] := rfl
  have hn : ofBytes? [1, 2, 3, 4, 0] = some (.fit [1, 2, 3, 4, 0]) := rfl
  have hk := keyed_by_bytes (.destination hr) (.new hn)
  exact ⟨hr, hn, hk.made, hk.extended 1 (by decide) rfl, hk.less.mpr (.inl (by decide)),
    fun h => absurd (hk.found.mp h) (by decide)⟩

end ConnectionId

end Duplex
