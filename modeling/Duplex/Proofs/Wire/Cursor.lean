import Duplex.Wire.Cursor

/-!
# Readers that end by themselves

A reader is self-delimiting (`Cursor.SelfDelimiting`) if what it consumes alone decides what it
returns, and if it fails only for want of bytes, so that more bytes would have let it succeed. A
field of known length is (`selfDelimiting_exactly`), and so is one self-delimiting reader after
another (`SelfDelimiting.bind`). No proper front of what such a reader consumes can be read
(`SelfDelimiting.cut`).

What a sequence of readers accepts is taken apart by `run_bind_eq_ok_iff`, one reader at a time,
down to the fields (`run_exactly_eq_ok_iff`).
-/

namespace Duplex.Wire.Cursor

variable {α β : Type} {reader : Cursor α}

/-! ## Sequences of readers -/

theorem run_bind_eq_ok_iff {f : α → Cursor β} {input rest : Bytes} {b : β} :
    (reader >>= f).run input = .ok b rest ↔
      ∃ a left, reader.run input = .ok a left ∧ (f a).run left = .ok b rest := by
  change EStateM.bind reader f input = .ok b rest ↔ _
  unfold EStateM.bind EStateM.run
  cases reader input with
  | ok a left =>
    constructor
    · intro h; exact ⟨a, left, rfl, h⟩
    · rintro ⟨a, left, h, hf⟩; cases h; exact hf
  | error cause left =>
    constructor
    · intro h; cases h
    · rintro ⟨a, left, h, -⟩; cases h

theorem run_bind_eq_error_iff {f : α → Cursor β} {input left : Bytes} {cause : Error} :
    (reader >>= f).run input = .error cause left ↔
      reader.run input = .error cause left ∨
        ∃ a rest, reader.run input = .ok a rest ∧ (f a).run rest = .error cause left := by
  change EStateM.bind reader f input = .error cause left ↔ _
  unfold EStateM.bind EStateM.run
  cases reader input with
  | ok a rest =>
    constructor
    · intro h; exact .inr ⟨a, rest, rfl, h⟩
    · rintro (h | ⟨a, rest, h, hf⟩) <;> cases h; exact hf
  | error cause rest =>
    constructor
    · intro h; cases h; exact .inl rfl
    · rintro (h | ⟨a, rest, h, -⟩) <;> cases h; rfl

theorem run_bind_of_ok {f : α → Cursor β} {input left : Bytes} {a : α}
    (h : reader.run input = .ok a left) : (reader >>= f).run input = (f a).run left := by
  change EStateM.bind reader f input = _
  unfold EStateM.bind
  rw [show reader input = .ok a left from h]
  rfl

theorem run_pure (a : α) (input : Bytes) : (pure a : Cursor α).run input = .ok a input := rfl

theorem read_eq_ok_iff {input rest : Bytes} {a : α} :
    reader.read input = (.ok a, rest) ↔ reader.run input = .ok a rest := by
  rw [Cursor.read]
  cases reader.run input <;> simp

theorem read_eq_error_iff {input left : Bytes} {cause : Error} :
    reader.read input = (.error cause, left) ↔ reader.run input = .error cause left := by
  rw [Cursor.read]
  cases reader.run input <;> simp

/-! ## Fields -/

/-- Reads a field of `n` bytes. -/
def exactly (n : Nat) : Cursor Bytes := do
  need n
  take n

theorem run_exactly (n : Nat) (input : Bytes) :
    (exactly n).run input =
      if input.length < n then .error (.unexpectedEnd n input.length) input
      else .ok (input.take n) (input.drop n) := by
  change EStateM.bind (need n) (fun _ => take n) input = _
  unfold EStateM.bind need take
  by_cases h : input.length < n
  · rw [if_pos h, if_pos h]
  · rw [if_neg h, if_neg h]

theorem run_exactly_eq_ok_iff {n : Nat} {input field rest : Bytes} :
    (exactly n).run input = .ok field rest ↔ field.length = n ∧ input = field ++ rest := by
  rw [run_exactly]
  constructor
  · intro h
    split at h
    · cases h
    · rename_i hn
      cases h
      exact ⟨List.length_take_of_le (Nat.le_of_not_lt hn), (List.take_append_drop n input).symm⟩
  · rintro ⟨rfl, rfl⟩
    rw [if_neg (by simp), List.take_left, List.drop_left]

theorem need_take (n : Nat) (f : Bytes → Cursor β) :
    (do need n; let field ← take n; f field) = exactly n >>= f := by
  rw [exactly, bind_assoc]

/-- Bytes that are checked for at once may be taken one after the other. -/
theorem need_take_take (n m : Nat) (f : Bytes → Bytes → Cursor β) :
    (do need (n + m); let a ← take n; let b ← take m; f a b) =
      (do let front ← exactly (n + m); f (front.take n) (front.drop n)) := by
  funext input
  change EStateM.bind (need (n + m)) _ input = EStateM.bind (exactly (n + m)) _ input
  have hr := run_exactly (n + m) input
  simp only [EStateM.run] at hr
  unfold EStateM.bind
  rw [hr]
  by_cases h : input.length < n + m
  · simp only [need, if_pos h]
  · simp only [need, if_neg h, take, bind, EStateM.bind, List.take_take, List.drop_take,
      List.drop_drop, Nat.min_eq_left (Nat.le_add_right n m), Nat.add_sub_cancel_left]

/-! ## Self-delimiting readers -/

/-- What the reader consumes alone decides what it returns, and it fails only for want of bytes. -/
structure SelfDelimiting (reader : Cursor α) : Prop where
  consumed : ∀ {input a rest}, reader.run input = .ok a rest →
    ∃ front, input = front ++ rest ∧ ∀ more, reader.run (front ++ more) = .ok a more
  failed : ∀ {input cause left}, reader.run input = .error cause left →
    (∃ needed remaining, cause = .unexpectedEnd needed remaining ∧ remaining < needed) ∧
      ∃ more a, reader.run (input ++ more) = .ok a []

theorem selfDelimiting_pure (a : α) : SelfDelimiting (pure a : Cursor α) where
  consumed := by
    intro input b rest h
    rw [run_pure] at h
    cases h
    exact ⟨[], rfl, fun _ => rfl⟩
  failed := by
    intro input cause left h
    rw [run_pure] at h
    cases h

theorem selfDelimiting_exactly (n : Nat) : SelfDelimiting (exactly n) where
  consumed := by
    intro input field rest h
    obtain ⟨hn, rfl⟩ := run_exactly_eq_ok_iff.mp h
    exact ⟨field, rfl, fun _ => run_exactly_eq_ok_iff.mpr ⟨hn, rfl⟩⟩
  failed := by
    intro input cause left h
    rw [run_exactly] at h
    split at h
    · rename_i hn
      cases h
      have hl : (input ++ Bytes.zeros (n - input.length)).length = n := by
        rw [List.length_append, Bytes.length_zeros]; omega
      exact ⟨⟨n, _, rfl, hn⟩, _, _, run_exactly_eq_ok_iff.mpr ⟨hl, (List.append_nil _).symm⟩⟩
    · cases h

theorem SelfDelimiting.bind (hr : SelfDelimiting reader) {f : α → Cursor β}
    (hf : ∀ a, SelfDelimiting (f a)) : SelfDelimiting (reader >>= f) where
  consumed := by
    intro input b rest h
    obtain ⟨a, left, ha, hb⟩ := run_bind_eq_ok_iff.mp h
    obtain ⟨front, rfl, hfront⟩ := hr.consumed ha
    obtain ⟨next, rfl, hnext⟩ := (hf a).consumed hb
    refine ⟨front ++ next, (List.append_assoc ..).symm, fun more => ?_⟩
    rw [List.append_assoc]
    exact run_bind_eq_ok_iff.mpr ⟨a, next ++ more, hfront _, hnext more⟩
  failed := by
    -- Whichever of the two readers failed, the bytes that it wanted are followed by all that the
    -- other one wants of an empty rest.
    have extend : ∀ {input a}, reader.run input = .ok a [] →
        ∃ more b, (reader >>= f).run (input ++ more) = .ok b [] := by
      intro input a ha
      obtain ⟨front, hi, hfront⟩ := hr.consumed ha
      rw [List.append_nil] at hi
      cases hb : (f a).run [] with
      | ok b rest =>
        obtain ⟨next, hn, -⟩ := (hf a).consumed hb
        obtain ⟨rfl, rfl⟩ := List.append_eq_nil_iff.mp hn.symm
        exact ⟨[], b, by rw [List.append_nil]; exact run_bind_eq_ok_iff.mpr ⟨a, [], ha, hb⟩⟩
      | error cause left =>
        obtain ⟨-, more, b, hm⟩ := (hf a).failed hb
        exact ⟨more, b, run_bind_eq_ok_iff.mpr ⟨a, more, by rw [hi]; exact hfront more, hm⟩⟩
    intro input cause left h
    rcases run_bind_eq_error_iff.mp h with h | ⟨a, rest, ha, hb⟩
    · obtain ⟨hc, more, a, ha⟩ := hr.failed h
      obtain ⟨more', b, hb⟩ := extend ha
      exact ⟨hc, more ++ more', b, by rw [← List.append_assoc]; exact hb⟩
    · obtain ⟨front, rfl, hfront⟩ := hr.consumed ha
      obtain ⟨hc, more, b, hm⟩ := (hf a).failed hb
      refine ⟨hc, more, b, run_bind_eq_ok_iff.mpr ⟨a, rest ++ more, ?_, hm⟩⟩
      rw [List.append_assoc]
      exact hfront _

theorem SelfDelimiting.map (hr : SelfDelimiting reader) (f : α → β) :
    SelfDelimiting (f <$> reader) := by
  rw [map_eq_pure_bind]
  exact hr.bind fun a => selfDelimiting_pure (f a)

theorem SelfDelimiting.run_eq_ok_iff (hr : SelfDelimiting reader) {input rest : Bytes} {a : α} :
    reader.run input = .ok a rest ↔
      ∃ front, reader.run front = .ok a [] ∧ input = front ++ rest := by
  constructor
  · intro h
    obtain ⟨front, rfl, hf⟩ := hr.consumed h
    have h0 := hf []
    rw [List.append_nil] at h0
    exact ⟨front, h0, rfl⟩
  · rintro ⟨front, h, rfl⟩
    obtain ⟨consumed, he, hf⟩ := hr.consumed h
    rw [List.append_nil] at he
    rw [he]
    exact hf rest

/-- A proper front of what a reader consumes lacks bytes. -/
theorem SelfDelimiting.cut (hr : SelfDelimiting reader) {input : Bytes} {a : α}
    (h : reader.run input = .ok a []) {front : Bytes} (hp : front <+: input) (hn : front ≠ input) :
    ∃ needed remaining left, reader.run front = .error (.unexpectedEnd needed remaining) left := by
  cases hf : reader.run front with
  | ok a' rest =>
    obtain ⟨more, rfl⟩ := hp
    obtain ⟨consumed, rfl, hc⟩ := hr.consumed hf
    rw [List.append_assoc, hc, EStateM.Result.ok.injEq] at h
    obtain ⟨-, rfl⟩ := List.append_eq_nil_iff.mp h.2
    exact absurd (List.append_nil _).symm hn
  | error cause left =>
    obtain ⟨⟨needed, remaining, rfl, -⟩, -⟩ := hr.failed hf
    exact ⟨needed, remaining, left, rfl⟩

end Duplex.Wire.Cursor
