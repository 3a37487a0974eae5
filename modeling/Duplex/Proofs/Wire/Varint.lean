import Duplex.Proofs.Bytes
import Duplex.Proofs.Wire.Cursor
import Duplex.Wire.Varint

/-!
# Variable-length integers, read and written

Reading accepts the encodings of every class that holds the value, and nothing else
(`read_eq_ok_iff`). Writing takes the least of these classes (`shortestClass_cases`), so that a
field is what is written for its value just if no shorter field reads as that value
(`write_eq_iff_shortest`).
-/

namespace Duplex.Wire.Varint

open scoped Numbers

/-! ## Classes -/

theorem lengthOf_pos (lengthClass : Nat) : 0 < lengthOf lengthClass := Nat.pow_pos (by decide)

theorem lengthOf_le {a b : Nat} (h : a ≤ b) : lengthOf a ≤ lengthOf b :=
  Nat.pow_le_pow_right (by decide) h

theorem lengthOf_le_iff {a b : Nat} : lengthOf a ≤ lengthOf b ↔ a ≤ b :=
  Nat.pow_le_pow_iff_right (by decide)

theorem lengthOf_inj {a b : Nat} (h : lengthOf a = lengthOf b) : a = b :=
  Nat.pow_right_inj (by decide) |>.mp h

/-- What is left of the bytes of a class, less the two bits that hold the class. -/
theorem two_pow_bits (lengthClass : Nat) :
    2 ^ (8 * lengthOf lengthClass - 2) = 64 * 256 ^ (lengthOf lengthClass - 1) := by
  have hl := lengthOf_pos lengthClass
  have he : 8 * lengthOf lengthClass - 2 = 6 + 8 * (lengthOf lengthClass - 1) := by omega
  rw [he, Nat.pow_add, Nat.pow_mul]

theorem pow_lengthOf (lengthClass : Nat) :
    256 ^ lengthOf lengthClass = 256 * 256 ^ (lengthOf lengthClass - 1) := by
  have hl := lengthOf_pos lengthClass
  rw [← Nat.pow_succ']
  congr 1
  omega

/-- Whether an integer of that class can hold the value. -/
structure Fits (lengthClass : Nat) (value : UInt64) : Prop where
  class_lt : lengthClass < 4
  value_lt : value.toNat < 2 ^ (8 * lengthOf lengthClass - 2)

theorem length_encode (lengthClass : Nat) (value : UInt64) :
    (encode lengthClass value).length = lengthOf lengthClass :=
  Bytes.length_ofNat _ _

/-! ## Reading -/

/-- Bytes are shifted in without loss as long as the result has no more than 64 bits. -/
theorem toNat_foldl_shiftIn {tail : Bytes} {value : UInt64}
    (h : value.toNat * 256 ^ tail.length + Bytes.toNat tail < 2 ^ (64 : Nat)) :
    (tail.foldl shiftIn value).toNat = value.toNat * 256 ^ tail.length + Bytes.toNat tail := by
  induction tail generalizing value with
  | nil => simp
  | cons b tail ih =>
    rw [Bytes.toNat_cons, List.length_cons, Nat.pow_succ] at h ⊢
    have hs : (value.toNat * 256 + b.toNat) * 256 ^ tail.length + Bytes.toNat tail =
        value.toNat * (256 ^ tail.length * 256) +
          (b.toNat * 256 ^ tail.length + Bytes.toNat tail) := by
      rw [Nat.add_mul, Nat.mul_assoc, Nat.mul_comm 256, Nat.add_assoc]
    have hp : 0 < 256 ^ tail.length := Nat.pow_pos (by decide)
    have hle : value.toNat * 256 + b.toNat ≤
        (value.toNat * 256 + b.toNat) * 256 ^ tail.length := Nat.le_mul_of_pos_right _ hp
    have hv : (shiftIn value b).toNat = value.toNat * 256 + b.toNat := by
      have hb : b.toNat < 256 := b.toNat_lt
      rw [shiftIn, UInt64.toNat_add, UInt64.toNat_mul, UInt8.toNat_toUInt64]
      change (value.toNat * 256 % 2 ^ 64 + b.toNat) % 2 ^ 64 = _
      omega
    rw [List.foldl_cons, ih (by rw [hv]; omega), hv, hs]

/-- The number in a field of a class, and the class above it, are what stands in its bytes. -/
theorem toNat_field (first : UInt8) (tail : Bytes) :
    Bytes.toNat (first :: tail) =
      classOf first * (64 * 256 ^ tail.length) +
        ((topBits first).toNat * 256 ^ tail.length + Bytes.toNat tail) := by
  have hb : first.toNat = classOf first * 64 + (topBits first).toNat := by
    rw [classOf, topBits, UInt8.toNat_mod]
    change first.toNat = first.toNat / 64 * 64 + first.toNat % 64
    omega
  rw [Bytes.toNat_cons, hb, Nat.add_mul, Nat.mul_assoc, Nat.add_assoc]

theorem topBits_lt (first : UInt8) : (topBits first).toNat < 64 := by
  rw [topBits, UInt8.toNat_mod]
  exact Nat.mod_lt _ (by decide)

theorem number_lt (first : UInt8) (tail : Bytes) :
    (topBits first).toNat * 256 ^ tail.length + Bytes.toNat tail < 64 * 256 ^ tail.length := by
  have ht := topBits_lt first
  calc (topBits first).toNat * 256 ^ tail.length + Bytes.toNat tail
    _ < (topBits first).toNat * 256 ^ tail.length + 256 ^ tail.length :=
        Nat.add_lt_add_left (Bytes.toNat_lt tail) _
    _ = ((topBits first).toNat + 1) * 256 ^ tail.length := (Nat.succ_mul _ _).symm
    _ ≤ 64 * 256 ^ tail.length := Nat.mul_le_mul_right _ ht

theorem classOf_lt (first : UInt8) : classOf first < 4 := by
  have hb : first.toNat < 256 := first.toNat_lt
  rw [classOf]
  omega

/-- What the first byte and up to seven more have come to: no bit of them is lost. -/
theorem toNat_value_of_le (first : UInt8) {tail : Bytes} (h : tail.length ≤ 7) :
    (tail.foldl shiftIn (topBits first).toUInt64).toNat =
      (topBits first).toNat * 256 ^ tail.length + Bytes.toNat tail := by
  have hp : 256 ^ tail.length ≤ 256 ^ 7 := Nat.pow_le_pow_right (by decide) h
  have hn := number_lt first tail
  have ht : (topBits first).toUInt64.toNat = (topBits first).toNat := UInt8.toNat_toUInt64 _
  rw [toNat_foldl_shiftIn, ht]
  rw [ht]
  omega

theorem lengthOf_classOf_le (first : UInt8) : lengthOf (classOf first) ≤ 8 :=
  lengthOf_le (Nat.le_of_lt_succ (classOf_lt first))

/-- The integer in a field: its first byte, and the bytes that the class of the first byte asks
for. -/
theorem toNat_value {first : UInt8} {tail : Bytes}
    (hl : tail.length = lengthOf (classOf first) - 1) :
    (tail.foldl shiftIn (topBits first).toUInt64).toNat =
      (topBits first).toNat * 256 ^ tail.length + Bytes.toNat tail := by
  have h8 := lengthOf_classOf_le first
  exact toNat_value_of_le first (by omega)

theorem read_eq :
    read = (do
      let head ← Cursor.exactly 1
      let tail ← Cursor.exactly (lengthOf (classOf (head.headD 0)) - 1)
      pure (tail.foldl shiftIn (topBits (head.headD 0)).toUInt64)) := by
  simp only [read, Cursor.exactly, bind_assoc]

/-- A field that can be read is its first byte and as many bytes as the class of that asks for. -/
theorem read_eq_ok_iff_field {input rest : Bytes} {value : UInt64} :
    read.run input = .ok value rest ↔
      ∃ first tail, tail.length = lengthOf (classOf first) - 1 ∧
        value = tail.foldl shiftIn (topBits first).toUInt64 ∧ input = first :: tail ++ rest := by
  simp only [read_eq, Cursor.run_bind_eq_ok_iff, Cursor.run_exactly_eq_ok_iff, Cursor.run_pure]
  constructor
  · rintro ⟨head, left, ⟨hh, rfl⟩, tail, left', ⟨ht, rfl⟩, h⟩
    cases h
    obtain ⟨first, rfl⟩ := List.length_eq_one_iff.mp hh
    exact ⟨first, tail, ht, rfl, rfl⟩
  · rintro ⟨first, tail, ht, rfl, rfl⟩
    exact ⟨[first], tail ++ rest, ⟨rfl, rfl⟩, tail, rest, ⟨ht, rfl⟩, rfl⟩

/-- Reading accepts what stands for the value in any class that can hold it. -/
theorem read_eq_ok_iff {input rest : Bytes} {value : UInt64} :
    read.run input = .ok value rest ↔
      ∃ lengthClass, Fits lengthClass value ∧ input = encode lengthClass value ++ rest := by
  rw [read_eq_ok_iff_field]
  constructor
  · rintro ⟨first, tail, ht, rfl, rfl⟩
    have hv := toNat_value ht
    have hl : lengthOf (classOf first) = tail.length + 1 := by
      have := lengthOf_pos (classOf first)
      omega
    refine ⟨classOf first, ⟨classOf_lt first, ?_⟩, ?_⟩
    · rw [hv, two_pow_bits, ← ht]
      exact number_lt first tail
    · simp only [encode]
      rw [hv, two_pow_bits, ← ht, ← toNat_field, hl]
      exact congrArg (· ++ rest) (Bytes.ofNat_toNat (first :: tail)).symm
  · rintro ⟨lengthClass, hf, rfl⟩
    have hl := lengthOf_pos lengthClass
    obtain ⟨first, tail, he⟩ : ∃ first tail, encode lengthClass value = first :: tail := by
      apply List.exists_cons_of_length_pos
      rw [length_encode]
      exact hl
    have ht : tail.length = lengthOf lengthClass - 1 := by
      have := length_encode lengthClass value
      rw [he, List.length_cons] at this
      omega
    have hv := hf.value_lt
    have hc := hf.class_lt
    rw [two_pow_bits] at hv
    -- The class stands above the value, and both together fill the bytes.
    have hn : Bytes.toNat (first :: tail) =
        lengthClass * (64 * 256 ^ (lengthOf lengthClass - 1)) + value.toNat := by
      rw [← he, encode, two_pow_bits]
      apply Bytes.toNat_ofNat_of_lt
      rw [pow_lengthOf]
      have : lengthClass * (64 * 256 ^ (lengthOf lengthClass - 1)) ≤
          3 * (64 * 256 ^ (lengthOf lengthClass - 1)) :=
        Nat.mul_le_mul_right _ (Nat.le_of_lt_succ hc)
      omega
    rw [toNat_field, ht] at hn
    have hb := number_lt first tail
    rw [ht] at hb
    generalize hp : 64 * 256 ^ (lengthOf lengthClass - 1) = p at hn hb hv
    have hcl : classOf first = lengthClass := by
      have h₁ := congrArg (· / p) hn
      have hp0 : 0 < p := by omega
      simp only [Nat.mul_comm _ p, Nat.mul_add_div hp0, Nat.div_eq_of_lt hb, Nat.div_eq_of_lt hv,
        Nat.add_zero] at h₁
      exact h₁
    refine ⟨first, tail, by rw [hcl]; exact ht, ?_, by rw [he]⟩
    apply UInt64.toNat_inj.mp
    rw [toNat_value (by rw [hcl]; exact ht), ht]
    rw [hcl] at hn
    exact (Nat.add_left_cancel hn).symm

theorem selfDelimiting_read : Cursor.SelfDelimiting read := by
  rw [read_eq]
  exact (Cursor.selfDelimiting_exactly 1).bind fun head =>
    (Cursor.selfDelimiting_exactly _).bind fun tail => Cursor.selfDelimiting_pure _

/-! ## Writing -/

theorem fits_iff {lengthClass : Nat} {value : UInt64} :
    Fits lengthClass value ↔
      lengthClass = 0 ∧ value.toNat < 0x40 ∨ lengthClass = 1 ∧ value.toNat < 0x4000 ∨
        lengthClass = 2 ∧ value.toNat < 0x40000000 ∨
        lengthClass = 3 ∧ value.toNat < 0x4000000000000000 := by
  constructor
  · rintro ⟨hc, hv⟩
    obtain rfl | rfl | rfl | rfl :
        lengthClass = 0 ∨ lengthClass = 1 ∨ lengthClass = 2 ∨ lengthClass = 3 := by omega
    · exact .inl ⟨rfl, hv⟩
    · exact .inr (.inl ⟨rfl, hv⟩)
    · exact .inr (.inr (.inl ⟨rfl, hv⟩))
    · exact .inr (.inr (.inr ⟨rfl, hv⟩))
  · rintro (⟨rfl, hv⟩ | ⟨rfl, hv⟩ | ⟨rfl, hv⟩ | ⟨rfl, hv⟩) <;> exact ⟨by decide, hv⟩

/-- The class that is written is the least that can hold the value. A value that no class can hold
is refused. -/
theorem shortestClass_cases (value : UInt64) :
    (∃ lengthClass, shortestClass value = .ok lengthClass ∧ value ≤ maxValue ∧
        Fits lengthClass value ∧ ∀ other, Fits other value → lengthClass ≤ other) ∨
      shortestClass value = .error (.valueTooLarge value) ∧ maxValue < value := by
  have b₀ : value < 0x40 ↔ value.toNat < 0x40 := UInt64.lt_iff_toNat_lt
  have b₁ : value < 0x4000 ↔ value.toNat < 0x4000 := UInt64.lt_iff_toNat_lt
  have b₂ : value < 0x40000000 ↔ value.toNat < 0x40000000 := UInt64.lt_iff_toNat_lt
  have b₃ : value ≤ maxValue ↔ value.toNat ≤ 0x3fffffffffffffff := UInt64.le_iff_toNat_le
  have hn : maxValue < value ↔ 0x3fffffffffffffff < value.toNat := UInt64.lt_iff_toNat_lt
  simp only [shortestClass, b₀, b₁, b₂, b₃, hn]
  by_cases h₀ : value.toNat < 0x40
  · rw [if_pos h₀]
    exact .inl ⟨0, rfl, by omega, fits_iff.mpr (by omega), fun _ _ => Nat.zero_le _⟩
  by_cases h₁ : value.toNat < 0x4000
  · rw [if_neg h₀, if_pos h₁]
    refine .inl ⟨1, rfl, by omega, fits_iff.mpr (by omega), fun other ho => ?_⟩
    have := fits_iff.mp ho
    omega
  by_cases h₂ : value.toNat < 0x40000000
  · rw [if_neg h₀, if_neg h₁, if_pos h₂]
    refine .inl ⟨2, rfl, by omega, fits_iff.mpr (by omega), fun other ho => ?_⟩
    have := fits_iff.mp ho
    omega
  by_cases h₃ : value.toNat ≤ 0x3fffffffffffffff
  · rw [if_neg h₀, if_neg h₁, if_neg h₂, if_pos h₃]
    refine .inl ⟨3, rfl, h₃, fits_iff.mpr (by omega), fun other ho => ?_⟩
    have := fits_iff.mp ho
    omega
  · rw [if_neg h₀, if_neg h₁, if_neg h₂, if_neg h₃]
    exact .inr ⟨rfl, by omega⟩

theorem shortestClass_of_le {value : UInt64} (h : value ≤ maxValue) :
    ∃ lengthClass, shortestClass value = .ok lengthClass ∧ Fits lengthClass value ∧
      ∀ other, Fits other value → lengthClass ≤ other := by
  rcases shortestClass_cases value with ⟨lengthClass, hs, -, hf, hl⟩ | ⟨-, hn⟩
  · exact ⟨lengthClass, hs, hf, hl⟩
  · exact absurd h (UInt64.not_le.mpr hn)

theorem Fits.le_maxValue {lengthClass : Nat} {value : UInt64} (h : Fits lengthClass value) :
    value ≤ maxValue := by
  have hm : maxValue.toNat = 0x3fffffffffffffff := rfl
  rw [UInt64.le_iff_toNat_le, hm]
  have := fits_iff.mp h
  omega

theorem run_put {value : UInt64} {lengthClass : Nat} (h : shortestClass value = .ok lengthClass)
    (buffer : Bytes) :
    (put value).run buffer =
      .ok (lengthOf lengthClass) (buffer ++ encode lengthClass value) := by
  rw [put, h]
  rfl

theorem encodedLength_eq {value : UInt64} {lengthClass : Nat}
    (h : shortestClass value = .ok lengthClass) :
    encodedLength value = .ok (lengthOf lengthClass) := by
  rw [encodedLength, h]
  rfl

theorem encodedLength_eq_error {value : UInt64} (h : maxValue < value) :
    encodedLength value = .error (.valueTooLarge value) := by
  rcases shortestClass_cases value with ⟨lengthClass, -, hle, -⟩ | ⟨he, -⟩
  · exact absurd h (UInt64.not_lt.mpr hle)
  · rw [encodedLength, he]
    rfl

theorem write_eq {value : UInt64} {lengthClass : Nat} (h : shortestClass value = .ok lengthClass) :
    write value = .ok (encode lengthClass value) := by
  rw [write, Writer.bytes, run_put h]
  rfl

/-- Nothing shorter than the field reads as its value. -/
def Shortest (field : Bytes) : Prop :=
  ∃ value, read.run field = .ok value [] ∧
    ∀ other, read.run other = .ok value [] → field.length ≤ other.length

/-- What is written for a value is the one field of its value that is shortest. -/
theorem write_eq_iff_shortest {field : Bytes} {value : UInt64}
    (h : read.run field = .ok value []) : write value = .ok field ↔ Shortest field := by
  obtain ⟨lengthClass, hf, he⟩ := read_eq_ok_iff.mp h
  rw [List.append_nil] at he
  subst he
  obtain ⟨least, hs, hl, hm⟩ := shortestClass_of_le hf.le_maxValue
  have hr : read.run (encode least value) = .ok value [] :=
    read_eq_ok_iff.mpr ⟨least, hl, (List.append_nil _).symm⟩
  constructor
  · intro hw
    rw [write_eq hs, Except.ok.injEq] at hw
    refine ⟨value, h, fun other ho => ?_⟩
    obtain ⟨c, hc, rfl⟩ := read_eq_ok_iff.mp ho
    rw [← hw, List.append_nil, length_encode, length_encode]
    exact lengthOf_le (hm c hc)
  · rintro ⟨value', hv, hmin⟩
    rw [h, EStateM.Result.ok.injEq] at hv
    obtain ⟨rfl, -⟩ := hv
    have hle := hmin _ hr
    rw [length_encode, length_encode, lengthOf_le_iff] at hle
    rw [write_eq hs, Nat.le_antisymm (hm _ hf) hle]

end Duplex.Wire.Varint
