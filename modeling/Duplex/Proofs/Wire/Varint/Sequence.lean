import Duplex.Proofs.Wire.Varint

/-!
# Variable-length integers, one after another

The writer takes the low bytes of a value and sets the bits of the class above it. In a class that
holds the value these bits are free, so that no bit of the value is lost and none is mistaken for
the class (`encode_eq_or`).

A value is either appended in the shortest field that reads as it, or refused before anything is
appended (`accepted_or_refused`). As each field says where it ends, the fields that have been
written one after another are read back one after another, by induction on the values
(`run_readMany`), whatever stands before the first of them and behind the last.
-/

namespace Duplex.Wire.Varint

open scoped Numbers

/-! ## The bits of a field -/

/-- The class stands in bits that the value does not reach. -/
theorem encode_eq_or {lengthClass : Nat} {value : UInt64} (h : Fits lengthClass value) :
    encode lengthClass value =
      Bytes.ofNat (lengthOf lengthClass)
        (2 ^ (8 * lengthOf lengthClass - 2) * lengthClass |||
          value.toNat % 2 ^ (8 * lengthOf lengthClass)) := by
  have hle : 2 ^ (8 * lengthOf lengthClass - 2) ≤ 2 ^ (8 * lengthOf lengthClass) :=
    Nat.pow_le_pow_right (by decide) (Nat.sub_le _ _)
  have hm : value.toNat % 2 ^ (8 * lengthOf lengthClass) = value.toNat :=
    Nat.mod_eq_of_lt (Nat.lt_of_lt_of_le h.value_lt hle)
  rw [encode, hm, ← Nat.two_pow_add_eq_or_of_lt h.value_lt, Nat.mul_comm lengthClass]

/-! ## One value -/

/-- What is written for a value that has a field. -/
structure Accepted (value : UInt64) (buffer field : Bytes) : Prop where
  encodedLength : encodedLength value = .ok field.length
  put : (put value).append buffer = (.ok field.length, buffer ++ field)
  /-- The field is the low bytes of the value, with its class set in the two top bits. -/
  bits : ∃ lengthClass < 4, field.length = 2 ^ lengthClass ∧
    field = Bytes.ofNat field.length
      (2 ^ (8 * field.length - 2) * lengthClass ||| value.toNat % 2 ^ (8 * field.length))
  read : ∀ rest, read.read (field ++ rest) = (.ok value, rest)
  /-- What reads as the value takes no fewer bytes than the field, whatever is behind it. -/
  shortest : ∀ other rest, Varint.read.read other = (.ok value, rest) →
    field.length + rest.length ≤ other.length

/-- What is done with a value that has no field. -/
structure Refused (value : UInt64) (buffer : Bytes) : Prop where
  encodedLength : encodedLength value = .error (.valueTooLarge value)
  put : (put value).append buffer = (.error (.valueTooLarge value), buffer)
  /-- No bytes read as the value. -/
  unread : ∀ other rest, read.read other ≠ (.ok value, rest)

theorem le_maxValue_iff {value : UInt64} : value ≤ maxValue ↔ value.toNat ≤ 2 ^ (62 : Nat) - 1 :=
  UInt64.le_iff_toNat_le

theorem put_eq_error {value : UInt64} (h : maxValue < value) (buffer : Bytes) :
    (put value).append buffer = (.error (.valueTooLarge value), buffer) := by
  rcases shortestClass_cases value with ⟨lengthClass, -, hle, -⟩ | ⟨he, -⟩
  · exact absurd h (UInt64.not_lt.mpr hle)
  · rw [Writer.append, put, he]
    rfl

theorem accepted {value : UInt64} {lengthClass : Nat} (hs : shortestClass value = .ok lengthClass)
    (hf : Fits lengthClass value) (hm : ∀ other, Fits other value → lengthClass ≤ other)
    (buffer : Bytes) : Accepted value buffer (encode lengthClass value) where
  encodedLength := by rw [length_encode, encodedLength_eq hs]
  put := by rw [Writer.append, run_put hs, length_encode]
  bits := by
    refine ⟨lengthClass, hf.class_lt, length_encode _ _, ?_⟩
    rw [length_encode]
    exact encode_eq_or hf
  read := fun rest => Cursor.read_eq_ok_iff.mpr (read_eq_ok_iff.mpr ⟨lengthClass, hf, rfl⟩)
  shortest := by
    intro other rest h
    obtain ⟨c, hc, rfl⟩ := read_eq_ok_iff.mp (Cursor.read_eq_ok_iff.mp h)
    have hle := lengthOf_le (hm c hc)
    rw [List.length_append, length_encode, length_encode]
    omega

theorem accepted_or_refused (value : UInt64) (buffer : Bytes) :
    (value ≤ maxValue → ∃ field, Accepted value buffer field) ∧
      (maxValue < value → Refused value buffer) := by
  constructor
  · intro h
    obtain ⟨lengthClass, hs, hf, hm⟩ := shortestClass_of_le h
    exact ⟨_, accepted hs hf hm buffer⟩
  · intro h
    refine ⟨encodedLength_eq_error h, put_eq_error h buffer, fun other rest hr => ?_⟩
    obtain ⟨c, hc, -⟩ := read_eq_ok_iff.mp (Cursor.read_eq_ok_iff.mp hr)
    exact UInt64.not_le.mpr h hc.le_maxValue

/-! ## One value after another -/

/-- The buffer after the values have been written to it, those that are refused included. -/
def putAll (values : List UInt64) (buffer : Bytes) : Bytes :=
  values.foldl (fun buffer value => ((put value).append buffer).2) buffer

/-- Reads that many integers. -/
def readMany : Nat → Cursor (List UInt64)
  | 0 => pure []
  | n + 1 => do
    let value ← read
    let values ← readMany n
    return value :: values

/-- The values that have a field. -/
def holdable (values : List UInt64) : List UInt64 :=
  values.filter (·.toNat ≤ 2 ^ (62 : Nat) - 1)

theorem run_readMany_cons {input left rest : Bytes} {value : UInt64} {values : List UInt64}
    (hv : read.run input = .ok value left)
    (hm : (readMany values.length).run left = .ok values rest) :
    (readMany (value :: values).length).run input = .ok (value :: values) rest := by
  rw [List.length_cons, readMany, Cursor.run_bind_of_ok hv, Cursor.run_bind_of_ok hm]
  rfl

/-- What is appended for the values reads as those of them that have a field. -/
theorem run_readMany (values : List UInt64) :
    ∃ fields, (∀ buffer, putAll values buffer = buffer ++ fields) ∧
      ∀ rest, (readMany (holdable values).length).run (fields ++ rest) =
        .ok (holdable values) rest := by
  induction values with
  | nil => exact ⟨[], fun buffer => (List.append_nil buffer).symm, fun rest => rfl⟩
  | cons value values ih =>
    obtain ⟨fields, hp, hr⟩ := ih
    rcases UInt64.le_or_lt value maxValue with h | h
    · obtain ⟨lengthClass, hs, hf, hm⟩ := shortestClass_of_le h
      refine ⟨encode lengthClass value ++ fields, fun buffer => ?_, fun rest => ?_⟩
      · rw [putAll, List.foldl_cons, (accepted hs hf hm buffer).put, ← List.append_assoc]
        exact hp _
      · have hc : holdable (value :: values) = value :: holdable values :=
          List.filter_cons_of_pos (decide_eq_true (le_maxValue_iff.mp h))
        rw [hc, List.append_assoc]
        exact run_readMany_cons (read_eq_ok_iff.mpr ⟨lengthClass, hf, rfl⟩) (hr rest)
    · have hc : holdable (value :: values) = holdable values :=
        List.filter_cons_of_neg (by
          rw [decide_eq_true_iff, ← le_maxValue_iff]
          exact UInt64.not_le.mpr h)
      refine ⟨fields, fun buffer => ?_, ?_⟩
      · rw [putAll, List.foldl_cons, put_eq_error h]
        exact hp _
      · rw [hc]
        exact hr

/-- Any values are written one after another to a buffer that holds anything. Each that has at most
62 bits appends the shortest field that reads as it, which has as many bytes as `encodedLength`
says. Each other one is refused by both, and the buffer is as it was. What has been appended,
with anything behind it, is read back as the values that were not refused, in their order, up to
where it ends. -/
theorem putAll_round_trip (values : List UInt64) (buffer : Bytes) :
    (∀ front value back, values = front ++ value :: back →
      (value.toNat ≤ 2 ^ (62 : Nat) - 1 → ∃ field, Accepted value (putAll front buffer) field ∧
        putAll (front ++ [value]) buffer = putAll front buffer ++ field) ∧
      (2 ^ (62 : Nat) - 1 < value.toNat → Refused value (putAll front buffer) ∧
        putAll (front ++ [value]) buffer = putAll front buffer)) ∧
    ∃ fields, putAll values buffer = buffer ++ fields ∧
      ∀ rest, (readMany (holdable values).length).read
          ((putAll values buffer ++ rest).drop buffer.length) = (.ok (holdable values), rest) := by
  constructor
  · rintro front value back -
    have hlast : putAll (front ++ [value]) buffer =
        ((put value).append (putAll front buffer)).2 := by
      rw [putAll, putAll, List.foldl_append]
      rfl
    obtain ⟨ha, hr⟩ := accepted_or_refused value (putAll front buffer)
    constructor
    · intro h
      obtain ⟨field, hf⟩ := ha (le_maxValue_iff.mpr h)
      exact ⟨field, hf, by rw [hlast, hf.put]⟩
    · intro h
      have hf := hr (UInt64.lt_iff_toNat_lt.mpr h)
      exact ⟨hf, by rw [hlast, hf.put]⟩
  · obtain ⟨fields, hp, hr⟩ := run_readMany values
    refine ⟨fields, hp buffer, fun rest => ?_⟩
    rw [hp, List.append_assoc, List.drop_left]
    exact Cursor.read_eq_ok_iff.mpr (hr rest)

/-- Of the largest value of the first class, the least that is too large, the least of the second
class and the largest of all, written behind a byte, the second is refused. -/
theorem limits_round_trip :
    (∃ field, Accepted 0x3f [0xff] field) ∧ Refused 0x4000000000000000 [0xff, 0x3f] ∧
    (readMany 3).read
        ((putAll [0x3f, 0x4000000000000000, 0x40, 0x3fffffffffffffff] [0xff] ++ [7]).drop 1) =
      (.ok [0x3f, 0x40, 0x3fffffffffffffff], [7]) := by
  obtain ⟨he, fields, -, hr⟩ :=
    putAll_round_trip [0x3f, 0x4000000000000000, 0x40, 0x3fffffffffffffff] [0xff]
  obtain ⟨field, hf, -⟩ := (he [] _ _ rfl).1 (by decide)
  have hx := ((he [0x3f] _ _ rfl).2 (by decide)).1
  exact ⟨⟨field, hf⟩, hx, hr [7]⟩

end Duplex.Wire.Varint
