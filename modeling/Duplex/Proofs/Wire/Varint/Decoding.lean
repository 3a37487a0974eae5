import Duplex.Proofs.Wire.Varint

/-!
# Variable-length integers, decoded

The two top bits of the first byte say how many bytes an integer has, and what `read` makes of any
bytes depends on whether that many are there (`read_nil`, `read_cut`, `read_whole`).

The top bits leave the first byte one at a time, each by a subtraction of what is there
(`topBits_eq_clear`, `le_of_bit`). Every further byte is shifted in behind the bits so far, which
are the front of a number that will have at most 62 bits, so that no shift loses a bit and no
addition leaves the word (`shiftIn_exact`).
-/

namespace Duplex.Wire.Varint

open scoped Numbers

variable {first : UInt8} {tail more rest : Bytes}

/-! ## The first byte -/

/-- Takes a bit out of a byte. -/
def clear (bit byte : UInt8) : UInt8 := if byte &&& bit ≠ 0 then byte - bit else byte

theorem topBits_eq_clear : ∀ first : UInt8, topBits first = clear 0x80 (clear 0x40 first) :=
  Bytes.forall_byte (by decide +kernel)

/-- A bit is subtracted only where it is set. -/
theorem le_of_bit : ∀ first : UInt8,
    (first &&& 0x40 ≠ 0 → 0x40 ≤ first) ∧
      (clear 0x40 first &&& 0x80 ≠ 0 → 0x80 ≤ clear 0x40 first) :=
  Bytes.forall_byte (by decide +kernel)

/-! ## The other bytes -/

/-- One more byte, behind bits for which there is room. -/
theorem shiftIn_exact {value : UInt64} {byte : UInt8}
    (h : value.toNat * 256 + byte.toNat < 2 ^ (64 : Nat)) :
    shiftIn value byte = (value <<< 8) + byte.toUInt64 ∧
      (value <<< 8).toNat = value.toNat * 256 ∧
      (shiftIn value byte).toNat = (value <<< 8).toNat + byte.toNat := by
  have hs : (value <<< 8).toNat = value.toNat * 256 := by
    rw [UInt64.toNat_shiftLeft, Nat.shiftLeft_eq]
    show value.toNat * 256 % 2 ^ 64 = _
    omega
  have hm : value <<< 8 = value * 256 := by
    apply UInt64.toNat_inj.mp
    rw [hs, UInt64.toNat_mul]
    show _ = value.toNat * 256 % 2 ^ 64
    omega
  refine ⟨by rw [shiftIn, hm], hs, ?_⟩
  rw [shiftIn, ← hm, UInt64.toNat_add, hs, UInt8.toNat_toUInt64]
  exact Nat.mod_eq_of_lt h

/-- The bytes before any byte of a field leave room for it. -/
theorem room_before (first : UInt8) (done : Bytes) (byte : UInt8) (todo : Bytes)
    (h : (done ++ byte :: todo).length ≤ 7) :
    (done.foldl shiftIn (topBits first).toUInt64).toNat * 256 + byte.toNat < 2 ^ (64 : Nat) := by
  rw [List.length_append, List.length_cons] at h
  have hp : 256 ^ done.length ≤ 256 ^ 6 := Nat.pow_le_pow_right (by decide) (by omega)
  have hn := number_lt first done
  have hb : byte.toNat < 256 := byte.toNat_lt
  rw [toNat_value_of_le first (by omega)]
  omega

/-! ## Reading -/

theorem read_nil : read.read [] = (.error (.unexpectedEnd 1 0), []) := rfl

theorem run_read_cons (first : UInt8) (tail : Bytes) :
    read.run (first :: tail) =
      (do
        let more ← Cursor.exactly (lengthOf (classOf first) - 1)
        pure (more.foldl shiftIn (topBits first).toUInt64) : Cursor _).run tail := by
  have hx : (Cursor.exactly 1).run (first :: tail) = .ok [first] tail :=
    Cursor.run_exactly_eq_ok_iff.mpr ⟨rfl, rfl⟩
  rw [read_eq, Cursor.run_bind_of_ok hx]
  rfl

/-- Only the first byte is consumed if one of the others is missing. -/
theorem read_cut (h : (first :: tail).length < lengthOf (classOf first)) :
    read.read (first :: tail) =
      (.error (.unexpectedEnd (lengthOf (classOf first) - 1) tail.length), tail) := by
  rw [List.length_cons] at h
  have hx : (Cursor.exactly (lengthOf (classOf first) - 1)).run tail =
      .error (.unexpectedEnd (lengthOf (classOf first) - 1) tail.length) tail := by
    rw [Cursor.run_exactly, if_pos (by omega)]
  have hr : read.run (first :: tail) =
      .error (.unexpectedEnd (lengthOf (classOf first) - 1) tail.length) tail := by
    rw [run_read_cons, Cursor.run_bind_eq_error_iff]
    exact .inl hx
  rw [Cursor.read, hr]

theorem read_whole (h : more.length + 1 = lengthOf (classOf first)) :
    read.run (first :: (more ++ rest)) =
      .ok (more.foldl shiftIn (topBits first).toUInt64) rest :=
  read_eq_ok_iff_field.mpr ⟨first, more, by omega, rfl, rfl⟩

/-! ## Writing again -/

/-- What is read has a class that holds it, the one that its first byte names. -/
theorem eq_encode (h : more.length + 1 = lengthOf (classOf first)) :
    Fits (classOf first) (more.foldl shiftIn (topBits first).toUInt64) ∧
      first :: more =
        encode (classOf first) (more.foldl shiftIn (topBits first).toUInt64) := by
  have hr : read.run (first :: (more ++ [])) = _ := read_whole h
  obtain ⟨c, hf, he⟩ := read_eq_ok_iff.mp hr
  rw [List.append_nil, List.append_nil] at he
  have hl : lengthOf c = lengthOf (classOf first) := by
    rw [← length_encode c, ← he, List.length_cons, h]
  obtain rfl : c = classOf first := lengthOf_inj hl
  exact ⟨hf, he⟩

/-- The class that is written is one that holds the value, and every shorter one is too small. -/
theorem shortestClass_eq_iff {lengthClass : Nat} {value : UInt64} (hf : Fits lengthClass value) :
    shortestClass value = .ok lengthClass ↔
      ∀ shorter < lengthClass, 2 ^ (8 * lengthOf shorter - 2) ≤ value.toNat := by
  obtain ⟨least, hs, hl, hm⟩ := shortestClass_of_le hf.le_maxValue
  rw [hs, Except.ok.injEq]
  constructor
  · rintro rfl shorter hlt
    apply Nat.le_of_not_lt
    intro hv
    have hle := hm shorter ⟨Nat.lt_trans hlt hf.class_lt, hv⟩
    omega
  · intro h
    have hle := hm lengthClass hf
    apply Nat.le_antisymm hle
    apply Nat.le_of_not_lt
    intro hlt
    have hge := h least hlt
    have hv := hl.value_lt
    omega

theorem put_of_fits {lengthClass : Nat} {value : UInt64} (hf : Fits lengthClass value) :
    ∃ bytes, (∀ buffer, (put value).append buffer = (.ok bytes.length, buffer ++ bytes)) ∧
      bytes.length ≤ lengthOf lengthClass ∧
      (bytes = encode lengthClass value ↔
        ∀ shorter < lengthClass, 2 ^ (8 * lengthOf shorter - 2) ≤ value.toNat) := by
  obtain ⟨least, hs, -, hm⟩ := shortestClass_of_le hf.le_maxValue
  refine ⟨encode least value, fun buffer => ?_, ?_, ?_⟩
  · rw [Writer.append, run_put hs, length_encode]
  · rw [length_encode]
    exact lengthOf_le (hm _ hf)
  · rw [← shortestClass_eq_iff hf, hs, Except.ok.injEq]
    constructor
    · intro he
      have hl := congrArg List.length he
      rw [length_encode, length_encode] at hl
      exact lengthOf_inj hl
    · rintro rfl
      rfl

/-! ## The decision -/

/-- What is decoded from a field of the bytes `first` and `more`, with `rest` behind it. -/
structure Decoded (first : UInt8) (more rest : Bytes) (value : UInt64) : Prop where
  length : (first :: more).length = 2 ^ (first.toNat / 64)
  /-- The field is consumed, and nothing else. -/
  read : Varint.read.read (first :: (more ++ rest)) = (.ok value, rest)
  /-- The value is the number that stands in the field without its two top bits. -/
  number : Bytes.toNat (first :: more) =
    first.toNat / 64 * 2 ^ (8 * (first :: more).length - 2) + value.toNat
  lt : value.toNat < 2 ^ (8 * (first :: more).length - 2)
  /-- It is the first byte less its two top bits, with the others shifted in. -/
  shifted : value = more.foldl shiftIn (clear 0x80 (clear 0x40 first)).toUInt64
  /-- No bit is subtracted that is not there. -/
  cleared : (first &&& 0x40 ≠ 0 → 0x40 ≤ first) ∧
    (clear 0x40 first &&& 0x80 ≠ 0 → 0x80 ≤ clear 0x40 first)
  /-- At no byte does a shift lose bits or an addition leave the word. -/
  exact : ∀ done byte todo, more = done ++ byte :: todo →
    ∀ before, before = done.foldl shiftIn (clear 0x80 (clear 0x40 first)).toUInt64 →
      shiftIn before byte = (before <<< 8) + byte.toUInt64 ∧
        (before <<< 8).toNat = before.toNat * 2 ^ (8 : Nat) ∧
        (before <<< 8).toNat + byte.toNat < 2 ^ (64 : Nat)
  /-- The value is written in no more bytes than were read, and in the same bytes just if every
  shorter class is too small for it. -/
  written : ∃ bytes, (∀ buffer, (put value).append buffer = (.ok bytes.length, buffer ++ bytes)) ∧
    bytes.length ≤ (first :: more).length ∧
    (bytes = first :: more ↔
      ∀ shorter < first.toNat / 64, 2 ^ (8 * (2 : Nat) ^ shorter - 2) ≤ value.toNat)

theorem decoded (h : more.length + 1 = lengthOf (classOf first)) (rest : Bytes) :
    Decoded first more rest (more.foldl shiftIn (topBits first).toUInt64) := by
  have h8 := lengthOf_classOf_le first
  have hl : more.length = lengthOf (classOf first) - 1 := by omega
  have hv := toNat_value hl
  have hp : 2 ^ (8 * (first :: more).length - 2) = 64 * 256 ^ more.length := by
    rw [List.length_cons, h, two_pow_bits, hl]
  obtain ⟨hf, he⟩ := eq_encode h
  refine ⟨h, ?_, ?_, ?_, ?_, le_of_bit first, ?_, ?_⟩
  · rw [Cursor.read, read_whole h]
  · rw [toNat_field, hp, hv]
    rfl
  · rw [hp, hv]
    exact number_lt first more
  · rw [topBits_eq_clear]
  · rintro done byte todo rfl before rfl
    rw [← topBits_eq_clear]
    have hr := room_before first done byte todo (by omega)
    obtain ⟨hs, hm, ha⟩ := shiftIn_exact hr
    refine ⟨hs, hm, ?_⟩
    rw [hm]
    exact hr
  · obtain ⟨bytes, hb, hle, hiff⟩ := put_of_fits hf
    rw [← he] at hiff
    exact ⟨bytes, hb, Nat.le_trans hle (Nat.le_of_eq h.symm), hiff⟩

/-- What `read` makes of any bytes. Of none it wants one. Otherwise the two top bits of the first
byte say how many bytes the integer has: if some are missing, the first byte is consumed and the
others are wanted, and if they are there, they and no more are consumed and decoded. -/
theorem read_decides :
    read.read [] = (.error (.unexpectedEnd 1 0), []) ∧
    ∀ (first : UInt8) (tail : Bytes),
      ((first :: tail).length < 2 ^ (first.toNat / 64) →
        read.read (first :: tail) =
          (.error (.unexpectedEnd (2 ^ (first.toNat / 64) - 1) tail.length), tail)) ∧
      (2 ^ (first.toNat / 64) ≤ (first :: tail).length →
        ∃ more rest value, tail = more ++ rest ∧ Decoded first more rest value) := by
  refine ⟨read_nil, fun first tail => ⟨fun h => read_cut h, fun h => ?_⟩⟩
  have hpos := lengthOf_pos (classOf first)
  have hle : lengthOf (classOf first) ≤ tail.length + 1 := h
  have hl : (tail.take (lengthOf (classOf first) - 1)).length + 1 = lengthOf (classOf first) := by
    rw [List.length_take]
    omega
  exact ⟨_, _, _, (List.take_append_drop _ tail).symm, decoded hl _⟩

/-- An integer of four bytes that lacks its last, then a 37 in two bytes, which is written again in
one, and then a 65 in two bytes, which is written as it was read. -/
theorem padded_decoded :
    read.read [0x80, 1, 2] = (.error (.unexpectedEnd 3 2), [1, 2]) ∧
    (∃ more rest, [0x25, 0xff] = more ++ rest ∧ Decoded 0x40 more rest 37) ∧
    ∃ more rest, [0x41, 0xff] = more ++ rest ∧ Decoded 0x40 more rest 65 := by
  refine ⟨(read_decides.2 0x80 [1, 2]).1 (by decide), ?_, ?_⟩
  · obtain ⟨more, rest, value, ht, hd⟩ := (read_decides.2 0x40 [0x25, 0xff]).2 (by decide)
    have hr : read.read [0x40, 0x25, 0xff] = (.ok 37, [0xff]) := rfl
    rw [ht, hd.read, Prod.mk.injEq, Except.ok.injEq] at hr
    obtain ⟨rfl, -⟩ := hr
    exact ⟨more, rest, ht, hd⟩
  · obtain ⟨more, rest, value, ht, hd⟩ := (read_decides.2 0x40 [0x41, 0xff]).2 (by decide)
    have hr : read.read [0x40, 0x41, 0xff] = (.ok 65, [0xff]) := rfl
    rw [ht, hd.read, Prod.mk.injEq, Except.ok.injEq] at hr
    obtain ⟨rfl, -⟩ := hr
    exact ⟨more, rest, ht, hd⟩

end Duplex.Wire.Varint
