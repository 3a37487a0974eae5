import Duplex.Proofs.Wire.Varint
import Duplex.Wire.LongHeader

/-!
# Long headers, read and written

The bytes of a header are its fields in their order (`frame`), with the payload length in any class
that can hold it. Reading accepts these and nothing else (`read_eq_ok_iff`); writing chooses the
shortest class, if all lengths can be written (`append_put`).

So a header that is written is read back, whatever stands around it, and a header that is not
written leaves the buffer as it was (`put_round_trip`). What is read ends by itself and can be
written again (`read_self_delimiting`).
-/

namespace Duplex

open scoped Numbers

theorem ConnectionId.read_eq (length : Nat) :
    ConnectionId.read length = ConnectionId.fit <$> Wire.Cursor.exactly length := by
  simp only [ConnectionId.read, Wire.Cursor.exactly, map_eq_pure_bind, bind_assoc]

theorem ConnectionId.read_eq_ok_iff {length : Nat} (hl : length ≤ 18) {input rest : Bytes}
    {id : ConnectionId} :
    (ConnectionId.read length).run input = .ok id rest ↔
      id.length = length ∧ input = id.bytes ++ rest := by
  rw [read_eq, map_eq_pure_bind, Wire.Cursor.run_bind_eq_ok_iff]
  simp only [Wire.Cursor.run_exactly_eq_ok_iff, Wire.Cursor.run_pure]
  constructor
  · rintro ⟨field, left, ⟨rfl, rfl⟩, h⟩
    cases h
    exact ⟨length_fit hl, by rw [bytes_fit hl]⟩
  · rintro ⟨rfl, rfl⟩
    exact ⟨id.bytes, rest, ⟨length_bytes id, rfl⟩, by rw [fit_bytes]⟩

namespace Wire.LongHeader

/-! ## Lengths of ids -/

/-- Whether an id of that length can be written. -/
def Codable (length : Nat) : Prop :=
  length = 0 ∨ 4 ≤ length ∧ length ≤ ConnectionId.maxLength

theorem codeOfIdLength_eq {length : Nat} (h : Codable length) :
    codeOfIdLength length = .ok (length - 3) := by
  rcases h with rfl | h
  · rfl
  · rw [codeOfIdLength, if_neg (by omega), if_pos h]

theorem codeOfIdLength_eq_error {length : Nat} (h : ¬ Codable length) :
    codeOfIdLength length = .error (.invalidConnectionIdLength length) := by
  rw [codeOfIdLength, if_neg fun h0 => h (.inl h0), if_neg fun h4 => h (.inr h4)]

theorem codable_idLengthOfCode (code : UInt8) : Codable (idLengthOfCode code) := by
  simp only [idLengthOfCode, Codable, ConnectionId.maxLength]
  split <;> omega

/-- The byte that holds the lengths of both ids. -/
def lengths (h : LongHeader) : UInt8 :=
  UInt8.ofNat ((h.destination.length - 3) * 16 + (h.source.length - 3))

theorem idLengthOfCode_div {a b : Nat} (ha : Codable a) (hb : Codable b) :
    idLengthOfCode (UInt8.ofNat ((a - 3) * 16 + (b - 3)) / 16) = a := by
  simp only [Codable, ConnectionId.maxLength] at ha hb
  have h16 : UInt8.toNat 16 = 16 := rfl
  simp only [idLengthOfCode, UInt8.toNat_div, UInt8.toNat_ofNat', h16]
  split <;> omega

theorem idLengthOfCode_mod (a : Nat) {b : Nat} (hb : Codable b) :
    idLengthOfCode (UInt8.ofNat ((a - 3) * 16 + (b - 3))) = b := by
  simp only [Codable, ConnectionId.maxLength] at hb
  simp only [idLengthOfCode, UInt8.toNat_ofNat']
  split <;> omega

/-- The byte is made up again from the two lengths that it holds. -/
theorem ofNat_idLengthOfCode (byte : UInt8) :
    UInt8.ofNat ((idLengthOfCode (byte / 16) - 3) * 16 + (idLengthOfCode byte - 3)) = byte := by
  have h16 : UInt8.toNat 16 = 16 := rfl
  have hb : byte.toNat < 256 := byte.toNat_lt
  apply UInt8.toNat_inj.mp
  simp only [idLengthOfCode, UInt8.toNat_div, UInt8.toNat_ofNat', h16]
  split <;> split <;> omega

/-! ## Reading -/

/-- The bytes of a header, with its payload length in the bytes `field`. -/
def frame (h : LongHeader) (field : Bytes) : Bytes :=
  Bytes.ofNat 4 h.version.toNat ++ [h.lengths] ++ h.destination.bytes ++ h.source.bytes ++ field
    ++ Bytes.ofNat 4 h.packetNumber.toNat

theorem length_frame (h : LongHeader) (field : Bytes) :
    (h.frame field).length =
      4 + 1 + h.destination.length + h.source.length + field.length + 4 := by
  simp only [frame, List.length_append, Bytes.length_ofNat, List.length_singleton,
    ConnectionId.length_bytes]

theorem read_eq :
    read = (do
      let front ← Cursor.exactly 5
      let destination ← ConnectionId.read (idLengthOfCode ((front.drop 4).headD 0 / 16))
      let source ← ConnectionId.read (idLengthOfCode ((front.drop 4).headD 0))
      let payloadLength ← Varint.read
      let packetNumber ← Cursor.exactly 4
      pure {
        version := UInt32.ofNat (Bytes.toNat (front.take 4))
        destination
        source
        payloadLength
        packetNumber := UInt32.ofNat packetNumber.toNat }) := by
  simp only [read, Cursor.need_take]
  exact Cursor.need_take_take 4 1 _

theorem ofNat_toNat_four {bs : Bytes} (h : bs.length = 4) :
    Bytes.ofNat 4 (UInt32.ofNat bs.toNat).toNat = bs := by
  have hlt : bs.toNat < 2 ^ 32 := by
    have hb := Bytes.toNat_lt bs
    rw [h] at hb
    exact hb
  rw [UInt32.toNat_ofNat_of_lt' hlt, ← h]
  exact Bytes.ofNat_toNat bs

theorem toNat_ofNat_four (n : UInt32) : UInt32.ofNat (Bytes.toNat (Bytes.ofNat 4 n.toNat)) = n := by
  rw [Bytes.toNat_ofNat_of_lt n.toNat_lt, UInt32.ofNat_toNat]

/-- Reading accepts the frames of a header, and nothing else. -/
theorem read_eq_ok_iff {input rest : Bytes} {h : LongHeader} :
    read.run input = .ok h rest ↔
      Codable h.destination.length ∧ Codable h.source.length ∧
        ∃ field, Varint.read.run field = .ok h.payloadLength [] ∧
          input = h.frame field ++ rest := by
  have codable_le : ∀ code, idLengthOfCode code ≤ 18 := fun code => by
    rcases codable_idLengthOfCode code with h | ⟨-, h⟩
    · omega
    · exact h
  simp only [read_eq, Cursor.run_bind_eq_ok_iff, Cursor.run_exactly_eq_ok_iff,
    ConnectionId.read_eq_ok_iff (codable_le _), Cursor.run_pure]
  constructor
  · rintro ⟨front, _, ⟨hf, rfl⟩, destination, _, ⟨hd, rfl⟩, source, _, ⟨hs, rfl⟩, payloadLength, _,
      hv, number, _, ⟨hn, rfl⟩, h⟩
    cases h
    obtain ⟨field, hp, rfl⟩ := Varint.selfDelimiting_read.run_eq_ok_iff.mp hv
    obtain ⟨byte, hb⟩ : ∃ byte, front.drop 4 = [byte] :=
      List.length_eq_one_iff.mp (by rw [List.length_drop, hf])
    rw [hb, List.headD_cons] at hd hs
    refine ⟨hd ▸ codable_idLengthOfCode _, hs ▸ codable_idLengthOfCode _, field, hp, ?_⟩
    have hv : (front.take 4).length = 4 := by rw [List.length_take, hf]; rfl
    have hfront : front = front.take 4 ++ [byte] := by rw [← hb, List.take_append_drop]
    simp only [frame, lengths, hd, hs, ofNat_idLengthOfCode, ofNat_toNat_four hv,
      ofNat_toNat_four hn, ← hfront, List.append_assoc]
  · rintro ⟨hd, hs, field, hp, rfl⟩
    refine ⟨Bytes.ofNat 4 h.version.toNat ++ [h.lengths], _, ⟨by simp, ?_⟩, h.destination, _,
      ⟨?_, rfl⟩, h.source, _, ⟨?_, rfl⟩, h.payloadLength, _,
      Varint.selfDelimiting_read.run_eq_ok_iff.mpr ⟨field, hp, rfl⟩,
      Bytes.ofNat 4 h.packetNumber.toNat, rest, ⟨Bytes.length_ofNat _ _, rfl⟩, ?_⟩
    · simp only [frame, List.append_assoc]
    · rw [List.drop_left' (Bytes.length_ofNat _ _), List.headD_cons, lengths,
        idLengthOfCode_div hd hs]
    · rw [List.drop_left' (Bytes.length_ofNat _ _), List.headD_cons, lengths,
        idLengthOfCode_mod _ hs]
    · rw [List.take_left' (Bytes.length_ofNat _ _), toNat_ofNat_four, toNat_ofNat_four]

theorem selfDelimiting_read : Cursor.SelfDelimiting read := by
  have readId : ∀ length, Cursor.SelfDelimiting (ConnectionId.read length) := fun length => by
    rw [ConnectionId.read_eq]
    exact (Cursor.selfDelimiting_exactly length).map _
  rw [read_eq]
  refine (Cursor.selfDelimiting_exactly 5).bind fun front => ?_
  refine (readId _).bind fun destination => ?_
  refine (readId _).bind fun source => ?_
  refine Varint.selfDelimiting_read.bind fun payloadLength => ?_
  exact (Cursor.selfDelimiting_exactly 4).bind fun number => Cursor.selfDelimiting_pure _

theorem read_read_eq_ok_iff {input rest : Bytes} {h : LongHeader} :
    read.read input = (.ok h, rest) ↔ read.run input = .ok h rest := Cursor.read_eq_ok_iff

theorem read_read_eq_error_iff {input left : Bytes} {cause : Error} :
    read.read input = (.error cause, left) ↔ read.run input = .error cause left :=
  Cursor.read_eq_error_iff

/-! ## Writing -/

theorem codable_iff (id : ConnectionId) :
    Codable id.length ↔ ¬ (1 ≤ id.length ∧ id.length ≤ 3) := by
  have hl := id.length_le
  simp only [Codable, ConnectionId.maxLength]
  omega

/-- A header is appended with its payload length in the shortest class that holds it. -/
theorem append_put {h : LongHeader} {lengthClass : Nat} (hd : Codable h.destination.length)
    (hs : Codable h.source.length) (hc : Varint.shortestClass h.payloadLength = .ok lengthClass)
    (buffer : Bytes) :
    h.put.append buffer =
      (.ok (), buffer ++ h.frame (Varint.encode lengthClass h.payloadLength)) := by
  have hr : h.put.run buffer =
      .ok () (buffer ++ h.frame (Varint.encode lengthClass h.payloadLength)) := by
    rw [put, codeOfIdLength_eq hd, codeOfIdLength_eq hs, Varint.encodedLength_eq hc, Varint.put, hc]
    simp only [frame, lengths, ← List.append_assoc]
    rfl
  rw [Writer.append, hr]

theorem write_eq {h : LongHeader} {lengthClass : Nat} (hd : Codable h.destination.length)
    (hs : Codable h.source.length) (hc : Varint.shortestClass h.payloadLength = .ok lengthClass) :
    h.write = .ok (h.frame (Varint.encode lengthClass h.payloadLength)) := by
  have ha := append_put hd hs hc []
  rw [Writer.append] at ha
  rw [write, Writer.bytes]
  cases hr : h.put.run [] with
  | ok u after => rw [hr] at ha; cases ha; rfl
  | error cause after => rw [hr] at ha; cases ha

theorem append_put_destination {h : LongHeader} (hd : ¬ Codable h.destination.length)
    (buffer : Bytes) :
    h.put.append buffer =
      (.error (.invalidConnectionIdLength h.destination.length), buffer) := by
  rw [Writer.append, put, codeOfIdLength_eq_error hd]
  rfl

theorem append_put_source {h : LongHeader} (hd : Codable h.destination.length)
    (hs : ¬ Codable h.source.length) (buffer : Bytes) :
    h.put.append buffer = (.error (.invalidConnectionIdLength h.source.length), buffer) := by
  rw [Writer.append, put, codeOfIdLength_eq hd, codeOfIdLength_eq_error hs]
  rfl

theorem append_put_payloadLength {h : LongHeader} (hd : Codable h.destination.length)
    (hs : Codable h.source.length) (hp : Varint.maxValue < h.payloadLength) (buffer : Bytes) :
    h.put.append buffer = (.error (.valueTooLarge h.payloadLength), buffer) := by
  have he := Varint.encodedLength_eq_error hp
  rw [Writer.append, put, codeOfIdLength_eq hd, codeOfIdLength_eq hs, he]
  rfl

/-- What is written is read back, with nothing of what follows it. -/
theorem read_frame {h : LongHeader} {lengthClass : Nat} (hd : Codable h.destination.length)
    (hs : Codable h.source.length) (hf : Varint.Fits lengthClass h.payloadLength) (more : Bytes) :
    read.read (h.frame (Varint.encode lengthClass h.payloadLength) ++ more) = (.ok h, more) := by
  have hv : Varint.read.run (Varint.encode lengthClass h.payloadLength) =
      .ok h.payloadLength [] :=
    Varint.read_eq_ok_iff.mpr ⟨lengthClass, hf, (List.append_nil _).symm⟩
  exact read_read_eq_ok_iff.mpr (read_eq_ok_iff.mpr ⟨hd, hs, _, hv, rfl⟩)

/-- A header whose ids have lengths that can be written, and whose payload length has at most 62
bits, is appended to any buffer, and read back from where it stands, whatever follows it. For any
other header writing fails, because of the destination id if it can, else because of the source id
if it can, else because of the payload length, and the buffer is as it was. -/
theorem put_round_trip (h : LongHeader) (buffer : Bytes) :
    (Codable h.destination.length → Codable h.source.length →
      h.payloadLength ≤ Varint.maxValue →
      ∃ bytes n, h.write = .ok bytes ∧ h.put.append buffer = (.ok (), buffer ++ bytes) ∧
        Varint.encodedLength h.payloadLength = .ok n ∧
        bytes.length = 4 + 1 + h.destination.length + h.source.length + n + 4 ∧
        ∀ more, read.read ((buffer ++ bytes ++ more).drop buffer.length) = (.ok h, more)) ∧
    (1 ≤ h.destination.length ∧ h.destination.length ≤ 3 →
      h.put.append buffer =
        (.error (.invalidConnectionIdLength h.destination.length), buffer)) ∧
    (Codable h.destination.length → 1 ≤ h.source.length ∧ h.source.length ≤ 3 →
      h.put.append buffer = (.error (.invalidConnectionIdLength h.source.length), buffer)) ∧
    (Codable h.destination.length → Codable h.source.length →
      Varint.maxValue < h.payloadLength →
      h.put.append buffer = (.error (.valueTooLarge h.payloadLength), buffer)) := by
  refine ⟨fun hd hs hp => ?_, fun hd => ?_, fun hd hs => ?_, fun hd hs hp => ?_⟩
  · obtain ⟨lengthClass, hc, hf, -⟩ := Varint.shortestClass_of_le hp
    refine ⟨_, _, write_eq hd hs hc, append_put hd hs hc buffer, Varint.encodedLength_eq hc, ?_,
      fun more => ?_⟩
    · rw [length_frame, Varint.length_encode]
    · rw [List.append_assoc, List.drop_left]
      exact read_frame hd hs hf more
  · exact append_put_destination (fun hc => (codable_iff _).mp hc hd) buffer
  · exact append_put_source hd (fun hc => (codable_iff _).mp hc hs) buffer
  · exact append_put_payloadLength hd hs hp buffer

/-- The longest destination id, a source id of five bytes and a payload length of two bytes. -/
def sample : LongHeader where
  version := 1
  destination := .fit (List.replicate 18 1)
  source := .fit [2, 3, 4, 5, 6]
  payloadLength := 1200
  packetNumber := 0xffffffff

/-- The sample is appended and read back. With a source id of two bytes it is refused, with a
destination id of three bytes as well because of that one, and with a payload length of 63 bits
because of its value. -/
theorem sample_round_trip :
    (∃ bytes n, sample.write = .ok bytes ∧ sample.put.append [7] = (.ok (), [7] ++ bytes) ∧
      Varint.encodedLength 1200 = .ok n ∧ bytes.length = 4 + 1 + 18 + 5 + n + 4 ∧
      ∀ more, read.read (([7] ++ bytes ++ more).drop 1) = (.ok sample, more)) ∧
    { sample with destination := .fit [1, 2, 3], source := .fit [2, 3] }.put.append [7] =
      (.error (.invalidConnectionIdLength 3), [7]) ∧
    { sample with source := .fit [2, 3] }.put.append [7] =
      (.error (.invalidConnectionIdLength 2), [7]) ∧
    { sample with payloadLength := 0x4000000000000000 }.put.append [7] =
      (.error (.valueTooLarge 0x4000000000000000), [7]) := by
  have hd : Codable sample.destination.length := .inr (by decide)
  have hs : Codable sample.source.length := .inr (by decide)
  refine ⟨(put_round_trip sample [7]).1 hd hs (by decide), ?_, ?_, ?_⟩
  · exact (put_round_trip { sample with destination := .fit [1, 2, 3], source := .fit [2, 3] }
      [7]).2.1 (by decide)
  · exact (put_round_trip { sample with source := .fit [2, 3] } [7]).2.2.1 hd (by decide)
  · exact (put_round_trip { sample with payloadLength := 0x4000000000000000 } [7]).2.2.2 hd hs
      (by decide)

/-! ## What has been read -/

/-- The bytes of the payload length, in the bytes of a header with these ids. -/
def payloadField (h : LongHeader) (bytes : Bytes) : Bytes :=
  let before := 4 + 1 + h.destination.length + h.source.length
  (bytes.drop before).take (bytes.length - (before + 4))

theorem payloadField_frame (h : LongHeader) (field : Bytes) :
    h.payloadField (h.frame field) = field := by
  have hl : (Bytes.ofNat 4 h.version.toNat ++ [h.lengths] ++ h.destination.bytes ++
      h.source.bytes).length = 4 + 1 + h.destination.length + h.source.length := by
    simp only [List.length_append, Bytes.length_ofNat, List.length_singleton,
      ConnectionId.length_bytes]
  have hd : (h.frame field).drop (4 + 1 + h.destination.length + h.source.length) =
      field ++ Bytes.ofNat 4 h.packetNumber.toNat := by
    rw [frame, List.append_assoc _ field, List.drop_left' hl]
  have hn : (h.frame field).length - (4 + 1 + h.destination.length + h.source.length + 4) =
      field.length := by
    rw [length_frame]; omega
  simp only [payloadField, hd, hn, List.take_left]

theorem frame_inj {h : LongHeader} {a b : Bytes} (he : h.frame a = h.frame b) : a = b := by
  rw [← payloadField_frame h a, he, payloadField_frame]

/-- What has been read ends by itself: the same header is read from its bytes whatever follows them,
and of no proper front of them. It can be written again, in no more bytes, and in the same bytes
just if its payload length was in the shortest encoding. What cannot be read lacks bytes, and could
be read with more. -/
theorem read_self_delimiting (input : Bytes) :
    (∀ h rest, read.read input = (.ok h, rest) →
      ∃ front, input = front ++ rest ∧
        (∀ more, read.read (front ++ more) = (.ok h, more)) ∧
        (∀ cut, cut <+: front → cut ≠ front → ∃ needed remaining left,
          read.read cut = (.error (.unexpectedEnd needed remaining), left)) ∧
        ∃ bytes, (∀ buffer, h.put.append buffer = (.ok (), buffer ++ bytes)) ∧
          bytes.length ≤ front.length ∧
          (∀ more, read.read (bytes ++ more) = (.ok h, more)) ∧
          Varint.read.read (h.payloadField front) = (.ok h.payloadLength, []) ∧
          (bytes = front ↔ Varint.Shortest (h.payloadField front))) ∧
    ∀ cause left, read.read input = (.error cause, left) →
      ∃ needed remaining, cause = .unexpectedEnd needed remaining ∧ remaining < needed ∧
        ∃ more h, read.read (input ++ more) = (.ok h, []) := by
  constructor
  · intro h rest hr
    obtain ⟨hd, hs, field, hv, rfl⟩ := read_eq_ok_iff.mp (read_read_eq_ok_iff.mp hr)
    have hf : ∀ more, read.run (h.frame field ++ more) = .ok h more := fun more =>
      read_eq_ok_iff.mpr ⟨hd, hs, field, hv, rfl⟩
    obtain ⟨c, hfit, he⟩ := Varint.read_eq_ok_iff.mp hv
    rw [List.append_nil] at he
    obtain ⟨least, hc, hl, hm⟩ := Varint.shortestClass_of_le hfit.le_maxValue
    refine ⟨h.frame field, rfl, fun more => read_read_eq_ok_iff.mpr (hf more), ?_,
      h.frame (Varint.encode least h.payloadLength), append_put hd hs hc, ?_,
      read_frame hd hs hl, ?_, ?_⟩
    · intro cut hp hn
      have h0 := hf []
      rw [List.append_nil] at h0
      obtain ⟨needed, remaining, left, hcut⟩ := selfDelimiting_read.cut h0 hp hn
      exact ⟨needed, remaining, left, read_read_eq_error_iff.mpr hcut⟩
    · have hle := Varint.lengthOf_le (hm c hfit)
      rw [length_frame, length_frame, he, Varint.length_encode, Varint.length_encode]
      omega
    · rw [payloadField_frame, Cursor.read, hv]
    · rw [payloadField_frame, ← Varint.write_eq_iff_shortest hv, Varint.write_eq hc,
        Except.ok.injEq]
      exact ⟨frame_inj, fun h => by rw [h]⟩
  · intro cause left hr
    obtain ⟨⟨needed, remaining, hc, hlt⟩, more, h, hm⟩ :=
      selfDelimiting_read.failed (read_read_eq_error_iff.mp hr)
    exact ⟨needed, remaining, hc, hlt, more, h, read_read_eq_ok_iff.mpr hm⟩

/-- A header of 15 bytes that holds 37 in two bytes, with one byte after it, is written again in 14
bytes. Without its last byte it cannot be read. -/
theorem padded_self_delimiting :
    (∃ h bytes, read.read [0, 0, 0, 1, 0x10, 1, 2, 3, 4, 0x40, 0x25, 0, 0, 1, 2, 9] =
        (.ok h, [9]) ∧
      h.put.append [] = (.ok (), bytes) ∧ bytes.length = 14 ∧
      h.payloadField [0, 0, 0, 1, 0x10, 1, 2, 3, 4, 0x40, 0x25, 0, 0, 1, 2] = [0x40, 0x25] ∧
      Varint.read.read [0x40, 0x25] = (.ok 37, []) ∧ ¬ Varint.Shortest [0x40, 0x25]) ∧
    ∃ needed remaining, Error.unexpectedEnd 4 3 = .unexpectedEnd needed remaining ∧
      remaining < needed ∧ ∃ more h,
        read.read ([0, 0, 0, 1, 0x10, 1, 2, 3, 4, 0x40, 0x25, 0, 0, 1] ++ more) = (.ok h, []) := by
  have hr : read.read [0, 0, 0, 1, 0x10, 1, 2, 3, 4, 0x40, 0x25, 0, 0, 1, 2, 9] =
      (.ok ⟨1, .fit [1, 2, 3, 4], .empty, 37, 258⟩, [9]) := rfl
  have hw : (put ⟨1, .fit [1, 2, 3, 4], .empty, 37, 258⟩).append [] =
      (.ok (), [0, 0, 0, 1, 0x10, 1, 2, 3, 4, 0x25, 0, 0, 1, 2]) := rfl
  have hc : read.read [0, 0, 0, 1, 0x10, 1, 2, 3, 4, 0x40, 0x25, 0, 0, 1] =
      (.error (.unexpectedEnd 4 3), [0, 0, 1]) := rfl
  constructor
  · obtain ⟨front, hi, -, -, bytes, hb, -, -, hv, hiff⟩ := (read_self_delimiting _).1 _ _ hr
    have hi : [0, 0, 0, 1, 0x10, 1, 2, 3, 4, 0x40, 0x25, 0, 0, 1, 2] ++ [9] = front ++ [9] := hi
    obtain rfl := List.append_cancel_right hi
    obtain rfl : bytes = _ := congrArg Prod.snd ((hb []).symm.trans hw)
    refine ⟨_, _, hr, hw, rfl, rfl, hv, fun h => ?_⟩
    exact absurd (hiff.mpr h) (by decide)
  · exact (read_self_delimiting _).2 _ _ hc

end Wire.LongHeader

end Duplex
