import Duplex.Proofs.Wire.LongHeader
import Duplex.Wire.Packet

/-!
# Packets, decided

A datagram is nothing, a control byte without the bit that announces a header, a control byte with
that bit and bytes that do not start with a whole header, or one and a header and a payload
(`LongHeader.Framed` says which bytes are a header's). In each case the outcome of `Packet.parse`
is fixed: `parse_short_form`, `parse_cut_header`, `parse_framed`. Which type a control byte
announces is a matter of its low seven bits (`ofControl?_eq`), for all that the codes overlap, and
all four types have the bit that announces a header (`ofControl?_eq_none`), so that no packet is
read without one.

These make up `parse_decides`, with what it means for the packets that are read.
-/

namespace Duplex.Wire

namespace LongHeader

/-- The bytes `front` are a header's: its fields, with the payload length in any class that holds
it. -/
def Framed (h : LongHeader) (front : Bytes) : Prop :=
  Codable h.destination.length ∧ Codable h.source.length ∧
    ∃ field, Varint.read.run field = .ok h.payloadLength [] ∧ front = h.frame field

theorem run_read_eq_ok_iff {input rest : Bytes} {h : LongHeader} :
    read.run input = .ok h rest ↔ ∃ front, h.Framed front ∧ input = front ++ rest := by
  rw [read_eq_ok_iff]
  constructor
  · rintro ⟨hd, hs, field, hv, rfl⟩
    exact ⟨_, ⟨hd, hs, field, hv, rfl⟩, rfl⟩
  · rintro ⟨_, ⟨hd, hs, field, hv, rfl⟩, rfl⟩
    exact ⟨hd, hs, field, hv, rfl⟩

/-- A header has at least ten bytes. -/
theorem Framed.length_ge {h : LongHeader} {front : Bytes} (hf : h.Framed front) :
    10 ≤ front.length := by
  obtain ⟨-, -, field, hv, rfl⟩ := hf
  obtain ⟨lengthClass, -, he⟩ := Varint.read_eq_ok_iff.mp hv
  rw [List.append_nil] at he
  have hpos := Varint.lengthOf_pos lengthClass
  rw [length_frame, he, Varint.length_encode]
  omega

theorem write_eq_ok {h : LongHeader} {bytes : Bytes} (hw : h.write = .ok bytes) :
    Codable h.destination.length ∧ Codable h.source.length ∧
      ∃ lengthClass, Varint.Fits lengthClass h.payloadLength ∧
        bytes = h.frame (Varint.encode lengthClass h.payloadLength) := by
  have refused : ∀ {cause left}, h.put.append [] = (.error cause, left) → False := by
    intro cause left ha
    rw [write, Writer.bytes] at hw
    rw [Writer.append] at ha
    cases hr : h.put.run [] with
    | ok => rw [hr] at ha; cases ha
    | error => rw [hr] at hw; cases hw
  have hd : Codable h.destination.length :=
    Classical.byContradiction fun hn => refused (append_put_destination hn [])
  have hs : Codable h.source.length :=
    Classical.byContradiction fun hn => refused (append_put_source hd hn [])
  have hp : h.payloadLength ≤ Varint.maxValue :=
    UInt64.not_lt.mp fun hn => refused (append_put_payloadLength hd hs hn [])
  obtain ⟨lengthClass, hc, hf, -⟩ := Varint.shortestClass_of_le hp
  rw [write_eq hd hs hc] at hw
  cases hw
  exact ⟨hd, hs, lengthClass, hf, rfl⟩

/-- What is written for a header is its bytes. -/
theorem framed_of_write {h : LongHeader} {bytes : Bytes} (hw : h.write = .ok bytes) :
    h.Framed bytes := by
  obtain ⟨hd, hs, lengthClass, hf, rfl⟩ := write_eq_ok hw
  have hv : Varint.read.run (Varint.encode lengthClass h.payloadLength) =
      .ok h.payloadLength [] :=
    Varint.read_eq_ok_iff.mpr ⟨lengthClass, hf, (List.append_nil _).symm⟩
  exact ⟨hd, hs, _, hv, rfl⟩

end LongHeader

/-! ## Types -/

namespace PacketType

/-- The type of a packet is decided by the low seven bits of its control byte. -/
theorem ofControl?_eq : ∀ control : UInt8, ofControl? control =
    if control &&& 0x7f = 0x7f then some .initial
    else if control &&& 0x7f = 0x7e then some .retry
    else if control &&& 0x7f = 0x7d then some .handshake
    else if control &&& 0x7f = 0x7c then some .zeroRttProtected
    else none :=
  Bytes.forall_byte (by decide +kernel)

/-- A control byte that announces no header announces no type. -/
theorem ofControl?_eq_none : ∀ {control : UInt8}, control &&& longHeaderFlag = 0 →
    ofControl? control = none :=
  @(Bytes.forall_byte (by decide +kernel))

end PacketType

/-! ## Packets -/

namespace Packet

variable {control : UInt8} {body : Bytes}

theorem readFront_eq :
    readFront = (do
      let front ← Cursor.exactly 1
      if front.headD 0 &&& longHeaderFlag != 0 then
        let header ← LongHeader.read
        pure (front.headD 0, some header)
      else
        pure (front.headD 0, none)) :=
  Cursor.need_take 1 _

/-- Behind the control byte, its bit decides what is read. -/
theorem run_readFront_cons :
    readFront.run (control :: body) =
      (if control &&& longHeaderFlag != 0 then
        (fun header => (control, some header)) <$> LongHeader.read
      else pure (control, none) : Cursor _).run body := by
  have hx : (Cursor.exactly 1).run (control :: body) = .ok [control] body :=
    Cursor.run_exactly_eq_ok_iff.mpr ⟨rfl, rfl⟩
  rw [readFront_eq, Cursor.run_bind_of_ok hx, map_eq_pure_bind]
  rfl

theorem read_readFront_short (h : control &&& longHeaderFlag = 0) :
    readFront.read (control :: body) = (.ok (control, none), body) := by
  have hb : (control &&& longHeaderFlag != 0) = false := by rw [h]; rfl
  rw [Cursor.read, run_readFront_cons, hb]
  rfl

theorem run_readFront_long (h : control &&& longHeaderFlag ≠ 0) :
    readFront.run (control :: body) =
      ((fun header => (control, some header)) <$> LongHeader.read).run body := by
  rw [run_readFront_cons, if_pos (bne_iff_ne.mpr h)]

theorem read_readFront_cut (h : control &&& longHeaderFlag ≠ 0) {cause : Error} {left : Bytes}
    (hr : LongHeader.read.run body = .error cause left) :
    readFront.read (control :: body) = (.error cause, left) := by
  have he : readFront.run (control :: body) = .error cause left := by
    rw [run_readFront_long h, map_eq_pure_bind, Cursor.run_bind_eq_error_iff]
    exact .inl hr
  rw [Cursor.read, he]

theorem read_readFront_long (h : control &&& longHeaderFlag ≠ 0) {header : LongHeader}
    {rest : Bytes} (hr : LongHeader.read.run body = .ok header rest) :
    readFront.read (control :: body) = (.ok (control, some header), rest) := by
  have ho : readFront.run (control :: body) = .ok (control, some header) rest := by
    rw [run_readFront_long h, map_eq_pure_bind, Cursor.run_bind_eq_ok_iff]
    exact ⟨header, rest, hr, rfl⟩
  rw [Cursor.read, ho]

theorem parse_nil : parse [] = .error (.unexpectedEnd 1 0) := rfl

theorem parse_short_form (h : control &&& longHeaderFlag = 0) :
    parse (control :: body) = .error (.unrecognizedPacketType control) := by
  rw [parse, read_readFront_short h]
  simp only [PacketType.ofControl?_eq_none h]

/-- Without a whole header the packet fails as its header does, whatever its type. -/
theorem parse_cut_header (h : control &&& longHeaderFlag ≠ 0)
    (hn : ¬ ∃ header : LongHeader, ∃ front, header.Framed front ∧ front <+: body) :
    ∃ needed remaining left, remaining < needed ∧
      LongHeader.read.read body = (.error (.unexpectedEnd needed remaining), left) ∧
      parse (control :: body) = .error (.unexpectedEnd needed remaining) := by
  cases hr : LongHeader.read.run body with
  | ok header rest =>
    obtain ⟨front, hf, rfl⟩ := LongHeader.run_read_eq_ok_iff.mp hr
    exact absurd ⟨header, front, hf, front.prefix_append rest⟩ hn
  | error cause left =>
    obtain ⟨⟨needed, remaining, rfl, hlt⟩, -⟩ := LongHeader.selfDelimiting_read.failed hr
    refine ⟨needed, remaining, left, hlt, LongHeader.read_read_eq_error_iff.mpr hr, ?_⟩
    rw [parse, read_readFront_cut h hr]

/-- With a whole header the type decides. -/
theorem parse_framed (h : control &&& longHeaderFlag ≠ 0) {header : LongHeader} {front : Bytes}
    (hf : header.Framed front) (payload : Bytes) :
    parse (control :: (front ++ payload)) =
      if control &&& 0x7f = 0x7f then
        .ok { type := .initial, header := some header, headerLength := 1 + front.length }
      else if control &&& 0x7f = 0x7e then .error (.unimplementedPacketType .retry)
      else if control &&& 0x7f = 0x7d then .error (.unimplementedPacketType .handshake)
      else if control &&& 0x7f = 0x7c then .error (.unimplementedPacketType .zeroRttProtected)
      else .error (.unrecognizedPacketType control) := by
  have hr : LongHeader.read.run (front ++ payload) = .ok header payload :=
    LongHeader.run_read_eq_ok_iff.mpr ⟨front, hf, rfl⟩
  have hl : (control :: (front ++ payload)).length - payload.length = 1 + front.length := by
    simp only [List.length_cons, List.length_append]
    omega
  have ht := PacketType.ofControl?_eq control
  rw [parse, read_readFront_long h hr]
  by_cases h0 : control &&& 0x7f = 0x7f
  · rw [if_pos h0] at ht ⊢; simp only [ht, hl]
  rw [if_neg h0] at ht ⊢
  by_cases h1 : control &&& 0x7f = 0x7e
  · rw [if_pos h1] at ht ⊢; simp only [ht]
  rw [if_neg h1] at ht ⊢
  by_cases h2 : control &&& 0x7f = 0x7d
  · rw [if_pos h2] at ht ⊢; simp only [ht]
  rw [if_neg h2] at ht ⊢
  by_cases h3 : control &&& 0x7f = 0x7c
  · rw [if_pos h3] at ht ⊢; simp only [ht]
  · rw [if_neg h3] at ht ⊢; simp only [ht]

/-- A packet that is read is a control byte of the one type that is read, a header and a payload. -/
theorem of_parse {datagram : Bytes} {p : Packet} (hp : parse datagram = .ok p) :
    ∃ (control : UInt8) (header : LongHeader) (front payload : Bytes),
      datagram = control :: (front ++ payload) ∧ header.Framed front ∧
        control &&& 0x7f = 0x7f ∧
        p = { type := .initial, header := some header, headerLength := 1 + front.length } := by
  cases datagram with
  | nil => rw [parse_nil] at hp; cases hp
  | cons control body =>
    by_cases h : control &&& longHeaderFlag = 0
    · rw [parse_short_form h] at hp; cases hp
    · by_cases hw : ∃ header : LongHeader, ∃ front, header.Framed front ∧ front <+: body
      · obtain ⟨header, front, hf, payload, rfl⟩ := hw
        rw [parse_framed h hf] at hp
        split at hp
        · cases hp
          exact ⟨control, header, front, payload, rfl, hf, ‹_›, rfl⟩
        · repeat' split at hp
          all_goals cases hp
      · obtain ⟨_, _, _, -, -, he⟩ := parse_cut_header h hw
        rw [he] at hp
        cases hp

theorem flag_ne_zero (h : control &&& 0x7f = 0x7f) : control &&& longHeaderFlag ≠ 0 := by
  intro h0
  have hn := PacketType.ofControl?_eq_none h0
  rw [PacketType.ofControl?_eq, if_pos h] at hn
  cases hn

/-- What `parse` makes of any bytes. Nothing is an end too soon; a control byte without the header
bit is no type, whatever follows it; with the bit, and without a whole header behind it, the header
fails for want of bytes, whatever the type; and behind a whole header the low seven bits of the
control byte decide. So a packet that is read has a header, whose bytes and the control byte are all
that is before its payload; and a header that is written, between a control byte of that type and
any payload, is read back. -/
theorem parse_decides :
    parse [] = .error (.unexpectedEnd 1 0) ∧
    (∀ control body, control &&& 0x08 = 0 →
      parse (control :: body) = .error (.unrecognizedPacketType control)) ∧
    (∀ control body, control &&& 0x08 ≠ 0 →
      (¬ ∃ h : LongHeader, ∃ front, h.Framed front ∧ front <+: body) →
      ∃ needed remaining left, remaining < needed ∧
        LongHeader.read.read body = (.error (.unexpectedEnd needed remaining), left) ∧
        parse (control :: body) = .error (.unexpectedEnd needed remaining)) ∧
    (∀ control (h : LongHeader) front payload, control &&& 0x08 ≠ 0 → h.Framed front →
      LongHeader.read.read (front ++ payload) = (.ok h, payload) ∧
      (control &&& 0x7f = 0x7f → parse (control :: (front ++ payload)) =
        .ok { type := .initial, header := some h, headerLength := 1 + front.length }) ∧
      (control &&& 0x7f = 0x7e → parse (control :: (front ++ payload)) =
        .error (.unimplementedPacketType .retry)) ∧
      (control &&& 0x7f = 0x7d → parse (control :: (front ++ payload)) =
        .error (.unimplementedPacketType .handshake)) ∧
      (control &&& 0x7f = 0x7c → parse (control :: (front ++ payload)) =
        .error (.unimplementedPacketType .zeroRttProtected)) ∧
      (control &&& 0x7f ∉ [0x7f, 0x7e, 0x7d, 0x7c] → parse (control :: (front ++ payload)) =
        .error (.unrecognizedPacketType control))) ∧
    (∀ datagram p, parse datagram = .ok p →
      ∃ h, p.header = some h ∧ p.destination? = some h.destination ∧
        LongHeader.read.read (datagram.drop 1) = (.ok h, datagram.drop p.headerLength) ∧
        p.headerLength =
          1 + ((datagram.drop 1).length - (datagram.drop p.headerLength).length) ∧
        11 ≤ p.headerLength ∧ p.headerLength ≤ datagram.length) ∧
    (∀ (h : LongHeader) bytes control payload, h.write = .ok bytes → control &&& 0x7f = 0x7f →
      ∃ p, parse (control :: (bytes ++ payload)) = .ok p ∧ p.header = some h ∧
        (control :: (bytes ++ payload)).drop p.headerLength = payload) := by
  refine ⟨parse_nil, fun control body h => parse_short_form h, fun control body h hn =>
    parse_cut_header h hn, fun control h front payload hc hf => ?_, fun datagram p hp => ?_,
    fun h bytes control payload hw hc => ?_⟩
  · refine ⟨LongHeader.read_read_eq_ok_iff.mpr (LongHeader.run_read_eq_ok_iff.mpr ⟨front, hf, rfl⟩),
      ?_, ?_, ?_, ?_, ?_⟩ <;> intro ht <;> rw [parse_framed hc hf]
    · rw [if_pos ht]
    · rw [ht]; rfl
    · rw [ht]; rfl
    · rw [ht]; rfl
    · simp only [List.mem_cons, List.not_mem_nil, or_false, not_or] at ht
      rw [if_neg ht.1, if_neg ht.2.1, if_neg ht.2.2.1, if_neg ht.2.2.2]
  · obtain ⟨control, h, front, payload, rfl, hf, -, rfl⟩ := of_parse hp
    have hd : (control :: (front ++ payload)).drop (1 + front.length) = payload := by
      rw [Nat.add_comm, List.drop_succ_cons, List.drop_left]
    have hl := hf.length_ge
    refine ⟨h, rfl, rfl, ?_, ?_, ?_, ?_⟩
    · rw [hd]
      exact LongHeader.read_read_eq_ok_iff.mpr (LongHeader.run_read_eq_ok_iff.mpr ⟨front, hf, rfl⟩)
    · simp only [hd, List.drop_succ_cons, List.drop_zero, List.length_append]
      omega
    · show 11 ≤ 1 + front.length
      omega
    · simp only [List.length_cons, List.length_append]
      omega
  · have hp := parse_framed (flag_ne_zero hc) (LongHeader.framed_of_write hw) payload
    rw [if_pos hc] at hp
    refine ⟨_, hp, rfl, ?_⟩
    show List.drop (1 + bytes.length) _ = payload
    rw [Nat.add_comm, List.drop_succ_cons, List.drop_left]

/-- A header of ten bytes, with empty ids. -/
def shortest : LongHeader where
  version := 1
  destination := .empty
  source := .empty
  payloadLength := 0
  packetNumber := 0

/-- The shortest header, of ten bytes: behind a control byte without its bit it is not looked at,
cut short it is missed, behind the control byte of a retry it is of no use, and behind that of an
initial packet it is read. -/
theorem shortest_header_decided :
    parse [0x77, 0, 0, 0, 1] = .error (.unrecognizedPacketType 0x77) ∧
    (∃ needed remaining left, remaining < needed ∧
      LongHeader.read.read [0, 0, 0, 1] = (.error (.unexpectedEnd needed remaining), left) ∧
      parse [0x08, 0, 0, 0, 1] = .error (.unexpectedEnd needed remaining)) ∧
    parse [0xfe, 0, 0, 0, 1, 0, 0, 0, 0, 0, 0] = .error (.unimplementedPacketType .retry) ∧
    LongHeader.read.read [0, 0, 0, 1, 0, 0, 0, 0, 0, 0, 9] = (.ok shortest, [9]) ∧
    ∃ p, parse [0xff, 0, 0, 0, 1, 0, 0, 0, 0, 0, 0, 9] = .ok p ∧ p.headerLength = 11 ∧
      List.drop p.headerLength ([0xff, 0, 0, 0, 1, 0, 0, 0, 0, 0, 0, 9] : Bytes) = [9] := by
  have hw : shortest.write = .ok [0, 0, 0, 1, 0, 0, 0, 0, 0, 0] := rfl
  have hf : shortest.Framed [0, 0, 0, 1, 0, 0, 0, 0, 0, 0] := LongHeader.framed_of_write hw
  have hn : ¬ ∃ h : LongHeader, ∃ front, h.Framed front ∧ front <+: [0, 0, 0, 1] := by
    rintro ⟨h, front, hf, hp⟩
    have hl : front.length ≤ 4 := hp.length_le
    have := hf.length_ge
    omega
  have hp : parse [0xff, 0, 0, 0, 1, 0, 0, 0, 0, 0, 0, 9] =
      .ok ⟨.initial, some shortest, 11⟩ := rfl
  refine ⟨parse_decides.2.1 0x77 _ (by decide), parse_decides.2.2.1 0x08 _ (by decide) hn,
    (parse_decides.2.2.2.1 0xfe shortest _ [] (by decide) hf).2.2.1 (by decide), ?_, ?_⟩
  · obtain ⟨header, hh, -, hr, -⟩ := parse_decides.2.2.2.2.1 _ _ hp
    cases hh
    exact hr
  · obtain ⟨p, hq, -, hd⟩ := parse_decides.2.2.2.2.2 shortest _ 0xff [9] hw (by decide)
    obtain rfl : p = _ := Except.ok.inj (hq.symm.trans hp)
    exact ⟨_, hq, rfl, hd⟩

end Packet

end Duplex.Wire
