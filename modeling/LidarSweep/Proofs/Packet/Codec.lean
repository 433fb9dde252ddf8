import LidarSweep.Packet.Builder
import LidarSweep.Proofs.Bytes

/-!
# Packets on the wire

`Header.Spells` says, field by field, which bytes stand for a header, and says nothing of the
reserved ones.  Decoding finds a header exactly where the bytes spell it
(`Header.decode_eq_ok_iff`), and encoding spells it (`Header.spells_encode`), so the two undo each
other up to the reserved bytes, which are written as zero (`Header.encode_of_spells`).

A packet is framed by the length that its header declares, and by nothing behind its tail
(`Packet.decode_eq`).  `wire_codec` puts this together, for the packets that a builder encodes too.
-/

namespace LidarSweep

open Bytes

namespace Header

/-! ### Headers -/

/-- Where the fields of a header stand. -/
@[mk_iff] structure Spells (h : Header) (bs : List UInt8) : Prop where
  magic : slice bs 0 6 = h.magic.toList
  payloadSize : slice bs 6 2 = ofBig 2 h.payloadSize.toNat
  modelCode : slice bs 8 2 = ofBig 2 h.modelCode.toNat
  rateCode : slice bs 10 1 = [h.rateCode]
  formatCode : slice bs 11 1 = [h.formatCode]
  block : slice bs 12 2 = ofBig 2 h.block.toNat
  sweep : slice bs 14 4 = ofBig 4 h.sweep.toNat
  wireTimeUs : slice bs 18 8 = ofBig 8 h.wireTimeUs.toNat
  syncCode : slice bs 26 1 = [h.syncCode]
  warnings : slice bs 28 2 = ofBig 2 h.warnings.toNat
  scanSpeed : slice bs 30 2 = ofBig 2 h.scanSpeed.toNat
  verticalRate : slice bs 32 2 = ofBig 2 h.verticalRate.toNat
  temperature : slice bs 34 2 = ofBig 2 h.temperature.toUInt16.toNat

variable {h : Header} {bs : List UInt8}

theorem spells_encode (h : Header) (rest : List UInt8) : h.Spells (h.encode ++ rest) := by
  constructor <;>
    simp (disch := simp) [encode, slice_append_right, slice_front, slice_cons_succ,
      slice_cons_zero]

/-- **A header is read exactly where the bytes spell it.** -/
theorem decode_eq_ok_iff : decode bs = .ok h ↔ size ≤ bs.length ∧ h.Spells bs := by
  unfold decode
  by_cases hSize : size ≤ bs.length
  · have hLength : 40 ≤ bs.length := hSize
    rw [dif_pos hSize, Except.ok.injEq, and_iff_right hSize, spells_iff]
    obtain ⟨magic, payloadSize, modelCode, rateCode, formatCode, block, sweep, wireTimeUs,
      syncCode, warnings, scanSpeed, verticalRate, temperature⟩ := h
    simp (disch := omega) only [Header.mk.injEq, vector_eq_iff, uint16_eq_iff, uint32_eq_iff,
      uint64_eq_iff, int16_eq_iff, getElem_eq_iff]
  · simp [hSize]

/-- What is written of spelled bytes: byte 27 and the last four are reserved, the others stay. -/
theorem encode_of_spells (hSpells : h.Spells bs) :
    h.encode = slice bs 0 27 ++ [0] ++ slice bs 28 8 ++ [0, 0, 0, 0] := by
  have hFront : slice bs 0 6 ++ slice bs 6 2 ++ slice bs 8 2 ++ slice bs 10 1 ++ slice bs 11 1 ++
      slice bs 12 2 ++ slice bs 14 4 ++ slice bs 18 8 ++ slice bs 26 1 = slice bs 0 27 := by
    simp (disch := rfl) only [slice_append_slice]
  have hBack : slice bs 28 2 ++ slice bs 30 2 ++ slice bs 32 2 ++ slice bs 34 2 =
      slice bs 28 8 := by
    simp (disch := rfl) only [slice_append_slice]
  rw [← hFront, ← hBack, hSpells.magic, hSpells.payloadSize, hSpells.modelCode, hSpells.rateCode,
    hSpells.formatCode, hSpells.block, hSpells.sweep, hSpells.wireTimeUs, hSpells.syncCode,
    hSpells.warnings, hSpells.scanSpeed, hSpells.verticalRate, hSpells.temperature, encode]
  simp only [List.append_assoc, List.cons_append, List.nil_append]

theorem decode_encode_append (h : Header) (rest : List UInt8) :
    decode (h.encode ++ rest) = .ok h :=
  decode_eq_ok_iff.mpr ⟨by simp, spells_encode h rest⟩

/-- Bytes behind a header are not read. -/
theorem decode_append (hDecode : decode bs = .ok h) (rest : List UInt8) :
    decode (bs ++ rest) = .ok h := by
  obtain ⟨hSize, hSpells⟩ := decode_eq_ok_iff.mp hDecode
  have hLength : 40 ≤ bs.length := hSize
  rw [spells_iff] at hSpells
  refine decode_eq_ok_iff.mpr ⟨by simp only [List.length_append]; omega, (spells_iff ..).mpr ?_⟩
  simpa (disch := omega) only [slice_append_left] using hSpells

theorem exists_decode (hSize : size ≤ bs.length) : ∃ h, decode bs = .ok h :=
  ⟨_, dif_pos hSize⟩

theorem decode_of_short (hShort : bs.length < size) :
    decode bs = .error (.unexpectedEnd bs.length) :=
  dif_neg (Nat.not_le_of_lt hShort)

end Header

namespace Packet

/-! ### Packets -/

variable {bs : List UInt8} {p : Packet}

/-- The payload length that the bytes declare. -/
def declaredPayload (bs : List UInt8) : Nat := big (slice bs 6 2)

theorem payloadSize_of_decode {h : Header} (hDecode : Header.decode bs = .ok h) :
    h.payloadSize.toNat = declaredPayload bs := by
  obtain ⟨_, hSpells⟩ := Header.decode_eq_ok_iff.mp hDecode
  rw [declaredPayload, hSpells.payloadSize]
  exact (big_ofBig h.payloadSize.toNat_lt).symm

/-- The packet at the front of bytes that hold one. -/
theorem decode_eq {h : Header} (hDecode : Header.decode bs = .ok h) :
    decode bs =
      if bs.length < Header.size + declaredPayload bs + tailSize then
        .error (.invalidPacket (.truncated bs.length
          (Header.size + declaredPayload bs + tailSize)))
      else
        .ok {
          header := h
          payload := slice bs Header.size (declaredPayload bs)
          tail := slice bs (Header.size + declaredPayload bs) tailSize } := by
  simp only [decode, hDecode, declaredSize, ← payloadSize_of_decode hDecode]
  rfl

theorem decode_of_short (hShort : bs.length < Header.size) :
    decode bs = .error (.unexpectedEnd bs.length) := by
  simp only [decode, Header.decode_of_short hShort]
  rfl

theorem decode_eq_ok_iff :
    decode bs = .ok p ↔
      Header.size + declaredPayload bs + tailSize ≤ bs.length ∧
        Header.decode bs = .ok p.header ∧
        p.payload = slice bs Header.size (declaredPayload bs) ∧
        p.tail = slice bs (Header.size + declaredPayload bs) tailSize := by
  obtain ⟨header, payload, tail⟩ := p
  by_cases hSize : Header.size ≤ bs.length
  · obtain ⟨h, hDecode⟩ := Header.exists_decode hSize
    rw [decode_eq hDecode, hDecode]
    by_cases hWhole : Header.size + declaredPayload bs + tailSize ≤ bs.length
    · rw [if_neg (Nat.not_lt_of_le hWhole), Except.ok.injEq, Packet.mk.injEq, Except.ok.injEq,
        and_iff_right hWhole, eq_comm (a := payload), eq_comm (a := tail)]
    · rw [if_pos (Nat.lt_of_not_le hWhole)]
      simp [hWhole]
  · rw [decode_of_short (Nat.lt_of_not_le hSize)]
    have hShort : ¬ Header.size + declaredPayload bs + tailSize ≤ bs.length := by omega
    simp [hShort]

theorem exists_decode_iff :
    (∃ p, decode bs = .ok p) ↔ Header.size + declaredPayload bs + tailSize ≤ bs.length := by
  constructor
  · rintro ⟨p, hDecode⟩
    exact (decode_eq_ok_iff.mp hDecode).1
  · intro hWhole
    obtain ⟨h, hHeader⟩ : ∃ h, Header.decode bs = .ok h := Header.exists_decode (by omega)
    exact ⟨⟨h, _, _⟩, decode_eq_ok_iff.mpr ⟨hWhole, hHeader, rfl, rfl⟩⟩

theorem decode_of_cut (hSize : Header.size ≤ bs.length)
    (hCut : bs.length < Header.size + declaredPayload bs + tailSize) :
    decode bs = .error (.invalidPacket (.truncated bs.length
      (Header.size + declaredPayload bs + tailSize))) := by
  obtain ⟨h, hDecode⟩ := Header.exists_decode hSize
  rw [decode_eq hDecode, if_pos hCut]

/-- **A packet is read whatever follows it.** -/
theorem decode_append (hDecode : decode bs = .ok p) (rest : List UInt8) :
    decode (bs ++ rest) = .ok p := by
  obtain ⟨hWhole, hHeader, hPayload, hTail⟩ := decode_eq_ok_iff.mp hDecode
  have hFraming : Header.size = 40 ∧ tailSize = 4 := ⟨rfl, rfl⟩
  have hDeclared : declaredPayload (bs ++ rest) = declaredPayload bs := by
    rw [declaredPayload, slice_append_left (by omega), declaredPayload]
  refine decode_eq_ok_iff.mpr ⟨?_, Header.decode_append hHeader rest, ?_, ?_⟩
  · rw [hDeclared, List.length_append]
    omega
  · rw [hDeclared, slice_append_left (by omega), hPayload]
  · rw [hDeclared, slice_append_left (by omega), hTail]

/-- The bytes of a packet. -/
def encode (p : Packet) : List UInt8 := p.header.encode ++ p.payload ++ p.tail

theorem decode_encode (hPayload : p.header.payloadSize.toNat = p.payload.length)
    (hTail : p.tail.length = tailSize) : decode p.encode = .ok p := by
  have hBytes : p.encode = p.header.encode ++ (p.payload ++ p.tail) := List.append_assoc ..
  have hHeader := Header.decode_encode_append p.header (p.payload ++ p.tail)
  have hDeclared := payloadSize_of_decode hHeader
  rw [hPayload] at hDeclared
  rw [hBytes]
  refine decode_eq_ok_iff.mpr ⟨?_, hHeader, ?_, ?_⟩ <;> rw [← hDeclared]
  · simp [hTail]
    omega
  · rw [slice_append_right (by simp), Header.length_encode, Nat.sub_self, slice_front rfl]
  · rw [slice_append_right (by simp), slice_append_right (by simp), Header.length_encode,
      Nat.add_sub_cancel_left, Nat.sub_self, ← hTail, slice_length]

end Packet

/-! ### What a builder encodes -/

namespace Builder

/-- The packet that a builder makes of a payload. -/
def packet (b : Builder) (sweep : UInt32) (block : UInt16) (payload : List UInt8) : Packet where
  header := b.header sweep block payload
  payload
  tail := Packet.validTail

variable {payload : List UInt8}

theorem payloadSize_packet (b : Builder) (sweep : UInt32) (block : UInt16)
    (h : payload.length ≤ 65535) :
    (b.packet sweep block payload).header.payloadSize.toNat = payload.length := by
  have hSize : (UInt16.ofNat payload.length).toNat = payload.length % Nat.pow 2 16 :=
    UInt16.toNat_ofNat'
  exact hSize.trans (Nat.mod_eq_of_lt (Nat.lt_succ_of_le h))

/-- The device's clock does not pass the end of its range. -/
theorem wireTimeUs_packet (b : Builder) (sweep : UInt32) (block : UInt16)
    (payload : List UInt8) :
    (b.packet sweep block payload).header.wireTimeUs.toNat =
      sweep.toNat * 100000 + block.toNat := by
  have hSweep := sweep.toNat_lt
  have hBlock := block.toNat_lt
  have hTime : (UInt64.ofNat (sweep.toNat * 100000 + block.toNat)).toNat =
      (sweep.toNat * 100000 + block.toNat) % Nat.pow 2 64 := UInt64.toNat_ofNat'
  refine hTime.trans (Nat.mod_eq_of_lt ?_)
  have hRange : Nat.pow 2 64 = 18446744073709551616 := rfl
  omega

theorem decode_encode (b : Builder) (sweep : UInt32) (block : UInt16)
    (h : payload.length ≤ 65535) :
    Packet.decode (b.encode sweep block payload) = .ok (b.packet sweep block payload) :=
  Packet.decode_encode (p := b.packet sweep block payload) (b.payloadSize_packet sweep block h) rfl

end Builder

/-! ### The codec -/

namespace Packet

/-- **The wire codec.**  A header is read back as it was written.  Forty bytes are written back as
they were read, with the reserved ones zero.  Bytes hold a packet exactly if they reach as far as
it declares, and nothing behind it counts.  What a builder encodes is read as the payload under
the builder's own header, with the fields of the block filled in. -/
theorem wire_codec :
    (∀ h : Header, Header.decode h.encode = .ok h) ∧
    (∀ bs : List UInt8, 40 ≤ bs.length →
      (Header.decode bs).map Header.encode =
        .ok (slice bs 0 27 ++ [0] ++ slice bs 28 8 ++ [0, 0, 0, 0])) ∧
    (∀ bs : List UInt8,
      ((∃ p, decode bs = .ok p) ↔ 40 + declaredPayload bs + 4 ≤ bs.length) ∧
      (bs.length < 40 → decode bs = .error (.unexpectedEnd bs.length)) ∧
      (40 ≤ bs.length → bs.length < 40 + declaredPayload bs + 4 →
        decode bs = .error (.invalidPacket (.truncated bs.length (40 + declaredPayload bs + 4)))) ∧
      ∀ p, decode bs = .ok p →
        Header.decode bs = .ok p.header ∧ p.header.payloadSize.toNat = declaredPayload bs ∧
        p.payload = slice bs 40 (declaredPayload bs) ∧
        p.tail = slice bs (40 + declaredPayload bs) 4 ∧
        ∀ more, decode (bs ++ more) = .ok p) ∧
    (∀ (b : Builder) (sweep : UInt32) (block : UInt16) (payload : List UInt8),
      payload.length ≤ 65535 →
      ∃ p, decode (b.encode sweep block payload) = .ok p ∧ p.payload = payload ∧
        p.hasValidTail = true ∧
        p.header = { b.template with
          payloadSize := p.header.payloadSize, block, sweep, wireTimeUs := p.header.wireTimeUs } ∧
        p.header.payloadSize.toNat = payload.length ∧
        p.header.wireTimeUs.toNat = sweep.toNat * 100000 + block.toNat) := by
  refine ⟨fun h => ?_, fun bs hSize => ?_,
    fun bs => ⟨exists_decode_iff, decode_of_short, decode_of_cut, fun p hDecode => ?_⟩,
    fun b sweep block payload hPayload => ?_⟩
  · have hRead := Header.decode_encode_append h []
    rwa [List.append_nil] at hRead
  · obtain ⟨h, hDecode⟩ := Header.exists_decode hSize
    rw [hDecode, Except.map, Header.encode_of_spells (Header.decode_eq_ok_iff.mp hDecode).2]
  · obtain ⟨_, hHeader, hPayload, hTail⟩ := decode_eq_ok_iff.mp hDecode
    exact ⟨hHeader, payloadSize_of_decode hHeader, hPayload, hTail, decode_append hDecode⟩
  · exact ⟨_, b.decode_encode sweep block hPayload, rfl, rfl, rfl,
      b.payloadSize_packet sweep block hPayload, b.wireTimeUs_packet sweep block payload⟩

/-- A builder below zero degrees, for a format that does not exist. -/
def frostBuilder : Builder :=
  ((Builder.new 0x0203 .hz20 .point).withTemperature (-250)).withFormatCode 0x99

def frostBytes : List UInt8 := frostBuilder.encode 70000 258 [1, 2, 3, 4]

def frostPacket : Packet := frostBuilder.packet 70000 258 [1, 2, 3, 4]

/-- Three bytes, a packet that lacks its last byte, and a whole one. -/
theorem wire_codec_frost :
    (40 ≤ frostBytes.length ∧ (Header.decode frostBytes).map Header.encode =
      .ok (slice frostBytes 0 27 ++ [0] ++ slice frostBytes 28 8 ++ [0, 0, 0, 0])) ∧
    (([1, 2, 3] : List UInt8).length < 40 ∧ decode [1, 2, 3] = .error (.unexpectedEnd 3)) ∧
    (40 ≤ (frostBytes.take 47).length ∧
      (frostBytes.take 47).length < 40 + declaredPayload (frostBytes.take 47) + 4 ∧
      decode (frostBytes.take 47) = .error (.invalidPacket (.truncated 47 48))) ∧
    (decode frostBytes = .ok frostPacket ∧ ∀ more, decode (frostBytes ++ more) = .ok frostPacket) ∧
    ([1, 2, 3, 4] : List UInt8).length ≤ 65535 ∧
      ∃ p, decode frostBytes = .ok p ∧ p.header.temperature = -250 ∧
        p.header.payloadSize.toNat = 4 ∧ p.header.wireTimeUs.toNat = 7000000258 := by
  obtain ⟨_, hHeader, hPacket, hBuilder⟩ := wire_codec
  have hWhole : decode frostBytes = .ok frostPacket :=
    frostBuilder.decode_encode 70000 258 (by decide)
  refine ⟨⟨by decide, hHeader frostBytes (by decide)⟩, ⟨by decide, (hPacket _).2.1 (by decide)⟩,
    ⟨by decide, by decide, (hPacket (frostBytes.take 47)).2.2.1 (by decide) (by decide)⟩,
    ⟨hWhole, ((hPacket frostBytes).2.2.2 frostPacket hWhole).2.2.2.2⟩, by decide, ?_⟩
  obtain ⟨p, hDecode, _, _, hFields, hSize, hTime⟩ := hBuilder frostBuilder 70000 258 [1, 2, 3, 4]
    (by decide)
  exact ⟨p, hDecode, by rw [hFields]; rfl, hSize, hTime⟩

end Packet

end LidarSweep
