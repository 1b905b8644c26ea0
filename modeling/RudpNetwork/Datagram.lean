import RudpNetwork.PacketLanguage

/-!
# RudpNetwork.Datagram

What a datagram means to a receiver.

`Written` says that a datagram is what `WritePacket` left in its buffer: such a
datagram encodes its packet (`Written.encodes`).  A datagram that encodes no packet is
`Spoiled`.  A written datagram that was written for another protocol, that was cut short,
or that was altered in its slot or in a window of four bytes behind it is spoiled.

## Main results

* `writePacket_written`, `Written.encodes` — what `WritePacket` leaves encodes its packet.
* `Written.spoiled_foreign`, `Written.spoiled_cut`, `Written.spoiled_altered` — datagrams
  that encode no packet.
-/

namespace RudpNetwork

open MachineInt

variable {f : PacketFactory} {protocolId : U32}

/-- How `PacketProcessor` calls `WritePacket` and `ReadPacket`. -/
def framing (protocolId : U32) : PacketInfo := { protocolId, prefixBytes := 1 }

/-- The datagram that `WritePacket` makes of a packet, in a buffer that every packet
of the factory fits. -/
def Written (f : PacketFactory) (protocolId : U32) (packet : Packet) (bytes : List U8) : Prop :=
  ∃ (buffer data : Memory) (size n : Nat), (size % 4 = 0 ∧ 24 ≤ size) ∧
    (size ≤ buffer.length ∧ 8 * buffer.length < 2147483648) ∧ 0 < n ∧
    writePacket f (framing protocolId) packet buffer size none = .ok ((n : Int), data) ∧
    bytes = data.take n

/-! ## the bytes that were written -/

/-- Bits of bytes that are the first of others. -/
theorem slice_of_take (bytes : List U8) {n p k : Nat} (h : p + k ≤ 8 * n) :
    Bits.slice (Bits.ofList (bytes.take n)) p k = Bits.slice (Bits.ofList bytes) p k := by
  rw [← Bits.take_ofList, Bits.slice_take _ h]

/-- What lies behind the packet does not matter to its checksum. -/
theorem Sealed.take {info : PacketInfo} {data : Memory} {n : Nat} (h : Sealed info data n) :
    Sealed info (data.take n) n where
  prefix_nonneg := h.prefix_nonneg
  slot_le := h.slot_le
  length := (List.length_take_of_le h.length).ge
  slot := by
    have h0 := h.prefix_nonneg
    have hle := h.slot_le
    rw [Bits.slice_take _ (by omega), h.slot, behindSlot_eq_drop, behindSlot_eq_drop,
      List.take_take,
      Nat.min_self]

/-- A datagram is sealed, and an `int` can count its bits. -/
theorem Written.sealed {packet : Packet} {bytes : List U8} (h : Written f protocolId packet bytes) :
    Sealed (framing protocolId) bytes bytes.length ∧ 8 * bytes.length < 2147483648 := by
  obtain ⟨buffer, data, size, n, -, ⟨hlen, hsize⟩, hn, hwrite, rfl⟩ := h
  obtain ⟨hsealed, hdata, hwords⟩ := writePacket_sealed hwrite hn rfl (by omega) hsize
  have hle := hsealed.length
  rw [List.length_take_of_le hle]
  exact ⟨hsealed.take, by omega⟩

/-- A written packet has a prefix and a checksum. -/
theorem Written.length_ge {packet : Packet} {bytes : List U8}
    (h : Written f protocolId packet bytes) : 5 ≤ bytes.length := by
  have hle : (1 : Int) + 4 ≤ bytes.length := h.sealed.1.slot_le
  omega

/-- The factory is set up for all types. -/
theorem typeBits_seven (hf : f.getNumPacketTypes = TestPacketTypes.numTypes.value) :
    typeBits f = 7 := by
  rw [typeBits, hf]
  decide

/-- Every packet of the factory has a type that its settings allow. -/
theorem knownType (hf : f.getNumPacketTypes = TestPacketTypes.numTypes.value) (p : FactoryPacket) :
    KnownType f p.getType := by
  have hnum : f.getNumPacketTypes = 106 := hf
  obtain ⟨h0, h105⟩ := p.getType_bounds
  exact ⟨⟨by omega, by omega⟩, h0, by omega⟩

/-- The bits of a packet of the factory. -/
theorem length_framed (hf : f.getNumPacketTypes = TestPacketTypes.numTypes.value)
    (protocolId crc : U32) (p : FactoryPacket) :
    (packetEnc f (framing protocolId) crc .empty p.getType p.enc 0).length =
      47 + p.fieldBits.sum := by
  rw [length_packetEnc p.length_enc, typeBits_seven hf]
  rfl

/-- Every packet of the factory fits into twenty-four bytes. -/
theorem packetBits_fit (hf : f.getNumPacketTypes = TestPacketTypes.numTypes.value)
    (protocolId : U32) (p : FactoryPacket) {size : Nat} (hsize : 24 ≤ size)
    (hint : 8 * size < 2147483648) :
    (packetBits f (framing protocolId) .empty p : Int) ≤ int32 (8 * size) := by
  have hsum := p.fieldBits_sum_le
  rw [packetBits, length_framed hf, int32_eq ⟨by omega, by omega⟩]
  omega

/-- The type of a packet on the wire. -/
theorem Encodes.slice_type (hf : f.getNumPacketTypes = TestPacketTypes.numTypes.value)
    {p : FactoryPacket} {bytes : List U8} (h : Encodes f (framing protocolId) p bytes) :
    Bits.slice (Bits.ofList bytes) 40 7 = typeEnc f p.getType 40 := by
  have hseven := typeBits_seven hf
  have hstart : typeStart (framing protocolId) = 40 := rfl
  have hbits := congrArg (List.take 7) h.bits
  rwa [hseven, hstart, Bits.take_slice _ _ (Nat.le_add_right 7 _), Enc.append_apply,
    List.take_append_of_le_length (by rw [length_typeEnc, hseven]), List.take_of_length_le
    (by rw [length_typeEnc, hseven])] at hbits

/-- Two packet types that are written alike are the same. -/
theorem typeEnc_inj (hf : f.getNumPacketTypes = TestPacketTypes.numTypes.value)
    {p q : FactoryPacket} {pos : Nat}
    (h : typeEnc f p.getType pos = typeEnc f q.getType pos) : p.getType = q.getType := by
  have hbits : (bitsRequired (toU32 0) (toU32 (TestPacketTypes.numTypes.value - 1))).toNat = 7 := by
    decide
  have hmany : 1 < TestPacketTypes.numTypes.value := by decide
  obtain ⟨hp0, hp⟩ := p.getType_bounds
  obtain ⟨hq0, hq⟩ := q.getType_bounds
  simp only [typeEnc, hf, hmany, if_true, Wire.int, Enc.const, hbits, Int.sub_zero] at h
  have hnat := congrArg Bits.toNat h
  rw [Bits.toNat_ofNat, Bits.toNat_ofNat] at hnat
  omega

section

variable (hf : f.getNumPacketTypes = TestPacketTypes.numTypes.value) (hid : protocolId ≠ 0)
include hf hid

/-- `WritePacket` writes every packet of the factory into a buffer with room. -/
theorem writePacket_written {p : FactoryPacket} (hp : p.InRange) {buffer : Memory} {size : Nat}
    (h4 : size % 4 = 0) (h24 : 24 ≤ size) (hlen : size ≤ buffer.length)
    (hint : 8 * buffer.length < 2147483648) :
    ∃ crc data, writePacket f (framing protocolId) p.toPacket buffer size none =
        .ok (((47 + p.fieldBits.sum + 7) / 8 : Nat), data) ∧
      data.length = buffer.length ∧
      Bits.slice (Bits.ofList data) 0 (47 + p.fieldBits.sum) =
        packetEnc f (framing protocolId) crc .empty p.getType p.enc 0 ∧
      Sealed (framing protocolId) data ((47 + p.fieldBits.sum + 7) / 8) ∧
      crc = packetCrc32 protocolId (behindSlot (framing protocolId) data
        ((47 + p.fieldBits.sum + 7) / 8)) := by
  obtain ⟨crc, data, hwrite, hslice, hbits, -, hsealed⟩ := @writePacket_ok f (framing protocolId)
    p.toPacket none .empty p.enc hid Int.one_nonneg (knownType hf p).writable
    WriteStream.Writes.pure (FactoryPacket.writes_serializeWrite hp) buffer size (by omega) h4 hlen
    (by omega) (47 + p.fieldBits.sum) (length_framed hf protocolId 0 p).symm
    (length_framed hf protocolId 0 p ▸ packetBits_fit hf protocolId p h24 (by omega))
  obtain ⟨hseal, hcrc⟩ := hsealed rfl
  obtain ⟨-, hdata, -⟩ := writePacket_sealed hwrite (by omega) rfl (by omega) hint
  rw [hbits] at hslice
  exact ⟨crc, data, hwrite, hdata, hslice, hseal, hcrc⟩

/-- A written datagram has the bytes that the bits of its packet need, and encodes it. -/
theorem Written.encodes {p : FactoryPacket} (hp : p.InRange) {bytes : List U8}
    (h : Written f protocolId p.toPacket bytes) :
    bytes.length = (47 + p.fieldBits.sum + 7) / 8 ∧ Encodes f (framing protocolId) p bytes := by
  obtain ⟨buffer, data, size, n, ⟨h4, h24⟩, ⟨hlen, hsize⟩, hn, hwrite, rfl⟩ := h
  obtain ⟨crc, data', hwrite', -, hslice, hsealed, -⟩ :=
    writePacket_written hf hid hp h4 h24 hlen hsize
  obtain ⟨hbytes, rfl⟩ := Prod.mk.inj (Except.ok.inj (hwrite.symm.trans hwrite'))
  obtain rfl : n = (47 + p.fieldBits.sum + 7) / 8 := Int.ofNat.inj hbytes
  obtain ⟨n, hn'⟩ : ∃ n, n = (47 + p.fieldBits.sum + 7) / 8 := ⟨_, rfl⟩
  rw [← hn'] at hsealed ⊢
  have htake : (data.take n).length = n := List.length_take_of_le hsealed.length
  have hseven := typeBits_seven hf
  have hstart : typeStart (framing protocolId) = 40 := rfl
  refine ⟨htake, hp, (knownType hf p).readable.lt, fun _ => ?_, by rw [htake]; omega, ?_⟩
  · have hslot := hsealed.take.slot
    rwa [behindSlot_eq_drop, List.take_take, Nat.min_self] at hslot
  · rw [slice_of_take _ (by omega)]
    rw [← length_framed hf protocolId crc p] at hslice
    rw [slice_packetEnc p.length_enc hslice, Enc.append_apply, length_typeEnc]

end

/-! ## what is refused -/

/-- A datagram that could be a packet and is none. -/
def Spoiled (f : PacketFactory) (protocolId : U32) (bytes : List U8) : Prop :=
  5 ≤ bytes.length ∧ ∀ p, ¬Encodes f (framing protocolId) p bytes

/-- It holds another checksum than the protocol asks for. -/
theorem spoiled_of_slot {bytes : List U8} (h5 : 5 ≤ bytes.length)
    (hslot : Bits.slice bytes 1 4 ≠ bytesOf (packetCrc32 protocolId (bytes.drop 5))) :
    Spoiled f protocolId bytes :=
  ⟨h5, fun _ h => hslot (h.slot rfl)⟩

/-- A datagram that was written for another protocol is spoiled. -/
theorem Written.spoiled_foreign {g : PacketFactory} {otherId : U32} {packet : Packet}
    {bytes : List U8} (h : Written g otherId packet bytes) (hne : otherId ≠ protocolId) :
    Spoiled f protocolId bytes := by
  refine spoiled_of_slot h.length_ge fun hslot => hne ?_
  have hsealed := h.sealed.1.slot
  rw [behindSlot_eq_drop, List.take_length] at hsealed
  exact packetCrc32_protocolId_inj (bytesOf_inj (hsealed.symm.trans hslot))

/-- A datagram whose end is missing is spoiled. -/
theorem Written.spoiled_cut (hf : f.getNumPacketTypes = TestPacketTypes.numTypes.value)
    (hid : protocolId ≠ 0) {p : FactoryPacket} (hp : p.InRange) {bytes : List U8}
    (h : Written f protocolId p.toPacket bytes) {n : Nat} (h5 : 5 ≤ n) (hn : n < bytes.length) :
    Spoiled f protocolId (bytes.take n) := by
  have htake : (bytes.take n).length = n := List.length_take_of_le (by omega)
  refine ⟨htake.ge.trans' h5, fun q hq => ?_⟩
  -- a packet of the same type is as long as the one that was cut
  obtain ⟨hlen, hwhole⟩ := h.encodes hf hid hp
  have hfits := hq.fits
  have hseven := typeBits_seven hf
  have hstart : typeStart (framing protocolId) = 40 := rfl
  rw [htake] at hfits
  have hsame := hq.slice_type hf
  rw [slice_of_take _ (by omega), hwhole.slice_type hf] at hsame
  rw [FactoryPacket.fieldBits_of_getType (typeEnc_inj hf hsame.symm)] at hfits
  omega

/-- A datagram that was altered in its slot, or in a window of at most four bytes behind it, is
spoiled. -/
theorem Written.spoiled_altered {packet : Packet} {bytes altered : List U8} {pos : Nat}
    {w : List U8} (h : Written f protocolId packet bytes) (hlen : altered.length = bytes.length)
    (halt : Altered (framing protocolId) bytes altered bytes.length pos w) :
    Spoiled f protocolId altered := by
  obtain ⟨stored, hslot, hcrc⟩ := halt.mismatch h.sealed.1
  rw [behindSlot_eq_drop, ← hlen, List.take_length] at hcrc
  exact spoiled_of_slot (hlen ▸ h.length_ge) fun hsealed =>
    hcrc (bytesOf_inj (hsealed.symm.trans hslot))

end RudpNetwork
