import RudpNetwork.Canonical
import RudpNetwork.Corruption
import RudpNetwork.PacketProcessor
import RudpNetwork.PacketTypes

/-!
# RudpNetwork.PacketLanguage

The bytes that `ReadPacket` takes for a packet.

`Encodes` is the format in its own words: behind the prefix stands the checksum of
what follows, then come the packet type and the fields in their ranges.  `ReadPacket`
returns the packet that the bytes encode, and none if they encode none
(`readPacket_accepts_iff`), whatever the prefix holds, whatever lies in the buffer
behind the bytes and whatever the members of a new packet hold.

## Main results

* `readPacket_encoded`, `Encodes.of_returned` — the two directions.
* `readPacket_accepts_iff` — the bytes that `ReadPacket` takes for a packet.
-/

namespace RudpNetwork

open MachineInt
open ReadStream (Reads onStream)

variable {σ : Type} {f : PacketFactory} {info : PacketInfo}

/-- The bytes are a packet. Behind its last field they may go on. -/
structure Encodes (f : PacketFactory) (info : PacketInfo) (p : FactoryPacket) (bytes : List U8) :
    Prop where
  inRange : p.InRange
  type : p.getType < 2 ^ typeBits f
  slot : info.rawFormat = false → Bits.slice bytes info.prefixBytes.toNat 4 =
    bytesOf (packetCrc32 info.protocolId (bytes.drop (info.prefixBytes.toNat + 4)))
  fits : typeStart info + (typeBits f + p.fieldBits.sum) ≤ 8 * bytes.length
  bits : Bits.slice (Bits.ofList bytes) (typeStart info) (typeBits f + p.fieldBits.sum) =
    (typeEnc f p.getType ++ p.enc) (typeStart info)

/-! ## what is returned -/

/-- The packet that was read lies in the received bytes, behind the slot. -/
theorem readPacket_returned (hint : IsInt32 f.getNumPacketTypes)
    (hsmall : 8 * info.prefixBytes.toNat + 192 < 2147483648) {p : FactoryPacket} {uninit : Uninit}
    {received : Memory} {n : Nat} (hn : 8 * n < 2147483648) {o : σ} {r : ReadResult σ}
    (h : readPacket f uninit info received n none o = .ok (some p, r)) :
    typeStart info + (typeBits f + p.fieldBits.sum) ≤ 8 * n ∧
      Bits.slice (Bits.ofList received) (typeStart info) (typeBits f + p.fieldBits.sum) =
        (typeEnc f p.getType ++ p.enc) (typeStart info) := by
  obtain ⟨hpos, -, s, hrun⟩ := readPacket_eq_ok.mp h
  have hsum := p.fieldBits_sum_le
  have hwidth := typeBits_le hint
  have hstart : typeStart info ≤ 8 * info.prefixBytes.toNat + 32 := by
    unfold typeStart slotWidth
    split <;> omega
  rw [checkedStages_eq] at hrun
  obtain ⟨packetType, s₁, hfirst, hsecond⟩ := Proc.bind_run_ok_some hrun
  have hfresh := (triple_typeStages f info received n none).value _ _ _
    (show Fresh ({ header := o } : ReadResult σ) from ⟨rfl, rfl, rfl⟩) hfirst
  obtain ⟨⟨hptype, -⟩, -⟩ := (triple_packetStages uninit packetType).value _ _ _ hfresh hsecond
  have hat : ({ ReadStream.init received n with context := info.context } :
      ReadStream Memory).Reached (Platform.bits received) (int32 ((n : Int) * 8)) 0 := by
    obtain ⟨hloaded, hwords, hbits, hcount, hread, hle⟩ := ReadStream.init_reached received n
    exact ⟨hloaded, hwords, hbits, hcount, hread, hle⟩
  have hpassed := (triple_typeStages_passed hint (A := True) received n
    (by omega)).value _ _ _ (fun _ => ⟨trivial, hat⟩) hfirst
  obtain ⟨herror, hdone⟩ := (triple_packetStages_passed uninit (k := p.fieldBits.sum)
    (fun q hq => by rw [FactoryPacket.fieldBits_of_getType (hq.trans hptype.symm)])
    (by omega)).value _ _ _ hpassed hsecond
  obtain ⟨⟨⟨-, htypebits⟩, hbody⟩, hreached⟩ := hdone herror
  rw [← hptype] at htypebits
  constructor
  · rcases Nat.eq_zero_or_pos (typeStart info + typeBits f + p.fieldBits.sum) with hzero | hsome
    · omega
    · have hroom := hreached.le_numBits hsome
      rw [int32_eq ⟨by omega, by omega⟩] at hroom
      omega
  · rw [Bits.slice_add]
    change _ = typeEnc f p.getType _ ++ p.enc (_ + (typeEnc f p.getType _).length)
    rw [length_typeEnc, ← htypebits, ← hbody]
    rfl

/-! ## what is accepted -/

/-- Whatever stands in the prefix, the packet behind it is read. -/
theorem reads_behindPrefix {c : Context} {l : List Bool}
    (hl : l.length = 8 * info.prefixBytes.toNat) {uninit : Uninit} {buffer : Memory} {n : Int}
    {crc : U32} (hcrc : info.rawFormat = false → expectedCrc32 info buffer n = .ok crc)
    {p : FactoryPacket} (ht : ReadableType f p.getType) (hp : p.InRange) (o : σ) :
    Reads c (readStages f uninit info buffer n none)
      (.const l ++ (.const (slotBits info crc) ++ (.empty ++ (typeEnc f p.getType ++ p.enc))))
      ({ header := o } : ReadResult σ) { header := o, created := 1 } p := by
  obtain ⟨q, hq, hread⟩ := @FactoryPacket.createPacket_getType (ReadResult σ) uninit p hp
  refine Reads.bind (reads_readPrefix hl _) (Reads.bind (reads_checkCrc32 hcrc _)
    (Reads.bind (reads_readHeader ⟨rfl, rfl⟩) (Reads.bind (reads_readType ht _) ?_)))
  exact Reads.bind (reads_makePacket hq _) (Reads.orReturn _ (hread c _))

/-- What the bytes encode is returned. -/
theorem readPacket_encoded (hint : IsInt32 f.getNumPacketTypes) (hpos : 0 < f.getNumPacketTypes)
    (hid : info.protocolId ≠ 0) (hpre : 0 ≤ info.prefixBytes)
    (uninit : Uninit) {received : Memory} {n : Nat} (hn : 8 * n < 2147483648)
    (hwords : 4 * ((n + 3) / 4) ≤ received.length) {p : FactoryPacket}
    (h : Encodes f info p (received.take n)) (o : σ) :
    readPacket f uninit info received n none o = .ok (some p, { header := o, created := 1 }) := by
  have hlen : (Platform.bits received).length = 8 * received.length := Bits.length_ofList received
  have htake : (received.take n).length = n := List.length_take_of_le (by omega)
  obtain ⟨hrange, htype, hslot, hfits, hbits⟩ := h
  rw [htake] at hfits
  have hn0 : 0 < n := by
    have hsum : 0 < p.fieldBits.sum := by
      cases p <;> simp [FactoryPacket.fieldBits, FactoryPacket.fields, FieldShape.bits]
    omega
  obtain ⟨crc, hcrc⟩ : ∃ crc, crc = packetCrc32 info.protocolId (behindSlot info received n) :=
    ⟨_, rfl⟩
  rw [← behindSlot_eq_drop, ← hcrc] at hslot
  -- the whole packet, from the prefix on
  obtain ⟨l, hl⟩ : ∃ l, l = Bits.slice (Bits.ofList received) 0 (8 * info.prefixBytes.toNat) :=
    ⟨_, rfl⟩
  obtain ⟨e, he⟩ : ∃ e : Enc, e = .const l ++ (.const (slotBits info crc) ++
      (.empty ++ (typeEnc f p.getType ++ p.enc))) := ⟨_, rfl⟩
  have hstart : 8 * info.prefixBytes.toNat + slotWidth info = typeStart info := rfl
  have hllen : l.length = 8 * info.prefixBytes.toNat := by
    rw [hl, Bits.length_slice, Bits.length_ofList]
    omega
  have hslotbits : Bits.slice (Bits.ofList received) (8 * info.prefixBytes.toNat) (slotWidth info) =
      slotBits info crc := by
    unfold slotWidth slotBits
    split
    · rfl
    · next hraw =>
      have hraw' : info.rawFormat = false := by simpa using hraw
      rw [slotWidth, if_neg hraw] at hstart
      rw [← ofList_bytesOf, ← hslot hraw', Bits.slice_take _ (by omega), ← Bits.slice_ofList]
  have hwhole : e 0 = Bits.slice (Bits.ofList received) 0
      (8 * info.prefixBytes.toNat + (slotWidth info + (typeBits f + p.fieldBits.sum))) := by
    rw [Bits.slice_add, Bits.slice_add, ← hl, Nat.zero_add, hslotbits, hstart,
      ← Bits.slice_take (Bits.ofList received) hfits, Bits.take_ofList, hbits, he]
    simp only [Enc.append_apply, Enc.const, Enc.empty, hllen, length_slotBits, List.nil_append,
      List.length_nil, Nat.zero_add, Nat.add_zero, hstart]
  have hk : (e 0).length = typeStart info + (typeBits f + p.fieldBits.sum) := by
    rw [hwhole, Bits.length_slice, Bits.length_ofList]
    omega
  have hexpected : info.rawFormat = false → expectedCrc32 info received n = .ok crc := by
    intro hraw
    rw [slotWidth, if_neg (by simp [hraw])] at hstart
    rw [hcrc]
    exact expectedCrc32_eq hpre (by omega) (by omega) (by omega)
  have hat := @ReadStream.init_at Memory _ received n (by omega) (by omega) (by omega)
  rw [int32_eq (show IsInt32 ((n : Int) * 8) from ⟨by omega, by omega⟩)] at hat
  obtain ⟨s, hrun, -, hsame⟩ := reads_behindPrefix (σ := σ) (c := info.context) hllen hexpected
    ⟨hint, hpos, p.getType_bounds.1, htype⟩ hrange o
    { ReadStream.init received n with context := info.context } _ _ 0 rfl
    ⟨hat.reader, hat.bitsRead⟩ (by rw [← he, hk, hwhole, ← hstart, Nat.add_assoc]; rfl)
    (by rw [← he, hk]; omega)
  have herror : s.error = .none := hsame.error
  have hcheck : checkError (s, ({ header := o, created := 1 } : ReadResult σ)) =
      .ok (some (), s, { header := o, created := 1 }) := by
    rw [checkError, if_pos herror]
  exact readPacket_eq_ok.mpr ⟨by omega, hid, s, (Proc.bind_run_some hrun).trans
    (Proc.bind_run_some hcheck)⟩

/-! ## the language -/

/-- What is returned is what the bytes encode. -/
theorem Encodes.of_returned (hint : IsInt32 f.getNumPacketTypes) (hid : info.protocolId ≠ 0)
    (hpre : 0 ≤ info.prefixBytes)
    (hsmall : 8 * info.prefixBytes.toNat + 192 < 2147483648) {p : FactoryPacket} {uninit : Uninit}
    {received : Memory} {n : Nat} (hn : 8 * n < 2147483648)
    (hslot : info.rawFormat = false → info.prefixBytes + 4 ≤ n)
    (hwords : 4 * ((n + 3) / 4) ≤ received.length) {o : σ} {r : ReadResult σ}
    (h : readPacket f uninit info received n none o = .ok (some p, r)) :
    Encodes f info p (received.take n) := by
  have hcoherent := readPacket_outcome h
  obtain ⟨hfits, hbits⟩ := readPacket_returned hint hsmall hn h
  have htake : (received.take n).length = n := List.length_take_of_le (by omega)
  refine ⟨hcoherent.inRange p rfl, ((hcoherent.type p rfl).readable hint).lt, fun hraw => ?_,
    by rw [htake]; exact hfits, ?_⟩
  · have hle := hslot hraw
    obtain ⟨stored, hstored⟩ := @bytesOf_surj (Bits.slice received info.prefixBytes.toNat 4) (by
      rw [Bits.length_slice]
      omega)
    rw [Bits.slice_take _ (by omega), ← behindSlot_eq_drop]
    by_contra hne
    have hmismatch :=
      @readPacket_mismatch σ f uninit info received n none stored hid hraw hpre hle hn
      hwords hstored.symm (fun hcrc => hne (by rw [← hstored, ← hcrc])) o
    exact absurd (Prod.mk.inj (Except.ok.inj (h.symm.trans hmismatch))).1 (Option.some_ne_none p)
  · rw [← Bits.take_ofList, Bits.slice_take _ hfits]
    exact hbits

/-- `ReadPacket` ends, with a packet or without. -/
theorem readPacket_ends (hint : IsInt32 f.getNumPacketTypes) (hpos : 0 < f.getNumPacketTypes)
    (hid : info.protocolId ≠ 0) (hpre : 0 ≤ info.prefixBytes)
    (hsmall : 8 * info.prefixBytes.toNat + 192 < 2147483648) (uninit : Uninit) {received : Memory}
    {n : Nat} (hn0 : 0 < n) (hn : 8 * n < 2147483648)
    (hslot : info.rawFormat = false → info.prefixBytes + 4 ≤ n)
    (hwords : 4 * ((n + 3) / 4) ≤ received.length) (o : σ) :
    ∃ packet r, readPacket f uninit info received n none o = .ok (packet, r) := by
  have hheader : ReadStream.Safe (readHeader (none : Option (ObjectClass σ))) 0 :=
    ReadStream.Safe.pure ()
  cases hraw : info.rawFormat with
  | false =>
      exact readPacket_completes hint hpos uninit hid hn0 (by omega) hwords
        (expectedCrc32_eq hpre (hslot hraw) (by omega) (by omega)) hheader (by omega) o
  | true =>
      -- no checksum is computed: it may as well be that of another buffer
      have hcrc := @expectedCrc32_eq info (List.replicate (info.prefixBytes.toNat + 4) 0)
        (info.prefixBytes.toNat + 4) hpre (by omega) (by rw [List.length_replicate]) (by omega)
      have hcheck : ∀ (b : Memory) (m : Int),
          (checkCrc32 info b m : ReadProc Memory (ReadResult σ) Unit) = pure () := by
        intro b m
        rw [checkCrc32, if_pos hraw]
      have hsafe := safe_checkedStages hint hpos uninit hcrc hheader
      rw [checkedStages, readStages, hcheck, ← hcheck received n] at hsafe
      have hlen : (Platform.bits received).length = 8 * received.length :=
        Bits.length_ofList received
      have hat := @ReadStream.init_at Memory _ received n (by omega) (by omega) (by omega)
      obtain ⟨packet, s, r, -, hrun, -⟩ := hsafe
        { ReadStream.init received n with context := info.context } { header := o } _ _ 0
        ⟨hat.reader, hat.bitsRead⟩ (by omega)
      exact ⟨packet, r, readPacket_eq_ok.mpr ⟨by omega, hid, s, hrun⟩⟩

/-- `ReadPacket` decides the packet format: over any bytes it ends without an assertion or an
access outside the buffer, and it returns a packet if and only if the bytes encode it. -/
theorem readPacket_accepts_iff (hint : IsInt32 f.getNumPacketTypes) (hpos : 0 < f.getNumPacketTypes)
    (hid : info.protocolId ≠ 0) (hpre : 0 ≤ info.prefixBytes)
    (hsmall : 8 * info.prefixBytes.toNat + 192 < 2147483648) (uninit : Uninit) {received : Memory}
    {n : Nat} (hn0 : 0 < n) (hn : 8 * n < 2147483648)
    (hslot : info.rawFormat = false → info.prefixBytes + 4 ≤ n)
    (hwords : 4 * ((n + 3) / 4) ≤ received.length) (o : σ) :
    ∃ packet r, readPacket f uninit info received n none o = .ok (packet, r) ∧
      ∀ p, packet = some p ↔ Encodes f info p (received.take n) := by
  obtain ⟨packet, r, hread⟩ :=
    readPacket_ends hint hpos hid hpre hsmall uninit hn0 hn hslot hwords o
  refine ⟨packet, r, hread, fun p => ⟨?_, fun h => ?_⟩⟩
  · rintro rfl
    exact Encodes.of_returned hint hid hpre hsmall hn hslot hwords hread
  · have hread' := readPacket_encoded hint hpos hid hpre uninit hn hwords h o
    exact (Prod.mk.inj (Except.ok.inj (hread.symm.trans hread'))).1

/-- Eight bytes that hold a packet with its checksum. -/
theorem readPacket_accepts_iff_sample :
    ∃ packet r, readPacket ⟨106⟩ ⟨3, 1, 4, 1⟩ { protocolId := 1, prefixBytes := 1 } samplePacket 8
        none () = .ok (packet, r) ∧
      ∀ p, packet = some p ↔
        Encodes ⟨106⟩ { protocolId := 1, prefixBytes := 1 } p (samplePacket.take 8) :=
  readPacket_accepts_iff (by decide) (by decide) (by decide) (by decide) (by decide) _ (by decide)
    (by decide) (by decide) (by decide) ()

end RudpNetwork
