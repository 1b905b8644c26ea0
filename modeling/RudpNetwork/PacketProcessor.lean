import RudpNetwork.Network

/-!
# RudpNetwork.PacketProcessor

`PacketProcessor`: `WritePacket` and `ReadPacket` with a one-byte prefix, over
buffers of the processor's own size, and the safety of the receive path.

Every stage of `ReadPacket` stops at the end of the data, so the call ends
whatever was received.  The exception is the checksum: its length is a
subtraction of its own, and `readPacket_readsInside` says for which datagrams it
stays inside.

## Main results

* `readPacket_completes`, `writePacket_completes` — calls on a buffer of whole words.
* `readPacket_readsInside` — the datagrams whose checksum is computed inside of them.
-/

namespace RudpNetwork

open MachineInt
open ReadStream (onStream orReturn Safe)

variable {σ : Type}

/-! ## `ReadPacket` on any datagram -/

/-- The prefix is taken byte by byte. -/
theorem safe_readPrefix (info : PacketInfo) :
    Safe (readPrefix info : ReadProc Memory σ Unit) (info.prefixBytes.toNat * 8) :=
  Safe.times (Safe.ignore (ReadStream.takes_serializeBits (by decide) (by decide)).safe) _

/-- The checksum of the received bytes is all that can go wrong here. -/
theorem safe_checkCrc32 {info : PacketInfo} {buffer : Memory} {bufferSize : Int} {crc : U32}
    (hcrc : expectedCrc32 info buffer bufferSize = .ok crc) :
    Safe (checkCrc32 info buffer bufferSize : ReadProc Memory (ReadResult σ) Unit) 32 := by
  have hread : Safe (readCrc32 : ReadProc Memory (ReadResult σ) U32) 32 :=
    Safe.bind (Safe.attempt (ReadStream.takes_serializeBits (by decide) (by decide)).safe)
      fun _ => Safe.pure _
  unfold checkCrc32
  split
  · exact (Safe.pure ()).mono (Nat.zero_le _)
  · have hcheck : ∀ read, Safe (orReturn ({ · with errorCode := .crc32Mismatch })
        (Proc.check (crc = read)) : ReadProc Memory (ReadResult σ) Unit) 0 := by
      intro read
      refine Safe.orReturn _ ?_
      unfold Proc.check
      split
      · exact Safe.pure ()
      · exact Safe.returnFalse
    refine Safe.bind (m := 0) hread fun read s r B N pos hs hsmall => ?_
    obtain ⟨o, s', r', pos', hrun, hat⟩ := hcheck read s r B N pos hs hsmall
    exact ⟨o, s', r', pos', (Proc.lift_bind_run hcrc).trans hrun, hat⟩

/-- The packet type takes a word at most. -/
theorem safe_readType {f : PacketFactory} (hint : IsInt32 f.getNumPacketTypes)
    (hpos : 0 < f.getNumPacketTypes) : Safe (readType f : ReadProc Memory (ReadResult σ) Int) 32 := by
  refine Safe.assert hpos ?_
  split
  · next hmany =>
    obtain ⟨hmax, hlast⟩ := lastType_eq hint hpos
    obtain ⟨hbits, -, hb31, -, -⟩ := typeBits_bounds hint hmany
    have htakes := @ReadStream.takes_serializeInteger Memory _ (ReadResult σ) 0
      (f.getNumPacketTypes - 1) (by decide) hlast (by omega)
    rw [hbits, Int.toNat_natCast] at htakes
    rw [hmax]
    exact Safe.orReturn _ (htakes.safe.mono (by omega))
  · exact (Safe.pure 0).mono (Nat.zero_le _)

/-- Making a packet takes no bits. -/
theorem safe_makePacket (uninit : Uninit) {packetType : Int} (h : 0 ≤ packetType) :
    Safe (makePacket uninit packetType : ReadProc Memory (ReadResult σ) FactoryPacket) 0 := by
  obtain ⟨packet, hpacket⟩ := PacketFactory.createPacket_ok uninit h
  have hlift : Safe (Proc.lift (PacketFactory.createPacket uninit packetType) :
      ReadProc Memory (ReadResult σ) (Option FactoryPacket)) 0 := Safe.lift hpacket
  refine Safe.bind (m := 0) hlift fun packet => ?_
  cases packet with
  | none => exact Safe.bind (m := 0) (Safe.assign _) fun _ => Safe.returnFalse
  | some packet => exact Safe.bind (m := 0) (Safe.assign _) fun _ => Safe.pure _

/-- All stages of `ReadPacket` end, whatever stands in the buffer. -/
theorem safe_readStages {f : PacketFactory} (hint : IsInt32 f.getNumPacketTypes)
    (hpos : 0 < f.getNumPacketTypes) (uninit : Uninit) {info : PacketInfo} {buffer : Memory}
    {bufferSize : Int} {crc : U32} (hcrc : expectedCrc32 info buffer bufferSize = .ok crc)
    {header : Option (ObjectClass σ)} {k : Nat} (hh : Safe (readHeader header) k) :
    Safe (readStages f uninit info buffer bufferSize header)
      (info.prefixBytes.toNat * 8 + (32 + (k + (32 + (0 + 128))))) := by
  refine Safe.bind (safe_readPrefix info) fun _ => Safe.bind (safe_checkCrc32 hcrc) fun _ =>
    Safe.bind hh fun _ => Safe.bind_of (P := fun packetType => 0 ≤ packetType)
      (safe_readType hint hpos) ?_ fun packetType htype =>
        Safe.bind (safe_makePacket uninit htype) fun packet =>
          Safe.orReturn _ packet.safe_serializeRead
  intro s r B N pos packetType s' _ _ hrun
  exact (readType_bounds hint hrun).1

/-- The last check takes no bits. -/
theorem safe_checkError : Safe (checkError : ReadProc Memory (ReadResult σ) Unit) 0 := by
  intro s r B N pos hs _
  by_cases herror : s.error = .none
  · exact ⟨some (), s, r, pos, by rw [checkError, if_pos herror], hs, by omega⟩
  · exact ⟨none, s, _, pos, by rw [checkError, if_neg herror], hs, by omega⟩

/-- So do the stages with the last check. -/
theorem safe_checkedStages {f : PacketFactory} (hint : IsInt32 f.getNumPacketTypes)
    (hpos : 0 < f.getNumPacketTypes) (uninit : Uninit) {info : PacketInfo} {buffer : Memory}
    {bufferSize : Int} {crc : U32} (hcrc : expectedCrc32 info buffer bufferSize = .ok crc)
    {header : Option (ObjectClass σ)} {k : Nat} (hh : Safe (readHeader header) k) :
    Safe (checkedStages f uninit info buffer bufferSize header)
      (info.prefixBytes.toNat * 8 + (k + 192)) := by
  have hall := Safe.bind (safe_readStages hint hpos uninit hcrc hh) fun packet =>
    Safe.bind safe_checkError fun _ => Safe.pure packet
  exact hall.mono (by omega)

/-- `ReadPacket` ends with a packet or with `NULL` when its checksum is computed
inside the buffer. -/
theorem readPacket_completes {f : PacketFactory} (hint : IsInt32 f.getNumPacketTypes)
    (hpos : 0 < f.getNumPacketTypes) (uninit : Uninit) {info : PacketInfo} (hid : info.protocolId ≠ 0)
    {buffer : Memory} {n : Nat} (hn : 0 < n) (hn' : n < 2147483648)
    (hwords : 4 * ((n + 3) / 4) ≤ buffer.length) {crc : U32}
    (hcrc : expectedCrc32 info buffer n = .ok crc) {header : Option (ObjectClass σ)} {k : Nat}
    (hh : Safe (readHeader header) k)
    (hsmall : info.prefixBytes.toNat * 8 + (k + 192) < 2147483648) (o : σ) :
    ∃ packet r, readPacket f uninit info buffer n header o = .ok (packet, r) := by
  have hlen : (Platform.bits buffer).length = 8 * buffer.length := Bits.length_ofList buffer
  have hat := @ReadStream.init_at Memory _ buffer n (by omega) (by omega) (by omega)
  obtain ⟨packet, s, r, -, hrun, -⟩ := safe_checkedStages hint hpos uninit hcrc hh
    { ReadStream.init buffer n with context := info.context } { header := o } _ _ 0
    ⟨hat.reader, hat.bitsRead⟩ (by omega)
  exact ⟨packet, r, readPacket_eq_ok.mpr ⟨by omega, hid, s, hrun⟩⟩

/-! ## the processor -/

/-- `enum PacketProcessErrors`. -/
inductive PacketProcessorError
  | none
  | keyIsNull
  | packetTooSmall
  | writePacketFailed
  | readPacketFailed
  | encryptFailed
  | decryptFailed
  deriving DecidableEq, Repr

/-- `class PacketProcessor`. -/
structure PacketProcessor where
  protocolId : U32
  error : PacketProcessorError
  maxPacketSize : Int
  absoluteMaxPacketSize : Int
  packetBuffer : Memory
  context : Context

namespace PacketProcessor

/-- `MaxPrefixBytes`. -/
def maxPrefixBytes : Int := 9

/-- `new uint8_t[n]`. -/
def newArray (memory : Nat → U8) (n : Int) : Except Fault Memory :=
  if 0 ≤ n then .ok (uninitArray memory n.toNat) else .error .badArrayLength

/-- The smallest multiple of 4 from `maxPacketSize` up. -/
def roundUp (maxPacketSize : Int) : Int :=
  int32 (maxPacketSize + if maxPacketSize.tmod 4 ≠ 0 then 4 - maxPacketSize.tmod 4 else 0)

/-- `PacketProcessor( protocolId, maxPacketSize, context )`. -/
def new (memory : Nat → U8) (protocolId : U32) (maxPacketSize : Int) (context : Context) :
    Except Fault PacketProcessor := do
  assert ((roundUp maxPacketSize).tmod 4 = 0)
  assert (maxPacketSize ≤ roundUp maxPacketSize)
  let absoluteMaxPacketSize := int32 (maxPacketSize + maxPrefixBytes)
  let packetBuffer ← newArray memory absoluteMaxPacketSize
  return { protocolId, error := .none, maxPacketSize := roundUp maxPacketSize,
           absoluteMaxPacketSize, packetBuffer, context }

/-- What `WritePacket` and `ReadPacket` are called with. -/
def packetInfo (P : PacketProcessor) : PacketInfo :=
  { context := P.context, protocolId := P.protocolId, prefixBytes := 1 }

/-- `WritePacket`: the buffer, `none` for `NULL`, and `packetBytes`. -/
def writePacket (f : PacketFactory) (P : PacketProcessor) (packet : Packet) (_sequence : U64) :
    Except Fault (Option Memory × Int × PacketProcessor) := do
  let P := { P with error := .none }
  let (packetBytes, packetBuffer) ←
    RudpNetwork.writePacket f P.packetInfo packet P.packetBuffer P.maxPacketSize none
  let P := { P with packetBuffer }
  if packetBytes ≤ 0 then
    return (none, packetBytes, { P with error := .writePacketFailed })
  else do
    assert (packetBytes ≤ P.maxPacketSize)
    return (some packetBuffer, packetBytes, P)

/-- `ReadPacket`: the packet, `none` for `NULL`, and `sequence`. -/
def readPacket (f : PacketFactory) (uninit : Uninit) (P : PacketProcessor) (packetData : Memory)
    (packetBytes : Int) : Except Fault (Option FactoryPacket × U64 × PacketProcessor) := do
  let P := { P with error := .none }
  let (packet, _) ← RudpNetwork.readPacket f uninit P.packetInfo packetData packetBytes
    (none : Option (ObjectClass Unit)) ()
  match packet with
  | none => return (none, 0, { P with error := .readPacketFailed })
  | some packet => return (some packet, 0, P)

/-- What a completed `WritePacket` did. -/
theorem writePacket_inv {f : PacketFactory} {P P' : PacketProcessor} {packet : Packet}
    {sequence : U64} {data : Option Memory} {n : Int}
    (h : P.writePacket f packet sequence = .ok (data, n, P')) :
    ∃ buffer, RudpNetwork.writePacket f P.packetInfo packet P.packetBuffer P.maxPacketSize none =
        .ok (n, buffer) ∧
      (n ≤ 0 ∧ data = none ∧
          P' = { P with error := .writePacketFailed, packetBuffer := buffer } ∨
        0 < n ∧ n ≤ P.maxPacketSize ∧ data = some buffer ∧
          P' = { P with error := .none, packetBuffer := buffer }) := by
  obtain ⟨⟨packetBytes, buffer⟩, hwrite, h⟩ := Except.bind_eq_ok_iff.mp h
  simp only at h
  split at h
  · next hfailed =>
      simp only [Except.pure_eq_ok_iff, Prod.mk.injEq] at h
      obtain ⟨rfl, rfl, rfl⟩ := h
      exact ⟨buffer, hwrite, .inl ⟨hfailed, rfl, rfl⟩⟩
  · next hwritten =>
      simp only [Except.bind_eq_ok_iff, require_eq_ok, Except.pure_eq_ok_iff, Prod.mk.injEq] at h
      obtain ⟨-, hmax, rfl, rfl, rfl⟩ := h
      exact ⟨buffer, hwrite, .inr ⟨by omega, hmax, rfl, rfl⟩⟩

/-- A packet that was written, and is not too large. -/
theorem writePacket_completes {f : PacketFactory} {P : PacketProcessor} {packet : Packet} {n : Int}
    {buffer : Memory} (h : RudpNetwork.writePacket f P.packetInfo packet P.packetBuffer
      P.maxPacketSize none = .ok (n, buffer)) (hpos : 0 < n) (hmax : n ≤ P.maxPacketSize)
    (sequence : U64) : P.writePacket f packet sequence =
      .ok (some buffer, n, { P with error := .none, packetBuffer := buffer }) := by
  refine Except.bind_eq_ok_iff.mpr ⟨_, h, ?_⟩
  simp only [if_neg (Int.not_le.mpr hpos)]
  exact Except.bind_eq_ok_iff.mpr ⟨(), require_eq_ok.mpr hmax, rfl⟩

/-- What a completed `ReadPacket` did. -/
theorem readPacket_inv {f : PacketFactory} {uninit : Uninit} {P P' : PacketProcessor}
    {packetData : Memory} {n : Int} {packet : Option FactoryPacket} {sequence : U64}
    (h : P.readPacket f uninit packetData n = .ok (packet, sequence, P')) :
    (∃ r, RudpNetwork.readPacket f uninit P.packetInfo packetData n
        (none : Option (ObjectClass Unit)) () = .ok (packet, r)) ∧
      P' = { P with error := if packet.isSome then .none else .readPacketFailed } := by
  obtain ⟨⟨result, r⟩, hread, h⟩ := Except.bind_eq_ok_iff.mp h
  cases result with
  | none =>
      simp only [Except.pure_eq_ok_iff, Prod.mk.injEq] at h
      obtain ⟨rfl, -, rfl⟩ := h
      exact ⟨⟨r, hread⟩, rfl⟩
  | some result =>
      simp only [Except.pure_eq_ok_iff, Prod.mk.injEq] at h
      obtain ⟨rfl, -, rfl⟩ := h
      exact ⟨⟨r, hread⟩, rfl⟩

/-! ## the receive path -/

/-- What `ReadPacket` decided about `n` bytes. -/
theorem readPacket_completes {f : PacketFactory} (hint : IsInt32 f.getNumPacketTypes)
    (hpos : 0 < f.getNumPacketTypes) (uninit : Uninit) {P : PacketProcessor}
    (hid : P.protocolId ≠ 0) {packetData : Memory} {n : Nat} (hn : 5 ≤ n) (hn' : n < 2147483648)
    (hwords : 4 * ((n + 3) / 4) ≤ packetData.length) :
    ∃ packet, P.readPacket f uninit packetData n = .ok (packet, 0, { P with error :=
      if packet.isSome then .none else .readPacketFailed }) := by
  have hpre : P.packetInfo.prefixBytes = 1 := rfl
  have hcrc := @expectedCrc32_eq P.packetInfo packetData n (by omega) (by omega) (by omega) hn'
  obtain ⟨packet, r, hrun⟩ := @RudpNetwork.readPacket_completes Unit f hint hpos uninit P.packetInfo
    hid packetData n (by omega) hn' hwords _ hcrc none 0 (Safe.pure ()) (by omega) ()
  refine ⟨packet, ?_⟩
  rw [readPacket]
  refine Except.bind_eq_ok_iff.mpr ⟨_, hrun, ?_⟩
  cases packet <;> rfl

/-- `ReadPacket` computes the checksum inside the `n` received bytes, and ends with
a packet or with `NULL`. -/
def ReadsInside (f : PacketFactory) (uninit : Uninit) (P : PacketProcessor) (packetData : Memory)
    (n : Nat) : Prop :=
  1 + 4 + crc32Length P.packetInfo n ≤ n ∧ ∃ r, P.readPacket f uninit packetData n = .ok r

/-- Shorter datagrams than a prefix and a checksum make the length of the rest
wrap around. -/
theorem crc32Length_wraps {info : PacketInfo} {n : Nat} (hpre : info.prefixBytes = 1)
    (hn : n < 5) : n < crc32Length info n := by
  rw [crc32Length, hpre, int32_eq ⟨by omega, by omega⟩]
  unfold sizeT
  omega

/-- The receive path stays inside a datagram exactly when the datagram is long
enough for the prefix and the checksum. -/
theorem readPacket_readsInside {f : PacketFactory} (hint : IsInt32 f.getNumPacketTypes)
    (hpos : 0 < f.getNumPacketTypes) (uninit : Uninit) {P : PacketProcessor}
    (hid : P.protocolId ≠ 0) {packetData : Memory} {n : Nat} (hn' : n < 2147483648)
    (hwords : 4 * ((n + 3) / 4) ≤ packetData.length) :
    ReadsInside f uninit P packetData n ↔ 5 ≤ n := by
  constructor
  · rintro ⟨hinside, -⟩
    by_contra hlt
    omega
  · intro hn
    obtain ⟨packet, hrun⟩ := readPacket_completes hint hpos uninit hid hn hn' hwords
    refine ⟨?_, _, hrun⟩
    have hpre : P.packetInfo.prefixBytes = 1 := rfl
    rw [crc32Length_eq (by omega) (by omega) hn', hpre]
    change 1 + 4 + (n - (1 + 4)) ≤ n
    omega

/-- A processor of the default size. -/
def sampleProcessor : PacketProcessor where
  protocolId := 1
  error := .none
  maxPacketSize := 4096
  absoluteMaxPacketSize := 4105
  packetBuffer := List.replicate 4105 0
  context := 0

/-- Five bytes are read without looking beyond them. -/
theorem readPacket_readsInside_five :
    ReadsInside ⟨106⟩ ⟨0, 0, 0, 0⟩ sampleProcessor (List.replicate 8 0) 5 :=
  (readPacket_readsInside (by decide) (by decide) ⟨0, 0, 0, 0⟩ (by decide) (by decide)
    (by decide)).mpr (by decide)

/-- Behind one byte the length of the rest has wrapped around. -/
theorem not_readsInside_one :
    ¬ReadsInside ⟨106⟩ ⟨0, 0, 0, 0⟩ sampleProcessor (List.replicate 4096 0) 1 := by
  rintro ⟨hinside, -⟩
  exact absurd hinside (by decide)

end PacketProcessor

end RudpNetwork
