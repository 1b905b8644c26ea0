import RudpNetwork.Crc32
import RudpNetwork.Packet

/-!
# RudpNetwork.Network

`WritePacket` and `ReadPacket` of `Network.cpp`.

A packet is a prefix that the caller owns, a checksum (unless the format is
raw), an optional header object, the packet type and the body.  The writer
leaves the checksum zero until the buffer is flushed and then patches it in; the
reader computes the same checksum from the protocol id, a zero word and the
bytes behind the slot.

`Sealed` is what the two agree on.

## Main results

* `writePacket_ok` — which packets are written, and the bits and the checksum in the buffer.
* `readPacket_ok` — a sealed buffer with the encoding of a packet is read as that packet.
* `readPacket_writePacket` — the round trip of every packet class, with or without a
  header, a prefix and a checksum.
-/

namespace RudpNetwork

open MachineInt
open ReadStream (onStream assign orReturn)

/-- The bytes of a word in memory, on a little-endian host. -/
def bytesOf (x : U32) : List U8 := Bits.pack (Bits.ofVec x)

/-! ## `WritePacket` -/

/-- The prefix. -/
def writePrefix (info : PacketInfo) : Proc Fault (WriteStream Memory) Unit :=
  Proc.times info.prefixBytes.toNat (Proc.ignore (WriteStream.serializeBits 0 8))

/-- The slot of the checksum. -/
def writeCrc32 (info : PacketInfo) : Proc Fault (WriteStream Memory) Unit :=
  if info.rawFormat then pure () else Proc.ignore (WriteStream.serializeBits 0 32)

/-- The header, unless it is `NULL`. -/
def writeHeader : Option Writable → Proc Fault (WriteStream Memory) Unit
  | none => pure ()
  | some header => header.serializeWrite

/-- The packet type, when there is more than one. -/
def writeType (f : PacketFactory) (packetType : Int) : Proc Fault (WriteStream Memory) Unit := do
  assert (0 < f.getNumPacketTypes)
  if 1 < f.getNumPacketTypes then
    Proc.ignore (WriteStream.serializeInteger packetType 0 (int32 (f.getNumPacketTypes - 1)))
  else
    pure ()

/-- `WritePacket` up to the flush. -/
def writeStages (f : PacketFactory) (info : PacketInfo) (packet : Packet)
    (header : Option Writable) : Proc Fault (WriteStream Memory) Unit := do
  writePrefix info
  writeCrc32 info
  writeHeader header
  writeType f packet.getType
  packet.serializeWrite

/-- The checksum of the finished buffer goes into its slot. -/
def storeCrc32 (info : PacketInfo) (buffer : Memory) (bytesProcessed : Int) :
    Except Fault Memory := do
  let networkProtocolId := hostToNetwork info.protocolId
  let crc32 ← calculateCrc32 (bytesOf networkProtocolId) 0 4 0
  let length := sizeT (int32 (bytesProcessed - info.prefixBytes))
  let crc32 ← calculateCrc32 buffer info.prefixBytes length crc32
  writeArray buffer info.prefixBytes (bytesOf (hostToNetwork crc32))

/-- `WritePacket` from the flush on: the number of bytes, and the buffer. -/
def finishPacket (info : PacketInfo) (stream : WriteStream Memory) :
    Except Fault (Int × Memory) := do
  let (_, stream) ← WriteStream.flush stream
  let bytes := if stream.error = .none then stream.getBytesProcessed else 0
  if info.rawFormat then
    return (bytes, stream.getData)
  else
    let buffer ← storeCrc32 info stream.getData stream.getBytesProcessed
    return (bytes, buffer)

/-- `WritePacket`: the number of bytes, `0` for a failure, and the buffer. -/
def writePacket (f : PacketFactory) (info : PacketInfo) (packet : Packet) (buffer : Memory)
    (bufferSize : Int) (header : Option Writable) : Except Fault (Int × Memory) := do
  assert (0 < bufferSize)
  assert (info.protocolId ≠ 0)
  let stream ← WriteStream.init buffer bufferSize
  let (result, stream) ← writeStages f info packet header { stream with context := info.context }
  match result with
  | none => return (0, stream.getData)
  | some () => finishPacket info stream

/-! ## `ReadPacket` -/

/-- What `ReadPacket` leaves behind besides the packet: the header object, the
error code, and how many packets it created and destroyed. -/
structure ReadResult (σ : Type) where
  header : σ
  errorCode : ProtocolError := .none
  created : Nat := 0
  destroyed : Nat := 0
  deriving DecidableEq

variable {σ : Type}

/-- The prefix, which is skipped. -/
def readPrefix {τ : Type} (info : PacketInfo) : ReadProc Memory τ Unit :=
  Proc.times info.prefixBytes.toNat (Proc.ignore (onStream (ReadStream.serializeBits 8)))

/-- `read_crc32`: zero if the stream ends before it. -/
def readCrc32 {τ : Type} : ReadProc Memory τ U32 := do
  let result ← Proc.attempt (onStream (ReadStream.serializeBits 32))
  return result.getD 0

/-- The length that `ReadPacket` passes to `calculate_crc32` for what follows the
slot. -/
def crc32Length (info : PacketInfo) (bufferSize : Int) : Nat :=
  sizeT (int32 (bufferSize - 4 - info.prefixBytes))

/-- The checksum of what was received, over the protocol id, a zero word and the
rest of the buffer. -/
def expectedCrc32 (info : PacketInfo) (buffer : Memory) (bufferSize : Int) : Except Fault U32 := do
  let networkProtocolId := hostToNetwork info.protocolId
  let crc32 ← calculateCrc32 (bytesOf networkProtocolId) 0 4 0
  let crc32 ← calculateCrc32 (bytesOf 0) 0 4 crc32
  calculateCrc32 buffer (info.prefixBytes + 4) (crc32Length info bufferSize) crc32

/-- The checksum, unless the format is raw. -/
def checkCrc32 (info : PacketInfo) (buffer : Memory) (bufferSize : Int) :
    ReadProc Memory (ReadResult σ) Unit :=
  if info.rawFormat then
    pure ()
  else do
    let readCrc32 ← readCrc32
    let crc32 ← expectedCrc32 info buffer bufferSize
    orReturn ({ · with errorCode := .crc32Mismatch }) (Proc.check (crc32 = readCrc32))

/-- `SerializeRead` of the header object. -/
def onHeader (x : ReadProc Memory σ Unit) : ReadProc Memory (ReadResult σ) Unit :=
  fun (s, r) => (x (s, r.header)).map fun (a, s', header) => (a, s', { r with header })

/-- The header, unless it is `NULL`. -/
def readHeader : Option (ObjectClass σ) → ReadProc Memory (ReadResult σ) Unit
  | none => pure ()
  | some C => orReturn ({ · with errorCode := .serializeHeaderFailed }) (onHeader C.serialize.read)

/-- The packet type, when there is more than one. -/
def readType (f : PacketFactory) : ReadProc Memory (ReadResult σ) Int := do
  assert (0 < f.getNumPacketTypes)
  if 1 < f.getNumPacketTypes then
    orReturn ({ · with errorCode := .invalidPacketType })
      (onStream (ReadStream.serializeInteger 0 (int32 (f.getNumPacketTypes - 1))))
  else
    return 0

/-- `CreatePacket`. -/
def makePacket (uninit : Uninit) (packetType : Int) :
    ReadProc Memory (ReadResult σ) FactoryPacket := do
  let packet ← PacketFactory.createPacket uninit packetType
  match packet with
  | none => do
      assign ({ · with errorCode := .createPacketFailed })
      Proc.returnFalse
  | some packet => do
      assign fun r => { r with created := r.created + 1 }
      return packet

/-- The body. A packet that cannot be read is destroyed. -/
def readBody (packet : FactoryPacket) : ReadProc Memory (ReadResult σ) FactoryPacket :=
  orReturn (fun r => { r with errorCode := .serializePacketFailed, destroyed := r.destroyed + 1 })
    (onStream packet.serializeRead)

/-- `stream.GetError()` at the end. -/
def checkError : ReadProc Memory (ReadResult σ) Unit := fun (s, r) =>
  if s.error = .none then .ok (some (), s, r)
  else .ok (none, s, { r with errorCode := s.error, destroyed := r.destroyed + 1 })

/-- `ReadPacket` up to the packet that was read. -/
def readStages (f : PacketFactory) (uninit : Uninit) (info : PacketInfo) (buffer : Memory)
    (bufferSize : Int) (header : Option (ObjectClass σ)) :
    ReadProc Memory (ReadResult σ) FactoryPacket := do
  readPrefix info
  checkCrc32 info buffer bufferSize
  readHeader header
  let packetType ← readType f
  let packet ← makePacket uninit packetType
  readBody packet

/-- `ReadPacket` on its stream. -/
def checkedStages (f : PacketFactory) (uninit : Uninit) (info : PacketInfo) (buffer : Memory)
    (bufferSize : Int) (header : Option (ObjectClass σ)) :
    ReadProc Memory (ReadResult σ) FactoryPacket := do
  let packet ← readStages f uninit info buffer bufferSize header
  checkError
  return packet

/-- `ReadPacket`: the packet, or `none` for `NULL`. -/
def readPacket (f : PacketFactory) (uninit : Uninit) (info : PacketInfo) (buffer : Memory)
    (bufferSize : Int) (header : Option (ObjectClass σ)) (o : σ) :
    Except Fault (Option FactoryPacket × ReadResult σ) := do
  assert (0 < bufferSize)
  assert (info.protocolId ≠ 0)
  let stream := { ReadStream.init buffer bufferSize with context := info.context }
  let (packet, _, result) ← checkedStages f uninit info buffer bufferSize header
    (stream, { header := o })
  return (packet, result)

/-! ## checksums -/

/-- A word has four bytes. -/
@[simp] theorem length_bytesOf (x : U32) : (bytesOf x).length = 4 := by
  simp [bytesOf]

/-- The bytes of a word hold its bits. -/
theorem ofList_bytesOf (x : U32) : Bits.ofList (bytesOf x) = Bits.ofVec x :=
  Bits.ofList_pack_of_dvd (by simp)

/-- Words with the same bytes are equal. -/
theorem bytesOf_inj {x y : U32} (h : bytesOf x = bytesOf y) : x = y := by
  apply Bits.ofVec_inj
  rw [← ofList_bytesOf, h, ofList_bytesOf]

/-- The checksum of a packet with the protocol id `protocolId` and the bytes
`rest` behind the slot. -/
def packetCrc32 (protocolId : U32) (rest : List U8) : U32 :=
  crc32 rest (crc32 (bytesOf 0) (crc32 (bytesOf protocolId) 0))

/-- The checksum of the bytes of a word. -/
theorem calculateCrc32_bytesOf (x seed : U32) :
    calculateCrc32 (bytesOf x) 0 4 seed = .ok (crc32 (bytesOf x) seed) := by
  have hall : Bits.slice (bytesOf x) 0 4 = bytesOf x := by
    rw [← Bits.take_eq_slice, List.take_of_length_le (by simp)]
  refine calculateCrc32_eq_ok.mpr ⟨.inr ⟨le_refl 0, by simp⟩, ?_⟩
  rw [Int.toNat_zero, hall]

/-- The bytes behind the slot of a packet of `n` bytes. -/
def behindSlot (info : PacketInfo) (buffer : Memory) (n : Nat) : List U8 :=
  Bits.slice buffer (info.prefixBytes.toNat + 4) (n - (info.prefixBytes.toNat + 4))

/-- The checksum is taken of everything behind its slot. -/
theorem crc32Length_eq {info : PacketInfo} {n : Nat} (h0 : 0 ≤ info.prefixBytes)
    (h : info.prefixBytes + 4 ≤ n) (hint : n < 2147483648) :
    crc32Length info n = n - (info.prefixBytes.toNat + 4) := by
  rw [crc32Length, int32_eq ⟨by omega, by omega⟩]
  have hsize := @sizeT_eq ((n : Int) - 4 - info.prefixBytes) (by omega) (by omega)
  omega

/-- A receiver expects the checksum of what lies behind the slot. -/
theorem expectedCrc32_eq {info : PacketInfo} {buffer : Memory} {n : Nat}
    (h0 : 0 ≤ info.prefixBytes) (h : info.prefixBytes + 4 ≤ n) (hlen : n ≤ buffer.length)
    (hint : n < 2147483648) :
    expectedCrc32 info buffer n = .ok (packetCrc32 info.protocolId (behindSlot info buffer n)) := by
  have hlength := crc32Length_eq h0 h hint
  simp only [expectedCrc32, hostToNetwork, calculateCrc32_bytesOf, hlength]
  refine calculateCrc32_eq_ok.mpr ⟨.inr ⟨by omega, by omega⟩, ?_⟩
  rw [show (info.prefixBytes + 4).toNat = info.prefixBytes.toNat + 4 by omega]
  rfl

/-- A buffer of `n` bytes whose slot holds the checksum of the rest. -/
structure Sealed (info : PacketInfo) (buffer : Memory) (n : Nat) : Prop where
  prefix_nonneg : 0 ≤ info.prefixBytes
  slot_le : info.prefixBytes + 4 ≤ n
  length : n ≤ buffer.length
  slot : Bits.slice buffer info.prefixBytes.toNat 4 =
    bytesOf (packetCrc32 info.protocolId (behindSlot info buffer n))

/-- The writer patches the checksum into a slot that it left zero. -/
theorem storeCrc32_ok {info : PacketInfo} {buffer : Memory} {n : Nat} (h0 : 0 ≤ info.prefixBytes)
    (h : info.prefixBytes + 4 ≤ n) (hlen : n ≤ buffer.length) (hint : n < 2147483648)
    (hslot : Bits.slice buffer info.prefixBytes.toNat 4 = bytesOf 0) :
    storeCrc32 info buffer n = .ok (Bits.splice buffer info.prefixBytes.toNat
      (bytesOf (packetCrc32 info.protocolId (behindSlot info buffer n)))) := by
  obtain ⟨k, hk⟩ : ∃ k, k = info.prefixBytes.toNat := ⟨_, rfl⟩
  have hsize := @sizeT_eq ((n : Int) - info.prefixBytes) (by omega) (by omega)
  have hlength : sizeT (int32 ((n : Int) - info.prefixBytes)) = 4 + (n - (k + 4)) := by
    rw [int32_eq ⟨by omega, by omega⟩]
    omega
  have hcrc : ∀ seed, calculateCrc32 buffer info.prefixBytes (4 + (n - (k + 4))) seed =
      .ok (crc32 (behindSlot info buffer n) (crc32 (bytesOf 0) seed)) := by
    intro seed
    refine calculateCrc32_eq_ok.mpr ⟨.inr ⟨h0, by omega⟩, ?_⟩
    rw [Bits.slice_add, hslot, crc32_append, behindSlot, hk]
  simp only [storeCrc32, hostToNetwork, calculateCrc32_bytesOf, hlength]
  refine Except.bind_eq_ok_iff.mpr ⟨_, rfl, Except.bind_eq_ok_iff.mpr ⟨_, hcrc _, ?_⟩⟩
  exact writeArray_eq_ok h0 (by rw [length_bytesOf]; push_cast; omega)

/-- The slot lies in the buffer. -/
theorem storeCrc32_nonneg {info : PacketInfo} {buffer written : Memory} {n : Int}
    (h : storeCrc32 info buffer n = .ok written) : 0 ≤ info.prefixBytes := by
  simp only [storeCrc32, Except.bind_eq_ok_iff] at h
  obtain ⟨-, -, crc, -, hwrite⟩ := h
  by_contra hneg
  have hne : bytesOf (hostToNetwork crc) ≠ [] := by
    intro hnil
    have hlen := congrArg List.length hnil
    simp at hlen
  rw [writeArray, if_neg hne, if_neg (by omega)] at hwrite
  contradiction

/-- Patching the slot changes nothing behind it. -/
theorem behindSlot_splice {info : PacketInfo} {buffer : Memory} {n : Nat}
    (h0 : 0 ≤ info.prefixBytes) (h : info.prefixBytes + 4 ≤ n) (hlen : n ≤ buffer.length)
    (crc : U32) :
    behindSlot info (Bits.splice buffer info.prefixBytes.toNat (bytesOf crc)) n =
      behindSlot info buffer n :=
  Bits.slice_splice_right (by rw [length_bytesOf]; omega) (by rw [length_bytesOf]) _

/-- The patched buffer is sealed. -/
theorem sealed_splice {info : PacketInfo} {buffer : Memory} {n : Nat} (h0 : 0 ≤ info.prefixBytes)
    (h : info.prefixBytes + 4 ≤ n) (hlen : n ≤ buffer.length) :
    Sealed info (Bits.splice buffer info.prefixBytes.toNat
      (bytesOf (packetCrc32 info.protocolId (behindSlot info buffer n)))) n := by
  obtain ⟨crc, hcrc⟩ : ∃ crc, crc = packetCrc32 info.protocolId (behindSlot info buffer n) :=
    ⟨_, rfl⟩
  have hfit : info.prefixBytes.toNat + (bytesOf crc).length ≤ buffer.length := by
    rw [length_bytesOf]
    omega
  have hself := Bits.slice_splice_self hfit
  rw [length_bytesOf] at hself
  rw [← hcrc]
  refine ⟨h0, h, ?_, ?_⟩
  · rwa [Bits.length_splice hfit]
  · rw [hself, behindSlot_splice h0 h hlen, hcrc]

/-! ## a packet on the wire -/

section Wire

open WriteStream (Writes Appends)
open ReadStream (Reads)

/-- The slot: in the raw format there is none. -/
def slotBits (info : PacketInfo) (crc32 : U32) : List Bool :=
  if info.rawFormat then [] else Bits.ofVec crc32

/-- The packet type. -/
def typeEnc (f : PacketFactory) (packetType : Int) : Enc :=
  if 1 < f.getNumPacketTypes then Wire.int packetType 0 (f.getNumPacketTypes - 1) else .empty

/-- A packet with an untouched prefix. -/
def packetEnc (f : PacketFactory) (info : PacketInfo) (crc32 : U32) (header : Enc)
    (packetType : Int) (body : Enc) : Enc :=
  .const (List.replicate (8 * info.prefixBytes.toNat) false) ++
    (.const (slotBits info crc32) ++ (header ++ (typeEnc f packetType ++ body)))

/-- The factory is set up for the packet type. -/
structure KnownType (f : PacketFactory) (packetType : Int) : Prop where
  isInt32 : IsInt32 f.getNumPacketTypes
  nonneg : 0 ≤ packetType
  lt : packetType < f.getNumPacketTypes

/-- The width of the packet type. -/
def typeBits (f : PacketFactory) : Nat :=
  if 1 < f.getNumPacketTypes then
    (bitsRequired (toU32 0) (toU32 (f.getNumPacketTypes - 1))).toNat
  else 0

/-- `WritePacket` checks the packet type only where it writes it. -/
structure WritableType (f : PacketFactory) (packetType : Int) : Prop where
  isInt32 : IsInt32 f.getNumPacketTypes
  pos : 0 < f.getNumPacketTypes
  inRange : 1 < f.getNumPacketTypes → 0 ≤ packetType ∧ packetType < f.getNumPacketTypes

/-- `ReadPacket` takes any packet type that fits the field. -/
structure ReadableType (f : PacketFactory) (packetType : Int) : Prop where
  isInt32 : IsInt32 f.getNumPacketTypes
  pos : 0 < f.getNumPacketTypes
  nonneg : 0 ≤ packetType
  lt : packetType < 2 ^ typeBits f

/-- The largest packet type. -/
theorem lastType_eq {f : PacketFactory} (hint : IsInt32 f.getNumPacketTypes)
    (hpos : 0 < f.getNumPacketTypes) :
    int32 (f.getNumPacketTypes - 1) = f.getNumPacketTypes - 1 ∧
      IsInt32 (f.getNumPacketTypes - 1) := by
  obtain ⟨-, hint2⟩ := hint
  have hlast : IsInt32 (f.getNumPacketTypes - 1) := ⟨by omega, by omega⟩
  exact ⟨int32_eq hlast, hlast⟩

/-- With more than one type the packet type takes 1 to 31 bits. -/
theorem typeBits_bounds {f : PacketFactory} (hint : IsInt32 f.getNumPacketTypes)
    (hmany : 1 < f.getNumPacketTypes) :
    bitsRequired (toU32 0) (toU32 (f.getNumPacketTypes - 1)) = typeBits f ∧
      1 ≤ typeBits f ∧ typeBits f ≤ 31 ∧ f.getNumPacketTypes ≤ 2 ^ typeBits f ∧
      2 ^ (typeBits f - 1) < f.getNumPacketTypes := by
  obtain ⟨hint1, hint2⟩ := hint
  obtain ⟨b, hb, hb1, hb32, hrange, hlow⟩ :=
    @bitsRequired_bounds 0 (f.getNumPacketTypes - 1) (by decide) ⟨by omega, by omega⟩ (by omega)
  have hbits : typeBits f = b := by rw [typeBits, if_pos hmany, hb, Int.toNat_natCast]
  have hb31 : b ≤ 31 := by
    by_contra hgt
    obtain rfl : b = 32 := by omega
    norm_num at hlow
    omega
  rw [hbits]
  exact ⟨hb, hb1, hb31, by omega, by omega⟩

/-- The packet type never takes more than 31 bits. -/
theorem typeBits_le {f : PacketFactory} (hint : IsInt32 f.getNumPacketTypes) : typeBits f ≤ 31 := by
  by_cases hmany : 1 < f.getNumPacketTypes
  · exact (typeBits_bounds hint hmany).2.2.1
  · rw [typeBits, if_neg hmany]
    omega

/-- A known type can be written. -/
theorem KnownType.writable {f : PacketFactory} {packetType : Int} (h : KnownType f packetType) :
    WritableType f packetType where
  isInt32 := h.isInt32
  pos := lt_of_le_of_lt h.nonneg h.lt
  inRange _ := ⟨h.nonneg, h.lt⟩

/-- A known type can be read. -/
theorem KnownType.readable {f : PacketFactory} {packetType : Int} (h : KnownType f packetType) :
    ReadableType f packetType where
  isInt32 := h.isInt32
  pos := lt_of_le_of_lt h.nonneg h.lt
  nonneg := h.nonneg
  lt := by
    have hlt := h.lt
    by_cases hmany : 1 < f.getNumPacketTypes
    · obtain ⟨-, -, -, hle, -⟩ := typeBits_bounds h.isInt32 hmany
      exact lt_of_lt_of_le hlt hle
    · rw [typeBits, if_neg hmany, pow_zero]
      exact lt_of_lt_of_le hlt (by omega)

/-- The header object with the members `h` is written as `e`, and reading `e`
into an object with the members `h₀` restores `h`. Without a header nothing is
written. -/
def HeaderRoundTrips (header : Option (ObjectClass σ)) (c : Context) (h h₀ : σ) (e : Enc) : Prop :=
  match header with
  | none => e = .empty ∧ h₀ = h
  | some C => Writes c (C.serialize.write h) e ∧ Reads c C.serialize.read e h₀ h ()

variable {c : Context}

/-- The prefix is a number of zero bytes. -/
theorem concat_zeroBytes (n : Nat) :
    Enc.concat (List.replicate n (.const (Bits.ofNat (8 : Int).toNat (0 : U32).toNat))) =
      .const (List.replicate (8 * n) false) := by
  have hzero : Bits.ofNat (8 : Int).toNat (0 : U32).toNat = List.replicate 8 false :=
    Bits.ofNat_zero_right 8
  rw [hzero, Enc.concat_replicate_const, List.flatten_replicate_replicate, Nat.mul_comm]

/-- The prefix is written as zero bytes. -/
theorem writes_writePrefix (info : PacketInfo) :
    Writes c (writePrefix info)
      (.const (List.replicate (8 * info.prefixBytes.toNat) false)) := by
  have hbyte : Writes c (Proc.ignore (WriteStream.serializeBits 0 8))
      (.const (Bits.ofNat (8 : Int).toNat (0 : U32).toNat)) :=
    Writes.ignore (@WriteStream.writes_serializeBits Memory _ c 0 8 (by decide) (by decide))
  have hall := Writes.times hbyte info.prefixBytes.toNat
  rw [concat_zeroBytes] at hall
  exact hall

/-- The slot of the checksum is written as zeros. -/
theorem writes_writeCrc32 (info : PacketInfo) :
    Writes c (writeCrc32 info) (.const (slotBits info 0)) := by
  unfold writeCrc32 slotBits
  split
  · exact Writes.pure
  · exact Writes.ignore (WriteStream.writes_serializeBits 0 (by decide) (by decide))

/-- The header is written as its encoding. -/
theorem writes_writeHeader {header : Option (ObjectClass σ)} {h h₀ : σ} {e : Enc}
    (hh : HeaderRoundTrips header c h h₀ e) :
    Writes c (writeHeader (header.map fun C => C.object h)) e := by
  cases header with
  | none =>
      obtain ⟨rfl, -⟩ := hh
      exact Writes.pure
  | some C => exact hh.1

/-- The packet type is written in its own width. -/
theorem writes_writeType {f : PacketFactory} {packetType : Int} (ht : WritableType f packetType) :
    Writes c (writeType f packetType) (typeEnc f packetType) := by
  obtain ⟨hint, hpos, hin⟩ := ht
  obtain ⟨hmax, hlast⟩ := lastType_eq hint hpos
  refine Writes.assert hpos ?_
  unfold typeEnc
  split
  · next hmany =>
    obtain ⟨h0, hlt⟩ := hin hmany
    rw [hmax]
    exact Writes.ignore (WriteStream.writes_serializeInteger (by decide) hlast (by omega) h0
      (by omega))
  · exact Writes.pure

/-- All stages of `WritePacket` append one encoding after the other. -/
theorem writes_writeStages {f : PacketFactory} {info : PacketInfo} {packet : Packet}
    {header : Option Writable} {eh ep : Enc} (ht : WritableType f packet.getType)
    (hh : Writes c (writeHeader header) eh) (hp : Writes c packet.serializeWrite ep) :
    Writes c (writeStages f info packet header) (packetEnc f info 0 eh packet.getType ep) :=
  Writes.bind (writes_writePrefix info) (Writes.bind (writes_writeCrc32 info)
    (Writes.bind hh (Writes.bind (writes_writeType ht) hp)))

/-- The prefix is skipped whatever it holds. -/
theorem reads_readPrefix {τ : Type} {info : PacketInfo} {l : List Bool}
    (hl : l.length = 8 * info.prefixBytes.toNat) (o : τ) :
    Reads c (readPrefix info : ReadProc Memory τ Unit) (.const l) o o () := by
  unfold readPrefix
  generalize info.prefixBytes.toNat = n at hl
  induction n generalizing l with
  | zero =>
      obtain rfl : l = [] := List.length_eq_zero_iff.mp hl
      exact Reads.pure () o
  | succ n ih =>
      have hlen : (l.take 8).length = 8 := by
        rw [List.length_take]
        omega
      have hbyte := @ReadStream.reads_bits Memory _ c τ (l.take 8) (by omega) (by omega) o
      rw [hlen] at hbyte
      have hrest := ih (l := l.drop 8) (by rw [List.length_drop]; omega)
      have hboth := Reads.bind (Reads.ignore hbyte) (f := fun _ =>
        Proc.times n (Proc.ignore (onStream (ReadStream.serializeBits 8)))) hrest
      rwa [Enc.const_append, List.take_append_drop] at hboth

/-- A word is read back from its bits. -/
theorem reads_readCrc32 {τ : Type} (x : U32) (o : τ) :
    Reads c (readCrc32 : ReadProc Memory τ U32) (.const (Bits.ofVec x)) o o x := by
  have hbits := @ReadStream.reads_bits Memory _ c τ (Bits.ofVec x) (by simp) (by simp) o
  have hvalue : BitVec.ofNat 32 (Bits.toNat (Bits.ofVec x)) = x := by
    rw [Bits.toNat_ofVec, BitVec.ofNat_toNat, BitVec.setWidth_eq]
  rw [Bits.length_ofVec, hvalue] at hbits
  rw [← Enc.append_empty (Enc.const _)]
  exact Reads.bind (Reads.attempt hbits) (Reads.pure _ o)

/-- The check passes where the slot holds what is expected. -/
theorem reads_checkCrc32 {info : PacketInfo} {buffer : Memory} {n : Int} {crc : U32}
    (hcrc : info.rawFormat = false → expectedCrc32 info buffer n = .ok crc) (r : ReadResult σ) :
    Reads c (checkCrc32 info buffer n) (.const (slotBits info crc)) r r () := by
  unfold checkCrc32 slotBits
  split
  · exact Reads.pure () r
  · next hraw =>
    have hcheck : Reads c (orReturn ({ · with errorCode := .crc32Mismatch })
        (Proc.check (crc = crc)) : ReadProc Memory (ReadResult σ) Unit) .empty r r () := by
      refine Reads.orReturn _ ?_
      rw [Proc.check, if_pos rfl]
      exact Reads.pure () r
    rw [← Enc.append_empty (Enc.const _)]
    refine Reads.bind (reads_readCrc32 crc r) ?_
    rw [← Enc.empty_append Enc.empty]
    exact Reads.bind (Reads.lift (hcrc (by simpa using hraw)) r) hcheck

/-- Reading the header touches nothing else of the result. -/
theorem reads_onHeader {x : ReadProc Memory σ Unit} {e : Enc} {h h₀ : σ}
    (hx : Reads c x e h₀ h ()) (r : ReadResult σ) :
    Reads c (onHeader x) e { r with header := h₀ } { r with header := h } () := by
  intro s B N pos hc hs hslice hfit
  obtain ⟨s', hrun, hat⟩ := hx s B N pos hc hs hslice hfit
  refine ⟨s', ?_, hat⟩
  rw [onHeader, hrun]
  rfl

/-- The header is read back. -/
theorem reads_readHeader {header : Option (ObjectClass σ)} {h h₀ : σ} {e : Enc}
    (hh : HeaderRoundTrips header c h h₀ e) :
    Reads c (readHeader header) e { header := h₀ } { header := h } () := by
  cases header with
  | none =>
      obtain ⟨rfl, rfl⟩ := hh
      exact Reads.pure () _
  | some C => exact Reads.orReturn _ (reads_onHeader hh.2 { header := h })

/-- The packet type is read back. -/
theorem reads_readType {f : PacketFactory} {packetType : Int} (ht : ReadableType f packetType)
    (r : ReadResult σ) : Reads c (readType f) (typeEnc f packetType) r r packetType := by
  obtain ⟨hint, hpos, h0, hlt⟩ := ht
  refine Reads.assert hpos ?_
  unfold typeEnc
  split
  · next hmany =>
    obtain ⟨hbits, -, hb31, -, -⟩ := typeBits_bounds hint hmany
    obtain ⟨hmax, hlast⟩ := lastType_eq hint hpos
    have hpow : 2 ^ typeBits f ≤ 2 ^ 31 := Nat.pow_le_pow_right (by decide) hb31
    have hcast : packetType < ((2 ^ typeBits f : Nat) : Int) := by
      push_cast
      exact hlt
    have hfits : (packetType - 0).toNat < 2 ^ typeBits f := by omega
    rw [hmax]
    refine Reads.orReturn _ (ReadStream.reads_serializeInteger_bits (by decide) hlast (by omega)
      ⟨by omega, by omega⟩ h0 ?_ r)
    rwa [hbits, Int.toNat_natCast]
  · next hone =>
    rw [typeBits, if_neg hone, pow_zero] at hlt
    obtain rfl : packetType = 0 := by omega
    exact Reads.pure 0 r

/-- A packet type that was read fits its field. -/
theorem readType_bounds {f : PacketFactory} (hint : IsInt32 f.getNumPacketTypes)
    {s s' : ReadStream Memory × ReadResult σ} {packetType : Int}
    (h : readType f s = .ok (some packetType, s')) : 0 ≤ packetType ∧ packetType < 2 ^ typeBits f := by
  obtain ⟨_, -, hrest⟩ := Proc.lift_bind_run_ok h
  split at hrest
  · next hmany =>
    obtain ⟨hbits, -, -, -, -⟩ := typeBits_bounds hint hmany
    obtain ⟨hmax, hlast⟩ := lastType_eq hint (by omega)
    rw [hmax] at hrest
    obtain ⟨hrun, -⟩ := @ReadStream.onStream_run_ok _ _ _ _ s.1 _ _ s.2
      (ReadStream.orReturn_run_ok hrest)
    exact ReadStream.serializeInteger_bounds hlast (by omega) hbits hrun
  · next hone =>
    obtain ⟨rfl, -⟩ : 0 = packetType ∧ s = s' := by simpa using hrest
    rw [typeBits, if_neg hone, pow_zero]
    decide

/-- The factory makes a packet of the type, without a bit read. -/
theorem reads_makePacket {uninit : Uninit} {packetType : Int} {q : FactoryPacket}
    (hq : PacketFactory.createPacket uninit packetType = .ok (some q)) (r : ReadResult σ) :
    Reads c (makePacket uninit packetType) .empty r { r with created := r.created + 1 } q := by
  have hmade : Reads c (makePacket uninit packetType) (.empty ++ (.empty ++ .empty)) r
      { r with created := r.created + 1 } q :=
    Reads.bind (Reads.lift hq r) (Reads.bind (Reads.assign _ r) (Reads.pure q _))
  exact hmade

/-- Whatever was written is read back. -/
theorem reads_readStages {f : PacketFactory} {uninit : Uninit} {info : PacketInfo}
    {buffer : Memory} {n : Int} {crc : U32} {header : Option (ObjectClass σ)} {h h₀ : σ} {eh : Enc}
    {p : FactoryPacket} (hcrc : info.rawFormat = false → expectedCrc32 info buffer n = .ok crc)
    (hh : HeaderRoundTrips header c h h₀ eh) (ht : ReadableType f p.getType) (hp : p.InRange) :
    Reads c (readStages f uninit info buffer n header) (packetEnc f info crc eh p.getType p.enc)
      { header := h₀ } { header := h, created := 1 } p := by
  obtain ⟨q, hq, hread⟩ := @FactoryPacket.createPacket_getType (ReadResult σ) uninit p hp
  refine Reads.bind (reads_readPrefix (by rw [List.length_replicate]) _)
    (Reads.bind (reads_checkCrc32 hcrc _) (Reads.bind (reads_readHeader hh)
      (Reads.bind (reads_readType ht _) ?_)))
  exact Reads.bind (reads_makePacket hq _) (Reads.orReturn _ (hread c _))

/-- Only the slot depends on the checksum. -/
theorem packetEnc_eq {info : PacketInfo} (hraw : info.rawFormat = false) (f : PacketFactory)
    (eh : Enc) (packetType : Int) (ep : Enc) :
    ∃ rest, ∀ crc, packetEnc f info crc eh packetType ep 0 =
      List.replicate (8 * info.prefixBytes.toNat) false ++ (Bits.ofVec crc ++ rest) := by
  refine ⟨(eh ++ (typeEnc f packetType ++ ep)) (0 + 8 * info.prefixBytes.toNat + 32), ?_⟩
  intro crc
  have hslot : slotBits info crc = Bits.ofVec crc := by
    rw [slotBits, hraw]
    rfl
  simp only [packetEnc, Enc.append_apply, Enc.const, hslot, List.length_replicate,
    Bits.length_ofVec]

/-- The bytes of the slot, of a buffer that starts with a packet. -/
theorem slot_bytes {buffer : Memory} {k : Nat} {l rest : List Bool} {x : U32}
    (hl : l.length = 8 * k)
    (h : Bits.slice (Bits.ofList buffer) 0 (l ++ (Bits.ofVec x ++ rest)).length =
      l ++ (Bits.ofVec x ++ rest)) : Bits.slice buffer k 4 = bytesOf x := by
  obtain ⟨-, hback⟩ := Bits.slice_eq_append h
  obtain ⟨hslot, -⟩ := Bits.slice_eq_append hback
  rw [hl, Nat.zero_add, Bits.length_ofVec] at hslot
  apply Bits.ofList_inj (by decide)
  rw [← Bits.slice_ofList, ofList_bytesOf, hslot]

/-- Patching the slot of a buffer that starts with a packet. -/
theorem slice_patch {buffer : Memory} {k : Nat} {l rest : List Bool} {x y : U32}
    (hl : l.length = 8 * k) (hk : k + 4 ≤ buffer.length)
    (h : Bits.slice (Bits.ofList buffer) 0 (l ++ (Bits.ofVec x ++ rest)).length =
      l ++ (Bits.ofVec x ++ rest)) :
    Bits.slice (Bits.ofList (Bits.splice buffer k (bytesOf y))) 0
      (l ++ (Bits.ofVec y ++ rest)).length = l ++ (Bits.ofVec y ++ rest) := by
  obtain ⟨hfront, hback⟩ := Bits.slice_eq_append h
  obtain ⟨-, hrest⟩ := Bits.slice_eq_append hback
  have hfit : 8 * k + (Bits.ofVec y).length ≤ (Bits.ofList buffer).length := by
    rw [Bits.length_ofVec, Bits.length_ofList]
    omega
  have hself := Bits.slice_splice_self hfit
  rw [hl, Nat.zero_add] at hrest
  rw [Bits.length_ofVec] at hself hrest
  rw [Bits.ofList_splice, ofList_bytesOf, List.length_append, List.length_append, hl,
    Bits.length_ofVec, Bits.slice_add, Bits.slice_add, Nat.zero_add, hself,
    Bits.slice_splice_left (by omega) (by omega),
    Bits.slice_splice_right hfit (by rw [Bits.length_ofVec]), hrest, ← hl, hfront]

/-- The raw format ends with the flush. -/
theorem finishPacket_raw {info : PacketInfo} {s s' : WriteStream Memory} {o : Option Unit}
    (hraw : info.rawFormat = true) (hflush : WriteStream.flush s = .ok (o, s'))
    (herror : s'.error = .none) : finishPacket info s = .ok (s'.getBytesProcessed, s'.getData) := by
  simp only [finishPacket, hflush, hraw, if_true]
  refine Except.bind_eq_ok_iff.mpr ⟨_, rfl, ?_⟩
  rw [if_pos herror]
  rfl

/-- Otherwise the checksum is put into its slot. -/
theorem finishPacket_sealed {info : PacketInfo} {s s' : WriteStream Memory} {o : Option Unit}
    {buffer : Memory} (hraw : info.rawFormat = false) (hflush : WriteStream.flush s = .ok (o, s'))
    (herror : s'.error = .none)
    (hstore : storeCrc32 info s'.getData s'.getBytesProcessed = .ok buffer) :
    finishPacket info s = .ok (s'.getBytesProcessed, buffer) := by
  simp only [finishPacket, hflush, hraw]
  refine Except.bind_eq_ok_iff.mpr ⟨_, rfl, Except.bind_eq_ok_iff.mpr ⟨_, hstore, ?_⟩⟩
  rw [if_pos herror]
  rfl

/-- Written bits that fit the capacity lie in whole words of the buffer. -/
theorem words_le {k size : Nat} {numBits numWords : Int} (hk : k ≤ numBits)
    (hround : numBits % 32 = 0) (hle : numBits ≤ 32 * numWords) (hwords : 4 * numWords ≤ size) :
    4 * ((k + 31) / 32) ≤ size := by
  omega

/-- With enough room, `WritePacket` comes to the flush, and the flush leaves the
packet in the buffer, its slot still zero. -/
theorem writePacket_flush {f : PacketFactory} {info : PacketInfo} {packet : Packet}
    {header : Option Writable} {eh ep : Enc} (hid : info.protocolId ≠ 0)
    (ht : WritableType f packet.getType) (hh : Writes info.context (writeHeader header) eh)
    (hp : Writes info.context packet.serializeWrite ep) {buffer : Memory} {bufferSize : Nat}
    (hpos : 0 < bufferSize) (h4 : bufferSize % 4 = 0) (hlen : bufferSize ≤ buffer.length)
    (hsize : buffer.length < 2147483648) {k : Nat}
    (hk : k = (packetEnc f info 0 eh packet.getType ep 0).length)
    (hfit : (k : Int) ≤ int32 (8 * bufferSize)) :
    ∃ s s', writePacket f info packet buffer bufferSize header = finishPacket info s ∧
      WriteStream.flush s = .ok (some (), s') ∧ s'.error = .none ∧
      s'.getBytesProcessed = ((k + 7) / 8 : Nat) ∧
      Bits.slice (Bits.ofList s'.getData) 0 k = packetEnc f info 0 eh packet.getType ep 0 ∧
      s'.getData.length = buffer.length ∧ 4 * ((k + 31) / 32) ≤ buffer.length := by
  have hbits : ∀ m : Memory, (Platform.bits m).length = 8 * m.length := Bits.length_ofList
  obtain ⟨s, hinit, hrep, hnum, hbuffer, herr, -, -⟩ :=
    @WriteStream.init_ok Memory _ buffer bufferSize (by omega) (by omega)
      (by rw [hbits]; push_cast; omega) (by rw [hbits]; omega)
  have hcap : s.writer.numBits = int32 (8 * bufferSize) := by
    rw [hrep.numBits, hnum, show (bufferSize : Int) / 4 * 32 = 8 * bufferSize by omega]
  rw [← hcap] at hfit
  have hwords := words_le hfit hrep.numBits_emod hrep.numBits_le.1
    (show 4 * s.writer.numWords ≤ buffer.length by rw [hnum]; omega)
  obtain ⟨s₁, s₂, hrun, hflush, hdata, hsame, -, hbytes⟩ :=
    WriteStream.writes_flush (writes_writeStages ht hh hp)
      (s := { s with context := info.context }) rfl hrep (by rw [← hk]; exact hfit)
  rw [← hk] at hdata hbytes
  refine ⟨s₁, s₂, ?_, hflush, hsame.error.trans herr, hbytes, ?_, ?_, hwords⟩
  · have hassert : assert (0 < (bufferSize : Int)) = .ok () := require_eq_ok.mpr (by omega)
    have hassert' : assert (info.protocolId ≠ 0) = .ok () := require_eq_ok.mpr hid
    rw [writePacket, hassert, hassert', hinit]
    change (writeStages f info packet header { s with context := info.context } >>= _) = _
    rw [hrun]
    rfl
  · have htake := congrArg (List.take k) hdata
    rw [List.take_take, Nat.min_eq_left (by omega), hk, List.take_left, ← hk,
      Bits.take_eq_slice] at htake
    exact htake
  · have hlen₂ : (Platform.bits s₂.getData).length = (Platform.bits s.writer.data).length :=
      hsame.buffer.length
    rw [hbuffer, hbits, hbits] at hlen₂
    omega

/-- The packet that `WritePacket` leaves in a buffer with enough room. -/
theorem writePacket_ok {f : PacketFactory} {info : PacketInfo} {packet : Packet}
    {header : Option Writable} {eh ep : Enc} (hid : info.protocolId ≠ 0)
    (hpre : 0 ≤ info.prefixBytes) (ht : WritableType f packet.getType)
    (hh : Writes info.context (writeHeader header) eh)
    (hp : Writes info.context packet.serializeWrite ep) {buffer : Memory} {bufferSize : Nat}
    (hpos : 0 < bufferSize) (h4 : bufferSize % 4 = 0) (hlen : bufferSize ≤ buffer.length)
    (hsize : buffer.length < 2147483648) {k : Nat}
    (hk : k = (packetEnc f info 0 eh packet.getType ep 0).length)
    (hfit : (k : Int) ≤ int32 (8 * bufferSize)) :
    ∃ crc written, writePacket f info packet buffer bufferSize header =
        .ok (((k + 7) / 8 : Nat), written) ∧
      Bits.slice (Bits.ofList written) 0 (packetEnc f info crc eh packet.getType ep 0).length =
        packetEnc f info crc eh packet.getType ep 0 ∧
      (packetEnc f info crc eh packet.getType ep 0).length = k ∧
      4 * ((k + 31) / 32) ≤ written.length ∧
      (info.rawFormat = false → Sealed info written ((k + 7) / 8) ∧
        crc = packetCrc32 info.protocolId (behindSlot info written ((k + 7) / 8))) := by
  obtain ⟨s, s', hwrite, hflush, herror, hbytes, hslice, hdatalen, hwords⟩ :=
    writePacket_flush hid ht hh hp hpos h4 hlen hsize hk hfit
  clear hfit h4 hlen
  obtain ⟨data, hd⟩ : ∃ data, data = s'.getData := ⟨_, rfl⟩
  rw [← hd] at hslice hdatalen
  rw [← hdatalen] at hwords hsize
  by_cases hraw : info.rawFormat = true
  · refine ⟨0, data, ?_, by rw [← hk, hslice], hk.symm, hwords, fun h => by simp [hraw] at h⟩
    rw [hwrite, ← hbytes, hd]
    exact finishPacket_raw hraw hflush herror
  · have hraw' : info.rawFormat = false := by simpa using hraw
    obtain ⟨rest, hrest⟩ := packetEnc_eq hraw' f eh packet.getType ep
    rw [hrest 0] at hslice hk
    have hk' : k = 8 * info.prefixBytes.toNat + (32 + rest.length) := by
      rw [hk, List.length_append, List.length_append, List.length_replicate, Bits.length_ofVec]
    rw [hk] at hslice
    have hslot : Bits.slice data info.prefixBytes.toNat 4 = bytesOf 0 :=
      slot_bytes (List.length_replicate ..) hslice
    have hle : info.prefixBytes + 4 ≤ ((k + 7) / 8 : Nat) := by omega
    have hnle : (k + 7) / 8 ≤ data.length := by omega
    obtain ⟨crc, hcrc⟩ :
        ∃ crc, crc = packetCrc32 info.protocolId (behindSlot info data ((k + 7) / 8)) := ⟨_, rfl⟩
    have hstore := storeCrc32_ok hpre hle hnle (by omega) hslot
    have hsealed := sealed_splice hpre hle hnle
    rw [← hcrc] at hstore hsealed
    refine ⟨crc, Bits.splice data info.prefixBytes.toNat (bytesOf crc), ?_, ?_, ?_, ?_,
      fun _ => ⟨hsealed, ?_⟩⟩
    · rw [← hbytes] at hstore ⊢
      rw [hd] at hstore ⊢
      exact hwrite.trans (finishPacket_sealed hraw' hflush herror hstore)
    · rw [hrest crc]
      exact slice_patch (List.length_replicate ..) (by omega) hslice
    · rw [hrest crc, List.length_append, List.length_append, List.length_replicate,
        Bits.length_ofVec, hk']
    · rw [Bits.length_splice (by rw [length_bytesOf]; omega)]
      exact hwords
    · rw [behindSlot_splice hpre hle hnle, hcrc]

/-- `ReadPacket` on its stream, which stands at the start of the buffer. -/
theorem readPacket_eq_ok {f : PacketFactory} {uninit : Uninit} {info : PacketInfo} {buffer : Memory}
    {bufferSize : Int} {header : Option (ObjectClass σ)} {o : σ} {packet : Option FactoryPacket}
    {r : ReadResult σ} :
    readPacket f uninit info buffer bufferSize header o = .ok (packet, r) ↔
      0 < bufferSize ∧ info.protocolId ≠ 0 ∧
        ∃ s, checkedStages f uninit info buffer bufferSize header
          ({ ReadStream.init buffer bufferSize with context := info.context }, { header := o }) =
            .ok (packet, s, r) := by
  simp only [readPacket, Except.bind_eq_ok_iff, require_eq_ok, Except.pure_eq_ok_iff]
  constructor
  · rintro ⟨-, hpos, -, hid, ⟨packet, s, r⟩, hrun, heq⟩
    obtain ⟨rfl, rfl⟩ : _ ∧ _ := Prod.mk.inj heq
    exact ⟨hpos, hid, s, hrun⟩
  · rintro ⟨hpos, hid, s, hrun⟩
    exact ⟨(), hpos, (), hid, _, hrun, rfl⟩

/-- A packet that stands at the start of the buffer is returned. -/
theorem readPacket_ok {f : PacketFactory} {uninit : Uninit} {info : PacketInfo} {buffer : Memory}
    {n k : Nat} {crc : U32} {header : Option (ObjectClass σ)} {h h₀ : σ} {eh : Enc}
    {p : FactoryPacket} (hid : info.protocolId ≠ 0) (hpos : 0 < n) (hint : 8 * n < 2147483648)
    (hwords : 4 * ((n + 3) / 4) ≤ buffer.length)
    (hslice : Bits.slice (Bits.ofList buffer) 0 (packetEnc f info crc eh p.getType p.enc 0).length =
      packetEnc f info crc eh p.getType p.enc 0)
    (hk : (packetEnc f info crc eh p.getType p.enc 0).length = k) (hfit : k ≤ 8 * n)
    (hcrc : info.rawFormat = false → expectedCrc32 info buffer n = .ok crc)
    (hh : HeaderRoundTrips header info.context h h₀ eh) (ht : ReadableType f p.getType)
    (hp : p.InRange) :
    readPacket f uninit info buffer n header h₀ = .ok (some p, { header := h, created := 1 }) := by
  have hlen : (Platform.bits buffer).length = 8 * buffer.length := Bits.length_ofList buffer
  have hat := @ReadStream.init_at Memory _ buffer n (by omega) (by omega) (by omega)
  have hbits : int32 ((n : Int) * 8) = 8 * n := by
    rw [int32_eq ⟨by omega, by omega⟩]
    omega
  rw [hbits] at hat
  obtain ⟨s', hrun, hat', hsame⟩ := @reads_readStages _ _ _ uninit _ _ _ _ _ _ _ _ _ hcrc hh ht hp
    { ReadStream.init buffer n with context := info.context } _ _ 0 rfl ⟨hat.reader, hat.bitsRead⟩
    hslice (by rw [hk]; omega)
  have herror : s'.error = .none := hsame.error
  refine readPacket_eq_ok.mpr ⟨by omega, hid, s', ?_⟩
  refine (Proc.bind_run_some hrun).trans ?_
  have hcheck : checkError (s', ({ header := h, created := 1 } : ReadResult σ)) =
      .ok (some (), s', { header := h, created := 1 }) := by
    rw [checkError, if_pos herror]
  exact Proc.bind_run_some hcheck

/-- The length of a packet in bits. -/
def packetBits (f : PacketFactory) (info : PacketInfo) (header : Enc) (p : FactoryPacket) : Nat :=
  (packetEnc f info 0 header p.getType p.enc 0).length

/-- The width of the slot. -/
def slotWidth (info : PacketInfo) : Nat := if info.rawFormat then 0 else 32

/-- The slot has four bytes or is not there. -/
theorem length_slotBits (info : PacketInfo) (crc : U32) :
    (slotBits info crc).length = slotWidth info := by
  unfold slotBits slotWidth
  split
  · rfl
  · exact Bits.length_ofVec crc

/-- The width of the packet type does not depend on where it stands. -/
theorem length_typeEnc (f : PacketFactory) (packetType : Int) (pos : Nat) :
    (typeEnc f packetType pos).length = typeBits f := by
  unfold typeEnc typeBits
  split
  · exact Bits.length_ofNat _ _
  · rfl

/-- The length of a packet without a header. -/
theorem length_packetEnc {f : PacketFactory} {info : PacketInfo} {crc : U32} {packetType : Int}
    {body : Enc} {k : Nat} (hbody : ∀ pos, (body pos).length = k) :
    (packetEnc f info crc .empty packetType body 0).length =
      8 * info.prefixBytes.toNat + slotWidth info + typeBits f + k := by
  simp only [packetEnc, Enc.length_append, length_typeEnc, hbody, Enc.const, Enc.empty,
    length_slotBits, List.length_replicate, List.length_nil]
  omega

/-- A packet has bits. -/
theorem packetBits_pos {f : PacketFactory} (hf : f.getNumPacketTypes = TestPacketTypes.numTypes.value)
    (info : PacketInfo) (header : Enc) (p : FactoryPacket) : 0 < packetBits f info header p := by
  have htype : typeBits f = 7 := by
    rw [typeBits, hf]
    decide
  simp only [packetBits, packetEnc, Enc.length_append, length_typeEnc, htype]
  omega

/-- Bits that fit the capacity are bytes that an `int` can count. -/
theorem bytes_lt {k bufferSize : Nat} (h4 : bufferSize % 4 = 0)
    (hfit : (k : Int) ≤ int32 (8 * bufferSize)) : 8 * ((k + 7) / 8) < 2147483648 := by
  have hemod := int32_emod (8 * bufferSize)
  have hint := (isInt32_int32 (8 * bufferSize)).2
  have hround : int32 (8 * bufferSize) % 32 = 0 := by omega
  clear hemod h4
  omega

/-- What `WritePacket` writes, `ReadPacket` returns. -/
theorem readPacket_writePacket {f : PacketFactory}
    (hf : f.getNumPacketTypes = TestPacketTypes.numTypes.value) (uninit : Uninit)
    {info : PacketInfo} (hid : info.protocolId ≠ 0) (hpre : 0 ≤ info.prefixBytes)
    {p : FactoryPacket} (hp : p.InRange) {header : Option (ObjectClass σ)} {h h₀ : σ} {eh : Enc}
    (hh : HeaderRoundTrips header info.context h h₀ eh) {buffer : Memory} {bufferSize : Nat}
    (h4 : bufferSize % 4 = 0) (hlen : bufferSize ≤ buffer.length)
    (hsize : buffer.length < 2147483648)
    (hfit : (packetBits f info eh p : Int) ≤ int32 (8 * bufferSize)) :
    ∃ n written, writePacket f info p.toPacket buffer bufferSize
        (header.map fun C => C.object h) = .ok (n, written) ∧ 0 < n ∧
      readPacket f uninit info written n header h₀ =
        .ok (some p, { header := h, errorCode := .none, created := 1 }) := by
  have htype := p.getType_bounds
  have hnum : f.getNumPacketTypes = 106 := hf
  have ht : KnownType f p.getType := ⟨⟨by omega, by omega⟩, htype.1, by omega⟩
  obtain ⟨k, hk⟩ : ∃ k, k = packetBits f info eh p := ⟨_, rfl⟩
  have hkpos := packetBits_pos hf info eh p
  rw [← hk] at hfit hkpos
  have hpos : 0 < bufferSize := by
    rcases Nat.eq_zero_or_pos bufferSize with rfl | hpos
    · exact absurd hfit (by rw [Int.ofNat_zero, Int.mul_zero, int32_zero]; omega)
    · exact hpos
  have hsmall := bytes_lt h4 hfit
  obtain ⟨crc, written, hwrite, hslice, hklen, hwords, hsealed⟩ :=
    @writePacket_ok f info p.toPacket _ _ _ hid hpre ht.writable (writes_writeHeader hh)
      (FactoryPacket.writes_serializeWrite hp) buffer bufferSize hpos h4 hlen hsize k hk hfit
  clear hfit h4 hlen hsize
  refine ⟨_, written, hwrite, by omega, ?_⟩
  refine readPacket_ok hid (by omega) hsmall (by omega) hslice hklen (by omega) ?_ hh ht.readable hp
  intro hraw
  obtain ⟨hseal, hcrc⟩ := hsealed hraw
  rw [hcrc]
  exact expectedCrc32_eq hpre hseal.slot_le hseal.length (by omega)

/-- A header of one byte. -/
def sampleHeader : ObjectClass U8 where
  serialize := .bits id (fun v _ => v) 8
  appends := (@Serialize.sound_bits U8 8 id (fun v _ => v) (by decide) (by decide)).appends

/-- A `TestPacketA` with a header of one byte, in a buffer of three words. -/
theorem readPacket_writePacket_sample :
    ∃ n written, writePacket ⟨106⟩ { protocolId := 1, prefixBytes := 1 }
        (FactoryPacket.testPacketA .new).toPacket (List.replicate 12 0) 12
        (some (sampleHeader.object 9)) = .ok (n, written) ∧ 0 < n ∧
      readPacket ⟨106⟩ ⟨0, 0, 0, 0⟩ { protocolId := 1, prefixBytes := 1 } written n
        (some sampleHeader) 0 =
          .ok (some (.testPacketA .new), { header := 9, errorCode := .none, created := 1 }) := by
  have hs := @Serialize.sound_bits U8 8 id (fun v _ => v) (by decide) (by decide)
  exact @readPacket_writePacket U8 ⟨106⟩ rfl ⟨0, 0, 0, 0⟩ { protocolId := 1, prefixBytes := 1 }
    (by decide) (by decide) (.testPacketA .new)
    (by simp [FactoryPacket.InRange, TestPacketA.InRange, TestPacketA.new]) (some sampleHeader) 9 0 _
    ⟨hs.writes 0 9 trivial, hs.reads 0 9 0 trivial⟩ (List.replicate 12 0) 12 (by decide) (by decide)
    (by decide) (by decide +kernel)

end Wire

end RudpNetwork
