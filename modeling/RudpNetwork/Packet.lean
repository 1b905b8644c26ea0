import RudpNetwork.Object

/-!
# RudpNetwork.Packet

`Packet.h`, `PacketFactory.h` and `PacketFactory.cpp`: the eight packet classes
the factory creates, and the factory.

`FactoryPacket` is a packet of one of these classes.  `FactoryPacket.enc` is its
body on the wire, and `FactoryPacket.InRange` says that its ranged members are
in their ranges.

## Main results

* `TestPacketA.sound` and its kin — the template of every class brings its members across.
* `writes_serializeWrite`, `reads_serializeRead` — the packets of the factory, both ways.
-/

namespace RudpNetwork

open MachineInt

/-- `class Packet`, as the writing side sees it. -/
structure Packet extends Writable where
  getType : Int

/-- `struct PacketInfo`. -/
structure PacketInfo where
  rawFormat : Bool := false
  prefixBytes : Int := 0
  protocolId : U32 := 0
  allowedPacketTypes : Option (List U8) := none
  context : Context := 0

/-! ## the packet classes -/

/-- The conversion of an `int` to `uint8_t`. -/
def toUInt8 (v : Int) : Int := v % 256

structure TestPacketA where
  a : Int
  b : Int
  c : Int
  deriving DecidableEq

namespace TestPacketA

/-- `TestPacketA()`. -/
def new : TestPacketA := { a := 1, b := 2, c := 3 }

def serialize : Serialize TestPacketA :=
  .int (·.a) (fun v p => { p with a := v }) (-10) 10 id ++
  .int (·.b) (fun v p => { p with b := v }) (-20) 20 id ++
  .int (·.c) (fun v p => { p with c := v }) (-30) 30 id

end TestPacketA

structure TestPacketB where
  x : Int
  y : Int
  deriving DecidableEq

namespace TestPacketB

/-- `TestPacketB()`. -/
def new : TestPacketB := { x := 0, y := 1 }

def serialize : Serialize TestPacketB :=
  .int (·.x) (fun v p => { p with x := v }) (-5) 5 id ++
  .int (·.y) (fun v p => { p with y := v }) (-5) 5 id

end TestPacketB

structure TestPacketC where
  data : Vector U8 16
  deriving DecidableEq

namespace TestPacketC

/-- `TestPacketC()`. -/
def new : TestPacketC := { data := Vector.ofFn fun i => BitVec.ofNat 8 i }

def serialize : Serialize TestPacketC :=
  .forEach (List.finRange 16) fun i =>
    .int (fun p => p.data[i].toNat) (fun v p => { p with data := p.data.set i (BitVec.ofInt 8 v) })
      0 255 toUInt8

end TestPacketC

/-- The members of `ConnectionHeartBeat` and `ConnectionStartRsp`. -/
structure SessionMessage where
  cmd : U8
  sid : U16
  deriving DecidableEq

def SessionMessage.serialize : Serialize SessionMessage :=
  .bits (·.cmd) (fun v p => { p with cmd := v }) 8 ++
  .bits (·.sid) (fun v p => { p with sid := v }) 16

/-- The members of `ConnectionStopReq` and `ConnectionStopRsp`. -/
structure StopMessage where
  cmd : U8
  sid : U16
  reason : U8
  deriving DecidableEq

def StopMessage.serialize : Serialize StopMessage :=
  .bits (·.cmd) (fun v p => { p with cmd := v }) 8 ++
  .bits (·.sid) (fun v p => { p with sid := v }) 16 ++
  .bits (·.reason) (fun v p => { p with reason := v }) 8

abbrev ConnectionHeartBeat := SessionMessage

def ConnectionHeartBeat.serialize : Serialize ConnectionHeartBeat := SessionMessage.serialize

structure ConnectionStartReq where
  cmd : U8
  sid : U16
  uid : U64
  deriving DecidableEq

def ConnectionStartReq.serialize : Serialize ConnectionStartReq :=
  .bits (·.cmd) (fun v p => { p with cmd := v }) 8 ++
  .bits (·.sid) (fun v p => { p with sid := v }) 16 ++
  .uint64 (·.uid) (fun v p => { p with uid := v })

abbrev ConnectionStartRsp := SessionMessage

def ConnectionStartRsp.serialize : Serialize ConnectionStartRsp := SessionMessage.serialize

abbrev ConnectionStopReq := StopMessage

def ConnectionStopReq.serialize : Serialize ConnectionStopReq := StopMessage.serialize

abbrev ConnectionStopRsp := StopMessage

def ConnectionStopRsp.serialize : Serialize ConnectionStopRsp := StopMessage.serialize

/-! ## what the classes serialize -/

/-- The ranges that the serialize function declares. -/
def TestPacketA.InRange (p : TestPacketA) : Prop :=
  (-10 ≤ p.a ∧ p.a ≤ 10) ∧ (-20 ≤ p.b ∧ p.b ≤ 20) ∧ (-30 ≤ p.c ∧ p.c ≤ 30)

def TestPacketA.enc (p : TestPacketA) : Enc :=
  Wire.int p.a (-10) 10 ++ Wire.int p.b (-20) 20 ++ Wire.int p.c (-30) 30

/-- Three ranges, in 17 bits. -/
theorem TestPacketA.sound : serialize.Sound InRange enc (fun p _ => p) 17 := by
  have hall := Serialize.Sound.seq (Serialize.Sound.seq
    (@Serialize.sound_int TestPacketA (·.a) (fun v p => { p with a := v }) (-10) 10 id (by decide)
      (by decide) (by decide) fun _ _ _ => rfl)
    (@Serialize.sound_int TestPacketA (·.b) (fun v p => { p with b := v }) (-20) 20 id (by decide)
      (by decide) (by decide) fun _ _ _ => rfl))
    (@Serialize.sound_int TestPacketA (·.c) (fun v p => { p with c := v }) (-30) 30 id (by decide)
      (by decide) (by decide) fun _ _ _ => rfl)
  exact hall.restrict fun p h => ⟨⟨h.1, h.2.1⟩, h.2.2⟩

/-- The ranges that the serialize function declares. -/
def TestPacketB.InRange (p : TestPacketB) : Prop := (-5 ≤ p.x ∧ p.x ≤ 5) ∧ (-5 ≤ p.y ∧ p.y ≤ 5)

def TestPacketB.enc (p : TestPacketB) : Enc := Wire.int p.x (-5) 5 ++ Wire.int p.y (-5) 5

/-- Two ranges, in 8 bits. -/
theorem TestPacketB.sound : serialize.Sound InRange enc (fun p _ => p) 8 :=
  .seq (Serialize.sound_int (by decide) (by decide) (by decide) fun _ _ _ => rfl)
    (Serialize.sound_int (by decide) (by decide) (by decide) fun _ _ _ => rfl)

def TestPacketC.enc (p : TestPacketC) : Enc :=
  .concat ((List.finRange 16).map fun i => Wire.int p.data[i].toNat 0 255)

/-- Copying some elements of the array: one that is copied, or was there, is there. -/
theorem TestPacketC.getElem_copy {p o : TestPacketC} {l : List (Fin 16)} {j : Fin 16}
    (h : j ∈ l ∨ o.data[j] = p.data[j]) :
    (l.foldl (fun o i => { o with data := o.data.set i (BitVec.ofInt 8 p.data[i].toNat) }) o).data[j] =
      p.data[j] := by
  induction l generalizing o with
  | nil => exact h.resolve_left List.not_mem_nil
  | cons i l ih =>
      rw [List.foldl_cons]
      apply ih
      by_cases hj : j = i
      · subst hj
        exact .inr (by simp)
      · have hne : (i : Nat) ≠ j := fun heq => hj (Fin.ext heq.symm)
        refine h.imp (fun hmem => List.mem_of_ne_of_mem hj hmem) ?_
        intro hold
        simpa [Vector.getElem_set_ne, hne] using hold

/-- Copying all of them. -/
theorem TestPacketC.copy_eq (p o : TestPacketC) :
    (List.finRange 16).foldl (fun o i =>
      { o with data := o.data.set i (BitVec.ofInt 8 p.data[i].toNat) }) o = p := by
  have hdata : ((List.finRange 16).foldl (fun o i =>
      { o with data := o.data.set i (BitVec.ofInt 8 p.data[i].toNat) }) o).data = p.data := by
    apply Vector.ext
    intro j hj
    exact getElem_copy (j := ⟨j, hj⟩) (.inl (List.mem_finRange _))
  cases p
  exact congrArg TestPacketC.mk hdata

/-- Sixteen bytes. -/
theorem TestPacketC.sound : serialize.Sound (fun _ => True) enc (fun p _ => p) 128 := by
  have helem : ∀ i ∈ List.finRange 16, _ := fun i _ => @Serialize.sound_int TestPacketC
    (fun p => p.data[i].toNat) (fun v p => { p with data := p.data.set i (BitVec.ofInt 8 v) }) 0 255
    toUInt8 (by decide) (by decide) (by decide) (fun v h0 h1 => by unfold toUInt8; omega)
  have hall := Serialize.Sound.forEach helem
  simp only [copy_eq] at hall
  refine hall.restrict fun p _ i _ => ?_
  omega

def SessionMessage.enc (p : SessionMessage) : Enc :=
  Wire.bits (p.cmd.setWidth 32) 8 ++ Wire.bits (p.sid.setWidth 32) 16

/-- A message type and a session id, in 24 bits. -/
theorem SessionMessage.sound : serialize.Sound (fun _ => True) enc (fun p _ => p) 24 := by
  have hall := Serialize.Sound.seq
    (@Serialize.sound_bits SessionMessage 8 (·.cmd) (fun v p => { p with cmd := v }) (by decide)
      (by decide))
    (@Serialize.sound_bits SessionMessage 16 (·.sid) (fun v p => { p with sid := v }) (by decide)
      (by decide))
  exact hall.restrict fun _ _ => ⟨trivial, trivial⟩

/-- Any 24 bits are read as a message. -/
theorem SessionMessage.takes : ReadStream.Takes serialize.read 24 :=
  .bind (@Reading.takes_serializeBits Memory _ _ _ 8 (by decide) (by decide)) fun _ =>
    @Reading.takes_serializeBits Memory _ _ _ 16 (by decide) (by decide)

theorem SessionMessage.length_enc (p : SessionMessage) (pos : Nat) : (p.enc pos).length = 24 := by
  simp [enc, Enc.length_append, Wire.bits, Enc.const]

/-- Any bits are the message that they spell. -/
theorem SessionMessage.exists_enc {l : List Bool} (h : l.length = 24) :
    ∃ p : SessionMessage, ∀ pos, p.enc pos = l := by
  obtain ⟨cmd, hcmd⟩ := @Wire.exists_bits 8 (l.take 8) (by simp [h]) (by decide)
  obtain ⟨sid, hsid⟩ := @Wire.exists_bits 16 (l.drop 8) (by simp [h]) (by decide)
  exact ⟨{ cmd, sid }, fun pos =>
    (congrArg₂ (· ++ ·) (hcmd pos) (hsid _)).trans (List.take_append_drop 8 l)⟩

def StopMessage.enc (p : StopMessage) : Enc :=
  Wire.bits (p.cmd.setWidth 32) 8 ++ Wire.bits (p.sid.setWidth 32) 16 ++
    Wire.bits (p.reason.setWidth 32) 8

/-- A reason behind them, in 32 bits. -/
theorem StopMessage.sound : serialize.Sound (fun _ => True) enc (fun p _ => p) 32 := by
  have hall := Serialize.Sound.seq (Serialize.Sound.seq
    (@Serialize.sound_bits StopMessage 8 (·.cmd) (fun v p => { p with cmd := v }) (by decide)
      (by decide))
    (@Serialize.sound_bits StopMessage 16 (·.sid) (fun v p => { p with sid := v }) (by decide)
      (by decide)))
    (@Serialize.sound_bits StopMessage 8 (·.reason) (fun v p => { p with reason := v }) (by decide)
      (by decide))
  exact hall.restrict fun _ _ => ⟨⟨trivial, trivial⟩, trivial⟩

theorem StopMessage.length_enc (p : StopMessage) (pos : Nat) : (p.enc pos).length = 32 := by
  simp [enc, Enc.length_append, Wire.bits, Enc.const]

def ConnectionStartReq.enc (p : ConnectionStartReq) : Enc :=
  Wire.bits (p.cmd.setWidth 32) 8 ++ Wire.bits (p.sid.setWidth 32) 16 ++ Wire.uint64 p.uid

/-- A user id behind them, in 88 bits. -/
theorem ConnectionStartReq.sound : serialize.Sound (fun _ => True) enc (fun p _ => p) 88 := by
  have hall := Serialize.Sound.seq (Serialize.Sound.seq
    (@Serialize.sound_bits ConnectionStartReq 8 (·.cmd) (fun v p => { p with cmd := v }) (by decide)
      (by decide))
    (@Serialize.sound_bits ConnectionStartReq 16 (·.sid) (fun v p => { p with sid := v })
      (by decide) (by decide)))
    (@Serialize.sound_uint64 ConnectionStartReq (·.uid) fun v p => { p with uid := v })
  exact hall.restrict fun _ _ => ⟨⟨trivial, trivial⟩, trivial⟩

/-- Any 88 bits are read as a start request. -/
theorem ConnectionStartReq.takes : ReadStream.Takes serialize.read 88 :=
  .bind (.bind (@Reading.takes_serializeBits Memory _ _ _ 8 (by decide) (by decide)) fun _ =>
    @Reading.takes_serializeBits Memory _ _ _ 16 (by decide) (by decide))
    fun _ => @Reading.takes_serializeUint64 Memory _ ConnectionStartReq
      fun v p => { p with uid := v }

theorem ConnectionStartReq.length_enc (p : ConnectionStartReq) (pos : Nat) :
    (p.enc pos).length = 88 := by
  simp [enc, Enc.length_append, Wire.bits, Wire.uint64, Enc.const]

/-- Any bits are the message that they spell. -/
theorem ConnectionStartReq.exists_enc {l : List Bool} (h : l.length = 88) :
    ∃ p : ConnectionStartReq, ∀ pos, p.enc pos = l := by
  obtain ⟨cmd, hcmd⟩ := @Wire.exists_bits 8 (l.take 8) (by simp [h]) (by decide)
  obtain ⟨sid, hsid⟩ := @Wire.exists_bits 16 ((l.drop 8).take 16) (by simp [h]) (by decide)
  have huid : Bits.ofVec (Bits.toVec 64 ((l.drop 8).drop 16)) = (l.drop 8).drop 16 :=
    Bits.ofVec_toVec _ (by simp [h])
  have hall : l.take 8 ++ (l.drop 8).take 16 ++ (l.drop 8).drop 16 = l := by
    rw [List.append_assoc, List.take_append_drop, List.take_append_drop]
  exact ⟨{ cmd, sid, uid := Bits.toVec 64 ((l.drop 8).drop 16) }, fun pos =>
    (congrArg₂ (· ++ ·) (congrArg₂ (· ++ ·) (hcmd pos) (hsid _)) huid).trans hall⟩

/-! ## the factory -/

/-- `enum TestPacketTypes`. -/
inductive TestPacketTypes
  | testPacketA
  | testPacketB
  | testPacketC
  | data
  | connectionStartReq
  | connectionStartRsp
  | connectionStopReq
  | connectionStopRsp
  | heartbeat
  | numTypes
  deriving DecidableEq

/-- The values of the enumerators. -/
def TestPacketTypes.value : TestPacketTypes → Int
  | testPacketA => 0
  | testPacketB => 1
  | testPacketC => 2
  | data => 100
  | connectionStartReq => 101
  | connectionStartRsp => 102
  | connectionStopReq => 103
  | connectionStopRsp => 104
  | heartbeat => 105
  | numTypes => 106

/-- A packet of one of the classes the factory knows. -/
inductive FactoryPacket
  | testPacketA (p : TestPacketA)
  | testPacketB (p : TestPacketB)
  | testPacketC (p : TestPacketC)
  | connectionStartReq (p : ConnectionStartReq)
  | connectionStartRsp (p : ConnectionStartRsp)
  | connectionStopReq (p : ConnectionStopReq)
  | connectionStopRsp (p : ConnectionStopRsp)
  | connectionHeartBeat (p : ConnectionHeartBeat)
  deriving DecidableEq

/-- What members that a constructor leaves unset happen to hold. -/
structure Uninit where
  cmd : U8
  sid : U16
  uid : U64
  reason : U8

namespace FactoryPacket

/-- `GetType`. -/
def getType : FactoryPacket → Int
  | testPacketA _ => TestPacketTypes.testPacketA.value
  | testPacketB _ => TestPacketTypes.testPacketB.value
  | testPacketC _ => TestPacketTypes.testPacketC.value
  | connectionStartReq _ => TestPacketTypes.connectionStartReq.value
  | connectionStartRsp _ => TestPacketTypes.connectionStartRsp.value
  | connectionStopReq _ => TestPacketTypes.connectionStopReq.value
  | connectionStopRsp _ => TestPacketTypes.connectionStopRsp.value
  | connectionHeartBeat _ => TestPacketTypes.heartbeat.value

/-- `SerializeWrite`. -/
def serializeWrite : FactoryPacket → Proc Fault (WriteStream Memory) Unit
  | testPacketA p => TestPacketA.serialize.write p
  | testPacketB p => TestPacketB.serialize.write p
  | testPacketC p => TestPacketC.serialize.write p
  | connectionStartReq p => ConnectionStartReq.serialize.write p
  | connectionStartRsp p => ConnectionStartRsp.serialize.write p
  | connectionStopReq p => ConnectionStopReq.serialize.write p
  | connectionStopRsp p => ConnectionStopRsp.serialize.write p
  | connectionHeartBeat p => ConnectionHeartBeat.serialize.write p

/-- `SerializeRead` of the object `o`, which becomes `wrap` of its new members. -/
def readInto {σ : Type} (S : Serialize σ) (wrap : σ → FactoryPacket) (o : σ) :
    Proc Fault (ReadStream Memory) FactoryPacket := fun s =>
  (S.read (s, o)).map fun (a, s', o') => (a.map fun _ => wrap o', s')

/-- `SerializeRead`: the packet with the members that were read. -/
def serializeRead : FactoryPacket → Proc Fault (ReadStream Memory) FactoryPacket
  | testPacketA p => readInto TestPacketA.serialize testPacketA p
  | testPacketB p => readInto TestPacketB.serialize testPacketB p
  | testPacketC p => readInto TestPacketC.serialize testPacketC p
  | connectionStartReq p => readInto ConnectionStartReq.serialize connectionStartReq p
  | connectionStartRsp p => readInto ConnectionStartRsp.serialize connectionStartRsp p
  | connectionStopReq p => readInto ConnectionStopReq.serialize connectionStopReq p
  | connectionStopRsp p => readInto ConnectionStopRsp.serialize connectionStopRsp p
  | connectionHeartBeat p => readInto ConnectionHeartBeat.serialize connectionHeartBeat p

/-- Whatever the members are, a completed call has only appended. -/
theorem appends_serializeWrite (p : FactoryPacket) : WriteStream.Appends p.serializeWrite := by
  cases p with
  | testPacketA p => exact TestPacketA.sound.appends p
  | testPacketB p => exact TestPacketB.sound.appends p
  | testPacketC p => exact TestPacketC.sound.appends p
  | connectionStartReq p => exact ConnectionStartReq.sound.appends p
  | connectionStartRsp p => exact SessionMessage.sound.appends p
  | connectionStopReq p => exact StopMessage.sound.appends p
  | connectionStopRsp p => exact StopMessage.sound.appends p
  | connectionHeartBeat p => exact SessionMessage.sound.appends p

/-- The packet as the writing side sees it. -/
def toPacket (p : FactoryPacket) : Packet where
  serializeWrite := p.serializeWrite
  appends := p.appends_serializeWrite
  getType := p.getType

end FactoryPacket

/-- `class PacketFactory`. -/
structure PacketFactory where
  numPacketTypes : Int

namespace PacketFactory

/-- `SetNumPacketTypes`. -/
def setNumPacketTypes (_ : PacketFactory) (num : Int) : PacketFactory := { numPacketTypes := num }

/-- `GetNumPacketTypes`. -/
def getNumPacketTypes (f : PacketFactory) : Int := f.numPacketTypes

open TestPacketTypes in
/-- `CreatePacket`. -/
def createPacket (uninit : Uninit) (type : Int) : Except Fault (Option FactoryPacket) := do
  assert (0 ≤ type)
  let message : SessionMessage := { cmd := uninit.cmd, sid := uninit.sid }
  let stop : StopMessage := { cmd := uninit.cmd, sid := uninit.sid, reason := uninit.reason }
  return if type = testPacketA.value then some (.testPacketA .new)
    else if type = testPacketB.value then some (.testPacketB .new)
    else if type = testPacketC.value then some (.testPacketC .new)
    else if type = connectionStartReq.value then
      some (.connectionStartReq { cmd := uninit.cmd, sid := uninit.sid, uid := uninit.uid })
    else if type = connectionStartRsp.value then some (.connectionStartRsp message)
    else if type = connectionStopReq.value then some (.connectionStopReq stop)
    else if type = connectionStopRsp.value then some (.connectionStopRsp stop)
    else if type = heartbeat.value then some (.connectionHeartBeat message)
    else none

/-- For a type that is not negative, `CreatePacket` returns. -/
theorem createPacket_ok (uninit : Uninit) {type : Int} (h : 0 ≤ type) :
    ∃ packet, createPacket uninit type = .ok packet :=
  ⟨_, Except.bind_eq_ok_iff.mpr ⟨(), require_eq_ok.mpr h, rfl⟩⟩

end PacketFactory

/-! ## what the factory's packets serialize -/

/-- A field of a body: its width, and the largest of its raw values that is in range. -/
structure FieldShape where
  width : Nat
  max : Nat

/-- A field without a range. -/
def FieldShape.bits (width : Nat) : FieldShape := ⟨width, 2 ^ width - 1⟩

namespace FactoryPacket

open WriteStream (Writes)
open ReadStream (Reads Safe onStream)

/-- The ranged members are in their ranges. -/
def InRange : FactoryPacket → Prop
  | testPacketA p => p.InRange
  | testPacketB p => p.InRange
  | _ => True

/-- The body on the wire. -/
def enc : FactoryPacket → Enc
  | testPacketA p => p.enc
  | testPacketB p => p.enc
  | testPacketC p => p.enc
  | connectionStartReq p => p.enc
  | connectionStartRsp p => p.enc
  | connectionStopReq p => p.enc
  | connectionStopRsp p => p.enc
  | connectionHeartBeat p => p.enc

variable {c : Context} {τ : Type}

/-- A packet with members in their ranges is written as its encoding. -/
theorem writes_serializeWrite {p : FactoryPacket} (h : p.InRange) :
    Writes c p.serializeWrite p.enc := by
  cases p with
  | testPacketA p => exact TestPacketA.sound.writes c p h
  | testPacketB p => exact TestPacketB.sound.writes c p h
  | testPacketC p => exact TestPacketC.sound.writes c p trivial
  | connectionStartReq p => exact ConnectionStartReq.sound.writes c p trivial
  | connectionStartRsp p => exact SessionMessage.sound.writes c p trivial
  | connectionStopReq p => exact StopMessage.sound.writes c p trivial
  | connectionStopRsp p => exact StopMessage.sound.writes c p trivial
  | connectionHeartBeat p => exact SessionMessage.sound.writes c p trivial

/-- An object of the right class takes over all members, whatever it held. -/
theorem reads_readInto {σ : Type} {S : Serialize σ} {V : σ → Prop} {e : σ → Enc} {k : Nat}
    (hS : S.Sound V e (fun p _ => p) k) {p : σ} (hp : V p) (wrap : σ → FactoryPacket) (o : σ)
    (l : τ) : Reads c (onStream (readInto S wrap o) : ReadProc Memory τ FactoryPacket) (e p) l l
      (wrap p) := by
  intro s B N pos hc hs hslice hfit
  obtain ⟨s', hrun, hat⟩ := hS.reads c p o hp s B N pos hc hs hslice hfit
  refine ⟨s', ReadStream.onStream_run ?_, hat⟩
  rw [readInto, hrun]
  rfl

/-- The body of a packet of any class, from any bits. -/
theorem safe_readInto {σ : Type} {S : Serialize σ} {V : σ → Prop} {e : σ → Enc}
    {copy : σ → σ → σ} {k : Nat} (hS : S.Sound V e copy k) (wrap : σ → FactoryPacket) (o : σ) :
    Safe (onStream (readInto S wrap o) : ReadProc Memory τ FactoryPacket) k := by
  intro s l B N pos hs hsmall
  obtain ⟨a, s', o', pos', hrun, hat, hle⟩ := hS.safe s o B N pos hs hsmall
  refine ⟨a.map fun _ => wrap o', s', l, pos', ReadStream.onStream_run ?_, hat, hle⟩
  rw [readInto, hrun]
  rfl

/-- No bits make the body of a packet leave the buffer. -/
theorem safe_serializeRead (p : FactoryPacket) :
    Safe (onStream p.serializeRead : ReadProc Memory τ FactoryPacket) 128 := by
  cases p with
  | testPacketA p => exact (safe_readInto TestPacketA.sound _ p).mono (by decide)
  | testPacketB p => exact (safe_readInto TestPacketB.sound _ p).mono (by decide)
  | testPacketC p => exact safe_readInto TestPacketC.sound _ p
  | connectionStartReq p => exact (safe_readInto ConnectionStartReq.sound _ p).mono (by decide)
  | connectionStartRsp p => exact (safe_readInto SessionMessage.sound _ p).mono (by decide)
  | connectionStopReq p => exact (safe_readInto StopMessage.sound _ p).mono (by decide)
  | connectionStopRsp p => exact (safe_readInto StopMessage.sound _ p).mono (by decide)
  | connectionHeartBeat p => exact (safe_readInto SessionMessage.sound _ p).mono (by decide)

/-- The factory makes an object of a packet's class for its type, and this object
reads the packet. -/
theorem createPacket_getType (uninit : Uninit) {p : FactoryPacket} (hp : p.InRange) :
    ∃ q, PacketFactory.createPacket uninit p.getType = .ok (some q) ∧
      ∀ (c : Context) (l : τ), Reads c (onStream q.serializeRead) p.enc l l p := by
  cases p with
  | testPacketA p => exact ⟨_, rfl, fun _ l => reads_readInto TestPacketA.sound hp _ _ l⟩
  | testPacketB p => exact ⟨_, rfl, fun _ l => reads_readInto TestPacketB.sound hp _ _ l⟩
  | testPacketC p => exact ⟨_, rfl, fun _ l => reads_readInto TestPacketC.sound trivial _ _ l⟩
  | connectionStartReq p =>
      exact ⟨_, rfl, fun _ l => reads_readInto ConnectionStartReq.sound trivial _ _ l⟩
  | connectionStartRsp p =>
      exact ⟨_, rfl, fun _ l => reads_readInto SessionMessage.sound trivial _ _ l⟩
  | connectionStopReq p => exact ⟨_, rfl, fun _ l => reads_readInto StopMessage.sound trivial _ _ l⟩
  | connectionStopRsp p => exact ⟨_, rfl, fun _ l => reads_readInto StopMessage.sound trivial _ _ l⟩
  | connectionHeartBeat p =>
      exact ⟨_, rfl, fun _ l => reads_readInto SessionMessage.sound trivial _ _ l⟩

/-- The fields of the body. -/
def fields : FactoryPacket → List FieldShape
  | testPacketA _ => [⟨5, 20⟩, ⟨6, 40⟩, ⟨6, 60⟩]
  | testPacketB _ => [⟨4, 10⟩, ⟨4, 10⟩]
  | testPacketC _ => List.replicate 16 (.bits 8)
  | connectionStartReq _ => [.bits 8, .bits 16, .bits 32, .bits 32]
  | connectionStartRsp _ => [.bits 8, .bits 16]
  | connectionStopReq _ => [.bits 8, .bits 16, .bits 8]
  | connectionStopRsp _ => [.bits 8, .bits 16, .bits 8]
  | connectionHeartBeat _ => [.bits 8, .bits 16]

/-- The widths of the fields. -/
def fieldBits (p : FactoryPacket) : List Nat := p.fields.map (·.width)

theorem length_enc (p : FactoryPacket) (pos : Nat) : (p.enc pos).length = p.fieldBits.sum := by
  have hint : ∀ (value min max : Int) (pos : Nat),
      (Wire.int value min max pos).length = (bitsRequired (toU32 min) (toU32 max)).toNat :=
    fun _ _ _ _ => Bits.length_ofNat _ _
  cases p with
  | testPacketA p =>
      simp only [enc, TestPacketA.enc, Enc.length_append, hint]
      rfl
  | testPacketB p =>
      simp only [enc, TestPacketB.enc, Enc.length_append, hint]
      rfl
  | testPacketC p =>
      have hbyte : (bitsRequired (toU32 0) (toU32 255)).toNat = 8 := by decide
      have hall : ∀ (l : List (Fin 16)) (pos : Nat),
          (Enc.concat (l.map fun i => Wire.int p.data[i].toNat 0 255) pos).length = 8 * l.length := by
        intro l
        induction l with
        | nil => intro pos; rfl
        | cons i l ih =>
            intro pos
            rw [List.map_cons, Enc.concat, Enc.length_append, ih, hint, hbyte, List.length_cons]
            omega
      exact hall (List.finRange 16) pos
  | connectionStartReq p => exact p.length_enc pos
  | connectionStartRsp p => exact SessionMessage.length_enc p pos
  | connectionStopReq p => exact p.length_enc pos
  | connectionStopRsp p => exact p.length_enc pos
  | connectionHeartBeat p => exact SessionMessage.length_enc p pos

/-- No packet is wider than a `TestPacketC`. -/
theorem fieldBits_sum_le (p : FactoryPacket) : p.fieldBits.sum ≤ 128 := by
  cases p <;> simp [fieldBits, fields, FieldShape.bits]

/-- Packet types fit their field. -/
theorem getType_bounds (p : FactoryPacket) : 0 ≤ p.getType ∧ p.getType ≤ 105 := by
  cases p <;> simp [getType, TestPacketTypes.value]

end FactoryPacket

end RudpNetwork
