import RudpNetwork.Overrun
import RudpNetwork.Corruption
import RudpNetwork.PacketProcessor

/-!
# RudpNetwork.Capacity

What a `PacketProcessor` does with a packet that is too large for it.

The stream has no overflow check when it writes, so `GetError()` is never set
and `WritePacket` never returns zero for a packet of the factory: it is the bit
writer that stops, at an assertion.  `writePacket_reports_iff` says for which
packets the processor comes to an end.

## Main results

* `FactoryPacket.overruns_serializeWrite`, `overruns_writeStages` — a packet that does
  not fit stops the writer at an assertion, never with an error code.
* `Reachable.ready` — a processor keeps its buffer and its settings over a whole run.
* `writePacket_reports_iff` — for which packets a call of `WritePacket` returns, and
  what it returns.
-/

namespace RudpNetwork

open MachineInt
open WriteStream (Writes Overruns Appends)

/-! ## serialize functions without room -/

namespace Serialize

variable {σ : Type}

/-- An object that satisfies `Valid` is written as `enc`, or writing it stops at an
assertion. -/
structure Bounded (S : Serialize σ) (Valid : σ → Prop) (enc : σ → Enc) : Prop where
  writes : ∀ c o, Valid o → Writes c (S.write o) (enc o)
  overruns : ∀ c o, Valid o → Overruns c (S.write o) (enc o)

/-- `serialize_int` in write mode puts the value into the stream, or stops at an assertion when
there is no room for it. -/
theorem bounded_int {get : σ → Int} {set : Int → σ → σ} {min max : Int} {cast : Int → Int}
    (hmin : IsInt32 min) (hmax : IsInt32 max) (hlt : min < max) :
    Bounded (int get set min max cast) (fun o => min ≤ get o ∧ get o ≤ max)
      (fun o => Wire.int (get o) min max) where
  writes _ _ h := Writing.writes_serializeInt hmin hmax hlt h.1 h.2
  overruns _ _ h := Writing.overruns_serializeInt hmin hmax hlt h.1 h.2

/-- A member of `w` bits goes into the stream whole, or the call stops at an assertion. -/
theorem bounded_bits {w : Nat} {get : σ → BitVec w} {set : BitVec w → σ → σ} (h0 : 0 < w)
    (h32 : w ≤ 32) :
    Bounded (bits get set w) (fun _ => True) (fun o => Wire.bits ((get o).setWidth 32) w) where
  writes _ _ _ := Writing.writes_serializeBits _ (by omega) (by omega)
  overruns _ _ _ := Writing.overruns_serializeBits _ (by omega) (by omega)

/-- `serialize_uint64` writes both halves, or stops at an assertion on the way. -/
theorem bounded_uint64 {get : σ → U64} {set : U64 → σ → σ} :
    Bounded (uint64 get set) (fun _ => True) (fun o => Wire.uint64 (get o)) where
  writes _ o _ := Writing.writes_serializeUint64 (get o)
  overruns _ o _ := Writing.overruns_serializeUint64 (get o)

/-- Two templates in a row: if either has no room, the sequence stops there. -/
theorem Bounded.seq {S T : Serialize σ} {V W : σ → Prop} {e f : σ → Enc} (hS : S.Bounded V e)
    (hT : T.Bounded W f) : (S ++ T).Bounded (fun o => V o ∧ W o) (fun o => e o ++ f o) where
  writes c o h := Writes.bind (hS.writes c o h.1) (hT.writes c o h.2)
  overruns c o h :=
    Overruns.bind (hS.overruns c o h.1) (hS.writes c o h.1) (hT.overruns c o h.2)

/-- A loop over members, by induction on the list of its indices. -/
theorem Bounded.forEach {ι : Type} {l : List ι} {S : ι → Serialize σ} {V : ι → σ → Prop}
    {e : ι → σ → Enc} (h : ∀ i ∈ l, (S i).Bounded (V i) (e i)) :
    (Serialize.forEach l S).Bounded (fun o => ∀ i ∈ l, V i o)
      (fun o => .concat (l.map fun i => e i o)) where
  writes c o hv := Writes.forM fun i hi => (h i hi).writes c o (hv i hi)
  overruns c o hv := Overruns.forM (fun i hi => (h i hi).overruns c o (hv i hi))
    fun i hi => (h i hi).writes c o (hv i hi)

end Serialize

variable {c : Context}

/-- A `TestPacketA` without room for its fields stops at an assertion. -/
theorem TestPacketA.overruns_write {p : TestPacketA} (h : p.InRange) :
    Overruns c (serialize.write p) p.enc := by
  have hall := Serialize.Bounded.seq (Serialize.Bounded.seq
    (@Serialize.bounded_int TestPacketA (·.a) (fun v p => { p with a := v }) (-10) 10 id (by decide)
      (by decide) (by decide))
    (@Serialize.bounded_int TestPacketA (·.b) (fun v p => { p with b := v }) (-20) 20 id (by decide)
      (by decide) (by decide)))
    (@Serialize.bounded_int TestPacketA (·.c) (fun v p => { p with c := v }) (-30) 30 id (by decide)
      (by decide) (by decide))
  exact hall.overruns c p ⟨⟨h.1, h.2.1⟩, h.2.2⟩

/-- A `TestPacketB` without room for its fields stops at an assertion. -/
theorem TestPacketB.overruns_write {p : TestPacketB} (h : p.InRange) :
    Overruns c (serialize.write p) p.enc := by
  have hall := Serialize.Bounded.seq
    (@Serialize.bounded_int TestPacketB (·.x) (fun v p => { p with x := v }) (-5) 5 id (by decide)
      (by decide) (by decide))
    (@Serialize.bounded_int TestPacketB (·.y) (fun v p => { p with y := v }) (-5) 5 id (by decide)
      (by decide) (by decide))
  exact hall.overruns c p h

/-- A `TestPacketC` without room for its bytes stops at an assertion. -/
theorem TestPacketC.overruns_write (p : TestPacketC) : Overruns c (serialize.write p) p.enc := by
  have hall := Serialize.Bounded.forEach (l := List.finRange 16) fun i _ =>
    @Serialize.bounded_int TestPacketC (fun p => p.data[i].toNat)
      (fun v p => { p with data := p.data.set i (BitVec.ofInt 8 v) }) 0 255 toUInt8 (by decide)
      (by decide) (by decide)
  refine hall.overruns c p fun i _ => ?_
  omega

/-- The messages that carry a message type and a session id. -/
theorem SessionMessage.bounded : serialize.Bounded (fun _ => True ∧ True) enc :=
  .seq (@Serialize.bounded_bits SessionMessage 8 (·.cmd) (fun v p => { p with cmd := v }) (by decide)
    (by decide))
    (@Serialize.bounded_bits SessionMessage 16 (·.sid) (fun v p => { p with sid := v }) (by decide)
      (by decide))

/-- The stop messages carry a reason behind the session id. -/
theorem StopMessage.bounded : serialize.Bounded (fun _ => (True ∧ True) ∧ True) enc :=
  .seq (.seq
    (@Serialize.bounded_bits StopMessage 8 (·.cmd) (fun v p => { p with cmd := v }) (by decide)
      (by decide))
    (@Serialize.bounded_bits StopMessage 16 (·.sid) (fun v p => { p with sid := v }) (by decide)
      (by decide)))
    (@Serialize.bounded_bits StopMessage 8 (·.reason) (fun v p => { p with reason := v }) (by decide)
      (by decide))

/-- The start request carries a user id of 64 bits. -/
theorem ConnectionStartReq.bounded : serialize.Bounded (fun _ => (True ∧ True) ∧ True) enc :=
  .seq (.seq
    (@Serialize.bounded_bits ConnectionStartReq 8 (·.cmd) (fun v p => { p with cmd := v }) (by decide)
      (by decide))
    (@Serialize.bounded_bits ConnectionStartReq 16 (·.sid) (fun v p => { p with sid := v })
      (by decide) (by decide)))
    (@Serialize.bounded_uint64 ConnectionStartReq (·.uid) fun v p => { p with uid := v })

/-- Every packet of the factory stops at an assertion when there is no room for its body. -/
theorem FactoryPacket.overruns_serializeWrite {p : FactoryPacket} (h : p.InRange) :
    Overruns c p.serializeWrite p.enc := by
  cases p with
  | testPacketA p => exact p.overruns_write h
  | testPacketB p => exact p.overruns_write h
  | testPacketC p => exact p.overruns_write
  | connectionStartReq p => exact ConnectionStartReq.bounded.overruns c p ⟨⟨trivial, trivial⟩, trivial⟩
  | connectionStartRsp p => exact SessionMessage.bounded.overruns c p ⟨trivial, trivial⟩
  | connectionStopReq p => exact StopMessage.bounded.overruns c p ⟨⟨trivial, trivial⟩, trivial⟩
  | connectionStopRsp p => exact StopMessage.bounded.overruns c p ⟨⟨trivial, trivial⟩, trivial⟩
  | connectionHeartBeat p => exact SessionMessage.bounded.overruns c p ⟨trivial, trivial⟩

/-! ## `WritePacket` without room -/

/-- The prefix bytes are written one by one, so that a buffer that ends within them stops the
loop. -/
theorem overruns_writePrefix (info : PacketInfo) :
    Overruns c (writePrefix info) (.const (List.replicate (8 * info.prefixBytes.toNat) false)) := by
  have hall := Overruns.times
    (Overruns.ignore (@WriteStream.overruns_serializeBits Memory _ c 0 8 (by decide) (by decide)))
    (Writes.ignore (WriteStream.writes_serializeBits 0 (by decide) (by decide)))
    info.prefixBytes.toNat
  rw [concat_zeroBytes] at hall
  exact hall

/-- The slot of the checksum is a word of zeros until the checksum is known. -/
theorem overruns_writeCrc32 (info : PacketInfo) :
    Overruns c (writeCrc32 info) (.const (slotBits info 0)) := by
  unfold writeCrc32 slotBits
  split
  · exact Overruns.nothing _
  · exact Overruns.ignore (WriteStream.overruns_serializeBits 0 (by decide) (by decide))

/-- The packet type is written in the width that the number of types asks for. -/
theorem overruns_writeType {f : PacketFactory} {packetType : Int} (ht : WritableType f packetType) :
    Overruns c (writeType f packetType) (typeEnc f packetType) := by
  obtain ⟨⟨hint1, hint2⟩, -, -⟩ := ht
  refine Overruns.assert ?_
  unfold typeEnc
  split
  · rw [int32_eq ⟨by omega, by omega⟩]
    exact Overruns.ignore (WriteStream.overruns_serializeInteger ⟨by omega, by omega⟩
      ⟨by omega, by omega⟩ (by omega))
  · exact Overruns.nothing _

/-- All stages of `WritePacket` in order, without a header: a packet that does not fit stops at
an assertion, whichever stage it is that has no room left. -/
theorem overruns_writeStages {f : PacketFactory} {info : PacketInfo} {p : FactoryPacket}
    (ht : WritableType f p.getType) (hp : p.InRange) :
    Overruns c (writeStages f info p.toPacket none) (packetEnc f info 0 .empty p.getType p.enc) :=
  Overruns.bind (overruns_writePrefix info) (writes_writePrefix info) <|
    Overruns.bind (overruns_writeCrc32 info) (writes_writeCrc32 info) <|
      Overruns.bind (Overruns.nothing _) Writes.pure <|
        Overruns.bind (overruns_writeType ht) (writes_writeType ht)
          (FactoryPacket.overruns_serializeWrite hp)

/-- Not even the first byte fits where the number of bits has wrapped around. -/
theorem writeStages_negative {f : PacketFactory} {info : PacketInfo} {packet : Packet}
    {header : Option Writable} {s : WriteStream Memory} (hs : s.writer.Rep [])
    (hneg : s.writer.numBits < 0) (hpre : 0 < info.prefixBytes) :
    writeStages f info packet header s = .error .assertion := by
  have hfull := @BitWriter.writeBits_full Memory _ s.writer [] hs 0 8 (by decide) (by decide)
    (by decide) (by rw [List.length_nil]; omega)
  have hbyte : (WriteStream.serializeBits 0 8 : Proc Fault (WriteStream Memory) Unit) s =
      .error .assertion := by
    have hrun : (WriteStream.onWriter (BitWriter.writeBits · 0 8) :
        Proc Fault (WriteStream Memory) Unit) s = .error .assertion := by
      rw [WriteStream.onWriter, hfull]
      rfl
    have h0 : (0 : Int) < 8 := by decide
    have h32 : (8 : Int) ≤ 32 := by decide
    exact (Proc.require_bind_run (e := .assertion) h0).trans
      ((Proc.require_bind_run (e := .assertion) h32).trans hrun)
  obtain ⟨n, hn⟩ : ∃ n, info.prefixBytes.toNat = n + 1 := ⟨info.prefixBytes.toNat - 1, by omega⟩
  refine Proc.bind_run_error ?_
  rw [writePrefix, hn]
  refine Proc.bind_run_error ?_
  rw [Proc.ignore, hbyte]

/-- Without room for all of the packet, `WritePacket` stops at an assertion. -/
theorem writePacket_overruns {f : PacketFactory} {info : PacketInfo} {p : FactoryPacket}
    (hid : info.protocolId ≠ 0) (hpre : 0 < info.prefixBytes) (ht : WritableType f p.getType)
    (hp : p.InRange) {buffer : Memory} {bufferSize : Nat} (hpos : 0 < bufferSize)
    (h4 : bufferSize % 4 = 0) (hlen : bufferSize ≤ buffer.length)
    (hsize : buffer.length < 2147483648) (hsmall : packetBits f info .empty p < 2147483648)
    (hfull : int32 (8 * bufferSize) < packetBits f info .empty p) :
    writePacket f info p.toPacket buffer bufferSize none = .error .assertion := by
  have hbits : (Platform.bits buffer).length = 8 * buffer.length := Bits.length_ofList buffer
  obtain ⟨s, hinit, hrep, hnum, -, -, -, -⟩ :=
    @WriteStream.init_ok Memory _ buffer bufferSize (by omega) (by omega) (by omega) (by omega)
  have hcap : s.writer.numBits = int32 (8 * bufferSize) := by
    rw [hrep.numBits, hnum, show (bufferSize : Int) / 4 * 32 = 8 * bufferSize by omega]
  have hstop : writeStages f info p.toPacket none { s with context := info.context } =
      .error .assertion := by
    by_cases hneg : s.writer.numBits < 0
    · exact writeStages_negative hrep hneg hpre
    · exact overruns_writeStages ht hp _ [] rfl hrep
        (show ((0 : Nat) : Int) ≤ s.writer.numBits by omega)
        (show s.writer.numBits < (packetBits f info .empty p : Int) by rwa [hcap]) hsmall
  have h1 : assert (0 < (bufferSize : Int)) = .ok () := require_eq_ok.mpr (by omega)
  have h2 : assert (info.protocolId ≠ 0) = .ok () := require_eq_ok.mpr hid
  rw [writePacket, h1, h2, hinit]
  change (writeStages f info p.toPacket none { s with context := info.context } >>= _) = _
  rw [hstop]
  rfl

/-! ## the buffer of a processor -/

/-- Whatever the packet, a completed `WritePacket` has only appended to the bits of the stream. -/
theorem appends_writeStages (f : PacketFactory) (info : PacketInfo) (packet : Packet)
    (header : Option Writable) : Appends (writeStages f info packet header) := by
  have hcrc32 : Appends (writeCrc32 info) := by
    unfold writeCrc32
    split
    · exact Appends.pure
    · exact Appends.ignore (WriteStream.appends_serializeBits 0 32)
  have hprefix : Appends (writePrefix info) :=
    Appends.times (Appends.ignore (WriteStream.appends_serializeBits 0 8)) _
  exact Appends.bind hprefix (Appends.bind hcrc32 (Appends.bind (appends_writeHeader header)
    (Appends.bind (appends_writeType f _) packet.appends)))

/-- A completed `WritePacket` leaves a buffer of the same size. -/
theorem length_writePacket {f : PacketFactory} {info : PacketInfo} {packet : Packet}
    {header : Option Writable} {buffer written : Memory} {bufferSize n : Int}
    (h : writePacket f info packet buffer bufferSize header = .ok (n, written))
    (hlen : bufferSize ≤ buffer.length) (hsize : buffer.length < 2147483648) :
    written.length = buffer.length := by
  have hbits : ∀ m : Memory, (Platform.bits m).length = 8 * m.length := Bits.length_ofList
  simp only [writePacket, Except.bind_eq_ok_iff, require_eq_ok] at h
  obtain ⟨-, hpos, -, -, s, hinit, ⟨result, s₁⟩, hstages, hfinish⟩ := h
  obtain ⟨w, hw, hs⟩ := Except.bind_eq_ok_iff.mp hinit
  obtain rfl := Except.pure_eq_ok_iff.mp hs
  obtain ⟨hrep, -, hdata⟩ := BitWriter.init_rep (by omega) (by rw [hbits]; push_cast; omega)
    (by rw [hbits]; omega) hw
  obtain ⟨t, hrep₁, hsame₁⟩ := appends_writeStages f info packet header _ _ _ hstages [] hrep
  have hlength : ∀ s' : WriteStream Memory, s₁.Same s' → s'.getData.length = buffer.length := by
    intro s' hsame
    have hlen' : (Platform.bits s'.getData).length = (Platform.bits w.data).length :=
      (hsame₁.trans hsame).buffer.length
    rw [hdata, hbits, hbits] at hlen'
    omega
  cases result with
  | none =>
      obtain ⟨-, rfl⟩ := Prod.mk.inj (Except.pure_eq_ok_iff.mp hfinish)
      exact hlength s₁ (.refl s₁)
  | some u =>
      obtain ⟨⟨o, s₂⟩, hflush, hfinish⟩ := Except.bind_eq_ok_iff.mp hfinish
      have hlen₂ := hlength s₂ (WriteStream.flush_data hrep₁ hflush).2.1
      simp only at hfinish
      split at hfinish
      · obtain ⟨-, rfl⟩ := Prod.mk.inj (Except.pure_eq_ok_iff.mp hfinish)
        exact hlen₂
      · obtain ⟨stored, hstore, hdone⟩ := Except.bind_eq_ok_iff.mp hfinish
        obtain ⟨-, rfl⟩ := Prod.mk.inj (Except.pure_eq_ok_iff.mp hdone)
        simp only [storeCrc32, Except.bind_eq_ok_iff] at hstore
        obtain ⟨-, -, crc, -, hwrite⟩ := hstore
        exact (length_writeArray hwrite).trans hlen₂

namespace PacketProcessor

/-- The buffer has room for the packet size, which is a number of words. -/
structure Ready (P : PacketProcessor) : Prop where
  pos : 0 < P.maxPacketSize
  emod : P.maxPacketSize % 4 = 0
  le_length : P.maxPacketSize ≤ P.packetBuffer.length
  length_lt : P.packetBuffer.length < 2147483648

/-- A processor after any calls of its two methods. -/
inductive Reachable (f : PacketFactory) (memory : Nat → U8) (protocolId : U32) (maxPacketSize : Int)
    (context : Context) : PacketProcessor → Prop
  | new {P} (h : new memory protocolId maxPacketSize context = .ok P) :
      Reachable f memory protocolId maxPacketSize context P
  | writePacket {P P' packet sequence data n}
      (hP : Reachable f memory protocolId maxPacketSize context P)
      (h : P.writePacket f packet sequence = .ok (data, n, P')) :
      Reachable f memory protocolId maxPacketSize context P'
  | readPacket {P P' uninit packetData n packet sequence}
      (hP : Reachable f memory protocolId maxPacketSize context P)
      (h : P.readPacket f uninit packetData n = .ok (packet, sequence, P')) :
      Reachable f memory protocolId maxPacketSize context P'

/-- The constructor rounds the packet size up to words and keeps room for a prefix behind
them. -/
theorem new_ready {memory : Nat → U8} {protocolId : U32} {maxPacketSize : Int} {context : Context}
    {P : PacketProcessor} (hpos : 1 ≤ maxPacketSize) (hint : IsInt32 maxPacketSize)
    (h : new memory protocolId maxPacketSize context = .ok P) :
    P.Ready ∧ P.protocolId = protocolId := by
  obtain ⟨-, hint2⟩ := hint
  simp only [new, Except.bind_eq_ok_iff, require_eq_ok, Except.pure_eq_ok_iff] at h
  obtain ⟨-, hmod, -, hle, buffer, hbuffer, rfl⟩ := h
  obtain ⟨pad, hpad, hround⟩ : ∃ pad, (0 ≤ pad ∧ pad ≤ 3) ∧
      roundUp maxPacketSize = int32 (maxPacketSize + pad) := by
    refine ⟨if maxPacketSize.tmod 4 ≠ 0 then 4 - maxPacketSize.tmod 4 else 0, ?_, rfl⟩
    rw [tmod_eq 4 (by omega)]
    split <;> omega
  have hup : roundUp maxPacketSize ≤ maxPacketSize + 3 := by
    have hwrap := int32_le (show 0 ≤ maxPacketSize + pad by omega)
    omega
  rw [tmod_eq 4 (by omega)] at hmod
  unfold newArray at hbuffer
  split at hbuffer
  · next h0 =>
    obtain rfl := Except.ok.inj hbuffer
    have hlen : ((uninitArray memory (int32 (maxPacketSize + maxPrefixBytes)).toNat).length : Int) =
        maxPacketSize + 9 ∧ maxPacketSize + 9 < 2147483648 := by
      rw [length_uninitArray, Int.toNat_of_nonneg h0]
      unfold maxPrefixBytes int32 at h0 ⊢
      omega
    obtain ⟨hlen, hsmall⟩ := hlen
    refine ⟨⟨lt_of_lt_of_le (by omega) hle, hmod, ?_, ?_⟩, rfl⟩
    · change roundUp maxPacketSize ≤ ((uninitArray memory _).length : Int)
      omega
    · change (uninitArray memory (int32 (maxPacketSize + maxPrefixBytes)).toNat).length < 2147483648
      omega
  · contradiction

/-- Every processor that comes out of a run of calls is ready for the next call, under the
protocol id it was made with. -/
theorem Reachable.ready {f : PacketFactory} {memory : Nat → U8} {protocolId : U32}
    {maxPacketSize : Int} {context : Context} {P : PacketProcessor} (hpos : 1 ≤ maxPacketSize)
    (hint : IsInt32 maxPacketSize) (h : Reachable f memory protocolId maxPacketSize context P) :
    P.Ready ∧ P.protocolId = protocolId := by
  induction h with
  | new h => exact new_ready hpos hint h
  | @writePacket Q _ packet sequence data n _ h ih =>
      obtain ⟨hready, hid⟩ := ih
      obtain ⟨buffer, hwrite, hcases⟩ := writePacket_inv h
      have hlen := length_writePacket hwrite hready.le_length hready.length_lt
      have hkeeps : ∀ error, Ready { Q with error, packetBuffer := buffer } := fun _ =>
        ⟨hready.pos, hready.emod, hlen ▸ hready.le_length, hlen ▸ hready.length_lt⟩
      rcases hcases with ⟨-, -, rfl⟩ | ⟨-, -, -, rfl⟩
      · exact ⟨hkeeps _, hid⟩
      · exact ⟨hkeeps _, hid⟩
  | readPacket _ h ih =>
      obtain ⟨hready, hid⟩ := ih
      obtain ⟨-, rfl⟩ := readPacket_inv h
      exact ⟨⟨hready.pos, hready.emod, hready.le_length, hready.length_lt⟩, hid⟩

/-- `WritePacket` comes to an end: with the packet in the buffer, or with the error. No
assertion stopped it, of `WriteBits` or others. -/
def Reports (f : PacketFactory) (P : PacketProcessor) (p : FactoryPacket) (sequence : U64) : Prop :=
  ∃ data n P', P.writePacket f p.toPacket sequence = .ok (data, n, P') ∧
    ((∃ buffer, data = some buffer ∧ 0 < n ∧ n ≤ P.maxPacketSize) ∨
      data = none ∧ P'.error = .writePacketFailed)

/-- A processor comes to an end with exactly the packets that fit. -/
theorem writePacket_reports_iff {f : PacketFactory} {memory : Nat → U8} {protocolId : U32}
    {maxPacketSize : Int} {context : Context} {P : PacketProcessor} (hid : protocolId ≠ 0)
    (hpos : 1 ≤ maxPacketSize) (hint : IsInt32 maxPacketSize)
    (hP : Reachable f memory protocolId maxPacketSize context P) {p : FactoryPacket}
    (ht : WritableType f p.getType) (hp : p.InRange) (sequence : U64) :
    Reports f P p sequence ↔
      (packetBits f P.packetInfo .empty p : Int) ≤ int32 (8 * P.maxPacketSize) := by
  obtain ⟨⟨hmax, hround, hlen, hsize⟩, rfl⟩ := hP.ready hpos hint
  obtain ⟨M, hM⟩ := Int.eq_ofNat_of_zero_le (show 0 ≤ P.maxPacketSize by omega)
  have hbits : packetBits f P.packetInfo .empty p = 40 + typeBits f + p.fieldBits.sum :=
    length_packetEnc p.length_enc
  have htype := typeBits_le ht.isInt32
  have hsum := p.fieldBits_sum_le
  have hpre : P.packetInfo.prefixBytes = 1 := rfl
  rw [hM] at hround hlen ⊢
  constructor
  · rintro ⟨data, n, P', hrun, -⟩
    by_contra hfull
    have hstop := @writePacket_overruns f P.packetInfo p hid (by omega) ht hp P.packetBuffer M
      (by omega) (by omega) (by omega) hsize (by omega) (by omega)
    obtain ⟨buffer, hwrite, -⟩ := writePacket_inv hrun
    rw [hM, hstop] at hwrite
    cases hwrite
  · intro hfit
    obtain ⟨crc, written, hwrite, -, hk, hwords, -⟩ :=
      @writePacket_ok f P.packetInfo p.toPacket none .empty p.enc hid (by omega) ht Writes.pure
        (FactoryPacket.writes_serializeWrite hp) P.packetBuffer M (by omega) (by omega) (by omega)
        hsize _ rfl hfit
    obtain ⟨n, hn⟩ : ∃ n : Int, n = ((packetBits f P.packetInfo .empty p + 7) / 8 : Nat) := ⟨_, rfl⟩
    have hle : int32 (8 * (M : Int)) ≤ 8 * M := int32_le (by omega)
    have hrun : P.writePacket f p.toPacket sequence =
        .ok (some written, n, { P with error := .none, packetBuffer := written }) := by
      have hwritten : RudpNetwork.writePacket f P.packetInfo p.toPacket P.packetBuffer
          P.maxPacketSize none = .ok (n, written) := by rw [hM, hn]; exact hwrite
      have hroom : assert (n ≤ P.maxPacketSize) = .ok () := require_eq_ok.mpr (by omega)
      refine Except.bind_eq_ok_iff.mpr ⟨_, hwritten, ?_⟩
      simp only [if_neg (show ¬n ≤ 0 by omega)]
      exact Except.bind_eq_ok_iff.mpr ⟨_, hroom, rfl⟩
    exact ⟨_, n, _, hrun, .inl ⟨written, rfl, by omega, by omega⟩⟩

/-- Twenty-four bytes are enough for a `TestPacketC`. -/
theorem writePacket_reports_iff_sample :
    ∃ P, new (fun _ => 0) 1 24 0 = .ok P ∧ Reports ⟨106⟩ P (.testPacketC .new) 0 := by
  refine ⟨_, rfl, ?_⟩
  exact (@writePacket_reports_iff ⟨106⟩ (fun _ => 0) 1 24 0 _ (by decide) (by decide) (by decide)
    (.new rfl) (.testPacketC .new) ⟨by decide, by decide, by decide⟩ trivial 0).mpr
      (by decide +kernel)

/-- Sixteen bytes are too few for a `TestPacketC`. -/
theorem not_reports_sixteen :
    ∃ P, new (fun _ => 0) 1 16 0 = .ok P ∧ ¬Reports ⟨106⟩ P (.testPacketC .new) 0 := by
  refine ⟨_, rfl, ?_⟩
  rintro ⟨data, n, P', hrun, -⟩
  obtain ⟨buffer, hwrite, -⟩ := writePacket_inv hrun
  have hstop := @writePacket_overruns ⟨106⟩ { protocolId := 1, prefixBytes := 1 }
    (.testPacketC .new) (by decide) (by decide) ⟨by decide, by decide, by decide⟩ trivial
    (uninitArray (fun _ => 0) 25) 16 (by decide) (by decide) (by decide) (by decide)
    (by decide +kernel) (by decide +kernel)
  exact absurd (hstop.symm.trans hwrite) (by simp)

end PacketProcessor

end RudpNetwork
