import RudpNetwork.Text
import RudpNetwork.TestStream
import RudpNetwork.WireFormat

/-!
# RudpNetwork.ClientTest

`TestObject` and `TestStream` of the C# client, for any object instead of the one of
`Init`.

Unlike the C++ object of this name it has ranges that are fixed, compares its members
with `==`, which is that of IEEE 754 for two of them, and has a text.  The object that is
read equals the one that was written if and only if the wire can carry it and it equals
itself (`clientStream_equal_iff`).

## Main results

* `reads_serializeRead` — what the reader stores is `received data`, for any sendable
  object.
* `clientStream_equal_iff` — the objects for which `TestStream` succeeds.
-/

namespace RudpNetwork

open MachineInt
open ReadStream (onStream assign)

/-! ## floating-point numbers -/

/-- Whether a pattern is that of no number: without its sign it lies behind infinity. -/
def isNaN {w : Nat} (infinity x : BitVec w) : Bool := infinity < x <<< 1 >>> 1

/-- `==` on floating-point numbers, by their patterns. -/
def floatEquals {w : Nat} (infinity x y : BitVec w) : Bool :=
  !isNaN infinity x && !isNaN infinity y && (x = y || x <<< 1 = 0 && y <<< 1 = 0)

/-- A number equals itself. -/
theorem floatEquals_self {w : Nat} (infinity x : BitVec w) :
    floatEquals infinity x x = !isNaN infinity x := by
  simp [floatEquals]

/-- `float.PositiveInfinity`. -/
def floatInfinity : U32 := 0x7F800000

/-- `double.PositiveInfinity`. -/
def doubleInfinity : U64 := 0x7FF0000000000000

namespace CSharp

/-! ## the source methods -/

/-- `class TestData`. Floating-point members stand as their bit patterns. -/
@[ext] structure TestData where
  intA : Int
  intB : Int
  byteC : U8
  shortD : U16
  boolE : Bool
  floatF : U32
  uint64G : U64
  doubleH : U64
  bytesI : CArray U8 17
  strJ : List Char

namespace TestData

/-- `new TestData()`. -/
def new : TestData where
  intA := 0
  intB := 0
  byteC := 0
  shortD := 0
  boolE := false
  floatF := 0
  uint64G := 0
  doubleH := 0
  bytesI := .fill 17 0
  strJ := []

/-- `Equals`. -/
def equals (data target : TestData) : Bool :=
  data.intA = target.intA && data.intB = target.intB && data.byteC = target.byteC &&
    data.shortD = target.shortD && data.boolE = target.boolE &&
    floatEquals floatInfinity data.floatF target.floatF && data.uint64G = target.uint64G &&
    floatEquals doubleInfinity data.doubleH target.doubleH &&
    data.bytesI.toList = target.bytesI.toList && data.strJ = target.strJ

end TestData

/-- `DeserializeBool`. -/
def deserializeBool {τ : Type} : ReadProc UIntArray τ Bool := do
  let value ← Proc.attempt (onStream (ReadStream.serializeBits 1))
  return 0 < value.getD 0

/-- `DeserializeFloat`, on the bit pattern. -/
def deserializeFloat {τ : Type} : ReadProc UIntArray τ U32 := do
  let value ← Proc.attempt (onStream (ReadStream.serializeBits 32))
  return toUInt32 (getBytes (value.getD 0)) 0

/-- `DeserializeDouble`, on the bit pattern. -/
def deserializeDouble {τ : Type} : ReadProc UIntArray τ U64 := deserializeUInt64

/-- `SerializeAlign`, for a reading stream. -/
def deserializeAlign {τ : Type} : ReadProc UIntArray τ Unit :=
  Proc.ignore (onStream ReadStream.serializeAlign)

namespace TestObject

/-- `SerializeWrite`. -/
def serializeWrite (data : TestData) : Proc Fault (WriteStream UIntArray) Unit := do
  Proc.ignore (serializeInt data.intA (-100) 100)
  Proc.ignore (serializeInt data.intB (-1000) 1000)
  Proc.ignore (serializeBits data.byteC.toNat 4)
  Proc.ignore (serializeBits data.shortD.toInt 8)
  serializeAlign
  Proc.ignore (serializeBool data.boolE)
  Proc.ignore (serializeFloat data.floatF)
  Proc.ignore (serializeUInt64 data.uint64G)
  Proc.ignore (serializeDouble data.doubleH)
  Proc.ignore (serializeBytes data.bytesI.toList data.bytesI.toList.length)
  Proc.ignore (serializeString data.strJ)

/-- `SerializeRead`. -/
def serializeRead : ReadProc UIntArray TestData Unit := do
  let intA ← deserializeInt (-100) 100
  assign ({ · with intA })
  let intB ← deserializeInt (-1000) 1000
  assign ({ · with intB })
  let byteC ← deserializeBits 4
  assign ({ · with byteC := byteC.setWidth 8 })
  let shortD ← deserializeBits 8
  assign ({ · with shortD := shortD.setWidth 16 })
  deserializeAlign
  let boolE ← deserializeBool
  assign ({ · with boolE })
  let floatF ← deserializeFloat
  assign ({ · with floatF })
  let uint64G ← deserializeUInt64
  assign ({ · with uint64G })
  let doubleH ← deserializeDouble
  assign ({ · with doubleH })
  let data ← ReadStream.locals
  let bytesI ← deserializeBytes data.bytesI.toList data.bytesI.toList.length
  assign fun data => { data with bytesI := data.bytesI.put 0 bytesI.2 }
  let strJ ← deserializeString Utf8.decode
  assign ({ · with strJ })

/-- `TestStream`, with the object that `Init` fills as an argument, and the result of the
comparison as its value. -/
def testStream (obj : TestData) : Except Fault Bool := do
  let buffer : List U8 := List.replicate 1024 0
  let writeSteam ← newWriteStream buffer 1024
  let (_, writeSteam) ← serializeWrite obj writeSteam
  let (_, writeSteam) ← WriteStream.flush writeSteam
  let bytesWritten := writeSteam.getBytesProcessed
  let copied ← readArray (getData writeSteam) 0 bytesWritten
  let bufferRead ← writeArray (List.replicate 1024 0) 0 copied
  let readSteam ← newReadStream bufferRead bytesWritten
  let (_, _, readObject) ← serializeRead (readSteam, .new)
  return readObject.equals obj

/-! ## what is sent -/

/-- The assertions of the writing methods hold, and the buffer has room. -/
structure Sendable (data : TestData) : Prop where
  intA : -100 ≤ data.intA ∧ data.intA ≤ 100
  intB : -1000 ≤ data.intB ∧ data.intB ≤ 1000
  strJ : Utf8.utf16Length data.strJ ≤ 978

/-- What is sent of the two members that are sent with some of their bits. -/
def low (value : U32) (n : Nat) : U32 := (value.setWidth n).setWidth 32

/-- The encoding of an object. -/
def enc (data : TestData) : Enc :=
  Wire.int data.intA (-100) 100 ++ (Wire.int data.intB (-1000) 1000 ++
    (Wire.bits (low (toU32 data.byteC.toNat) 4) 4 ++ (Wire.bits (low (toU32 data.shortD.toInt) 8) 8 ++
      (.align ++ (Wire.bool data.boolE ++ (Wire.bits data.floatF 32 ++ (Wire.uint64 data.uint64G ++
        (Wire.uint64 data.doubleH ++ (Wire.bytes data.bytesI.toList ++
          Wire.string (sentBytes data.strJ) 2147483648)))))))))

/-- What is read of an object. -/
def received (data : TestData) : TestData :=
  { data with
    byteC := (low (toU32 data.byteC.toNat) 4).setWidth 8
    shortD := (low (toU32 data.shortD.toInt) 8).setWidth 16
    strJ := Utf8.decode (sentBytes data.strJ) }

open WriteStream (Writes)
open ReadStream (Reads)

variable {c : Context} {data : TestData}

/-- Only the low bits of an `int` are sent. -/
theorem writes_low (value : Int) {n : Nat} (h0 : 0 < n) (h32 : n ≤ 32) :
    Writes c (Proc.ignore (serializeBits value n)) (Wire.bits (low (toU32 value) n) n) := by
  rw [low, Wire.bits_setWidth]
  exact Writes.ignore (Writes.assert (by omega) (Writes.assert (by omega)
    (WriteStream.writes_serializeBits (toU32 value) (by omega) (by omega))))

/-- The members of a sendable object go to the wire in the order of `SerializeWrite`. -/
theorem writes_serializeWrite (h : Sendable data) : Writes c (serializeWrite data) (enc data) :=
  Writes.bind (Writes.ignore (writes_serializeInt ⟨by decide, by decide⟩ ⟨by decide, by decide⟩
    (by decide) h.intA.1 h.intA.2)) <|
  Writes.bind (Writes.ignore (writes_serializeInt ⟨by decide, by decide⟩ ⟨by decide, by decide⟩
    (by decide) h.intB.1 h.intB.2)) <|
  Writes.bind (writes_low _ (by decide) (by decide)) <|
  Writes.bind (writes_low _ (by decide) (by decide)) <|
  Writes.bind writes_serializeAlign <|
  Writes.bind (Writes.ignore (writes_serializeBool _)) <|
  Writes.bind (Writes.ignore (writes_serializeFloat _)) <|
  Writes.bind (Writes.ignore (writes_serializeUInt64 _)) <|
  Writes.bind (Writes.ignore (writes_serializeDouble _)) <|
  Writes.bind (Writes.ignore (writes_serializeBytes _)) <|
  Writes.ignore (writes_serializeString (lt_of_le_of_lt h.strJ (by decide)))

/-! ## what is read -/

/-- A member that is read and stored. -/
theorem reads_member {τ α : Type} {x : ReadProc UIntArray τ α} {set : α → τ → τ}
    {rest : ReadProc UIntArray τ Unit} {e f : Enc} {o o' : τ} {a : α} (hx : Reads c x e o o a)
    (hrest : ∀ o₁, o₁ = set a o → Reads c rest f o₁ o' ()) :
    Reads c (x >>= fun a => assign (set a) >>= fun _ => rest) (e ++ f) o o' () := by
  have hstore := Reads.bind (f := fun _ => rest) (Reads.assign (c := c) (set a) o) (hrest _ rfl)
  rw [Enc.empty_append] at hstore
  exact Reads.bind hx hstore

/-- `DeserializeInt` puts the lower end of the range back under the offset. -/
theorem reads_deserializeInt {τ : Type} {value min max : Int} (hmin : IsInt32 min)
    (hmax : IsInt32 max) (hlt : min < max) (hlo : min ≤ value) (hhi : value ≤ max) (o : τ) :
    Reads c (deserializeInt min max : ReadProc UIntArray τ Int) (Wire.int value min max) o o
      value := by
  rw [← Enc.append_empty (Wire.int value min max)]
  exact Reads.assert hlt (Reads.bind (Reads.attempt
    (ReadStream.reads_serializeInteger hmin hmax hlt hlo hhi o)) (Reads.pure _ o))

/-- `DeserializeBits` gives the low bits back. -/
theorem reads_low {τ : Type} (value : U32) {n : Nat} (h0 : 0 < n) (h32 : n ≤ 32) (o : τ) :
    Reads c (deserializeBits n : ReadProc UIntArray τ U32) (Wire.bits (low value n) n) o o
      (low value n) :=
  reads_deserializeBits (value.setWidth n) h0 h32 o

/-- `DeserializeBool` reads one bit. -/
theorem reads_deserializeBool {τ : Type} (value : Bool) (o : τ) :
    Reads c (deserializeBool : ReadProc UIntArray τ Bool) (Wire.bool value) o o value := by
  have hbit := @ReadStream.reads_serializeBits UIntArray _ c τ (if value then 1 else 0) 1
    (by decide) (by decide) o
  have hread := Reads.bind (f := fun v : Option U32 => pure (decide (0 < v.getD 0)))
    (Reads.attempt hbit) (Reads.pure _ o)
  rw [Enc.append_empty] at hread
  cases value with
  | true => exact hread
  | false => exact hread

/-- `DeserializeFloat` goes through the four bytes of the bit pattern. -/
theorem reads_deserializeFloat {τ : Type} (value : U32) (o : τ) :
    Reads c (deserializeFloat : ReadProc UIntArray τ U32) (Wire.bits value 32) o o value := by
  have hbits := @ReadStream.reads_serializeBits UIntArray _ c τ value 32 (by decide) (by decide) o
  have hvalue : BitVec.ofNat 32 (value.toNat % 2 ^ (32 : Int).toNat) = value := by
    rw [show (32 : Int).toNat = 32 from rfl, Nat.mod_eq_of_lt value.isLt, BitVec.ofNat_toNat,
      BitVec.setWidth_eq]
  rw [hvalue] at hbits
  have hread := Reads.bind (f := fun v : Option U32 => pure (toUInt32 (getBytes (v.getD 0)) 0))
    (Reads.attempt hbits) (Reads.pure _ o)
  rw [Enc.append_empty, Option.getD_some, toUInt32_getBytes] at hread
  exact hread

/-- The whole array is read and stored. -/
theorem reads_bytesI {o o' : TestData} {rest : ReadProc UIntArray TestData Unit} {f : Enc}
    (array : CArray U8 17)
    (hrest : ∀ o₁, o₁ = { o with bytesI := array } → Reads c rest f o₁ o' ()) :
    Reads c (do
        let data ← ReadStream.locals
        let bytesI ← deserializeBytes data.bytesI.toList data.bytesI.toList.length
        assign fun data => { data with bytesI := data.bytesI.put 0 bytesI.2 }
        rest)
      (Wire.bytes array.toList ++ f) o o' () := by
  have hlen : array.toList.length = o.bytesI.toList.length :=
    array.length_toList.trans o.bytesI.length_toList.symm
  have hbytes := @ReadStream.reads_serializeBytes UIntArray _ c TestData o.bytesI.toList
    array.toList o hlen.le
  rw [splice_all hlen.symm, hlen] at hbytes
  have hput : o.bytesI.put 0 array.toList = array :=
    CArray.ext ((CArray.toList_put (by rw [array.length_toList])).trans (splice_all hlen.symm))
  have hstored : Reads c (deserializeBytes o.bytesI.toList o.bytesI.toList.length :
      ReadProc UIntArray TestData (Bool × List U8)) (Wire.bytes array.toList ++ .empty) o o
      (true, array.toList) := Reads.bind (Reads.attempt hbytes) (Reads.pure _ o)
  rw [Enc.append_empty] at hstored
  have hmember := @reads_member c TestData (Bool × List U8) _
    (fun bytesI data => { data with bytesI := data.bytesI.put 0 bytesI.2 }) _ _ _ o o' _ hstored
    fun o₁ h => hrest o₁ (by rw [h, hput])
  rw [← Enc.empty_append (Wire.bytes _ ++ f)]
  exact Reads.bind (Reads.locals o) hmember

/-- `SerializeRead` stores every member as the wire has carried it. -/
theorem reads_serializeRead (h : Sendable data) (o : TestData) :
    Reads c serializeRead (enc data) o (received data) () := by
  have hlen : (sentBytes data.strJ).length < 2147483648 :=
    (length_sentBytes data.strJ).trans_lt (lt_of_le_of_lt h.strJ (by decide))
  refine reads_member (reads_deserializeInt ⟨by decide, by decide⟩ ⟨by decide, by decide⟩
    (by decide) h.intA.1 h.intA.2 _) fun o₁ h₁ => ?_
  refine reads_member (reads_deserializeInt ⟨by decide, by decide⟩ ⟨by decide, by decide⟩
    (by decide) h.intB.1 h.intB.2 _) fun o₂ h₂ => ?_
  refine reads_member (reads_low _ (by decide) (by decide) _) fun o₃ h₃ => ?_
  refine reads_member (reads_low _ (by decide) (by decide) _) fun o₄ h₄ => ?_
  refine Reads.bind (Reads.ignore (ReadStream.reads_serializeAlign _)) ?_
  refine reads_member (reads_deserializeBool _ _) fun o₅ h₅ => ?_
  refine reads_member (reads_deserializeFloat _ _) fun o₆ h₆ => ?_
  refine reads_member (reads_deserializeUInt64 _ _) fun o₇ h₇ => ?_
  refine reads_member (reads_deserializeUInt64 _ _) fun o₈ h₈ => ?_
  refine reads_bytesI data.bytesI fun o₉ h₉ => ?_
  have hlast : received data = { o₉ with strJ := Utf8.decode (sentBytes data.strJ) } := by
    rw [h₉, h₈, h₇, h₆, h₅, h₄, h₃, h₂, h₁]
    rfl
  rw [← Enc.append_empty (Wire.string _ _), hlast]
  exact Reads.bind (reads_deserializeString Utf8.decode hlen _) (Reads.assign _ _)

/-! ## the trip -/

/-- The text is the only member whose length is not fixed. -/
theorem length_enc (data : TestData) :
    (enc data 0).length = 368 + 8 * Utf8.utf16Length data.strJ := by
  have hstring := length_sentBytes data.strJ
  have hbytes := data.bytesI.length_toList
  simp only [enc, Wire.int, Wire.bits, Wire.bool, Wire.uint64, Wire.bytes, Wire.string,
    Enc.length_append, Enc.const, Enc.align, Bits.length_ofNat, Bits.length_ofVec,
    Bits.length_ofList, Bits.length_padding, List.length_singleton, hstring, hbytes]
  have hA : (RudpNetwork.bitsRequired (toU32 (-100)) (toU32 100)).toNat = 8 := by decide
  have hB : (RudpNetwork.bitsRequired (toU32 (-1000)) (toU32 1000)).toNat = 11 := by decide
  have hJ : (RudpNetwork.bitsRequired (toU32 0) (toU32 (2147483648 - 1))).toNat = 31 := by decide
  simp only [hA, hB, hJ, Int.reduceToNat, Nat.reduceAdd, Nat.reduceMul, Nat.reduceSub,
    Nat.reduceMod]
  omega

/-- The written object, flushed: its bytes at the start of the buffer. -/
theorem exists_written (h : Sendable data) :
    ∃ s s₁ s₂, newWriteStream (List.replicate 1024 0) 1024 = .ok s ∧
      serializeWrite data s = .ok (some (), s₁) ∧ WriteStream.flush s₁ = .ok (some (), s₂) ∧
      s₂.getBytesProcessed = ((Bits.pack (enc data 0)).length : Int) ∧
      readArray (getData s₂) 0 s₂.getBytesProcessed = .ok (Bits.pack (enc data 0)) := by
  have hlen := length_enc data
  have hshort := h.strJ
  obtain ⟨buffer, hbuffer⟩ : ∃ buffer : List U8, buffer = List.replicate 1024 0 := ⟨_, rfl⟩
  have h1024 : buffer.length = 1024 := by rw [hbuffer, List.length_replicate]
  have hbits : (Platform.bits (byteArrayToUIntArray buffer)).length = 8192 := by
    change (Bits.ofList (byteArrayToUIntArray buffer)).length = _
    rw [ofList_byteArrayToUIntArray (by omega), Bits.length_ofList, h1024]
  obtain ⟨s, hinit, hroom, hrun⟩ := @WriteStream.writes_fresh UIntArray _ _ _
    (writes_serializeWrite h) (byteArrayToUIntArray buffer) 1024 (by decide) (by decide)
    (by rw [hbits]; decide) (by rw [hbits]; decide)
  have hroom' : s.getBitsRemaining = 8192 := hroom.trans (by decide)
  obtain ⟨s₁, s₂, hwrite, hflush, hstored, hsize, -, hbytes, -⟩ := hrun (by omega)
  have hdata : Platform.bits s₂.getData = Bits.ofList (getData s₂) :=
    (ofList_uintArrayToByteArray s₂.getData).symm
  rw [hdata] at hstored hsize
  rw [Bits.length_ofList, hbits] at hsize
  rw [← newWriteStream_eq (by omega), hbuffer] at hinit
  have htake := take_eq_pack hstored
  refine ⟨s, s₁, s₂, hinit, hwrite, hflush, by rw [hbytes, Bits.length_pack], ?_⟩
  rw [hbytes, readArray_eq_ok, ← htake, Bits.take_eq_slice]
  exact ⟨.inr ⟨le_rfl, by omega⟩, rfl⟩

/-- The test writes, flushes, reads, and compares what came back with the object. -/
theorem testStream_eq (h : Sendable data) :
    testStream data = .ok ((received data).equals data) := by
  obtain ⟨s, s₁, s₂, hinit, hwrite, hflush, hbytes, hcopied⟩ := exists_written h
  obtain ⟨l, hl⟩ : ∃ l, l = enc data 0 := ⟨_, rfl⟩
  obtain ⟨zeros, hzeros⟩ : ∃ zeros : List U8, zeros = List.replicate 1024 0 := ⟨_, rfl⟩
  have hlen := length_enc data
  have hshort := h.strJ
  have hpack := Bits.length_pack l
  have h1024 : zeros.length = 1024 := by rw [hzeros, List.length_replicate]
  rw [← hl] at hbytes hcopied hlen
  have hpaste : writeArray zeros 0 (Bits.pack l) = .ok (Bits.splice zeros 0 (Bits.pack l)) :=
    writeArray_eq_ok le_rfl (by omega)
  obtain ⟨buffer, hbuffer⟩ : ∃ buffer, buffer = Bits.splice zeros 0 (Bits.pack l) := ⟨_, rfl⟩
  have hsize : buffer.length = 1024 := by
    rw [hbuffer, Bits.length_splice (by omega), h1024]
  have hbits : Platform.bits (byteArrayToUIntArray buffer) = Bits.ofList buffer :=
    ofList_byteArrayToUIntArray (by omega)
  have hslice : Bits.slice (Bits.ofList buffer) 0 l.length = l := by
    rw [hbuffer, Bits.splice, List.take_zero, List.nil_append]
    exact Bits.slice_pack l _
  have hat := @ReadStream.init_at UIntArray _ (byteArrayToUIntArray buffer) (Bits.pack l).length
    (by omega) (by omega) (by rw [hbits, Bits.length_ofList, hsize]; omega)
  have hN : int32 (((Bits.pack l).length : Int) * 8) = 8 * (Bits.pack l).length := by
    rw [int32_eq ⟨by omega, by omega⟩]
    omega
  rw [hbits, hN] at hat
  obtain ⟨r, hread, -⟩ := reads_serializeRead h .new _ _ _ 0 rfl hat (by rw [← hl]; exact hslice)
    (by rw [← hl]; omega)
  rw [← hzeros] at hinit
  rw [← hbuffer] at hpaste
  have hnew := newReadStream_eq (by omega : buffer.length % 4 = 0) (Bits.pack l).length
  rw [← hbytes] at hread hnew
  rw [testStream, ← hzeros]
  exact Except.bind_eq_ok_iff.mpr ⟨_, hinit, Except.bind_eq_ok_iff.mpr ⟨_, hwrite,
    Except.bind_eq_ok_iff.mpr ⟨_, hflush, Except.bind_eq_ok_iff.mpr ⟨_, hcopied,
    Except.bind_eq_ok_iff.mpr ⟨_, hpaste, Except.bind_eq_ok_iff.mpr ⟨_, hnew,
    Except.bind_eq_ok_iff.mpr ⟨_, hread, rfl⟩⟩⟩⟩⟩⟩⟩

/-! ## what the trip preserves -/

/-- What the wire can carry and equals itself. -/
structure Faithful (data : TestData) : Prop where
  byteC : data.byteC.toNat < 16
  shortD : data.shortD.toNat < 256
  floatF : isNaN floatInfinity data.floatF = false
  doubleH : isNaN doubleInfinity data.doubleH = false
  strJ : (∀ c ∈ data.strJ, Utf8.IsAscii c) ∨
    ∃ t, data.strJ = t ++ [Utf8.replacement] ∧ ∀ c ∈ t, Utf8.IsAscii c

/-- Only bits that a `short` has are sent of one. -/
theorem low_toInt (value : U16) {n : Nat} (hn : n ≤ 16) :
    low (toU32 value.toInt) n = low (value.setWidth 32) n := by
  have hsent : (value.signExtend 32).setWidth n = (value.setWidth 32).setWidth n := by
    apply BitVec.eq_of_getLsbD_eq
    intro i hi
    have hi16 : i < 16 := by omega
    rw [BitVec.getLsbD_setWidth, BitVec.getLsbD_setWidth, BitVec.getLsbD_setWidth,
      BitVec.getLsbD_signExtend, if_pos hi16]
  exact congrArg (BitVec.setWidth 32) hsent

/-- The comparison succeeds for an object that the wire can carry and that equals itself. -/
theorem received_equals_iff (data : TestData) :
    (received data).equals data = true ↔ Faithful data := by
  have hbyte := @RudpNetwork.TestObject.setWidth_eq_iff 8 4 data.byteC (by decide)
  have hshort := @RudpNetwork.TestObject.setWidth_eq_iff 16 8 data.shortD (by decide)
  have hunsigned : toU32 data.byteC.toNat = data.byteC.setWidth 32 := by
    rw [toU32, BitVec.ofInt_natCast, BitVec.ofNat_toNat]
  rw [← low] at hbyte hshort
  simp only [TestData.equals, received, low_toInt data.shortD (show 8 ≤ 16 by decide), hunsigned,
    Bool.and_eq_true, decide_eq_true_eq, floatEquals_self, Bool.not_eq_true', hbyte, hshort,
    true_and, and_true]
  constructor
  · rintro ⟨⟨⟨⟨hb, hs⟩, hf⟩, hd⟩, hj⟩
    exact ⟨hb, hs, hf, hd, (decode_sentBytes_eq_iff _).mp hj⟩
  · rintro ⟨hb, hs, hf, hd, hj⟩
    exact ⟨⟨⟨⟨hb, hs⟩, hf⟩, hd⟩, (decode_sentBytes_eq_iff _).mpr hj⟩

/-- For any object that meets the assertions and fits the buffer, `TestStream` stops at
none, and it finds the object that was read equal to the one that was written if and only if
the wire can carry it and it equals itself. -/
theorem clientStream_equal_iff (h : Sendable data) :
    ∃ equal, testStream data = .ok equal ∧ (equal = true ↔ Faithful data) :=
  ⟨_, testStream_eq h, received_equals_iff data⟩

/-- The object of `Init`, up to its random bytes. -/
def sampleData : TestData where
  intA := -9
  intB := -999
  byteC := 3
  shortD := 6
  boolE := false
  floatF := 0x40490FDA
  uint64G := 0xFFFFFFFFFFFFFFFF
  doubleH := 0xFFEFFFFFFFFFFFFF
  bytesI := .fill 17 9
  strJ := ['H', 'e', 'l', 'l', 'o', ' ', 'W', 'o', 'r', 'l', 'd', '!']

/-- The object of `Init` passes its test. -/
theorem clientStream_equal_iff_sample : testStream sampleData = .ok true := by
  obtain ⟨equal, hrun, hiff⟩ := @clientStream_equal_iff sampleData
    ⟨by decide, by decide, by decide⟩
  have hcarried : Faithful sampleData :=
    ⟨by decide, by decide, by decide, by decide, .inl (by simp [sampleData, Utf8.IsAscii])⟩
  rw [hrun, hiff.mpr hcarried]

end TestObject

end CSharp

end RudpNetwork
