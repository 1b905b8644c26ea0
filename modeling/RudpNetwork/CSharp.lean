import RudpNetwork.Fields

/-!
# RudpNetwork.CSharp

The C# client: its stream constructors, which copy the byte buffer into an
array of `uint`, and `SerializationExtension.cs`, its counterpart of the
`serialize_*` macros.

A write goes to the wire as the C++ macro of the same kind does
(`Writing.writes_*` and `CSharp.writes_*` name the same encodings), which gives
`wireFormat_agrees`: the two clients fill their buffers with the same bytes, and
these are the plain concatenation of the fields.

## Main results

* `CSharp.writes_*` — every extension method writes the encoding that the macro of its
  kind writes.
* `CSharp.reads_deserializeBits`, `CSharp.reads_deserializeUInt64` — these encodings are
  read back.
-/

namespace RudpNetwork

open MachineInt

namespace CSharp

/-! ## the streams -/

/-- `new WriteStream( buffer, bytes )`. -/
def newWriteStream (buffer : List U8) (bytes : Int) : Except Fault (WriteStream UIntArray) := do
  assert (buffer.length % 4 = 0)
  WriteStream.init (byteArrayToUIntArray buffer) bytes

/-- `new ReadStream( buffer, bytes )`. -/
def newReadStream (buffer : List U8) (bytes : Int) : Except Fault (ReadStream UIntArray) := do
  assert (buffer.length % 4 = 0)
  return ReadStream.init (byteArrayToUIntArray buffer) bytes

/-- `WriteStream.GetData`. -/
def getData (s : WriteStream UIntArray) : List U8 := uintArrayToByteArray s.getData

/-- `BitConverter.GetBytes`, on a little-endian host. -/
def getBytes {w : Nat} (value : BitVec w) : List U8 := Bits.pack (Bits.ofVec value)

/-! ## the extension methods -/

/-- `SerializeInt`. -/
def serializeInt (value min max : Int) : Proc Fault (WriteStream UIntArray) Unit := do
  assert (min < max)
  assert (min ≤ value)
  assert (value ≤ max)
  WriteStream.serializeInteger value min max

/-- `SerializeBits`. -/
def serializeBits (value bits : Int) : Proc Fault (WriteStream UIntArray) Unit := do
  assert (0 < bits)
  assert (bits ≤ 32)
  WriteStream.serializeBits (toU32 value) bits

/-- `SerializeAlign`, for a writing stream. -/
def serializeAlign : Proc Fault (WriteStream UIntArray) Unit :=
  Proc.ignore WriteStream.serializeAlign

/-- `SerializeBool`. -/
def serializeBool (value : Bool) : Proc Fault (WriteStream UIntArray) Unit :=
  WriteStream.serializeBits (if value then 1 else 0) 1

/-- `SerializeFloat`, on the bit pattern. -/
def serializeFloat (value : U32) : Proc Fault (WriteStream UIntArray) Unit :=
  WriteStream.serializeBits (toUInt32 (getBytes value) 0) 32

/-- `SerializeUInt64`. -/
def serializeUInt64 (value : U64) : Proc Fault (WriteStream UIntArray) Unit := do
  let low : U32 := value.setWidth 32 &&& 0xFFFFFFFF#32
  let high : U32 := (value >>> 32).setWidth 32
  Proc.ignore (serializeBits low.toInt 32)
  Proc.ignore (serializeBits high.toInt 32)

/-- `SerializeDouble`, on the bit pattern. -/
def serializeDouble (value : U64) : Proc Fault (WriteStream UIntArray) Unit :=
  Proc.ignore (serializeUInt64 value)

/-- `SerializeBytes`. -/
def serializeBytes (data : List U8) (bytes : Int) : Proc Fault (WriteStream UIntArray) Unit :=
  WriteStream.serializeBytes data bytes

/-- `DeserializeBits`: the result of the read is not looked at. -/
def deserializeBits {τ : Type} (bits : Int) : ReadProc UIntArray τ U32 := do
  assert (0 < bits)
  assert (bits ≤ 32)
  let value ← Proc.attempt (ReadStream.onStream (ReadStream.serializeBits bits))
  return value.getD 0

/-- `DeserializeUInt64`. -/
def deserializeUInt64 {τ : Type} : ReadProc UIntArray τ U64 := do
  let low ← deserializeBits 32
  let high ← deserializeBits 32
  return high.setWidth 64 <<< 32 ||| low.setWidth 64

/-- `DeserializeInt`: the result of the read is not looked at. -/
def deserializeInt {τ : Type} (min max : Int) : ReadProc UIntArray τ Int := do
  assert (min < max)
  let value ← Proc.attempt (ReadStream.onStream (ReadStream.serializeInteger min max))
  return value.getD 0

/-- `DeserializeBytes`: what it returns, and `data` after the bytes were stored. -/
def deserializeBytes {τ : Type} (data : List U8) (bytes : Int) :
    ReadProc UIntArray τ (Bool × List U8) := do
  let stored ← Proc.attempt (ReadStream.onStream (ReadStream.serializeBytes data bytes))
  return (stored.isSome, stored.getD data)

/-- `new byte[length]`. -/
def newByteArray (length : Int) : Except Fault (List U8) := do
  require .badArrayLength (0 ≤ length)
  return List.replicate length.toNat 0

/-- `DeserializeString`; `getString` is `Encoding.Default.GetString`. -/
def deserializeString {τ σ : Type} (getString : List U8 → σ) : ReadProc UIntArray τ σ := do
  let length ← deserializeInt 0 2147483647
  let val ← newByteArray length
  let (_, val) ← deserializeBytes val length
  return getString val

open WriteStream (Writes)
open ReadStream (Reads)

variable {c : Context}

/-- On a buffer of whole words the constructor asserts nothing more than the stream does. -/
theorem newWriteStream_eq {buffer : List U8} (h4 : buffer.length % 4 = 0) (bytes : Int) :
    newWriteStream buffer bytes = WriteStream.init (byteArrayToUIntArray buffer) bytes := by
  have hassert : assert (buffer.length % 4 = 0) = .ok () := require_eq_ok.mpr h4
  rw [newWriteStream, hassert]
  rfl

/-- On a buffer of whole words the reading constructor completes. -/
theorem newReadStream_eq {buffer : List U8} (h4 : buffer.length % 4 = 0) (bytes : Int) :
    newReadStream buffer bytes = .ok (ReadStream.init (byteArrayToUIntArray buffer) bytes) := by
  have hassert : assert (buffer.length % 4 = 0) = .ok () := require_eq_ok.mpr h4
  rw [newReadStream, hassert]
  rfl

/-- `BitConverter.ToUInt32` undoes `BitConverter.GetBytes`. -/
theorem toUInt32_getBytes (value : U32) : toUInt32 (getBytes value) 0 = value := by
  have hall : Bits.slice (getBytes value) 0 4 = getBytes value := by
    rw [← Bits.take_eq_slice, List.take_of_length_le (by simp [getBytes])]
  rw [toUInt32, hall, getBytes, Bits.ofList_pack_of_dvd (by simp), Bits.toVec_ofVec]

/-- `SerializeInt` writes the offset of the value in its range, as `serialize_int` does. -/
theorem writes_serializeInt {value min max : Int} (hmin : IsInt32 min) (hmax : IsInt32 max)
    (hlt : min < max) (hlo : min ≤ value) (hhi : value ≤ max) :
    Writes c (serializeInt value min max) (Wire.int value min max) :=
  Writes.assert hlt (Writes.assert hlo (Writes.assert hhi
    (WriteStream.writes_serializeInteger hmin hmax hlt hlo hhi)))

/-- The cast to `int` and back keeps the bits. -/
theorem writes_serializeBits (value : U32) {bits : Int} (h0 : 0 < bits) (h32 : bits ≤ 32) :
    Writes c (serializeBits value.toInt bits) (Wire.bits value bits) := by
  have hcast : toU32 value.toInt = value := BitVec.ofInt_toInt
  refine Writes.assert h0 (Writes.assert h32 ?_)
  rw [hcast]
  exact WriteStream.writes_serializeBits value h0 h32

/-- `SerializeAlign` fills up to the next byte. -/
theorem writes_serializeAlign : Writes c serializeAlign .align :=
  Writes.ignore WriteStream.writes_serializeAlign

/-- `SerializeBool` writes one bit. -/
theorem writes_serializeBool (value : Bool) : Writes c (serializeBool value) (Wire.bool value) := by
  rw [← Wire.bits_bool]
  exact WriteStream.writes_serializeBits _ (by decide) (by decide)

/-- `SerializeFloat` writes the four bytes of the value, which are those of its bit pattern. -/
theorem writes_serializeFloat (value : U32) :
    Writes c (serializeFloat value) (Wire.bits value 32) := by
  rw [serializeFloat, toUInt32_getBytes]
  exact WriteStream.writes_serializeBits value (by decide) (by decide)

/-- `SerializeUInt64` writes the low word first, as `serialize_uint64` does. -/
theorem writes_serializeUInt64 (value : U64) :
    Writes c (serializeUInt64 value) (Wire.uint64 value) := by
  have hlow : value.setWidth 32 &&& 0xFFFFFFFF#32 = (value &&& 0xFFFFFFFF#64).setWidth 32 := by
    rw [BitVec.setWidth_and]
    rfl
  have hhalf : ∀ half : U32, Writes c (serializeBits half.toInt 32) (Wire.bits half 32) :=
    fun half => writes_serializeBits half (by decide) (by decide)
  have hcombined := Writes.bind (Writes.ignore (hhalf ((value &&& 0xFFFFFFFF#64).setWidth 32)))
    (Writes.ignore (hhalf ((value >>> 32).setWidth 32)))
  rw [Wire.bits_halves] at hcombined
  rw [serializeUInt64, hlow]
  exact hcombined

/-- `SerializeDouble` goes through the 64 bits of the value. -/
theorem writes_serializeDouble (value : U64) :
    Writes c (serializeDouble value) (Wire.uint64 value) :=
  Writes.ignore (writes_serializeUInt64 value)

/-- `SerializeBytes` aligns and then writes the bytes. -/
theorem writes_serializeBytes (data : List U8) :
    Writes c (serializeBytes data data.length) (Wire.bytes data) :=
  Writing.writes_serializeBytes data

/-- A value of at most 32 bits comes back whole. -/
theorem reads_deserializeBits {τ : Type} {w : Nat} (value : BitVec w) (h0 : 0 < w) (h32 : w ≤ 32)
    (o : τ) :
    Reads c (deserializeBits w : ReadProc UIntArray τ U32) (Wire.bits (value.setWidth 32) w) o o
      (value.setWidth 32) := by
  have hr := @ReadStream.reads_serializeBits UIntArray _ c τ (value.setWidth 32) w
    (by omega) (by omega) o
  rw [Int.toNat_natCast, Wire.ofNat_mod_narrow] at hr
  rw [← Enc.append_empty (Wire.bits (value.setWidth 32) w)]
  exact Reads.assert (by omega) (Reads.assert (by omega)
    (Reads.bind (Reads.attempt hr) (Reads.pure _ o)))

/-- `DeserializeUInt64` puts the two words together again. -/
theorem reads_deserializeUInt64 {τ : Type} (value : U64) (o : τ) :
    Reads c (deserializeUInt64 : ReadProc UIntArray τ U64) (Wire.uint64 value) o o value := by
  obtain ⟨lo, hlo⟩ : ∃ lo : U32, lo = (value &&& 0xFFFFFFFF#64).setWidth 32 := ⟨_, rfl⟩
  obtain ⟨hi, hhi⟩ : ∃ hi : U32, hi = (value >>> 32).setWidth 32 := ⟨_, rfl⟩
  have hrlo := @reads_deserializeBits c τ 32 lo (by decide) (by decide) o
  have hrhi := @reads_deserializeBits c τ 32 hi (by decide) (by decide) o
  rw [BitVec.setWidth_eq] at hrlo hrhi
  have hvalue : value = hi.setWidth 64 <<< 32 ||| lo.setWidth 64 := by
    rw [hlo, hhi, Wire.halves_eq]
  have hboth := Reads.bind (f := fun low => do
    let high ← deserializeBits 32
    return high.setWidth 64 <<< 32 ||| low.setWidth 64) hrlo (Reads.bind hrhi (Reads.pure _ o))
  rw [Enc.append_empty] at hboth
  rw [← Wire.bits_halves, ← hlo, ← hhi, hvalue]
  exact hboth

end CSharp

end RudpNetwork
