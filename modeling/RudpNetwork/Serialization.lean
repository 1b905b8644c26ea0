import RudpNetwork.Stream

/-!
# RudpNetwork.Serialization

The `serialize_*` macros of `Serialization.h`.  Each stands for two pieces of
code, chosen by `Stream::IsWriting`: those of `Writing` send a value, those of
`Reading` fill a variable of the caller.

`Wire` says what each kind of field is on the wire.  Every macro gets one lemma
in each direction, and both are stated with the same encoding: that is all the
round trips of packets and streams rest on.

## Main results

* `Writing.writes_*` — what the macros send.
* `Reading.reads_*`, `Reading.takes_*`, `Reading.safe_*` — what they read of it, and of any
  other bits.
-/

namespace RudpNetwork

open MachineInt

/-! ## the wire format -/

namespace Wire

/-- An integer: its offset into the range, in as many bits as the range needs. -/
def int (value min max : Int) : Enc :=
  .const (Bits.ofNat (bitsRequired (toU32 min) (toU32 max)).toNat (value - min).toNat)

/-- The low `width` bits of a value. -/
def bits (value : U32) (width : Int) : Enc := .const (Bits.ofNat width.toNat value.toNat)

def bool (value : Bool) : Enc := .const [value]

def uint64 (value : U64) : Enc := .const (Bits.ofVec value)

/-- Bytes start at a byte boundary. -/
def bytes (data : List U8) : Enc := .align ++ .const (Bits.ofList data)

/-- A length, and the characters as bytes. -/
def string (chars : List U8) (bufferSize : Int) : Enc :=
  int chars.length 0 (bufferSize - 1) ++ bytes chars

/-- A `bool` is one bit. -/
theorem bits_bool (value : Bool) : bits (if value then 1 else 0) 1 = bool value := by
  cases value <;> rfl

/-- The two halves of a 64-bit value, the low one first. -/
theorem bits_halves (value : U64) :
    bits ((value &&& 0xFFFFFFFF#64).setWidth 32) 32 ++ bits ((value >>> 32).setWidth 32) 32 =
      uint64 value := by
  have hlo : ((value &&& 0xFFFFFFFF#64).setWidth 32).toNat = value.toNat % 2 ^ 32 := by
    have hmask : (value &&& 0xFFFFFFFF#64).toNat = value.toNat % 2 ^ 32 := by
      rw [BitVec.toNat_and]
      exact Nat.and_two_pow_sub_one_eq_mod _ 32
    rw [BitVec.toNat_setWidth, hmask, Nat.mod_mod]
  have hhi : ((value >>> 32).setWidth 32).toNat = (value.toNat >>> 32) % 2 ^ 32 := by
    rw [BitVec.toNat_setWidth, BitVec.toNat_ushiftRight]
  rw [bits, bits, Enc.const_append, hlo, hhi, show (32 : Int).toNat = 32 from rfl,
    Bits.ofNat_mod _ (le_refl 32), Bits.ofNat_mod _ (le_refl 32), ← Bits.ofNat_add]
  rfl

/-- The two halves put together again. -/
theorem halves_eq (value : U64) :
    ((value >>> 32).setWidth 32).setWidth 64 <<< 32 |||
      ((value &&& 0xFFFFFFFF#64).setWidth 32).setWidth 64 = value := by
  apply BitVec.eq_of_getLsbD_eq
  intro i hi
  have hmask : ∀ j, (0xFFFFFFFF#64).getLsbD j = decide (j < 32) := by
    intro j
    have hones : (0xFFFFFFFF#64).getLsbD j = (2 ^ 32 - 1).testBit j := rfl
    rw [hones, Nat.testBit_two_pow_sub_one]
  simp only [BitVec.getLsbD_or, BitVec.getLsbD_shiftLeft, BitVec.getLsbD_setWidth,
    BitVec.getLsbD_ushiftRight, BitVec.getLsbD_and, hmask]
  by_cases h : i < 32
  · simp [h, hi]
  · have hi' : i - 32 < 32 := by omega
    have hadd : 32 + (i - 32) = i := by omega
    simp [h, hi, hi', hadd]
    omega

/-- A value of a narrower type loses nothing in its own width. -/
theorem ofNat_mod_narrow {w : Nat} (value : BitVec w) :
    BitVec.ofNat 32 ((value.setWidth 32).toNat % 2 ^ w) = value.setWidth 32 := by
  have hlt := value.isLt
  apply BitVec.eq_of_toNat_eq
  rw [BitVec.toNat_ofNat, BitVec.toNat_setWidth, Nat.mod_eq_of_lt (b := 2 ^ w)
    (Nat.lt_of_le_of_lt (Nat.mod_le _ _) hlt), Nat.mod_mod]

/-- Any bits are the field that they spell. -/
theorem exists_bits {w : Nat} {l : List Bool} (h : l.length = w) (h32 : w ≤ 32) :
    ∃ value : BitVec w, ∀ pos, bits (value.setWidth 32) w pos = l := by
  have hpow : 2 ^ w ≤ 2 ^ 32 := Nat.pow_le_pow_right (by decide) h32
  refine ⟨Bits.toVec w l, fun pos => ?_⟩
  change Bits.ofNat (w : Int).toNat ((Bits.toVec w l).setWidth 32).toNat = l
  rw [Int.toNat_natCast, BitVec.toNat_setWidth, Nat.mod_eq_of_lt (by omega)]
  exact Bits.ofVec_toVec l h

end Wire

/-- `strlen`. -/
def strlen (string : List U8) : Except Fault Nat :=
  if 0 ∈ string then .ok (string.takeWhile (· ≠ 0)).length else .error .outOfBounds

/-- What stands behind the terminator does not count. -/
theorem strlen_terminated {chars : List U8} (hnul : 0 ∉ chars) (rest : List U8) :
    strlen (chars ++ 0 :: rest) = .ok chars.length := by
  have htake : (chars ++ 0 :: rest).takeWhile (· ≠ 0) = chars := by
    rw [List.takeWhile_append_of_pos (by grind)]
    simp
  rw [strlen, if_pos (by simp), htake]

variable {β : Type} [Platform β]

/-! ## the macros with `Stream::IsWriting` -/

namespace Writing

/-- `serialize_int`. -/
def serializeInt (value min max : Int) : Proc Fault (WriteStream β) Unit := do
  assert (min < max)
  assert (min ≤ value)
  assert (value ≤ max)
  WriteStream.serializeInteger (int32 value) min max

/-- `serialize_bits`. -/
def serializeBits (value : U32) (bits : Int) : Proc Fault (WriteStream β) Unit := do
  assert (0 < bits)
  assert (bits ≤ 32)
  WriteStream.serializeBits value bits

/-- `serialize_bool`. -/
def serializeBool (value : Bool) : Proc Fault (WriteStream β) Unit :=
  serializeBits (if value then 1 else 0) 1

/-- `serialize_uint32`. -/
def serializeUint32 (value : U32) : Proc Fault (WriteStream β) Unit := serializeBits value 32

/-- `serialize_uint64`. -/
def serializeUint64 (value : U64) : Proc Fault (WriteStream β) Unit := do
  let lo := (value &&& 0xFFFFFFFF#64).setWidth 32
  let hi := (value >>> 32).setWidth 32
  serializeBits lo 32
  serializeBits hi 32

/-- `serialize_float`, on the bit pattern. -/
def serializeFloat (intValue : U32) : Proc Fault (WriteStream β) Unit :=
  WriteStream.serializeBits intValue 32

/-- `serialize_double`, on the bit pattern. -/
def serializeDouble (intValue : U64) : Proc Fault (WriteStream β) Unit := serializeUint64 intValue

/-- `serialize_enum`, for the number of the enumerator. -/
def serializeEnum (value numEntries : Int) : Proc Fault (WriteStream β) Unit :=
  let intValue := toU32 value
  serializeInt intValue.toNat 0 (int32 (numEntries - 1))

/-- `serialize_bytes`. -/
def serializeBytes (data : List U8) (bytes : Int) : Proc Fault (WriteStream β) Unit :=
  WriteStream.serializeBytes data bytes

/-- `serialize_string`. -/
def serializeString (string : List U8) (bufferSize : Int) : Proc Fault (WriteStream β) Unit := do
  let length ← strlen string
  let length := int32 length
  assert (length < int32 (bufferSize - 1))
  serializeInt length 0 (int32 (bufferSize - 1))
  serializeBytes string length

/-- `serialize_align`. -/
def serializeAlign : Proc Fault (WriteStream β) Unit := WriteStream.serializeAlign

open WriteStream (Writes Appends)

variable {c : Context}

/-- `serialize_int` writes the offset in the range. -/
theorem writes_serializeInt {value min max : Int} (hmin : IsInt32 min) (hmax : IsInt32 max)
    (hlt : min < max) (hlo : min ≤ value) (hhi : value ≤ max) :
    Writes c (serializeInt value min max : Proc Fault (WriteStream β) Unit)
      (Wire.int value min max) := by
  refine Writes.assert hlt (Writes.assert hlo (Writes.assert hhi ?_))
  rw [int32_eq_of_between hmin hmax hlo hhi]
  exact WriteStream.writes_serializeInteger hmin hmax hlt hlo hhi

/-- `serialize_bits` writes the low bits. -/
theorem writes_serializeBits (value : U32) {bits : Int} (h0 : 0 < bits) (h32 : bits ≤ 32) :
    Writes c (serializeBits value bits : Proc Fault (WriteStream β) Unit) (Wire.bits value bits) :=
  Writes.assert h0 (Writes.assert h32 (WriteStream.writes_serializeBits value h0 h32))

/-- `serialize_bool` writes one bit. -/
theorem writes_serializeBool (value : Bool) :
    Writes c (serializeBool value : Proc Fault (WriteStream β) Unit) (Wire.bool value) := by
  rw [← Wire.bits_bool]
  exact writes_serializeBits _ (by decide) (by decide)

/-- `serialize_uint64` writes the low word first. -/
theorem writes_serializeUint64 (value : U64) :
    Writes c (serializeUint64 value : Proc Fault (WriteStream β) Unit) (Wire.uint64 value) := by
  rw [← Wire.bits_halves]
  exact Writes.bind (writes_serializeBits _ (by decide) (by decide))
    (writes_serializeBits _ (by decide) (by decide))

/-- `serialize_bytes` aligns and writes the bytes. -/
theorem writes_serializeBytes (data : List U8) :
    Writes c (serializeBytes data data.length : Proc Fault (WriteStream β) Unit)
      (Wire.bytes data) := by
  have hw := @WriteStream.writes_serializeBytes β _ c data data.length (le_refl _) (by omega)
  rwa [Int.toNat_natCast, List.take_length] at hw

/-- `serialize_enum` writes the value as an `int` of its range. -/
theorem writes_serializeEnum {value numEntries : Int} (hint : IsInt32 numEntries)
    (h2 : 2 ≤ numEntries) (hlo : 0 ≤ value) (hhi : value < numEntries) :
    Writes c (serializeEnum value numEntries : Proc Fault (WriteStream β) Unit)
      (Wire.int value 0 (numEntries - 1)) := by
  obtain ⟨-, hint2⟩ := hint
  have hmax : int32 (numEntries - 1) = numEntries - 1 := int32_eq ⟨by omega, by omega⟩
  have hvalue : ((toU32 value).toNat : Int) = value := by
    rw [toU32, BitVec.toNat_ofInt]
    omega
  rw [serializeEnum, hmax, hvalue]
  exact writes_serializeInt ⟨by omega, by omega⟩ ⟨by omega, by omega⟩ (by omega) hlo (by omega)

/-- A NUL-terminated string, in an array that may have more behind it, that leaves
room for the terminator. -/
theorem writes_serializeString_of {chars : List U8} {bufferSize : Int} (hnul : 0 ∉ chars)
    (hint : IsInt32 bufferSize) (hlen : (chars.length : Int) < bufferSize - 1) (rest : List U8) :
    Writes c (serializeString (chars ++ 0 :: rest) bufferSize : Proc Fault (WriteStream β) Unit)
      (Wire.string chars bufferSize) := by
  obtain ⟨hint1, hint2⟩ := hint
  have hlength : int32 (chars.length : Int) = chars.length := int32_eq ⟨by omega, by omega⟩
  have hmax : int32 (bufferSize - 1) = bufferSize - 1 := int32_eq ⟨by omega, by omega⟩
  have hbytes := @WriteStream.writes_serializeBytes β _ c (chars ++ 0 :: rest) chars.length
    (by rw [List.length_append]; omega) (by omega)
  rw [Int.toNat_natCast, List.take_left] at hbytes
  have hrest : Writes c (do
      assert ((chars.length : Int) < bufferSize - 1)
      serializeInt chars.length 0 (bufferSize - 1)
      serializeBytes (chars ++ 0 :: rest) chars.length : Proc Fault (WriteStream β) Unit)
      (Wire.string chars bufferSize) :=
    Writes.assert hlen (Writes.bind
      (writes_serializeInt ⟨by omega, by omega⟩ ⟨by omega, by omega⟩ (by omega) (by omega)
        (by omega)) hbytes)
  intro s l hc hs hfit
  obtain ⟨s', hrun, hrep⟩ := hrest s l hc hs hfit
  refine ⟨s', ?_, hrep⟩
  rw [serializeString]
  refine (Proc.lift_bind_run (strlen_terminated hnul rest)).trans ?_
  rw [hlength, hmax]
  exact hrun

/-- A NUL-free string that leaves room for its terminator. -/
theorem writes_serializeString {chars : List U8} {bufferSize : Int} (hnul : 0 ∉ chars)
    (hint : IsInt32 bufferSize) (hlen : (chars.length : Int) < bufferSize - 1) :
    Writes c (serializeString (chars ++ [0]) bufferSize : Proc Fault (WriteStream β) Unit)
      (Wire.string chars bufferSize) :=
  writes_serializeString_of hnul hint hlen []

/-- A completed `serialize_int` has only appended. -/
theorem appends_serializeInt (value min max : Int) :
    Appends (serializeInt value min max : Proc Fault (WriteStream β) Unit) :=
  Appends.assert _ (Appends.assert _ (Appends.assert _
    (WriteStream.appends_serializeInteger _ _ _)))

/-- A completed `serialize_bits` has only appended. -/
theorem appends_serializeBits (value : U32) (bits : Int) :
    Appends (serializeBits value bits : Proc Fault (WriteStream β) Unit) :=
  Appends.assert _ (Appends.assert _ (WriteStream.appends_serializeBits _ _))

/-- A completed `serialize_uint64` has only appended. -/
theorem appends_serializeUint64 (value : U64) :
    Appends (serializeUint64 value : Proc Fault (WriteStream β) Unit) :=
  Appends.bind (appends_serializeBits _ _) (appends_serializeBits _ _)

end Writing

/-! ## the macros with `Stream::IsReading` -/

namespace Reading

open ReadStream (onStream assign locals)

variable {τ : Type}

/-- `if ( value < min || value > max ) return false`. -/
def checkRange (value min max : Int) : ReadProc β τ Unit :=
  if value < min ∨ max < value then Proc.returnFalse else pure ()

/-- `serialize_int`; `cast` is the conversion to the type of the variable. -/
def serializeInt (cast : Int → Int) (store : Int → τ → τ) (min max : Int) : ReadProc β τ Unit := do
  assert (min < max)
  let int32Value ← onStream (ReadStream.serializeInteger min max)
  let value := cast int32Value
  assign (store value)
  checkRange value min max

/-- `serialize_bits`. -/
def serializeBits (store : U32 → τ → τ) (bits : Int) : ReadProc β τ Unit := do
  assert (0 < bits)
  assert (bits ≤ 32)
  let uint32Value ← onStream (ReadStream.serializeBits bits)
  assign (store uint32Value)

/-- `serialize_bool`. -/
def serializeBool (store : Bool → τ → τ) : ReadProc β τ Unit :=
  serializeBits (fun uint32BoolValue => store (uint32BoolValue ≠ 0)) 1

/-- `serialize_uint32`. -/
def serializeUint32 (store : U32 → τ → τ) : ReadProc β τ Unit := serializeBits store 32

/-- `serialize_uint64`, after the halves were read. -/
def serializeUint64 (store : U64 → τ → τ) : ReadProc β τ Unit := do
  let lo ← onStream (ReadStream.serializeBits 32)
  let hi ← onStream (ReadStream.serializeBits 32)
  assign (store (hi.setWidth 64 <<< 32 ||| lo.setWidth 64))

/-- `serialize_enum`: what was read into the local `int_value` is range-checked, and
then the variable is assigned to itself, by a cast to its own type. -/
def serializeEnum {ε : Type} (value : τ → ε) (store : ε → τ → τ) (numEntries : Int) :
    ReadProc β τ Unit := do
  let max := int32 (numEntries - 1)
  assert (0 < max)
  let int32Value ← onStream (ReadStream.serializeInteger 0 max)
  let intValue := toU32 int32Value
  checkRange intValue.toNat 0 max
  let o ← locals
  assign (store (value o))

/-- `serialize_float`, on the bit pattern. When the read fails, the local
`int_value` is copied all the same; `uninit` is what it holds. -/
def serializeFloat (uninit : U32) (store : U32 → τ → τ) : ReadProc β τ Unit := do
  let result ← Proc.attempt (onStream (ReadStream.serializeBits 32))
  assign (store (result.getD uninit))
  if result.isSome then pure () else Proc.returnFalse

/-- `serialize_double`, on the bit pattern. -/
def serializeDouble (store : U64 → τ → τ) : ReadProc β τ Unit := serializeUint64 store

/-- `serialize_bytes` into the array `data`. -/
def serializeBytes (data : τ → List U8) (store : List U8 → τ → τ) (bytes : Int) :
    ReadProc β τ Unit := do
  let o ← locals
  let data ← onStream (ReadStream.serializeBytes (data o) bytes)
  assign (store data)

/-- `serialize_string` into the array `string`. -/
def serializeString (string : τ → List U8) (store : List U8 → τ → τ) (bufferSize : Int) :
    ReadProc β τ Unit := do
  let max := int32 (bufferSize - 1)
  assert (0 < max)
  let length ← onStream (ReadStream.serializeInteger 0 max)
  checkRange length 0 max
  let o ← locals
  let chars ← onStream (ReadStream.serializeBytes (string o) length)
  let chars ← writeArray chars length [0]
  assign (store chars)

/-- `serialize_align`. -/
def serializeAlign : ReadProc β τ Unit := onStream ReadStream.serializeAlign

open ReadStream (Reads Safe Takes)

variable {c : Context}

/-- A value of the range passes the check. -/
theorem reads_checkRange {value min max : Int} (hlo : min ≤ value) (hhi : value ≤ max) (o : τ) :
    Reads c (checkRange value min max : ReadProc β τ Unit) .empty o o () := by
  have hrange : ¬(value < min ∨ max < value) := by omega
  rw [checkRange, if_neg hrange]
  exact Reads.pure () o

/-- The check reads nothing. -/
theorem safe_checkRange (value min max : Int) :
    Safe (checkRange value min max : ReadProc β τ Unit) 0 := by
  unfold checkRange
  split
  · exact Safe.returnFalse
  · exact Safe.pure ()

/-- `serialize_int` stores the value that was written. -/
theorem reads_serializeInt {cast : Int → Int} {store : Int → τ → τ} {value min max : Int}
    (hmin : IsInt32 min) (hmax : IsInt32 max) (hlt : min < max) (hlo : min ≤ value)
    (hhi : value ≤ max) (hcast : cast value = value) (o : τ) :
    Reads c (serializeInt cast store min max : ReadProc β τ Unit) (Wire.int value min max) o
      (store value o) () := by
  rw [← Enc.append_empty (Wire.int value min max)]
  refine Reads.assert hlt (Reads.bind
    (ReadStream.reads_serializeInteger hmin hmax hlt hlo hhi o) ?_)
  have hstored : Reads c (do assign (store value); checkRange value min max : ReadProc β τ Unit)
      (.empty ++ .empty) o (store value o) () :=
    Reads.bind (Reads.assign (store value) o) (reads_checkRange hlo hhi _)
  rw [hcast]
  exact hstored

/-- `serialize_int` over any bits. -/
theorem safe_serializeInt {cast : Int → Int} {store : Int → τ → τ} {min max : Int}
    (hmin : IsInt32 min) (hmax : IsInt32 max) (hlt : min < max) :
    Safe (serializeInt cast store min max : ReadProc β τ Unit)
      (bitsRequired (toU32 min) (toU32 max)).toNat :=
  Safe.assert hlt (Safe.bind (ReadStream.takes_serializeInteger hmin hmax hlt).safe fun _ =>
    Safe.bind (Safe.assign _) fun _ => safe_checkRange _ _ _)

/-- `serialize_bits` stores the low bits that were written. -/
theorem reads_serializeBits {store : U32 → τ → τ} (value : U32) {bits : Int} (h0 : 0 < bits)
    (h32 : bits ≤ 32) (o : τ) :
    Reads c (serializeBits store bits : ReadProc β τ Unit) (Wire.bits value bits) o
      (store (BitVec.ofNat 32 (value.toNat % 2 ^ bits.toNat)) o) () := by
  rw [← Enc.append_empty (Wire.bits value bits)]
  exact Reads.assert h0 (Reads.assert h32 (Reads.bind
    (ReadStream.reads_serializeBits value h0 h32 o) (Reads.assign _ o)))

/-- A value of a narrower type, written and read with all its bits. -/
theorem reads_serializeBits_narrow {w : Nat} {store : U32 → τ → τ} (value : BitVec w)
    (h0 : 0 < w) (h32 : w ≤ 32) (o : τ) :
    Reads c (serializeBits store w : ReadProc β τ Unit) (Wire.bits (value.setWidth 32) w) o
      (store (value.setWidth 32) o) () := by
  have hr := @reads_serializeBits β _ τ c store (value.setWidth 32) w (by omega) (by omega) o
  rwa [Int.toNat_natCast, Wire.ofNat_mod_narrow] at hr

/-- `serialize_bits` takes any bits. -/
theorem takes_serializeBits {store : U32 → τ → τ} {bits : Nat} (h0 : 0 < bits) (h32 : bits ≤ 32) :
    Takes (serializeBits store bits : ReadProc β τ Unit) bits :=
  Takes.assert (by omega) (Takes.assert (by omega)
    (Takes.after (ReadStream.takes_serializeBits h0 h32) fun _ _ _ => ⟨_, _, rfl⟩))

/-- `serialize_bool` stores the bit. -/
theorem reads_serializeBool {store : Bool → τ → τ} (value : Bool) (o : τ) :
    Reads c (serializeBool store : ReadProc β τ Unit) (Wire.bool value) o (store value o) () := by
  have hr := @reads_serializeBits β _ τ c (fun v => store (v ≠ 0)) (if value then 1 else 0) 1
    (by decide) (by decide) o
  rw [Wire.bits_bool] at hr
  cases value <;> exact hr

/-- `serialize_uint64` puts the two words together. -/
theorem reads_serializeUint64 {store : U64 → τ → τ} (value : U64) (o : τ) :
    Reads c (serializeUint64 store : ReadProc β τ Unit) (Wire.uint64 value) o (store value o) () := by
  obtain ⟨lo, hlo⟩ : ∃ lo, lo = (value &&& 0xFFFFFFFF#64).setWidth 32 := ⟨_, rfl⟩
  obtain ⟨hi, hhi⟩ : ∃ hi, hi = (value >>> 32).setWidth 32 := ⟨_, rfl⟩
  have hbits : ∀ v : U32, BitVec.ofNat 32 (v.toNat % 2 ^ (32 : Int).toNat) = v := by
    intro v
    have hv := Wire.ofNat_mod_narrow v
    rwa [BitVec.setWidth_eq] at hv
  have hrlo := @ReadStream.reads_serializeBits β _ c τ lo 32 (by decide) (by decide) o
  have hrhi := @ReadStream.reads_serializeBits β _ c τ hi 32 (by decide) (by decide) o
  rw [hbits] at hrlo hrhi
  have hstore : store value o = store (hi.setWidth 64 <<< 32 ||| lo.setWidth 64) o := by
    rw [hlo, hhi, Wire.halves_eq]
  rw [← Wire.bits_halves, ← hlo, ← hhi, hstore, ← Enc.append_empty (Wire.bits hi 32)]
  exact Reads.bind hrlo (Reads.bind hrhi (Reads.assign _ o))

/-- `serialize_uint64` takes any 64 bits. -/
theorem takes_serializeUint64 {store : U64 → τ → τ} :
    Takes (serializeUint64 store : ReadProc β τ Unit) 64 :=
  Takes.bind (@ReadStream.takes_serializeBits β _ τ 32 (by decide) (by decide)) fun _ =>
    Takes.after (@ReadStream.takes_serializeBits β _ τ 32 (by decide) (by decide)) fun _ _ _ =>
      ⟨_, _, rfl⟩

/-- The value on the wire is read and checked, and the variable keeps its own. -/
theorem reads_serializeEnum {ε : Type} {value : τ → ε} {store : ε → τ → τ} {v numEntries : Int}
    (hint : IsInt32 numEntries) (h2 : 2 ≤ numEntries) (hlo : 0 ≤ v) (hhi : v < numEntries) (o : τ) :
    Reads c (serializeEnum value store numEntries : ReadProc β τ Unit)
      (Wire.int v 0 (numEntries - 1)) o (store (value o) o) () := by
  obtain ⟨-, hint2⟩ := hint
  have hmax : int32 (numEntries - 1) = numEntries - 1 := int32_eq ⟨by omega, by omega⟩
  have hvalue : ((toU32 v).toNat : Int) = v := by
    rw [toU32, BitVec.toNat_ofInt]
    omega
  rw [serializeEnum, hmax, ← Enc.append_empty (Wire.int v 0 (numEntries - 1))]
  refine Reads.assert (by omega) (Reads.bind (ReadStream.reads_serializeInteger
    ⟨by omega, by omega⟩ ⟨by omega, by omega⟩ (by omega) hlo (by omega) o) ?_)
  have hkept : Reads c (do
      checkRange (toU32 v).toNat 0 (numEntries - 1)
      let o ← locals
      assign (store (value o)) : ReadProc β τ Unit) (.empty ++ (.empty ++ .empty)) o
      (store (value o) o) () :=
    Reads.bind (reads_checkRange (by omega) (by omega) o)
      (Reads.bind (Reads.locals o) (Reads.assign _ o))
  exact hkept

/-- `serialize_float` stores the bit pattern. -/
theorem reads_serializeFloat {store : U32 → τ → τ} (uninit value : U32) (o : τ) :
    Reads c (serializeFloat uninit store : ReadProc β τ Unit) (Wire.bits value 32) o
      (store value o) () := by
  have hvalue : BitVec.ofNat 32 (value.toNat % 2 ^ (32 : Int).toNat) = value := by
    have hv := Wire.ofNat_mod_narrow value
    rwa [BitVec.setWidth_eq] at hv
  have hr := @ReadStream.reads_serializeBits β _ c τ value 32 (by decide) (by decide) o
  rw [hvalue] at hr
  rw [← Enc.append_empty (Wire.bits value 32)]
  exact Reads.bind (Reads.attempt hr) (Reads.bind (Reads.assign _ o) (Reads.pure () _))

/-- `serialize_bytes` stores the bytes in front of what the array held. -/
theorem reads_serializeBytes {data : τ → List U8} {store : List U8 → τ → τ} {xs : List U8} {o : τ}
    (hlen : xs.length ≤ (data o).length) :
    Reads c (serializeBytes data store xs.length : ReadProc β τ Unit) (Wire.bytes xs) o
      (store (Bits.splice (data o) 0 xs) o) () := by
  rw [← Enc.empty_append (Wire.bytes xs), ← Enc.append_empty (Wire.bytes xs)]
  exact Reads.bind (Reads.locals o) (Reads.bind (ReadStream.reads_serializeBytes o hlen)
    (Reads.assign _ o))

/-- The characters and their terminator are stored at the start of the array; the
reader takes one character more than the writer sends. -/
theorem reads_serializeString_of {string : τ → List U8} {store : List U8 → τ → τ}
    {chars : List U8} {bufferSize : Int} {o : τ} (hint : IsInt32 bufferSize)
    (hsize : bufferSize = (string o).length) (h2 : 2 ≤ bufferSize)
    (hlen : (chars.length : Int) ≤ bufferSize - 1) :
    Reads c (serializeString string store bufferSize : ReadProc β τ Unit)
      (Wire.string chars bufferSize) o (store (Bits.splice (string o) 0 (chars ++ [0])) o) () := by
  obtain ⟨hint1, hint2⟩ := hint
  have hmax : int32 (bufferSize - 1) = bufferSize - 1 := int32_eq ⟨by omega, by omega⟩
  have hstored : (Bits.splice (string o) 0 chars).length = (string o).length :=
    Bits.length_splice (by omega)
  have hterminate : writeArray (Bits.splice (string o) 0 chars) chars.length [0] =
      .ok (Bits.splice (string o) 0 (chars ++ [0])) := by
    have htouch := @Bits.splice_splice _ (string o) chars [0] 0 (by omega)
    rw [Nat.zero_add] at htouch
    rw [writeArray_eq_ok (by omega) (by rw [List.length_singleton]; omega), Int.toNat_natCast,
      htouch]
  rw [serializeString, hmax, Wire.string]
  refine Reads.assert (by omega) (Reads.bind (ReadStream.reads_serializeInteger
    ⟨by omega, by omega⟩ ⟨by omega, by omega⟩ (by omega) (by omega) (by omega) o) ?_)
  rw [← Enc.empty_append (Wire.bytes chars)]
  refine Reads.bind (reads_checkRange (by omega) (by omega) o) ?_
  rw [← Enc.empty_append (Wire.bytes chars), ← Enc.append_empty (Wire.bytes chars)]
  refine Reads.bind (Reads.locals o) (Reads.bind
    (ReadStream.reads_serializeBytes o (by omega)) ?_)
  have hstored : Reads c (do
      let chars ← writeArray (Bits.splice (string o) 0 chars) chars.length [0]
      assign (store chars) : ReadProc β τ Unit) (.empty ++ .empty) o
      (store (Bits.splice (string o) 0 (chars ++ [0])) o) () :=
    Reads.bind (Reads.lift hterminate o) (Reads.assign _ o)
  exact hstored

/-- `serialize_string` stores the characters and the terminator. -/
theorem reads_serializeString {string : τ → List U8} {store : List U8 → τ → τ} {chars : List U8}
    {bufferSize : Int} {o : τ} (hint : IsInt32 bufferSize) (hsize : bufferSize = (string o).length)
    (hlen : (chars.length : Int) < bufferSize - 1) :
    Reads c (serializeString string store bufferSize : ReadProc β τ Unit)
      (Wire.string chars bufferSize) o (store (Bits.splice (string o) 0 (chars ++ [0])) o) () :=
  reads_serializeString_of hint hsize (by omega) (le_of_lt hlen)

end Reading

end RudpNetwork
