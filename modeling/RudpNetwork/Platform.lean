import RudpNetwork.Lib.Bits
import RudpNetwork.Lib.Proc
import RudpNetwork.NetworkUtil

/-!
# RudpNetwork.Platform

What the C++ server and the C# client do not share.

The bit packers of the two code bases are the same text up to four things: how
the buffer is held (bytes used in place, or an array of `uint`), what a shift
by an out-of-range count does, what `FlushBits` leaves in `m_scratchBits`, and
how `bits_required` is computed.  A `Platform` collects these, with the laws
that let one proof serve both; `Memory` is the C++ platform on a little-endian
host and `UIntArray` the C# one.
-/

namespace RudpNetwork

open MachineInt

/-- Why a run stops before it returns. -/
inductive Fault
  /-- An `assert` fails.  C's ends the program; UnityEngine's may log only and go on, and of
  what follows then nothing is said. -/
  | assertion
  /-- An access outside a buffer. -/
  | outOfBounds
  /-- A shift count outside the operand's width. -/
  | undefinedShift
  /-- A pointer to an object that was deleted, or to none. -/
  | danglingPointer
  /-- An array of negative length. -/
  | badArrayLength
  deriving DecidableEq, Repr

/-- `assert( p )`. -/
abbrev assert (p : Prop) [Decidable p] : Except Fault Unit := require .assertion p

/-- `β` is the buffer type of one of the two code bases. -/
class Platform (β : Type) where
  /-- The bits of the buffer, in address order. -/
  bits : β → List Bool
  /-- `m_data[i] = value`. -/
  setWord : β → Nat → U32 → β
  /-- The bulk copy of `WriteBytes` to word `i`. -/
  setBytes : β → Nat → List U8 → β
  /-- `m_data[i]`. -/
  getWord : β → Nat → U32
  /-- The bulk copy of `ReadBytes`: `n` words from word `i`. -/
  getBytes : β → Nat → Nat → List U8
  /-- `x << n` on 64-bit operands. -/
  shiftLeft : U64 → Int → Except Fault U64
  /-- `m_scratchBits` after `FlushBits` stored a word. -/
  flushedScratchBits : Int → Int
  /-- `bits_required`. -/
  bitsRequired : U32 → U32 → Int
  bits_setWord : ∀ b i x, 32 * i + 32 ≤ (bits b).length →
    bits (setWord b i x) = Bits.splice (bits b) (32 * i) (Bits.ofVec x)
  bits_setBytes : ∀ b i xs, 4 ∣ xs.length → 32 * i + 8 * xs.length ≤ (bits b).length →
    bits (setBytes b i xs) = Bits.splice (bits b) (32 * i) (Bits.ofList xs)
  ofVec_getWord : ∀ b i, 32 * i + 32 ≤ (bits b).length →
    Bits.ofVec (getWord b i) = Bits.slice (bits b) (32 * i) 32
  ofList_getBytes : ∀ b i n, 32 * i + 32 * n ≤ (bits b).length →
    Bits.ofList (getBytes b i n) = Bits.slice (bits b) (32 * i) (32 * n)
  shiftLeft_eq : ∀ x n, 0 ≤ n → n < 64 → shiftLeft x n = .ok (x <<< n.toNat)
  bitsRequired_eq : ∀ min max, min ≠ max →
    bitsRequired min max = RudpNetwork.bitsRequired min max

namespace Platform

variable {β : Type} [Platform β]

/-- How many whole words the buffer holds. -/
def words (b : β) : Nat := (bits b).length / 32

/-- `m_data[i] = value`, for an index the source computed. -/
def storeWord (b : β) (i : Int) (value : U32) : Except Fault β :=
  if 0 ≤ i ∧ i < words b then .ok (setWord b i.toNat value) else .error .outOfBounds

/-- `m_data[i]`. -/
def loadWord (b : β) (i : Int) : Except Fault U32 :=
  if 0 ≤ i ∧ i < words b then .ok (getWord b i.toNat) else .error .outOfBounds

/-- The bulk copy of `WriteBytes`. -/
def storeBytes (b : β) (i : Int) (xs : List U8) : Except Fault β :=
  if 0 ≤ i ∧ 32 * i + 8 * xs.length ≤ (bits b).length then .ok (setBytes b i.toNat xs)
  else .error .outOfBounds

/-- The bulk copy of `ReadBytes`. -/
def loadBytes (b : β) (i : Int) (n : Nat) : Except Fault (List U8) :=
  if 0 ≤ i ∧ i + n ≤ words b then .ok (getBytes b i.toNat n) else .error .outOfBounds

/-- A word is stored where its index lies in the array. -/
theorem storeWord_eq_ok {b b' : β} {i : Int} {value : U32} :
    storeWord b i value = .ok b' ↔ (0 ≤ i ∧ i < words b) ∧ setWord b i.toNat value = b' := by
  unfold storeWord
  split <;> simp_all

/-- A word is loaded where its index lies in the array. -/
theorem loadWord_eq_ok {b : β} {i : Int} {value : U32} :
    loadWord b i = .ok value ↔ (0 ≤ i ∧ i < words b) ∧ getWord b i.toNat = value := by
  unfold loadWord
  split <;> simp_all

/-- Bytes are stored at a word where all of them lie in the array. -/
theorem storeBytes_eq_ok {b b' : β} {i : Int} {xs : List U8} :
    storeBytes b i xs = .ok b' ↔
      (0 ≤ i ∧ 32 * i + 8 * xs.length ≤ (bits b).length) ∧ setBytes b i.toNat xs = b' := by
  unfold storeBytes
  split <;> simp_all

/-- Bytes are loaded at a word where all of their words lie in the array. -/
theorem loadBytes_eq_ok {b : β} {i : Int} {n : Nat} {xs : List U8} :
    loadBytes b i n = .ok xs ↔ (0 ≤ i ∧ i + n ≤ words b) ∧ getBytes b i.toNat n = xs := by
  unfold loadBytes
  split <;> simp_all

end Platform

/-- An array of `n` bytes that holds what was in memory. -/
def uninitArray (memory : Nat → U8) (n : Nat) : List U8 := (List.range n).map memory

@[simp] theorem length_uninitArray (memory : Nat → U8) (n : Nat) :
    (uninitArray memory n).length = n := by
  simp [uninitArray]

/-- The elements `data[start + i]` for `i = 0 .. count - 1`: none when `count`
is not positive, and a fault when one of them is outside the array. -/
def readArray (data : List U8) (start count : Int) : Except Fault (List U8) :=
  if count ≤ 0 then .ok []
  else if 0 ≤ start ∧ start + count ≤ data.length then
    .ok (Bits.slice data start.toNat count.toNat)
  else .error .outOfBounds

/-- What a loop over the array read is the slice it names, also when it is empty. -/
theorem readArray_eq_ok {data xs : List U8} {start count : Int} :
    readArray data start count = .ok xs ↔
      (count ≤ 0 ∨ (0 ≤ start ∧ start + count ≤ data.length)) ∧
        Bits.slice data start.toNat count.toNat = xs := by
  unfold readArray
  by_cases hc : count ≤ 0
  · have hz : count.toNat = 0 := by omega
    simp [hc, hz, Bits.slice]
  · by_cases hr : 0 ≤ start ∧ start + count ≤ data.length <;> simp [hc, hr]

/-- The stores `data[start + i] = xs[i]` for `i = 0 .. xs.length - 1`. -/
def writeArray (data : List U8) (start : Int) (xs : List U8) : Except Fault (List U8) :=
  if xs = [] then .ok data
  else if 0 ≤ start ∧ start + xs.length ≤ data.length then .ok (Bits.splice data start.toNat xs)
  else .error .outOfBounds

/-- A copy into an array that has room for it. -/
theorem writeArray_eq_ok {data xs : List U8} {start : Int} (h0 : 0 ≤ start)
    (h : start + xs.length ≤ data.length) :
    writeArray data start xs = .ok (Bits.splice data start.toNat xs) := by
  unfold writeArray
  by_cases hnil : xs = []
  · rw [if_pos hnil, hnil, Bits.splice_nil]
  · rw [if_neg hnil, if_pos ⟨h0, h⟩]

/-- A copy keeps the size of the array. -/
theorem length_writeArray {data data' xs : List U8} {start : Int}
    (h : writeArray data start xs = .ok data') : data'.length = data.length := by
  unfold writeArray at h
  split at h
  · rw [Except.ok.inj h]
  · split at h
    · next hfit =>
        rw [← Except.ok.inj h, Bits.length_splice (by omega)]
    · contradiction

/-- Stores at the start of the array. -/
theorem take_writeArray {data data' xs : List U8} (h : writeArray data 0 xs = .ok data') :
    data'.take xs.length = xs := by
  unfold writeArray at h
  split at h
  · next hnil => rw [hnil, List.length_nil, List.take_zero]
  · split at h
    · next hfit =>
        rw [← Except.ok.inj h, Bits.take_eq_slice]
        exact Bits.slice_splice_self (by omega)
    · contradiction

/-- The head of `WriteBytes` and `ReadBytes`: the bytes up to the next word
boundary, or all of them if they end before it. -/
theorem headBytes_spec {x bytes : Int} (hx : x.tmod 32 = 0 ∨ x.tmod 32 = 8 ∨ x.tmod 32 = 16 ∨
      x.tmod 32 = 24) :
    ∃ head, min ((4 - (x.tmod 32).tdiv 8).tmod 4) bytes = head ∧ head ≤ bytes ∧ head ≤ 3 ∧
      (head ≠ bytes → 0 ≤ head ∧ (x % 32 + 8 * head) % 32 = 0) := by
  have hdiv : x = 32 * x.tdiv 32 + x.tmod 32 := (Int.mul_tdiv_add_tmod x 32).symm
  refine ⟨_, rfl, ?_⟩
  rcases hx with hx | hx | hx | hx <;> rw [hx] at hdiv ⊢
  · rw [show (4 - (0 : Int).tdiv 8).tmod 4 = 0 from rfl]
    omega
  · rw [show (4 - (8 : Int).tdiv 8).tmod 4 = 3 from rfl]
    omega
  · rw [show (4 - (16 : Int).tdiv 8).tmod 4 = 2 from rfl]
    omega
  · rw [show (4 - (24 : Int).tdiv 8).tmod 4 = 1 from rfl]
    omega

/-! ## C++ on a little-endian host -/

/-- The bytes a C++ stream works on in place. -/
abbrev Memory := List U8

instance : Platform Memory where
  bits mem := Bits.ofList mem
  setWord mem i x := Bits.splice mem (4 * i) (Bits.pack (Bits.ofVec x))
  setBytes mem i xs := Bits.splice mem (4 * i) xs
  getWord mem i := Bits.toVec 32 (Bits.ofList (Bits.slice mem (4 * i) 4))
  getBytes mem i n := Bits.slice mem (4 * i) (4 * n)
  shiftLeft x n := if 0 ≤ n ∧ n < 64 then .ok (x <<< n.toNat) else .error .undefinedShift
  flushedScratchBits n := int32 (n - 32)
  bitsRequired := bitsRequired
  bits_setWord mem i x _ := by
    rw [Bits.ofList_splice, Bits.ofList_pack_of_dvd (by simp), ← Nat.mul_assoc]
  bits_setBytes mem i xs _ _ := by
    rw [Bits.ofList_splice, ← Nat.mul_assoc]
  ofVec_getWord mem i h := by
    have hsl : Bits.ofList (Bits.slice mem (4 * i) 4) = Bits.slice (Bits.ofList mem) (32 * i) 32 := by
      rw [← Bits.slice_ofList, ← Nat.mul_assoc]
    rw [hsl, Bits.ofVec_toVec]
    rw [Bits.length_slice]
    omega
  ofList_getBytes mem i n _ := by
    rw [← Bits.slice_ofList, ← Nat.mul_assoc, ← Nat.mul_assoc]
  shiftLeft_eq x n h0 h64 := by
    rw [if_pos ⟨h0, h64⟩]
  bitsRequired_eq _ _ _ := rfl

/-! ## C# -/

/-- The `UInt32[]` a C# stream works on. -/
abbrev UIntArray := List U32

namespace CSharp

/-- `BitConverter.ToUInt32`, on a little-endian host. -/
def toUInt32 (data : List U8) (i : Nat) : U32 := Bits.toVec 32 (Bits.ofList (Bits.slice data i 4))

/-- `NetworkUtil.ByteArrayToUIntArray`, after its assertion on the length. -/
def byteArrayToUIntArray (data : List U8) : UIntArray :=
  (List.range (data.length / 4)).map fun i => toUInt32 data (i * 4)

/-- `NetworkUtil.UIntArrayToByteArray`. -/
def uintArrayToByteArray (data : UIntArray) : List U8 :=
  data.flatMap fun x => Bits.pack (Bits.ofVec x)

/-- `NetworkUtil.BitsRequired`, cast to `int` (see `csharp_bitsRequired`). -/
def bitsRequired (min max : U32) : Int := bitsRequiredPortable min max

/-- The words of a byte array hold its bits. -/
theorem ofList_byteArrayToUIntArray {data : List U8} (h : 4 ∣ data.length) :
    Bits.ofList (byteArrayToUIntArray data) = Bits.ofList data := by
  have hword : ∀ i, toUInt32 data (i * 4) =
      Bits.toVec 32 (Bits.slice (Bits.ofList data) (32 * i) 32) := by
    intro i
    have hsl := Bits.slice_ofList data (i * 4) 4
    rw [toUInt32, ← hsl, show 8 * (i * 4) = 32 * i by omega]
  have hall : 32 * (data.length / 4) = (Bits.ofList data).length := by
    rw [Bits.length_ofList]
    omega
  simp only [byteArrayToUIntArray, hword]
  rw [Bits.ofList_toVec_slices _ _ (by omega), hall, List.take_length]

/-- The bytes of a word array hold its bits. -/
theorem ofList_uintArrayToByteArray (data : UIntArray) :
    Bits.ofList (uintArrayToByteArray data) = Bits.ofList data := by
  induction data with
  | nil => rfl
  | cons x xs ih =>
      have hcons : uintArrayToByteArray (x :: xs) =
          Bits.pack (Bits.ofVec x) ++ uintArrayToByteArray xs := rfl
      rw [hcons, Bits.ofList_append, Bits.ofList_pack_of_dvd (by simp), ih, Bits.ofList_cons]

end CSharp

instance : Platform UIntArray where
  bits a := Bits.ofList a
  setWord a i x := Bits.splice a i [x]
  setBytes a i xs := Bits.splice a i (CSharp.byteArrayToUIntArray xs)
  getWord a i := a.getD i 0
  getBytes a i n := CSharp.uintArrayToByteArray (Bits.slice a i n)
  shiftLeft x n := .ok (x <<< (n % 64).toNat)
  flushedScratchBits _ := 0
  bitsRequired := CSharp.bitsRequired
  bits_setWord a i x _ := by
    rw [Bits.ofList_splice, Bits.ofList_cons, Bits.ofList_nil, List.append_nil]
  bits_setBytes a i xs h _ := by
    rw [Bits.ofList_splice, CSharp.ofList_byteArrayToUIntArray h]
  ofVec_getWord a i h := by
    rw [Bits.length_ofList] at h
    have hi : i < a.length := by omega
    have hsl : Bits.slice a i 1 = [a.getD i 0] := by
      rw [Bits.slice, List.drop_eq_getElem_cons hi, List.take_succ_cons, List.take_zero]
      simp [hi]
    have hb := Bits.slice_ofList a i 1
    rw [hsl, Bits.ofList_cons, Bits.ofList_nil, List.append_nil] at hb
    exact hb.symm
  ofList_getBytes a i n _ := by
    rw [CSharp.ofList_uintArrayToByteArray, Bits.slice_ofList]
  shiftLeft_eq x n h0 h64 := by
    rw [Int.emod_eq_of_lt h0 h64]
  bitsRequired_eq _ _ h := (bitsRequired_eq_portable h).symm

end RudpNetwork
