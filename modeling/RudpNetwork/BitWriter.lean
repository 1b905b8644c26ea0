import RudpNetwork.Platform

/-!
# RudpNetwork.BitWriter

`BitWriter.h` and `BitWriter.cs`: the packer that collects bits in a 64-bit
scratch register and stores them word by word.

`Rep w l` says that the writer `w` holds the bit string `l`.  Every field of a
writer is a function of `l` then: the whole words of `l` are in the buffer and
the rest in the scratch register.  Each method gets two lemmas: `*_rep`, what
any completed call appends, and `*_ok`, that a call which fits completes.

## Main results

* `Rep` — the bit string that a writer holds, with every field determined by it.
* `writeBits_rep`, `writeBytes_rep`, `flushBits_data` — what a completed call has done to
  the bits and to the buffer.
* `writeBits_ok`, `writeAlign_ok`, `writeBytes_ok`, `flushBits_ok` — a call that fits
  completes.
-/

namespace RudpNetwork

open MachineInt

/-- `class BitWriter`, over the buffer of either code base. -/
structure BitWriter (β : Type) where
  data : β
  scratch : U64
  numBits : Int
  numWords : Int
  bitsWritten : Int
  wordIndex : Int
  scratchBits : Int

namespace BitWriter

variable {β : Type} [Platform β]

/-! ## the source methods -/

/-- `BitWriter( data, bytes )`. -/
def init (data : β) (bytes : Int) : Except Fault (BitWriter β) := do
  assert (bytes.tmod 4 = 0)
  let numWords := bytes.tdiv 4
  return { data, scratch := 0, numBits := int32 (numWords * 32), numWords, bitsWritten := 0,
           wordIndex := 0, scratchBits := 0 }

/-- The low word of the scratch register goes to the buffer, and the register
moves on: the body shared by `WriteBits` and `FlushBits`. -/
def putScratch (w : BitWriter β) : Except Fault (BitWriter β) := do
  assert (w.wordIndex < w.numWords)
  let word := hostToNetwork ((w.scratch &&& 0xFFFFFFFF#64).setWidth 32)
  let data ← Platform.storeWord w.data w.wordIndex word
  return { w with data, scratch := w.scratch >>> 32, wordIndex := int32 (w.wordIndex + 1) }

/-- `value & ( ( uint64_t(1) << bits ) - 1 )`. -/
def maskValue (value : U32) (bits : Int) : U32 :=
  (value.setWidth 64 &&& ((1#64 <<< bits.toNat) - 1#64)).setWidth 32

/-- `WriteBits`. -/
def writeBits (w : BitWriter β) (value : U32) (bits : Int) : Except Fault (BitWriter β) := do
  assert (0 < bits)
  assert (bits ≤ 32)
  assert (int32 (w.bitsWritten + bits) ≤ w.numBits)
  let value := maskValue value bits
  let shifted ← @Platform.shiftLeft β _ (value.setWidth 64) w.scratchBits
  let scratchBits := int32 (w.scratchBits + bits)
  let w := { w with scratch := w.scratch ||| shifted, scratchBits }
  if 32 ≤ scratchBits then
    let w ← w.putScratch
    return { w with scratchBits := int32 (scratchBits - 32),
                    bitsWritten := int32 (w.bitsWritten + bits) }
  else
    return { w with bitsWritten := int32 (w.bitsWritten + bits) }

/-- `WriteAlign`. -/
def writeAlign (w : BitWriter β) : Except Fault (BitWriter β) := do
  let remainderBits := w.bitsWritten.tmod 8
  if remainderBits ≠ 0 then
    let w ← w.writeBits 0 (8 - remainderBits)
    assert (w.bitsWritten.tmod 8 = 0)
    return w
  else
    return w

/-- `GetAlignBits`. -/
def getAlignBits (w : BitWriter β) : Int := (8 - w.bitsWritten.tmod 8).tmod 8

/-- `FlushBits`. -/
def flushBits (w : BitWriter β) : Except Fault (BitWriter β) := do
  if w.scratchBits ≠ 0 then
    let scratchBits := @Platform.flushedScratchBits β _ w.scratchBits
    let w ← w.putScratch
    return { w with scratchBits }
  else
    return w

/-- The loops of `WriteBytes`: `WriteBits( data[i], 8 )` for each byte. -/
def writeEach (w : BitWriter β) : List U8 → Except Fault (BitWriter β)
  | [] => return w
  | b :: bs => do
      let w ← w.writeBits (b.setWidth 32) 8
      w.writeEach bs

/-- The words of `WriteBytes`, copied around the scratch register. -/
def writeWords (w : BitWriter β) (data : List U8) (headBytes numWords : Int) :
    Except Fault (BitWriter β) := do
  if 0 < numWords then
    assert (w.bitsWritten.tmod 32 = 0)
    let block ← readArray data headBytes (numWords * 4)
    let buffer ← Platform.storeBytes w.data w.wordIndex block
    return { w with data := buffer, bitsWritten := int32 (w.bitsWritten + numWords * 32),
                    wordIndex := int32 (w.wordIndex + numWords), scratch := 0 }
  else
    return w

/-- `WriteBytes` after its head: flush, the whole words, the tail. -/
def writeBytesRest (w : BitWriter β) (data : List U8) (bytes headBytes : Int) :
    Except Fault (BitWriter β) := do
  let w ← w.flushBits
  assert (w.getAlignBits = 0)
  let numWords := (bytes - headBytes).tdiv 4
  let w ← w.writeWords data headBytes numWords
  assert (w.getAlignBits = 0)
  let tailStart := headBytes + numWords * 4
  let tailBytes := bytes - tailStart
  assert (0 ≤ tailBytes ∧ tailBytes < 4)
  let tail ← readArray data tailStart tailBytes
  let w ← w.writeEach tail
  assert (w.getAlignBits = 0)
  assert (headBytes + numWords * 4 + tailBytes = bytes)
  return w

/-- `WriteBytes`. -/
def writeBytes (w : BitWriter β) (data : List U8) (bytes : Int) : Except Fault (BitWriter β) := do
  assert (w.getAlignBits = 0)
  assert (int32 (w.bitsWritten + bytes * 8) ≤ w.numBits)
  assert (w.bitsWritten.tmod 32 = 0 ∨ w.bitsWritten.tmod 32 = 8 ∨ w.bitsWritten.tmod 32 = 16 ∨
    w.bitsWritten.tmod 32 = 24)
  let headBytes := min ((4 - (w.bitsWritten.tmod 32).tdiv 8).tmod 4) bytes
  let head ← readArray data 0 headBytes
  let w ← w.writeEach head
  if headBytes = bytes then
    return w
  else
    w.writeBytesRest data bytes headBytes

/-- `GetBitsWritten`. -/
def getBitsWritten (w : BitWriter β) : Int := w.bitsWritten

/-- `GetBytesWritten`. -/
def getBytesWritten (w : BitWriter β) : Int := (int32 (w.bitsWritten + 7)).tdiv 8

/-- `GetTotalBytes`. -/
def getTotalBytes (w : BitWriter β) : Int := int32 (w.numWords * 4)

/-! ## the bit string a writer holds -/

/-- The writer `w` holds the bit string `l`. -/
structure Rep (w : BitWriter β) (l : List Bool) : Prop where
  numWords_nonneg : 0 ≤ w.numWords
  capacity : 32 * w.numWords ≤ (Platform.bits w.data).length
  size_lt : (Platform.bits w.data).length < 17179869184
  numBits : w.numBits = int32 (w.numWords * 32)
  bitsWritten : w.bitsWritten = int32 l.length
  wordIndex : w.wordIndex = (l.length / 32 : Nat)
  scratchBits : w.scratchBits = (l.length % 32 : Nat)
  scratch : w.scratch.toNat = Bits.toNat (l.drop (32 * (l.length / 32)))
  data : (Platform.bits w.data).take (32 * (l.length / 32)) = l.take (32 * (l.length / 32))

/-- `w'` has a buffer of the same size as `w`. -/
structure SameBuffer (w w' : BitWriter β) : Prop where
  numWords : w'.numWords = w.numWords
  length : (Platform.bits w'.data).length = (Platform.bits w.data).length

theorem SameBuffer.refl (w : BitWriter β) : w.SameBuffer w := ⟨rfl, rfl⟩

/-- Two calls in a row keep the size of the buffer. -/
theorem SameBuffer.trans {w w' w'' : BitWriter β} (h : w.SameBuffer w') (h' : w'.SameBuffer w'') :
    w.SameBuffer w'' :=
  ⟨h'.numWords.trans h.numWords, h'.length.trans h.length⟩

/-- A fresh writer over a buffer of at least `bytes` bytes holds nothing. -/
theorem init_rep {data : β} {bytes : Int} {w : BitWriter β} (h0 : 0 ≤ bytes)
    (hlen : 8 * bytes ≤ (Platform.bits data).length)
    (hsize : (Platform.bits data).length < 17179869184) (h : init data bytes = .ok w) :
    w.Rep [] ∧ w.numWords = bytes / 4 ∧ w.data = data := by
  simp only [init, Except.bind_eq_ok_iff, require_eq_ok, Except.pure_eq_ok_iff, tmod_eq _ h0,
    tdiv_eq _ h0] at h
  obtain ⟨-, hmod, rfl⟩ := h
  refine ⟨?_, rfl, rfl⟩
  constructor <;> simp <;> omega

omit [Platform β] in
/-- The constructor completes for every byte count that is a multiple of four. -/
theorem init_ok (data : β) {bytes : Int} (h0 : 0 ≤ bytes) (h4 : bytes % 4 = 0) :
    ∃ w, init data bytes = .ok w := by
  simp only [init, Except.bind_eq_ok_iff, require_eq_ok, Except.pure_eq_ok_iff, tmod_eq _ h0]
  exact ⟨_, (), h4, rfl⟩

/-! ## the scratch register -/

/-- The mask keeps the low bits of a value. -/
theorem toNat_maskValue (value : U32) {bits : Int} (h0 : 0 < bits) (h32 : bits ≤ 32) :
    (maskValue value bits).toNat = Bits.toNat (Bits.ofNat bits.toNat value.toNat) := by
  have hv := value.isLt
  have hvalue : (value.setWidth 64).toNat = Bits.toNat (Bits.ofVec value) := by
    rw [BitVec.toNat_setWidth, Nat.mod_eq_of_lt (by omega), Bits.toNat_ofVec]
  have hmask := Bits.toNat_and_mask hvalue (show bits.toNat < 64 by omega)
  rw [Bits.toNat_take, Bits.toNat_ofVec] at hmask
  rw [maskValue, BitVec.toNat_setWidth, hmask, Bits.toNat_ofNat]
  exact Nat.mod_eq_of_lt (Nat.lt_of_le_of_lt (Nat.mod_le _ _) hv)

/-- The word that goes into the buffer holds the low half of the register. -/
theorem ofVec_lowWord (scratch : U64) :
    Bits.ofVec (hostToNetwork ((scratch &&& 0xFFFFFFFF#64).setWidth 32)) =
      Bits.ofNat 32 scratch.toNat := by
  have hmask : (scratch &&& 0xFFFFFFFF#64).toNat = scratch.toNat % 2 ^ 32 := by
    rw [BitVec.toNat_and]
    exact Nat.and_two_pow_sub_one_eq_mod _ 32
  rw [hostToNetwork, Bits.ofVec, BitVec.toNat_setWidth, hmask, Nat.mod_mod,
    Bits.ofNat_mod _ (le_refl 32)]

/-- What a completed `putScratch` stored. -/
theorem putScratch_eq {w w' : BitWriter β}
    (hcap : 32 * w.numWords ≤ (Platform.bits w.data).length) (h : w.putScratch = .ok w') :
    (0 ≤ w.wordIndex ∧ w.wordIndex < w.numWords) ∧
      Platform.bits w'.data =
        Bits.splice (Platform.bits w.data) (32 * w.wordIndex.toNat) (Bits.ofNat 32 w.scratch.toNat) ∧
      w' = { w with data := w'.data, scratch := w.scratch >>> 32,
                    wordIndex := int32 (w.wordIndex + 1) } := by
  simp only [putScratch, Except.bind_eq_ok_iff, require_eq_ok, Except.pure_eq_ok_iff,
    Platform.storeWord_eq_ok] at h
  obtain ⟨-, hlt, data, ⟨⟨h0, -⟩, rfl⟩, rfl⟩ := h
  refine ⟨⟨h0, hlt⟩, ?_, rfl⟩
  rw [Platform.bits_setWord _ _ _ (by omega), ofVec_lowWord]

/-- The low word of the register comes behind the `k` words that are stored, and the
words behind it stay. -/
theorem putScratch_data {w w' : BitWriter β} {k : Nat}
    (hcap : 32 * w.numWords ≤ (Platform.bits w.data).length) (hindex : w.wordIndex = k)
    (h : w.putScratch = .ok w') :
    (k < w.numWords ∧ (Platform.bits w'.data).length = (Platform.bits w.data).length) ∧
      (Platform.bits w'.data).take (32 * (k + 1)) =
        (Platform.bits w.data).take (32 * k) ++ Bits.ofNat 32 w.scratch.toNat ∧
      (Platform.bits w'.data).drop (32 * (k + 1)) = (Platform.bits w.data).drop (32 * (k + 1)) ∧
      w' = { w with data := w'.data, scratch := w.scratch >>> 32,
                    wordIndex := int32 (w.wordIndex + 1) } := by
  obtain ⟨⟨-, hlt⟩, hdata, hrest⟩ := putScratch_eq hcap h
  rw [hindex] at hlt
  rw [hindex, Int.toNat_natCast] at hdata
  have hfit : 32 * k + (Bits.ofNat 32 w.scratch.toNat).length ≤ (Platform.bits w.data).length := by
    rw [Bits.length_ofNat]
    omega
  have htake := Bits.take_splice hfit
  have hdrop := Bits.drop_splice hfit
  rw [Bits.length_ofNat] at htake hdrop
  refine ⟨⟨hlt, ?_⟩, ?_, ?_, hrest⟩
  · rw [hdata, Bits.length_splice hfit]
  · rw [Nat.mul_succ, hdata, htake]
  · rw [Nat.mul_succ, hdata, hdrop]

/-- A word index below the word count lies in the buffer. -/
theorem putScratch_ok {w : BitWriter β}
    (hcap : 32 * w.numWords ≤ (Platform.bits w.data).length) (h0 : 0 ≤ w.wordIndex)
    (hlt : w.wordIndex < w.numWords) : ∃ w', w.putScratch = .ok w' := by
  simp only [putScratch, Except.bind_eq_ok_iff, require_eq_ok, Except.pure_eq_ok_iff,
    Platform.storeWord_eq_ok]
  exact ⟨_, (), hlt, _, ⟨⟨h0, by unfold Platform.words; omega⟩, rfl⟩, rfl⟩

/-! ## `WriteBits` -/

/-- Or-ing the shifted value into the register appends its bits to those that are not
stored yet. -/
theorem Rep.scratch_or {w : BitWriter β} {l : List Bool} (hw : w.Rep l) (value : U32) {bits : Int}
    (h0 : 0 < bits) (h32 : bits ≤ 32) {shifted : U64}
    (hshift : @Platform.shiftLeft β _ ((maskValue value bits).setWidth 64) w.scratchBits =
      .ok shifted) :
    (w.scratch ||| shifted).toNat = Bits.toNat
      ((l ++ Bits.ofNat bits.toNat value.toNat).drop (32 * (l.length / 32))) := by
  have htlen : (l.drop (32 * (l.length / 32))).length = l.length % 32 := by
    rw [List.length_drop]
    omega
  rw [hw.scratchBits, Platform.shiftLeft_eq _ _ (by omega) (by omega), Int.toNat_natCast,
    Except.ok.injEq, ← htlen] at hshift
  have happend := Bits.toNat_or_shift hw.scratch (toNat_maskValue value h0 h32) (by omega)
  rw [hshift] at happend
  rw [happend, List.drop_append_of_le_length (by omega)]

/-- A completed `WriteBits` has stored a word, if the register was full, and none
otherwise. -/
theorem writeBits_cases {w w' : BitWriter β} {l : List Bool} {value : U32} {bits : Int}
    (hw : w.Rep l) (h : w.writeBits value bits = .ok w') :
    (0 < bits ∧ bits ≤ 32) ∧ ∃ shifted, @Platform.shiftLeft β _ ((maskValue value bits).setWidth 64)
        w.scratchBits = .ok shifted ∧
      ((32 ≤ ((l.length % 32 : Nat) : Int) + bits ∧ ∃ w₁, putScratch { w with
            scratch := w.scratch ||| shifted
            scratchBits := (l.length % 32 : Nat) + bits } = .ok w₁ ∧
          w' = { w₁ with scratchBits := int32 ((l.length % 32 : Nat) + bits - 32)
                         bitsWritten := int32 (w₁.bitsWritten + bits) }) ∨
        (((l.length % 32 : Nat) : Int) + bits < 32 ∧ w' = { w with
            scratch := w.scratch ||| shifted
            scratchBits := (l.length % 32 : Nat) + bits
            bitsWritten := int32 (w.bitsWritten + bits) })) := by
  simp only [writeBits, Except.bind_eq_ok_iff, require_eq_ok] at h
  obtain ⟨-, h0, -, h32, -, -, shifted, hshift, h⟩ := h
  have hbits : int32 (w.scratchBits + bits) = (l.length % 32 : Nat) + bits := by
    rw [hw.scratchBits]
    exact int32_eq ⟨by omega, by omega⟩
  rw [hbits] at h
  refine ⟨⟨h0, h32⟩, shifted, hshift, ?_⟩
  by_cases hfull : 32 ≤ ((l.length % 32 : Nat) : Int) + bits
  · simp only [if_pos hfull, Except.bind_eq_ok_iff, Except.pure_eq_ok_iff] at h
    obtain ⟨w₁, hput, rfl⟩ := h
    exact .inl ⟨hfull, w₁, hput, rfl⟩
  · simp only [if_neg hfull, Except.pure_eq_ok_iff] at h
    exact .inr ⟨by omega, h.symm⟩

/-- A completed `WriteBits` appends the low bits of its value. -/
theorem writeBits_rep {w w' : BitWriter β} {l : List Bool} {value : U32} {bits : Int}
    (hw : w.Rep l) (h : w.writeBits value bits = .ok w') :
    (0 < bits ∧ bits ≤ 32) ∧ w'.Rep (l ++ Bits.ofNat bits.toNat value.toNat) ∧
      w.SameBuffer w' := by
  obtain ⟨⟨h0, h32⟩, shifted, hshift, hcases⟩ := writeBits_cases hw h
  refine ⟨⟨h0, h32⟩, ?_⟩
  have hcap := hw.capacity
  have hsize := hw.size_lt
  have hscratch := hw.scratch_or value h0 h32 hshift
  obtain ⟨k, hk⟩ : ∃ k, k = l.length / 32 := ⟨_, rfl⟩
  obtain ⟨L, hL⟩ : ∃ L, L = l ++ Bits.ofNat bits.toNat value.toNat := ⟨_, rfl⟩
  have hindex : w.wordIndex = k := by rw [hw.wordIndex, hk]
  have hLlen : L.length = l.length + bits.toNat := by
    rw [hL, List.length_append, Bits.length_ofNat]
  have hdata : (Platform.bits w.data).take (32 * k) = L.take (32 * k) := by
    rw [hL, List.take_append_of_le_length (by omega), hk, hw.data]
  have hwritten : int32 (w.bitsWritten + bits) = int32 L.length := by
    rw [hw.bitsWritten, int32_int32_add, hLlen]
    congr 1
    omega
  rw [← hk, ← hL] at hscratch
  rw [← hL]
  rcases hcases with ⟨hfull, w₁, hput, rfl⟩ | ⟨hfull, rfl⟩
  · -- a word is full: it goes to the buffer
    obtain ⟨⟨hlt, hlen₁⟩, htake, -, hw₁⟩ := putScratch_data (by exact hcap) (by exact hindex) hput
    have hquot : L.length / 32 = k + 1 := by omega
    have hword : Bits.ofNat 32 (Bits.toNat (L.drop (32 * k))) = (L.drop (32 * k)).take 32 := by
      apply Bits.ofNat_toNat
      rw [List.length_drop]
      omega
    simp only [hindex, hscratch] at hlt htake hw₁
    rw [hw₁]
    refine ⟨⟨hw.numWords_nonneg, ?_, ?_, hw.numBits, hwritten, ?_, ?_, ?_, ?_⟩, ⟨rfl, hlen₁⟩⟩
    · change 32 * w.numWords ≤ (Platform.bits w₁.data).length
      rw [hlen₁]
      exact hcap
    · change (Platform.bits w₁.data).length < _
      rw [hlen₁]
      exact hsize
    · change int32 ((k : Int) + 1) = (L.length / 32 : Nat)
      rw [hquot, int32_eq ⟨by omega, by omega⟩]
      push_cast
      rfl
    · change int32 (((l.length % 32 : Nat) : Int) + bits - 32) = (L.length % 32 : Nat)
      rw [int32_eq ⟨by omega, by omega⟩]
      omega
    · change ((w.scratch ||| shifted) >>> 32).toNat = _
      rw [BitVec.toNat_ushiftRight, hscratch, ← Bits.toNat_drop, hquot, Nat.mul_succ,
        List.drop_drop]
    · change (Platform.bits w₁.data).take _ = _
      rw [hquot, htake, hdata, hword, Nat.mul_succ, List.take_add]
  · -- the word is not full: everything stays in the register
    have hquot : L.length / 32 = k := by omega
    refine ⟨⟨hw.numWords_nonneg, hcap, hsize, hw.numBits, hwritten, ?_, ?_, ?_, ?_⟩, ⟨rfl, rfl⟩⟩
    · rw [hquot]
      exact hindex
    · change ((l.length % 32 : Nat) : Int) + bits = (L.length % 32 : Nat)
      omega
    · rw [hquot]
      exact hscratch
    · rw [hquot]
      exact hdata

/-- The capacity in bits never exceeds the buffer; it is less only where the
`int` that holds it wraps. -/
theorem Rep.numBits_le {w : BitWriter β} {l : List Bool} (h : w.Rep l) :
    w.numBits ≤ 32 * w.numWords ∧ IsInt32 w.numBits := by
  have h0 := h.numWords_nonneg
  have hle := int32_le (show 0 ≤ w.numWords * 32 by omega)
  rw [h.numBits]
  exact ⟨by omega, isInt32_int32 _⟩

/-- The size of the buffer is a whole number of words. -/
theorem Rep.numBits_emod {w : BitWriter β} {l : List Bool} (h : w.Rep l) : w.numBits % 32 = 0 := by
  have hemod := int32_emod (w.numWords * 32)
  rw [h.numBits]
  omega

/-- Where the written bits fit the capacity, the counter is exact. -/
theorem Rep.bitsWritten_eq {w : BitWriter β} {l : List Bool} (h : w.Rep l)
    (hfit : (l.length : Int) ≤ w.numBits) : w.bitsWritten = l.length := by
  have hint := h.numBits_le.2
  rw [h.bitsWritten]
  exact int32_eq ⟨by omega, by have := hint.2; omega⟩

/-- A `WriteBits` that fits completes. -/
theorem writeBits_ok {w : BitWriter β} {l : List Bool} (hw : w.Rep l) (value : U32) {bits : Int}
    (h0 : 0 < bits) (h32 : bits ≤ 32) (hfit : (l.length : Int) + bits ≤ w.numBits) :
    ∃ w', w.writeBits value bits = .ok w' := by
  have hcap := hw.capacity
  obtain ⟨hnum, -, hint⟩ := hw.numBits_le
  have hroom : int32 (w.bitsWritten + bits) ≤ w.numBits := by
    rw [hw.bitsWritten_eq (by omega), int32_eq ⟨by omega, by omega⟩]
    exact hfit
  have hbits : w.scratchBits = (l.length % 32 : Nat) := hw.scratchBits
  have hshift := @Platform.shiftLeft_eq β _ ((maskValue value bits).setWidth 64) w.scratchBits
    (by omega) (by omega)
  simp only [writeBits, Except.bind_eq_ok_iff, require_eq_ok, hshift]
  by_cases hfull : 32 ≤ int32 (w.scratchBits + bits)
  · have hindex : w.wordIndex = (l.length / 32 : Nat) := hw.wordIndex
    have hlt : w.wordIndex < w.numWords := by
      rw [int32_eq ⟨by omega, by omega⟩] at hfull
      omega
    have hnonneg : 0 ≤ w.wordIndex := by omega
    obtain ⟨w₁, hput⟩ := @putScratch_ok β _ { w with
      scratch := w.scratch ||| (maskValue value bits).setWidth 64 <<< w.scratchBits.toNat,
      scratchBits := int32 (w.scratchBits + bits) } hcap hnonneg hlt
    simp only [if_pos hfull, Except.bind_eq_ok_iff, Except.pure_eq_ok_iff]
    exact ⟨_, (), h0, (), h32, (), hroom, _, rfl, w₁, hput, rfl⟩
  · simp only [if_neg hfull, Except.pure_eq_ok_iff]
    exact ⟨_, (), h0, (), h32, (), hroom, _, rfl, rfl⟩

/-- One that does not fit stops at the assertion. -/
theorem writeBits_full {w : BitWriter β} {l : List Bool} (hw : w.Rep l) (value : U32) {bits : Int}
    (h0 : 0 < bits) (h32 : bits ≤ 32) (hsmall : l.length + bits < 2147483648)
    (hfull : w.numBits < l.length + bits) : w.writeBits value bits = .error .assertion := by
  have hwritten : w.bitsWritten = l.length := by
    rw [hw.bitsWritten, int32_eq ⟨by omega, by omega⟩]
  have hroom : ¬int32 (w.bitsWritten + bits) ≤ w.numBits := by
    rw [hwritten, int32_eq ⟨by omega, by omega⟩]
    omega
  simp only [writeBits, require, if_pos h0, if_pos h32, if_neg hroom]
  rfl

/-! ## `WriteAlign` -/

/-- A `WriteAlign` that fits completes, and fills the last byte with zeros. -/
theorem writeAlign_ok {w : BitWriter β} {l : List Bool} (hw : w.Rep l)
    (hfit : ((l ++ Bits.padding l.length).length : Int) ≤ w.numBits) :
    ∃ w', w.writeAlign = .ok w' ∧ w'.Rep (l ++ Bits.padding l.length) ∧ w.SameBuffer w' := by
  rw [List.length_append, Bits.length_padding] at hfit
  have hwritten := hw.bitsWritten_eq (by omega)
  have hrem : w.bitsWritten.tmod 8 = (l.length % 8 : Nat) := by
    rw [hwritten, tmod_eq _ (by omega)]
    omega
  unfold writeAlign
  by_cases hz : l.length % 8 = 0
  · have hpad : Bits.padding l.length = [] := by simp [Bits.padding, hz]
    rw [hpad, List.append_nil]
    exact ⟨w, by simp [hrem, hz, pure, Except.pure], hw, .refl w⟩
  · have hne : w.bitsWritten.tmod 8 ≠ 0 := by omega
    obtain ⟨w', hwrite⟩ := @writeBits_ok β _ w l hw 0 (8 - w.bitsWritten.tmod 8)
      (by omega) (by omega) (by omega)
    obtain ⟨-, hrep, hsame⟩ := writeBits_rep hw hwrite
    have hpad : Bits.ofNat (8 - w.bitsWritten.tmod 8).toNat (0 : U32).toNat =
        Bits.padding l.length := by
      rw [show (0 : U32).toNat = 0 from rfl, Bits.ofNat_zero_right, Bits.padding]
      congr 1
      omega
    rw [hpad] at hrep
    have hnumBits : w'.numBits = w.numBits := by rw [hrep.numBits, hw.numBits, hsame.numWords]
    have haligned : w'.bitsWritten.tmod 8 = 0 := by
      have hlen : (l ++ Bits.padding l.length).length = l.length + (8 - l.length % 8) % 8 := by
        rw [List.length_append, Bits.length_padding]
      rw [hrep.bitsWritten_eq (by omega), tmod_eq _ (by omega)]
      omega
    refine ⟨w', ?_, hrep, hsame⟩
    simp only [if_pos hne, Except.bind_eq_ok_iff, require_eq_ok, Except.pure_eq_ok_iff]
    exact ⟨w', hwrite, (), haligned, rfl⟩

/-! ## `FlushBits` -/

/-- What is left in the buffer after a flush: the written bits, with zeros up
to the next word. -/
theorem flushBits_data {w w' : BitWriter β} {l : List Bool} (hw : w.Rep l)
    (h : w.flushBits = .ok w') :
    (Platform.bits w'.data).take (32 * ((l.length + 31) / 32)) =
        l ++ List.replicate (32 * ((l.length + 31) / 32) - l.length) false ∧
      w'.bitsWritten = w.bitsWritten ∧ w.SameBuffer w' := by
  unfold flushBits at h
  split at h
  · next hne =>
    have hmod : l.length % 32 ≠ 0 := by
      rw [hw.scratchBits] at hne
      omega
    simp only [Except.bind_eq_ok_iff, Except.pure_eq_ok_iff] at h
    obtain ⟨w₁, hput, rfl⟩ := h
    obtain ⟨⟨-, hlen⟩, htake, -, hw₁⟩ := putScratch_data hw.capacity hw.wordIndex hput
    have htlen : (l.drop (32 * (l.length / 32))).length = l.length % 32 := by
      rw [List.length_drop]
      omega
    have hword : Bits.ofNat 32 (Bits.toNat (l.drop (32 * (l.length / 32)))) =
        l.drop (32 * (l.length / 32)) ++ List.replicate (32 - l.length % 32) false := by
      rw [Bits.ofNat_toNat_pad _ (by omega), htlen]
    refine ⟨?_, ?_, ⟨?_, hlen⟩⟩
    · change (Platform.bits w₁.data).take _ = _
      rw [show (l.length + 31) / 32 = l.length / 32 + 1 by omega, htake, hw.data, hw.scratch, hword,
        ← List.append_assoc, List.take_append_drop]
      congr 2
      omega
    · rw [hw₁]
    · rw [hw₁]
  · next heq =>
    have hmod : l.length % 32 = 0 := by
      rw [hw.scratchBits] at heq
      omega
    obtain rfl : w = w' := Except.pure_eq_ok_iff.mp h
    refine ⟨?_, rfl, .refl w⟩
    have hall : 32 * ((l.length + 31) / 32) = 32 * (l.length / 32) := by omega
    rw [hall, hw.data, List.take_of_length_le (by omega)]
    simp
    omega

/-- Between words there is nothing to flush. -/
theorem flushBits_of_dvd {w : BitWriter β} {l : List Bool} (hw : w.Rep l)
    (h : l.length % 32 = 0) : w.flushBits = .ok w := by
  have hz : w.scratchBits = 0 := by
    rw [hw.scratchBits, h]
    rfl
  simp [flushBits, hz, pure, Except.pure]

/-- A flush completes where the written bits fit the capacity. -/
theorem flushBits_ok {w : BitWriter β} {l : List Bool} (hw : w.Rep l)
    (hfit : (l.length : Int) ≤ w.numBits) : ∃ w', w.flushBits = .ok w' := by
  by_cases hmod : l.length % 32 = 0
  · exact ⟨w, flushBits_of_dvd hw hmod⟩
  · have hindex : w.wordIndex = (l.length / 32 : Nat) := hw.wordIndex
    have hbits : w.scratchBits ≠ 0 := by
      rw [hw.scratchBits]
      omega
    have hnum := hw.numBits_le.1
    obtain ⟨w₁, hput⟩ := putScratch_ok hw.capacity (by omega) (by omega)
    simp only [flushBits, if_pos hbits, hput]
    exact ⟨_, rfl⟩

/-! ## `WriteBytes` -/

/-- A byte that is widened to a word has its eight bits in front. -/
theorem ofNat_setWidth (b : U8) : Bits.ofNat 8 (b.setWidth 32).toNat = Bits.ofVec b := by
  rw [BitVec.toNat_setWidth, Nat.mod_eq_of_lt (by omega), Bits.ofVec]

/-- The loop over single bytes appends them in order. -/
theorem writeEach_rep {w w' : BitWriter β} {l : List Bool} {xs : List U8} (hw : w.Rep l)
    (h : w.writeEach xs = .ok w') : w'.Rep (l ++ Bits.ofList xs) ∧ w.SameBuffer w' := by
  induction xs generalizing w l with
  | nil =>
      obtain rfl : w = w' := Except.pure_eq_ok_iff.mp h
      exact ⟨by rwa [Bits.ofList_nil, List.append_nil], .refl w⟩
  | cons b bs ih =>
      obtain ⟨w₁, hwrite, hrest⟩ := Except.bind_eq_ok_iff.mp h
      obtain ⟨-, hrep, hsame⟩ := writeBits_rep hw hwrite
      rw [show (8 : Int).toNat = 8 from rfl, ofNat_setWidth] at hrep
      obtain ⟨hrep', hsame'⟩ := ih hrep hrest
      rw [List.append_assoc, ← Bits.ofList_cons] at hrep'
      exact ⟨hrep', hsame.trans hsame'⟩

/-- The loop over single bytes completes when all of them fit. -/
theorem writeEach_ok {w : BitWriter β} {l : List Bool} (xs : List U8) (hw : w.Rep l)
    (hfit : (l.length : Int) + 8 * xs.length ≤ w.numBits) : ∃ w', w.writeEach xs = .ok w' := by
  induction xs generalizing w l with
  | nil => exact ⟨w, rfl⟩
  | cons b bs ih =>
      rw [List.length_cons] at hfit
      obtain ⟨w₁, hwrite⟩ := writeBits_ok hw (b.setWidth 32) (show (0 : Int) < 8 by decide)
        (by decide) (by omega)
      obtain ⟨-, hrep, hsame⟩ := writeBits_rep hw hwrite
      have hlen : (l ++ Bits.ofNat (8 : Int).toNat (b.setWidth 32).toNat).length = l.length + 8 := by
        simp
      obtain ⟨w', hrest⟩ := ih hrep (by rw [hlen, hrep.numBits, hsame.numWords, ← hw.numBits]; omega)
      exact ⟨w', Except.bind_eq_ok_iff.mpr ⟨w₁, hwrite, hrest⟩⟩

/-- The words are copied to where the bit string ends, if there are any. -/
theorem writeWords_cases {w w' : BitWriter β} {l : List Bool} {data : List U8}
    {headBytes numWords : Int} (hw : w.Rep l) (hmod : l.length % 32 = 0)
    (h : w.writeWords data headBytes numWords = .ok w') :
    (0 < numWords ∧ ∃ block buffer, Bits.slice data headBytes.toNat (numWords * 4).toNat = block ∧
        (block.length : Int) = 4 * numWords ∧
        l.length + (Bits.ofList block).length ≤ (Platform.bits w.data).length ∧
        Platform.bits buffer = Bits.splice (Platform.bits w.data) l.length (Bits.ofList block) ∧
        w' = { w with data := buffer, bitsWritten := int32 (w.bitsWritten + numWords * 32),
                      wordIndex := int32 (w.wordIndex + numWords), scratch := 0 }) ∨
      ((numWords * 4).toNat = 0 ∧ w' = w) := by
  have hindex : w.wordIndex = (l.length / 32 : Nat) := hw.wordIndex
  unfold writeWords at h
  by_cases hpos : 0 < numWords
  · simp only [if_pos hpos, Except.bind_eq_ok_iff, require_eq_ok, Except.pure_eq_ok_iff,
      readArray_eq_ok, Platform.storeBytes_eq_ok] at h
    obtain ⟨-, -, block, ⟨hrange, hblock⟩, buffer, ⟨⟨-, hroom⟩, rfl⟩, rfl⟩ := h
    have hlen : (block.length : Int) = 4 * numWords := by
      rw [← hblock, Bits.length_slice]
      omega
    have hbits := Platform.bits_setBytes w.data w.wordIndex.toNat block (by omega) (by omega)
    rw [show 32 * w.wordIndex.toNat = l.length by omega] at hbits
    refine .inl ⟨hpos, block, _, hblock, hlen, ?_, hbits, rfl⟩
    rw [Bits.length_ofList]
    omega
  · simp only [if_neg hpos, Except.pure_eq_ok_iff] at h
    exact .inr ⟨by omega, h.symm⟩

/-- The words copied around the scratch register extend the bit string, since
the register is empty. -/
theorem writeWords_rep {w w' : BitWriter β} {l : List Bool} {data : List U8}
    {headBytes numWords : Int} (hw : w.Rep l) (hmod : l.length % 32 = 0)
    (h : w.writeWords data headBytes numWords = .ok w') :
    w'.Rep (l ++ Bits.ofList (Bits.slice data headBytes.toNat (numWords * 4).toNat)) ∧
      w.SameBuffer w' := by
  have hcap := hw.capacity
  have hsize := hw.size_lt
  have hindex : w.wordIndex = (l.length / 32 : Nat) := hw.wordIndex
  rcases writeWords_cases hw hmod h with
    ⟨hpos, block, buffer, hblock, hlen, hfit, hbits, rfl⟩ | ⟨hz, rfl⟩
  · rw [hblock]
    have hlenL : (l ++ Bits.ofList block).length = l.length + 8 * block.length := by
      rw [List.length_append, Bits.length_ofList]
    have hall : 32 * (l.length / 32) = l.length := by omega
    have hall' : 32 * ((l ++ Bits.ofList block).length / 32) = (l ++ Bits.ofList block).length := by
      omega
    have hlen' : (Platform.bits buffer).length = (Platform.bits w.data).length := by
      rw [hbits, Bits.length_splice hfit]
    refine ⟨⟨hw.numWords_nonneg, ?_, ?_, hw.numBits, ?_, ?_, ?_, ?_, ?_⟩, ⟨rfl, hlen'⟩⟩
    · change 32 * w.numWords ≤ (Platform.bits buffer).length
      rw [hlen']
      exact hcap
    · change (Platform.bits buffer).length < _
      rw [hlen']
      exact hsize
    · change int32 (w.bitsWritten + numWords * 32) = int32 _
      rw [hw.bitsWritten, int32_int32_add, hlenL]
      congr 1
      omega
    · change int32 (w.wordIndex + numWords) = _
      have hroom := Bits.length_ofList block
      rw [int32_eq ⟨by omega, by omega⟩]
      omega
    · change w.scratchBits = _
      rw [hw.scratchBits]
      omega
    · rw [hall', List.drop_length]
      rfl
    · change (Platform.bits buffer).take _ = _
      have hdata := hw.data
      rw [hall, List.take_length] at hdata
      have htake := Bits.take_splice hfit
      rw [hdata, ← List.length_append] at htake
      rw [hall', hbits, htake, List.take_length]
  · exact ⟨by simpa [hz, Bits.slice] using hw, .refl _⟩

/-- The bit counter, read modulo the word size. -/
theorem Rep.bitsWritten_emod {w : BitWriter β} {l : List Bool} (hw : w.Rep l) :
    w.bitsWritten % 32 = (l.length % 32 : Nat) := by
  have hemod := int32_emod l.length
  rw [hw.bitsWritten]
  omega

/-- From a word boundary the flush finds nothing, and what is left of the data is cut
into words and a tail. -/
theorem writeBytesRest_parts {w w' : BitWriter β} {l : List Bool} {data : List U8}
    {bytes headBytes : Int} (hw : w.Rep l) (hmod : l.length % 32 = 0) (h0 : 0 ≤ headBytes)
    (hle : headBytes ≤ bytes) (h : w.writeBytesRest data bytes headBytes = .ok w') :
    ∃ n w₁ tail, w.writeWords data headBytes n = .ok w₁ ∧ w₁.writeEach tail = .ok w' ∧
      Bits.slice data headBytes.toNat (bytes - headBytes).toNat =
        Bits.slice data headBytes.toNat (n * 4).toNat ++ tail := by
  obtain ⟨n, hn⟩ : ∃ n, (bytes - headBytes).tdiv 4 = n := ⟨_, rfl⟩
  simp only [writeBytesRest, flushBits_of_dvd hw hmod, hn, Except.bind_eq_ok_iff, require_eq_ok,
    readArray_eq_ok, Except.pure_eq_ok_iff, Except.ok.injEq] at h
  obtain ⟨_, rfl, -, -, w₁, hwords, -, -, -, -, tail, ⟨-, htail⟩, w₂, htailw, -, -, -, -, rfl⟩ := h
  refine ⟨n, w₁, tail, hwords, htailw, ?_⟩
  -- the two parts are consecutive slices of the data
  rw [tdiv_eq _ (by omega)] at hn
  have h1 : (headBytes + n * 4).toNat = headBytes.toNat + (n * 4).toNat := by omega
  have h2 : (bytes - headBytes).toNat = (n * 4).toNat + (bytes - (headBytes + n * 4)).toNat := by
    omega
  rw [h2, Bits.slice_add, ← h1, htail]

/-- Behind the head, which ends at a word, whole words are copied and the tail is written byte
by byte. -/
theorem writeBytesRest_rep {w w' : BitWriter β} {l : List Bool} {data : List U8}
    {bytes headBytes : Int} (hw : w.Rep l) (hmod : l.length % 32 = 0) (h0 : 0 ≤ headBytes)
    (hle : headBytes ≤ bytes) (h : w.writeBytesRest data bytes headBytes = .ok w') :
    w'.Rep (l ++ Bits.ofList (Bits.slice data headBytes.toNat (bytes - headBytes).toNat)) ∧
      w.SameBuffer w' := by
  obtain ⟨n, w₁, tail, hwords, htail, hsplit⟩ := writeBytesRest_parts hw hmod h0 hle h
  obtain ⟨hrep₁, hsame₁⟩ := writeWords_rep hw hmod hwords
  obtain ⟨hrep₂, hsame₂⟩ := writeEach_rep hrep₁ htail
  rw [hsplit, Bits.ofList_append, ← List.append_assoc]
  exact ⟨hrep₂, hsame₁.trans hsame₂⟩

/-- `WriteBytes` writes a head byte by byte, which is all, or fills the current word. -/
theorem writeBytes_parts {w w' : BitWriter β} {l : List Bool} {data : List U8} {bytes : Int}
    (hw : w.Rep l) (h : w.writeBytes data bytes = .ok w') :
    ∃ head w₁, w.writeEach head = .ok w₁ ∧
      ((data.take bytes.toNat = head ∧ w' = w₁) ∨
        ∃ headBytes, (0 ≤ headBytes ∧ headBytes ≤ bytes) ∧
          (l ++ Bits.ofList head).length % 32 = 0 ∧
          w₁.writeBytesRest data bytes headBytes = .ok w' ∧
          data.take bytes.toNat =
            head ++ Bits.slice data headBytes.toNat (bytes - headBytes).toNat) := by
  simp only [writeBytes, Except.bind_eq_ok_iff, require_eq_ok, readArray_eq_ok] at h
  obtain ⟨-, -, -, -, -, hoff, head, ⟨hrange, hhead⟩, w₁, hwrite, h⟩ := h
  obtain ⟨hb, hbeq, hble, -, hword⟩ := @headBytes_spec w.bitsWritten bytes hoff
  rw [hbeq] at hrange hhead h
  rw [show (0 : Int).toNat = 0 from rfl] at hhead
  refine ⟨head, w₁, hwrite, ?_⟩
  by_cases hdone : hb = bytes
  · simp only [if_pos hdone, Except.pure_eq_ok_iff] at h
    refine .inl ⟨?_, h.symm⟩
    rw [Bits.take_eq_slice, ← hdone, hhead]
  · simp only [if_neg hdone] at h
    obtain ⟨hpos, hmod⟩ := hword hdone
    have hemod := hw.bitsWritten_emod
    have hlen : head.length = hb.toNat := by
      rw [← hhead, Bits.length_slice]
      omega
    refine .inr ⟨hb, ⟨hpos, hble⟩, ?_, h, ?_⟩
    · rw [List.length_append, Bits.length_ofList, hlen]
      omega
    · -- the head and the rest are consecutive slices of the data
      rw [show bytes.toNat = hb.toNat + (bytes - hb).toNat by omega, Bits.take_eq_slice,
        Bits.slice_add, Nat.zero_add, hhead]

/-- A completed `WriteBytes` appends its bytes, at every byte offset: the head
fills the current word, so that the flush finds nothing and the block copy
starts at a word. -/
theorem writeBytes_rep {w w' : BitWriter β} {l : List Bool} {data : List U8} {bytes : Int}
    (hw : w.Rep l) (h : w.writeBytes data bytes = .ok w') :
    w'.Rep (l ++ Bits.ofList (data.take bytes.toNat)) ∧ w.SameBuffer w' := by
  obtain ⟨head, w₁, hwrite, hparts⟩ := writeBytes_parts hw h
  obtain ⟨hrep, hsame⟩ := writeEach_rep hw hwrite
  rcases hparts with ⟨hall, rfl⟩ | ⟨headBytes, ⟨h0, hle⟩, hmod, hrest, hall⟩
  · rw [hall]
    exact ⟨hrep, hsame⟩
  · obtain ⟨hrep', hsame'⟩ := writeBytesRest_rep hrep hmod h0 hle hrest
    rw [hall, Bits.ofList_append, ← List.append_assoc]
    exact ⟨hrep', hsame.trans hsame'⟩

/-- At a byte there is nothing to align. -/
theorem Rep.getAlignBits_eq {w : BitWriter β} {l : List Bool} (hw : w.Rep l)
    (hfit : (l.length : Int) ≤ w.numBits) (h8 : l.length % 8 = 0) : w.getAlignBits = 0 := by
  have hmod : w.bitsWritten.tmod 8 = 0 := by
    rw [hw.bitsWritten_eq hfit, tmod_eq _ (by omega)]
    omega
  rw [getAlignBits, hmod]
  rfl

/-- The size of the buffer stays what it was. -/
theorem Rep.numBits_eq {w w' : BitWriter β} {l l' : List Bool} (hw : w.Rep l) (hw' : w'.Rep l')
    (hsame : w.SameBuffer w') : w'.numBits = w.numBits := by
  rw [hw'.numBits, hsame.numWords, ← hw.numBits]

/-- Copying whole words completes when they fit and the data has them. -/
theorem writeWords_ok {w : BitWriter β} {l : List Bool} {data : List U8}
    {headBytes numWords : Int} (hw : w.Rep l) (hmod : l.length % 32 = 0)
    (hfit : (l.length : Int) + 32 * numWords ≤ w.numBits) (h0 : 0 ≤ headBytes)
    (hdata : headBytes + numWords * 4 ≤ data.length) :
    ∃ w', w.writeWords data headBytes numWords = .ok w' := by
  unfold writeWords
  by_cases hpos : 0 < numWords
  · have hcap := hw.capacity
    have hnum := hw.numBits_le.1
    have hindex : w.wordIndex = (l.length / 32 : Nat) := hw.wordIndex
    have haligned : w.bitsWritten.tmod 32 = 0 := by
      rw [hw.bitsWritten_eq (by omega), tmod_eq _ (by omega)]
      omega
    have hlen : ((Bits.slice data headBytes.toNat (numWords * 4).toNat).length : Int) =
        4 * numWords := by
      rw [Bits.length_slice]
      omega
    simp only [if_pos hpos, Except.bind_eq_ok_iff, require_eq_ok, Except.pure_eq_ok_iff,
      readArray_eq_ok, Platform.storeBytes_eq_ok]
    exact ⟨_, (), haligned, _, ⟨.inr ⟨h0, hdata⟩, rfl⟩, _, ⟨⟨by omega, by omega⟩, rfl⟩, rfl⟩
  · exact ⟨w, by simp [hpos, pure, Except.pure]⟩

/-- From a word boundary the words and the tail are written where they fit. -/
theorem writeBytesRest_ok {w : BitWriter β} {l : List Bool} {data : List U8}
    {bytes headBytes : Int} (hw : w.Rep l) (hmod : l.length % 32 = 0) (h0 : 0 ≤ headBytes)
    (hle : headBytes ≤ bytes) (hdata : bytes ≤ data.length)
    (hfit : (l.length : Int) + 8 * (bytes - headBytes) ≤ w.numBits) :
    ∃ w', w.writeBytesRest data bytes headBytes = .ok w' := by
  obtain ⟨n, hn⟩ : ∃ n, (bytes - headBytes).tdiv 4 = n := ⟨_, rfl⟩
  have hdiv := hn
  rw [tdiv_eq _ (by omega)] at hdiv
  -- the words
  obtain ⟨w₁, hwords⟩ := @writeWords_ok β _ w l data headBytes n hw hmod (by omega) h0 (by omega)
  obtain ⟨hrep₁, hsame₁⟩ := writeWords_rep hw hmod hwords
  have hnum₁ := hw.numBits_eq hrep₁ hsame₁
  have hlen₁ : (l ++ Bits.ofList (Bits.slice data headBytes.toNat (n * 4).toNat)).length =
      l.length + 32 * n.toNat := by
    rw [List.length_append, Bits.length_ofList, Bits.length_slice]
    omega
  -- the tail
  obtain ⟨tail, htail⟩ : ∃ tail, tail =
      Bits.slice data (headBytes + n * 4).toNat (bytes - (headBytes + n * 4)).toNat := ⟨_, rfl⟩
  have htaillen : (tail.length : Int) = bytes - (headBytes + n * 4) := by
    rw [htail, Bits.length_slice]
    omega
  have hread : readArray data (headBytes + n * 4) (bytes - (headBytes + n * 4)) = .ok tail :=
    readArray_eq_ok.mpr ⟨.inr ⟨by omega, by omega⟩, htail.symm⟩
  obtain ⟨w₂, htailw⟩ := writeEach_ok tail hrep₁ (by omega)
  obtain ⟨hrep₂, hsame₂⟩ := writeEach_rep hrep₁ htailw
  have hnum₂ := hrep₁.numBits_eq hrep₂ hsame₂
  have hlen₂ := @List.length_append _ (l ++ Bits.ofList
    (Bits.slice data headBytes.toNat (n * 4).toNat)) (Bits.ofList tail)
  rw [hlen₁, Bits.length_ofList] at hlen₂
  refine ⟨w₂, ?_⟩
  simp only [writeBytesRest, flushBits_of_dvd hw hmod, hn, Except.bind_eq_ok_iff,
    require_eq_ok, Except.pure_eq_ok_iff]
  exact ⟨w, rfl, (), hw.getAlignBits_eq (by omega) (by omega), w₁, hwords, (),
    hrep₁.getAlignBits_eq (by omega) (by omega), (), ⟨by omega, by omega⟩, tail, hread, w₂,
    htailw, (), hrep₂.getAlignBits_eq (by omega) (by omega), (), by omega, rfl⟩

/-- A `WriteBytes` from a byte boundary that fits completes. -/
theorem writeBytes_ok {w : BitWriter β} {l : List Bool} {data : List U8} {bytes : Int}
    (hw : w.Rep l) (h8 : l.length % 8 = 0) (h0 : 0 ≤ bytes) (hdata : bytes ≤ data.length)
    (hfit : (l.length : Int) + 8 * bytes ≤ w.numBits) :
    ∃ w', w.writeBytes data bytes = .ok w' := by
  have hint := hw.numBits_le.2.2
  have hwritten := hw.bitsWritten_eq (by omega)
  have hmod : w.bitsWritten.tmod 32 = (l.length : Int) % 32 := by
    rw [hwritten, tmod_eq _ (by omega)]
  have hoff : w.bitsWritten.tmod 32 = 0 ∨ w.bitsWritten.tmod 32 = 8 ∨
      w.bitsWritten.tmod 32 = 16 ∨ w.bitsWritten.tmod 32 = 24 := by omega
  have hroom : int32 (w.bitsWritten + bytes * 8) ≤ w.numBits := by
    rw [hwritten, int32_eq ⟨by omega, by omega⟩]
    omega
  obtain ⟨hb, hbeq, hble, hb3, hword⟩ := @headBytes_spec w.bitsWritten bytes hoff
  have hb0 : 0 ≤ hb := by
    by_cases hdone : hb = bytes
    · omega
    · exact (hword hdone).1
  obtain ⟨head, hhead⟩ : ∃ head, head = Bits.slice data 0 hb.toNat := ⟨_, rfl⟩
  have hheadlen : (head.length : Int) = hb := by
    rw [hhead, Bits.length_slice]
    omega
  have hread : readArray data 0 hb = .ok head :=
    readArray_eq_ok.mpr ⟨.inr ⟨le_refl 0, by omega⟩, hhead.symm⟩
  obtain ⟨w₁, hwrite⟩ := writeEach_ok head hw (by omega)
  obtain ⟨hrep, hsame⟩ := writeEach_rep hw hwrite
  have hnumBits := hw.numBits_eq hrep hsame
  have hlen : (l ++ Bits.ofList head).length = l.length + 8 * head.length := by
    rw [List.length_append, Bits.length_ofList]
  obtain ⟨w', hrest⟩ : ∃ w', (if hb = bytes then pure w₁ else w₁.writeBytesRest data bytes hb) =
      Except.ok w' := by
    by_cases hdone : hb = bytes
    · exact ⟨w₁, if_pos hdone⟩
    · rw [if_neg hdone]
      obtain ⟨-, hmod32⟩ := hword hdone
      exact writeBytesRest_ok hrep (by omega) hb0 hble hdata (by omega)
  simp only [writeBytes, hbeq, Except.bind_eq_ok_iff, require_eq_ok]
  exact ⟨w', (), hw.getAlignBits_eq (by omega) h8, (), hroom, (), hoff, head, hread, w₁, hwrite,
    hrest⟩

/-- One that does not fit stops at the assertion. -/
theorem writeBytes_full {w : BitWriter β} {l : List Bool} {data : List U8} {bytes : Int}
    (hw : w.Rep l) (h8 : l.length % 8 = 0) (h0 : 0 ≤ bytes) (hle : (l.length : Int) ≤ w.numBits)
    (hsmall : l.length + 8 * bytes < 2147483648) (hfull : w.numBits < l.length + 8 * bytes) :
    w.writeBytes data bytes = .error .assertion := by
  have halign := hw.getAlignBits_eq hle h8
  have hroom : ¬int32 (w.bitsWritten + bytes * 8) ≤ w.numBits := by
    rw [hw.bitsWritten_eq hle, int32_eq ⟨by omega, by omega⟩]
    omega
  simp only [writeBytes, require, if_pos halign, if_neg hroom]
  rfl

end BitWriter

end RudpNetwork
