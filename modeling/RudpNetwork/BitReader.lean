import RudpNetwork.Platform

/-!
# RudpNetwork.BitReader

`BitReader.h` and `BitReader.cs`: the unpacker that loads words into a 64-bit
scratch register and takes bits off its low end.

`At r B N pos` says that the reader `r` stands at position `pos` of the bit
string `B`, of which `N` bits may be read.  As with the writer, every field is a
function of the position: the words up to the next boundary are loaded, and the
register holds what is left of them.

## Main results

* `At` — the reader at a position, with every field determined by it.
* `readBits_ok`, `readAlign_ok`, `readBytes_ok` — what a read that stays within the bits
  returns, and where it leaves the reader.
-/

namespace RudpNetwork

open MachineInt

/-- `class BitReader`, over the buffer of either code base. -/
structure BitReader (β : Type) where
  data : β
  scratch : U64
  numBits : Int
  numBytes : Int
  /-- C#, and the C++ debug build. -/
  numWords : Int
  bitsRead : Int
  scratchBits : Int
  wordIndex : Int
  deriving DecidableEq

namespace BitReader

variable {β : Type} [Platform β]

/-! ## the source methods -/

/-- `BitReader( data, bytes )`. -/
def init (data : β) (bytes : Int) : BitReader β where
  data := data
  scratch := 0
  numBits := int32 (bytes * 8)
  numBytes := bytes
  numWords := (int32 (bytes + 3)).tdiv 4
  bitsRead := 0
  scratchBits := 0
  wordIndex := 0

/-- `WouldOverflow`. -/
def wouldOverflow (r : BitReader β) (bits : Int) : Bool := r.numBits < int32 (r.bitsRead + bits)

/-- The next word goes to the scratch register. -/
def getScratch (r : BitReader β) : Except Fault (BitReader β) := do
  assert (r.wordIndex < r.numWords)
  let word ← Platform.loadWord r.data r.wordIndex
  let shifted ← @Platform.shiftLeft β _ ((networkToHost word).setWidth 64) r.scratchBits
  return { r with scratch := r.scratch ||| shifted, scratchBits := int32 (r.scratchBits + 32),
                  wordIndex := int32 (r.wordIndex + 1) }

/-- The load of `ReadBits`, for a register that holds too few bits. -/
def refill (r : BitReader β) (bits : Int) : Except Fault (BitReader β) :=
  if r.scratchBits < bits then r.getScratch else return r

/-- `ReadBits`. -/
def readBits (r : BitReader β) (bits : Int) : Except Fault (U32 × BitReader β) := do
  assert (0 < bits)
  assert (bits ≤ 32)
  assert (int32 (r.bitsRead + bits) ≤ r.numBits)
  let r := { r with bitsRead := int32 (r.bitsRead + bits) }
  assert (0 ≤ r.scratchBits ∧ r.scratchBits ≤ 64)
  let r ← r.refill bits
  assert (bits ≤ r.scratchBits)
  let output := (r.scratch &&& ((1#64 <<< bits.toNat) - 1#64)).setWidth 32
  return (output, { r with scratch := r.scratch >>> bits.toNat,
                           scratchBits := int32 (r.scratchBits - bits) })

/-- `ReadAlign`. -/
def readAlign (r : BitReader β) : Except Fault (Bool × BitReader β) := do
  let remainderBits := r.bitsRead.tmod 8
  if remainderBits ≠ 0 then
    let (value, r) ← r.readBits (8 - remainderBits)
    assert (r.bitsRead.tmod 8 = 0)
    return (value == 0, r)
  else
    return (true, r)

/-- `GetAlignBits`. -/
def getAlignBits (r : BitReader β) : Int := (8 - r.bitsRead.tmod 8).tmod 8

/-- The loops of `ReadBytes`: `(uint8_t) ReadBits( 8 )` for each byte. -/
def readEach (r : BitReader β) : Nat → Except Fault (List U8 × BitReader β)
  | 0 => return ([], r)
  | n + 1 => do
      let (value, r) ← r.readBits 8
      let (xs, r) ← r.readEach n
      return (value.setWidth 8 :: xs, r)

/-- The words of `ReadBytes`, copied around the scratch register. -/
def readWords (r : BitReader β) (data : List U8) (headBytes numWords : Int) :
    Except Fault (List U8 × BitReader β) := do
  if 0 < numWords then
    assert (r.bitsRead.tmod 32 = 0)
    let block ← Platform.loadBytes r.data r.wordIndex numWords.toNat
    let data ← writeArray data headBytes block
    return (data, { r with bitsRead := int32 (r.bitsRead + numWords * 32),
                           wordIndex := int32 (r.wordIndex + numWords), scratchBits := 0 })
  else
    return (data, r)

/-- `ReadBytes` after its head: the whole words, the tail. -/
def readBytesRest (r : BitReader β) (data : List U8) (bytes headBytes : Int) :
    Except Fault (List U8 × BitReader β) := do
  assert (r.getAlignBits = 0)
  let numWords := (bytes - headBytes).tdiv 4
  let (data, r) ← r.readWords data headBytes numWords
  assert (r.getAlignBits = 0)
  let tailStart := headBytes + numWords * 4
  let tailBytes := bytes - tailStart
  assert (0 ≤ tailBytes ∧ tailBytes < 4)
  let (tail, r) ← r.readEach tailBytes.toNat
  let data ← writeArray data tailStart tail
  assert (r.getAlignBits = 0)
  assert (headBytes + numWords * 4 + tailBytes = bytes)
  return (data, r)

/-- `ReadBytes`: `data` after the bytes were stored. -/
def readBytes (r : BitReader β) (data : List U8) (bytes : Int) :
    Except Fault (List U8 × BitReader β) := do
  assert (r.getAlignBits = 0)
  assert (int32 (r.bitsRead + bytes * 8) ≤ r.numBits)
  assert (r.bitsRead.tmod 32 = 0 ∨ r.bitsRead.tmod 32 = 8 ∨ r.bitsRead.tmod 32 = 16 ∨
    r.bitsRead.tmod 32 = 24)
  let headBytes := min ((4 - (r.bitsRead.tmod 32).tdiv 8).tmod 4) bytes
  let (head, r) ← r.readEach headBytes.toNat
  let data ← writeArray data 0 head
  if headBytes = bytes then
    return (data, r)
  else
    r.readBytesRest data bytes headBytes

/-- `GetBitsRead`. -/
def getBitsRead (r : BitReader β) : Int := r.bitsRead

/-- `GetBytesRead`. -/
def getBytesRead (r : BitReader β) : Int := int32 (r.wordIndex * 4)

/-- `GetBitsRemaining`. -/
def getBitsRemaining (r : BitReader β) : Int := int32 (r.numBits - r.bitsRead)

/-! ## the position of a reader -/

/-- The reader `r` stands at bit `pos` of `B` and may read up to bit `N`. -/
structure At (r : BitReader β) (B : List Bool) (N : Int) (pos : Nat) : Prop where
  data : Platform.bits r.data = B
  numBits : r.numBits = N
  isInt32 : IsInt32 N
  cover : 0 < N → N ≤ 32 * r.numWords ∧ 32 * r.numWords ≤ B.length
  bitsRead : r.bitsRead = pos
  wordIndex : r.wordIndex = ((pos + 31) / 32 : Nat)
  scratchBits : r.scratchBits = (32 * ((pos + 31) / 32) - pos : Nat)
  scratch : r.scratch.toNat = Bits.toNat (Bits.slice B pos (32 * ((pos + 31) / 32) - pos))

/-- A fresh reader stands at the start. The buffer under it is rounded up to a
whole number of words. -/
theorem init_at (data : β) {bytes : Int} (h0 : 0 ≤ bytes) (hint : bytes < 2147483648)
    (hcover : 32 * ((bytes + 3) / 4) ≤ (Platform.bits data).length) :
    (init data bytes).At (Platform.bits data) (int32 (bytes * 8)) 0 := by
  refine ⟨rfl, rfl, isInt32_int32 _, ?_, rfl, rfl, rfl, by simp [init, Bits.slice]⟩
  intro hpos
  change int32 (bytes * 8) ≤ 32 * (int32 (bytes + 3)).tdiv 4 ∧ 32 * (int32 (bytes + 3)).tdiv 4 ≤ _
  have hle := int32_le (show 0 ≤ bytes * 8 by omega)
  -- the last three sizes, where `bytes + 3` wraps, have a negative bit count
  have hsmall : bytes + 3 < 2147483648 := by
    unfold int32 at hpos
    omega
  have hwords : int32 (bytes + 3) = bytes + 3 := int32_eq ⟨by omega, by omega⟩
  rw [hwords, tdiv_eq _ (by omega)]
  omega

/-! ## `ReadBits` -/

/-- Where it does not wrap, the overflow test is exact. -/
theorem At.wouldOverflow_eq {r : BitReader β} {B : List Bool} {N : Int} {pos : Nat}
    (h : r.At B N pos) {bits : Int} (h0 : 0 ≤ bits) (hsmall : pos + bits < 2147483648) :
    r.wouldOverflow bits = decide (N < pos + bits) := by
  rw [wouldOverflow, h.numBits, h.bitsRead, int32_eq ⟨by omega, by omega⟩]

/-- The register holds the bits of `B` from `pos` up to the next word, of words that
end at bit `room`. Of what the reader counts nothing is said. -/
structure Loaded (r : BitReader β) (B : List Bool) (room pos : Nat) : Prop where
  data : Platform.bits r.data = B
  room_le_words : room ≤ 32 * r.numWords.toNat
  room_le_length : room ≤ B.length
  room_emod : room % 32 = 0
  room_lt : room < 68719476736
  pos_le : pos ≤ room
  wordIndex : r.wordIndex = ((pos + 31) / 32 : Nat)
  scratchBits : r.scratchBits = (32 * ((pos + 31) / 32) - pos : Nat)
  scratch : r.scratch.toNat = Bits.toNat (Bits.slice B pos (32 * ((pos + 31) / 32) - pos))

/-- A reader at a position has loaded the words up to the next boundary. -/
theorem At.loaded {r : BitReader β} {B : List Bool} {N : Int} {pos : Nat} (h : r.At B N pos)
    (hpos : 0 < N) (hle : pos ≤ N) : r.Loaded B (32 * ((N.toNat + 31) / 32)) pos := by
  obtain ⟨-, hint⟩ := h.isInt32
  obtain ⟨hcover, hnum⟩ := h.cover hpos
  exact ⟨h.data, by omega, by omega, by omega, by omega, by omega, h.wordIndex, h.scratchBits,
    h.scratch⟩

/-- The load appends the next word to the register. -/
theorem getScratch_ok {r : BitReader β} {B : List Bool} {room pos : Nat} (h : r.Loaded B room pos)
    (hlt : 32 * ((pos + 31) / 32) < room) (bitsRead : Int) :
    ∃ scratch, ({ r with bitsRead } : BitReader β).getScratch =
        .ok { r with bitsRead, scratch, scratchBits := (32 * ((pos + 31) / 32) - pos + 32 : Nat),
                     wordIndex := ((pos + 31) / 32 + 1 : Nat) } ∧
      scratch.toNat = Bits.toNat (Bits.slice B pos (32 * ((pos + 31) / 32) - pos + 32)) := by
  have hwords := h.room_le_words
  have hlength := h.room_le_length
  have hround := h.room_emod
  have hsmall := h.room_lt
  have hdata := h.data
  have hindex := h.wordIndex
  have hbits := h.scratchBits
  have hscratch := h.scratch
  obtain ⟨k, hk⟩ : ∃ k, k = (pos + 31) / 32 := ⟨_, rfl⟩
  obtain ⟨s, hs⟩ : ∃ s, s = 32 * k - pos := ⟨_, rfl⟩
  rw [← hk] at hindex hbits hscratch hlt ⊢
  rw [← hs] at hbits hscratch ⊢
  have hword := Platform.ofVec_getWord r.data k (by rw [hdata]; omega)
  have hlen : (Bits.slice B pos s).length = s := by
    rw [Bits.length_slice]
    omega
  have hwordNat : (networkToHost (Platform.getWord r.data k)).toNat =
      Bits.toNat (Bits.slice B (pos + s) 32) := by
    rw [networkToHost, ← Bits.toNat_ofVec, hword, hdata, show 32 * k = pos + s by omega]
  have hshift := @Platform.shiftLeft_eq β _
    ((networkToHost (Platform.getWord r.data k)).setWidth 64) r.scratchBits (by omega) (by omega)
  have happend := Bits.toNat_or_shift hscratch hwordNat (by omega)
  rw [← Bits.slice_add, hlen] at happend
  have hload : Platform.loadWord r.data r.wordIndex = .ok (Platform.getWord r.data k) := by
    rw [Platform.loadWord_eq_ok, Platform.words, hdata, hindex, Int.toNat_natCast]
    exact ⟨⟨by omega, by omega⟩, rfl⟩
  have hbits' : int32 (r.scratchBits + 32) = (s + 32 : Nat) := by
    rw [hbits]
    exact int32_eq ⟨by omega, by omega⟩
  have hindex' : int32 (r.wordIndex + 1) = (k + 1 : Nat) := by
    rw [hindex]
    exact int32_eq ⟨by omega, by omega⟩
  refine ⟨_, ?_, happend⟩
  simp only [getScratch, hload, hbits', hindex', Except.bind_eq_ok_iff, require_eq_ok,
    Except.pure_eq_ok_iff, Except.ok.injEq]
  refine ⟨(), by omega, _, rfl, _, hshift, ?_⟩
  rw [hbits, Int.toNat_natCast]

/-- Before bits are taken off, the register holds at least as many: `s` bits,
up to a word boundary. -/
theorem refill_ok {r : BitReader β} {B : List Bool} {room pos : Nat} (h : r.Loaded B room pos)
    {bits : Int} (h0 : 0 < bits) (h32 : bits ≤ 32) (hfit : pos + bits ≤ room) (bitsRead : Int) :
    ∃ (scratch : U64) (s : Nat),
      ({ r with bitsRead } : BitReader β).refill bits =
          .ok { r with bitsRead, scratch, scratchBits := s, wordIndex := ((pos + s) / 32 : Nat) } ∧
        scratch.toNat = Bits.toNat (Bits.slice B pos s) ∧ bits ≤ s ∧ s < bits + 32 ∧
        (pos + s) % 32 = 0 := by
  have hbits := h.scratchBits
  simp only [refill]
  by_cases hshort : r.scratchBits < bits
  · obtain ⟨scratch, hget, hscratch⟩ := getScratch_ok h (by omega) bitsRead
    have hquot : (pos + (32 * ((pos + 31) / 32) - pos + 32)) / 32 = (pos + 31) / 32 + 1 := by omega
    refine ⟨scratch, 32 * ((pos + 31) / 32) - pos + 32, ?_, hscratch, by omega, by omega,
      by omega⟩
    rw [if_pos hshort, hget, hquot]
  · have hquot : (pos + (32 * ((pos + 31) / 32) - pos)) / 32 = (pos + 31) / 32 := by omega
    refine ⟨r.scratch, 32 * ((pos + 31) / 32) - pos, ?_, h.scratch, by omega, by omega, by omega⟩
    rw [if_neg hshort, hquot, ← hbits, ← h.wordIndex]
    rfl

/-- A `ReadBits` that passes its test and stays inside the words returns the bits at
the position, whatever was counted. -/
theorem readBits_inside {r : BitReader β} {B : List Bool} {room pos : Nat}
    (h : r.Loaded B room pos) {bits : Int} (h0 : 0 < bits) (h32 : bits ≤ 32)
    (hcheck : int32 (r.bitsRead + bits) ≤ r.numBits) (hfit : pos + bits ≤ room) :
    ∃ (value : U32) (scratch : U64) (scratchBits wordIndex : Int),
      r.readBits bits = .ok (value, { r with bitsRead := int32 (r.bitsRead + bits), scratch,
                                             scratchBits, wordIndex }) ∧
      value.toNat = Bits.toNat (Bits.slice B pos bits.toNat) ∧
      ({ r with bitsRead := int32 (r.bitsRead + bits), scratch, scratchBits, wordIndex } :
        BitReader β).Loaded B room (pos + bits.toNat) := by
  have hbits := h.scratchBits
  obtain ⟨scratch, s, hrefill, hscratch, hs, hs32, hmod⟩ :=
    refill_ok h h0 h32 hfit (int32 (r.bitsRead + bits))
  have hquot : (pos + bits.toNat + 31) / 32 = (pos + s) / 32 := by omega
  have hleft : 32 * ((pos + s) / 32) - (pos + bits.toNat) = s - bits.toNat := by omega
  have hrun : r.readBits bits = .ok ((scratch &&& ((1#64 <<< bits.toNat) - 1#64)).setWidth 32,
      { r with bitsRead := int32 (r.bitsRead + bits), scratch := scratch >>> bits.toNat,
               scratchBits := int32 (s - bits), wordIndex := ((pos + s) / 32 : Nat) }) := by
    simp only [readBits, hrefill, Except.bind_eq_ok_iff, require_eq_ok]
    exact ⟨(), h0, (), h32, (), hcheck, (), ⟨by omega, by omega⟩, _, rfl, (), hs, rfl⟩
  have hvalue : ((scratch &&& ((1#64 <<< bits.toNat) - 1#64)).setWidth 32).toNat =
      Bits.toNat (Bits.slice B pos bits.toNat) := by
    have hout := Bits.toNat_and_mask hscratch (show bits.toNat < 64 by omega)
    rw [Bits.take_slice _ _ (by omega)] at hout
    rw [BitVec.toNat_setWidth, hout, Nat.mod_eq_of_lt (Bits.toNat_slice_lt B pos (by omega))]
  refine ⟨_, _, _, _, hrun, hvalue, ⟨h.data, h.room_le_words, h.room_le_length, h.room_emod, h.room_lt,
    by omega, ?_, ?_, ?_⟩⟩
  · rw [hquot]
  · rw [hquot, hleft]
    change int32 (s - bits) = _
    rw [int32_eq ⟨by omega, by omega⟩]
    omega
  · rw [hquot, hleft]
    change (scratch >>> bits.toNat).toNat = _
    rw [Bits.toNat_ushiftRight _ hscratch, Bits.drop_slice]

/-- A `ReadBits` that passes its test behind the last word stops at the assertion of
the load. -/
theorem readBits_outside {r : BitReader β} {B : List Bool} {room pos : Nat}
    (h : r.Loaded B room pos) (hwords : 32 * r.numWords.toNat = room) {bits : Int} (h0 : 0 < bits)
    (h32 : bits ≤ 32) (hcheck : int32 (r.bitsRead + bits) ≤ r.numBits) (hout : room < pos + bits) :
    r.readBits bits = .error .assertion := by
  have hbits := h.scratchBits
  have hindex := h.wordIndex
  have hle := h.pos_le
  have hlast : ¬r.wordIndex < r.numWords := by omega
  have hscratch : 0 ≤ r.scratchBits ∧ r.scratchBits ≤ 64 := by omega
  have hshort : r.scratchBits < bits := by omega
  simp only [readBits, refill, getScratch, require, if_pos h0, if_pos h32, if_pos hcheck,
    if_pos hscratch, if_pos hshort, if_neg hlast]
  rfl

/-- A `ReadBits` that fits returns the bits at the position. -/
theorem readBits_ok {r : BitReader β} {B : List Bool} {N : Int} {pos : Nat} (h : r.At B N pos)
    {bits : Int} (h0 : 0 < bits) (h32 : bits ≤ 32) (hfit : pos + bits ≤ N) :
    ∃ value r', r.readBits bits = .ok (value, r') ∧
      value.toNat = Bits.toNat (Bits.slice B pos bits.toNat) ∧ r'.At B N (pos + bits.toNat) := by
  obtain ⟨-, hint⟩ := h.isInt32
  have hread : int32 (r.bitsRead + bits) = (pos + bits.toNat : Nat) := by
    rw [h.bitsRead, int32_eq ⟨by omega, by omega⟩]
    omega
  obtain ⟨value, scratch, scratchBits, wordIndex, hrun, hvalue, hloaded⟩ :=
    readBits_inside (h.loaded (by omega) (by omega)) h0 h32 (by rw [hread, h.numBits]; omega)
      (by omega)
  exact ⟨value, _, hrun, hvalue, ⟨h.data, h.numBits, h.isInt32, h.cover, hread, hloaded.wordIndex,
    hloaded.scratchBits, hloaded.scratch⟩⟩

omit [Platform β] in
/-- What a mask of `n` bits leaves of the register is below `2 ^ n`. -/
theorem toNat_mask_lt (scratch : U64) {n : Nat} (hn : n < 64) :
    ((scratch &&& ((1#64 <<< n) - 1#64)).setWidth 32).toNat < 2 ^ n := by
  have hmask := Bits.toNat_mask hn
  have hpos := Nat.two_pow_pos n
  have hand : (scratch &&& ((1#64 <<< n) - 1#64)).toNat ≤ 2 ^ n - 1 := by
    rw [BitVec.toNat_and, hmask]
    exact Nat.and_le_right
  rw [BitVec.toNat_setWidth]
  exact Nat.lt_of_le_of_lt (Nat.mod_le _ _) (by omega)

/-- Whatever `ReadBits` makes of the position, its value has no more bits. -/
theorem readBits_lt {r r' : BitReader β} {bits : Int} {value : U32}
    (h : r.readBits bits = .ok (value, r')) : value.toNat < 2 ^ bits.toNat := by
  simp only [BitReader.readBits, Except.bind_eq_ok_iff, require_eq_ok, Except.pure_eq_ok_iff] at h
  obtain ⟨_, h0, _, h32, _, _, _, _, r₁, -, _, -, heq⟩ := h
  obtain ⟨rfl, -⟩ := Prod.mk.inj heq
  exact toNat_mask_lt _ (by omega)

/-! ## `ReadAlign` -/

/-- `GetAlignBits` is the distance to the next byte. -/
theorem At.getAlignBits_eq {r : BitReader β} {B : List Bool} {N : Int} {pos : Nat}
    (h : r.At B N pos) : r.getAlignBits = ((8 - pos % 8) % 8 : Nat) := by
  have hmod : r.bitsRead.tmod 8 = (pos % 8 : Nat) := by
    rw [h.bitsRead, tmod_eq _ (by omega)]
    omega
  rw [getAlignBits, hmod, tmod_eq _ (by omega)]
  omega

/-- At a byte there is nothing to align. -/
theorem At.getAlignBits_zero {r : BitReader β} {B : List Bool} {N : Int} {pos : Nat}
    (h : r.At B N pos) (h8 : pos % 8 = 0) : r.getAlignBits = 0 := by
  rw [h.getAlignBits_eq]
  omega

/-- A `ReadAlign` that fits goes to the next byte, and reports whether it passed
only zeros. -/
theorem readAlign_ok {r : BitReader β} {B : List Bool} {N : Int} {pos : Nat} (h : r.At B N pos)
    (hfit : (pos + (8 - pos % 8) % 8 : Nat) ≤ N) :
    ∃ r', r.readAlign = .ok (Bits.toNat (Bits.slice B pos ((8 - pos % 8) % 8)) == 0, r') ∧
      r'.At B N (pos + (8 - pos % 8) % 8) := by
  have hrem : r.bitsRead.tmod 8 = (pos % 8 : Nat) := by
    rw [h.bitsRead, tmod_eq _ (by omega)]
    omega
  unfold readAlign
  by_cases hz : pos % 8 = 0
  · have hpad : (8 - pos % 8) % 8 = 0 := by omega
    rw [hpad, hrem, hz]
    exact ⟨r, by simp [Bits.slice, pure, Except.pure], h⟩
  · have hne : r.bitsRead.tmod 8 ≠ 0 := by omega
    obtain ⟨value, r', hread, hvalue, hat⟩ := @readBits_ok β _ r B N pos h (8 - r.bitsRead.tmod 8)
      (by omega) (by omega) (by omega)
    have hpad : (8 - r.bitsRead.tmod 8).toNat = (8 - pos % 8) % 8 := by omega
    rw [hpad] at hvalue hat
    have haligned : r'.bitsRead.tmod 8 = 0 := by
      rw [hat.bitsRead, tmod_eq _ (by omega)]
      omega
    have hzero : (value == 0) = (Bits.toNat (Bits.slice B pos ((8 - pos % 8) % 8)) == 0) := by
      rw [← hvalue, Bool.eq_iff_iff, beq_iff_eq, beq_iff_eq, ← BitVec.toNat_inj]
      rfl
    refine ⟨r', ?_, hat⟩
    simp only [if_pos hne, Except.bind_eq_ok_iff, require_eq_ok, Except.pure_eq_ok_iff]
    exact ⟨_, hread, (), haligned, by rw [hzero]⟩

/-! ## `ReadBytes` -/

/-- The loop over single bytes, by induction on their number. -/
theorem readEach_ok {r : BitReader β} {B : List Bool} {N : Int} {pos : Nat} (h : r.At B N pos)
    {n : Nat} (hfit : pos + 8 * n ≤ N) :
    ∃ xs r', r.readEach n = .ok (xs, r') ∧ Bits.ofList xs = Bits.slice B pos (8 * n) ∧
      xs.length = n ∧ r'.At B N (pos + 8 * n) := by
  induction n generalizing r pos with
  | zero => exact ⟨[], r, rfl, by simp [Bits.slice], rfl, h⟩
  | succ n ih =>
      obtain ⟨value, r₁, hread, hvalue, hat⟩ := readBits_ok h (show (0 : Int) < 8 by decide)
        (by decide) (by omega)
      obtain ⟨xs, r', hrest, hxs, hlen, hat'⟩ := ih hat (by omega)
      rw [show (8 : Int).toNat = 8 from rfl] at hvalue hat'
      have hbyte : Bits.ofVec (value.setWidth 8) = Bits.slice B pos 8 := by
        have hcover := h.cover (by omega)
        have hslice : (Bits.slice B pos 8).length = 8 := by
          rw [Bits.length_slice]
          omega
        have hlt := Bits.toNat_lt (Bits.slice B pos 8)
        rw [hslice] at hlt
        rw [Bits.ofVec, BitVec.toNat_setWidth, hvalue, Nat.mod_eq_of_lt hlt,
          Bits.ofNat_toNat _ (by omega), List.take_of_length_le (by omega)]
      refine ⟨value.setWidth 8 :: xs, r', ?_, ?_, by rw [List.length_cons, hlen], ?_⟩
      · simp only [readEach, Except.bind_eq_ok_iff, Except.pure_eq_ok_iff]
        exact ⟨_, hread, _, hrest, rfl⟩
      · rw [Bits.ofList_cons, hbyte, hxs, Nat.mul_succ, Nat.add_comm (8 * n), Bits.slice_add]
        rfl
      · rw [Nat.mul_succ, Nat.add_comm (8 * n), ← Nat.add_assoc]
        exact hat'

/-- The words copied around the scratch register, which is empty. -/
theorem readWords_ok {r : BitReader β} {B : List Bool} {N : Int} {pos : Nat} (h : r.At B N pos)
    {data : List U8} {headBytes numWords : Int} (h0 : 0 ≤ headBytes) (hn : 0 ≤ numWords)
    (hmod : pos % 32 = 0) (hfit : pos + 32 * numWords ≤ N)
    (hdata : headBytes + 4 * numWords ≤ data.length) :
    ∃ block r', r.readWords data headBytes numWords =
        .ok (Bits.splice data headBytes.toNat block, r') ∧
      Bits.ofList block = Bits.slice B pos (32 * numWords.toNat) ∧
      block.length = 4 * numWords.toNat ∧ r'.At B N (pos + 32 * numWords.toNat) := by
  unfold readWords
  by_cases hpos : 0 < numWords
  · obtain ⟨hint, hint'⟩ := h.isInt32
    obtain ⟨hcover, hnum⟩ := h.cover (by omega)
    have hindex : r.wordIndex = (pos / 32 : Nat) := by
      rw [h.wordIndex]
      omega
    have haligned : r.bitsRead.tmod 32 = 0 := by
      rw [h.bitsRead, tmod_eq _ (by omega)]
      omega
    obtain ⟨block, hblock⟩ : ∃ block, block =
        Platform.getBytes r.data r.wordIndex.toNat numWords.toNat := ⟨_, rfl⟩
    have hbits : Bits.ofList block = Bits.slice B pos (32 * numWords.toNat) := by
      rw [hblock, Platform.ofList_getBytes _ _ _ (by rw [h.data]; omega), h.data]
      congr 1
      omega
    have hlen : block.length = 4 * numWords.toNat := by
      have hlen8 := congrArg List.length hbits
      rw [Bits.length_ofList, Bits.length_slice] at hlen8
      omega
    have hload : Platform.loadBytes r.data r.wordIndex numWords.toNat = .ok block := by
      rw [Platform.loadBytes_eq_ok, Platform.words, h.data]
      exact ⟨⟨by omega, by omega⟩, hblock.symm⟩
    have hstore := @writeArray_eq_ok data block headBytes h0 (by omega)
    simp only [if_pos hpos, Except.bind_eq_ok_iff, require_eq_ok, Except.pure_eq_ok_iff]
    refine ⟨block, _, ⟨(), haligned, _, hload, _, hstore, rfl⟩, hbits, hlen, ⟨h.data, h.numBits,
      h.isInt32, h.cover, ?_, ?_, ?_, ?_⟩⟩
    · change int32 (r.bitsRead + numWords * 32) = _
      rw [h.bitsRead, int32_eq ⟨by omega, by omega⟩]
      omega
    · change int32 (r.wordIndex + numWords) = _
      rw [int32_eq ⟨by omega, by omega⟩]
      omega
    · change (0 : Int) = _
      omega
    · -- `m_scratch` is not cleared, but nothing was left in it
      have hz : 32 * ((pos + 31) / 32) - pos = 0 := by omega
      have hz' : 32 * ((pos + 32 * numWords.toNat + 31) / 32) - (pos + 32 * numWords.toNat) = 0 := by
        omega
      have hscratch := h.scratch
      rw [hz] at hscratch
      rw [hz']
      change r.scratch.toNat = _
      rw [hscratch]
      simp [Bits.slice]
  · have hz : numWords.toNat = 0 := by omega
    refine ⟨[], r, ?_, by simp [hz, Bits.slice], by simp [hz], by simpa [hz] using h⟩
    rw [if_neg hpos, Bits.splice_nil]
    rfl

/-- From a word boundary, the words and the tail: what is left after the head. -/
theorem readBytesRest_ok {r : BitReader β} {B : List Bool} {N : Int} {pos : Nat} (h : r.At B N pos)
    {data : List U8} {bytes headBytes : Int} (h0 : 0 ≤ headBytes) (hle : headBytes ≤ bytes)
    (hmod : pos % 32 = 0) (hfit : pos + 8 * (bytes - headBytes) ≤ N) (hdata : bytes ≤ data.length) :
    ∃ xs r', r.readBytesRest data bytes headBytes =
        .ok (Bits.splice data headBytes.toNat xs, r') ∧
      Bits.ofList xs = Bits.slice B pos (8 * (bytes - headBytes).toNat) ∧
      xs.length = (bytes - headBytes).toNat ∧ r'.At B N (pos + 8 * (bytes - headBytes).toNat) := by
  obtain ⟨hint, hint'⟩ := h.isInt32
  obtain ⟨n, hn⟩ : ∃ n, (bytes - headBytes).tdiv 4 = n := ⟨_, rfl⟩
  have hdiv := hn
  rw [tdiv_eq _ (by omega)] at hdiv
  -- the words
  obtain ⟨block, r₁, hwords, hblockBits, hblockLen, hat⟩ := @readWords_ok β _ r B N pos h
    data headBytes n h0 (by omega) hmod (by omega) (by omega)
  have hlen : (Bits.splice data headBytes.toNat block).length = data.length :=
    Bits.length_splice (by omega)
  -- the tail
  obtain ⟨tail, r₂, htail, htailBits, htailLen, hat'⟩ := @readEach_ok β _ r₁ B N _ hat
    (bytes - (headBytes + n * 4)).toNat (by omega)
  have hstore := @writeArray_eq_ok (Bits.splice data headBytes.toNat block) tail
    (headBytes + n * 4) (by omega) (by omega)
  rw [show (headBytes + n * 4).toNat = headBytes.toNat + block.length by omega,
    Bits.splice_splice (by omega)] at hstore
  have hrun : r.readBytesRest data bytes headBytes =
      .ok (Bits.splice data headBytes.toNat (block ++ tail), r₂) := by
    simp only [readBytesRest, hn, Except.bind_eq_ok_iff, require_eq_ok, Except.pure_eq_ok_iff]
    exact ⟨(), h.getAlignBits_zero (by omega), _, hwords, (), hat.getAlignBits_zero (by omega), (),
      ⟨by omega, by omega⟩, _, htail, _, hstore, (), hat'.getAlignBits_zero (by omega), (),
      by omega, rfl⟩
  refine ⟨block ++ tail, r₂, hrun, ?_, ?_, ?_⟩
  · rw [Bits.ofList_append, hblockBits, htailBits, ← Bits.slice_add]
    congr 1
    omega
  · rw [List.length_append]
    omega
  · rw [show pos + 8 * (bytes - headBytes).toNat = pos + 32 * n.toNat +
      8 * (bytes - (headBytes + n * 4)).toNat by omega]
    exact hat'

/-- A `ReadBytes` from a byte boundary that fits stores the bytes at the
position. -/
theorem readBytes_ok {r : BitReader β} {B : List Bool} {N : Int} {pos : Nat} (h : r.At B N pos)
    {data : List U8} {bytes : Int} (h8 : pos % 8 = 0) (h0 : 0 ≤ bytes)
    (hfit : pos + 8 * bytes ≤ N) (hdata : bytes ≤ data.length) :
    ∃ xs r', r.readBytes data bytes = .ok (Bits.splice data 0 xs, r') ∧
      Bits.ofList xs = Bits.slice B pos (8 * bytes.toNat) ∧ xs.length = bytes.toNat ∧
      r'.At B N (pos + 8 * bytes.toNat) := by
  obtain ⟨hint, hint'⟩ := h.isInt32
  have hmod : r.bitsRead.tmod 32 = (pos : Int) % 32 := by
    rw [h.bitsRead, tmod_eq _ (by omega)]
  have hoff : r.bitsRead.tmod 32 = 0 ∨ r.bitsRead.tmod 32 = 8 ∨ r.bitsRead.tmod 32 = 16 ∨
      r.bitsRead.tmod 32 = 24 := by omega
  have hroom : int32 (r.bitsRead + bytes * 8) ≤ r.numBits := by
    rw [h.bitsRead, h.numBits, int32_eq ⟨by omega, by omega⟩]
    omega
  have halign : r.getAlignBits = 0 := h.getAlignBits_zero h8
  obtain ⟨hb, hbeq, hble, hb3, hword⟩ := @headBytes_spec r.bitsRead bytes hoff
  have hb0 : 0 ≤ hb := by
    by_cases hdone : hb = bytes
    · omega
    · exact (hword hdone).1
  obtain ⟨head, r₁, hhead, hheadBits, hheadLen, hat⟩ := @readEach_ok β _ r B N pos h hb.toNat
    (by omega)
  have hstore := @writeArray_eq_ok data head 0 (le_refl 0) (by omega)
  rw [show (0 : Int).toNat = 0 from rfl] at hstore
  have hstored : (Bits.splice data 0 head).length = data.length :=
    Bits.length_splice (by omega)
  simp only [readBytes, hbeq, Except.bind_eq_ok_iff, require_eq_ok]
  by_cases hdone : hb = bytes
  · subst hdone
    exact ⟨head, r₁, ⟨(), halign, (), hroom, (), hoff, _, hhead, _, hstore, if_pos rfl⟩,
      hheadBits, hheadLen, hat⟩
  · obtain ⟨-, hmod32⟩ := hword hdone
    rw [h.bitsRead] at hmod32
    obtain ⟨rest, r₂, hrest, hrestBits, hrestLen, hat₂⟩ := @readBytesRest_ok β _ r₁ B N _ hat
      (Bits.splice data 0 head) bytes hb hb0 hble (by omega) (by omega) (by omega)
    have hsplice : Bits.splice (Bits.splice data 0 head) hb.toNat rest =
        Bits.splice data 0 (head ++ rest) := by
      have htouch := @Bits.splice_splice _ data head rest 0 (by omega)
      rwa [Nat.zero_add, hheadLen] at htouch
    rw [hsplice] at hrest
    refine ⟨head ++ rest, r₂,
      ⟨(), halign, (), hroom, (), hoff, _, hhead, _, hstore, (if_neg hdone).trans hrest⟩,
      ?_, ?_, ?_⟩
    · rw [Bits.ofList_append, hheadBits, hrestBits, ← Bits.slice_add]
      congr 1
      omega
    · rw [List.length_append]
      omega
    · rw [show pos + 8 * bytes.toNat = pos + 8 * hb.toNat + 8 * (bytes - hb).toNat by omega]
      exact hat₂

end BitReader

end RudpNetwork
