import RudpNetwork.Lib.Run
import RudpNetwork.BitReader

/-!
# RudpNetwork.ReaderRuns

What a `BitReader` can be after calls within its buffer, and that from every such
state `ReadBytes` is no more than the loop over its bytes.

`At` gives every field that a read changes as a function of the position, also
`m_scratch`, which the block copy of `ReadBytes` does not touch.  `SameInput` is
about the other fields.

## Main results

* `Reached.inside` — what holds of every reader that calls within the buffer lead to.
* `bulkRead` — from every such state `ReadBytes` is the loop over its bytes.
-/

namespace RudpNetwork

open MachineInt

/-- A call of a method of `BitReader`. -/
inductive ReadCall
  | readBits (bits : Int)
  | readAlign
  | readBytes (data : List U8) (bytes : Int)

namespace BitReader

variable {β : Type} [Platform β]

/-- One call, whatever it returns. -/
def step (r : BitReader β) : ReadCall → Except Fault (BitReader β)
  | .readBits bits => do
      let (_, r) ← r.readBits bits
      return r
  | .readAlign => do
      let (_, r) ← r.readAlign
      return r
  | .readBytes data bytes => do
      let (_, r) ← r.readBytes data bytes
      return r

/-- What the assertion of the method says, of integers, and that an array has room
for the bytes. -/
def Allows (r : BitReader β) : ReadCall → Prop
  | .readBits bits => r.bitsRead + bits ≤ r.numBits
  | .readAlign => True
  | .readBytes data bytes =>
      (0 ≤ bytes ∧ bytes ≤ data.length) ∧ r.bitsRead + 8 * bytes ≤ r.numBits

/-- `r` is what a fresh reader has become after calls within its buffer. -/
def Reached (r : BitReader β) : Prop :=
  ∃ (data : β) (bytes : Int) (calls : List ReadCall),
    (0 ≤ bytes ∧ bytes < 2147483648 ∧ 32 * ((bytes + 3) / 4) ≤ (Platform.bits data).length) ∧
      Run.Along step Allows calls (init data bytes) ∧
      Run.run step calls (init data bytes) = .ok r

/-- `r` stands inside what may be read. -/
def Inside (r : BitReader β) : Prop :=
  ∃ B N pos, r.At B N pos ∧ N % 8 = 0 ∧ (pos = 0 ∨ pos ≤ N)

/-! ## the states that are reached -/

/-- The step lemma: a call within the buffer leaves the reader within it. -/
theorem step_inside {r r' : BitReader β} {c : ReadCall} (h : r.Inside) (hc : r.Allows c)
    (hrun : r.step c = .ok r') : r'.Inside := by
  obtain ⟨B, N, pos, hat, hmod, hpos⟩ := h
  cases c with
  | readBits bits =>
      obtain ⟨⟨value, r₁⟩, hread, hr₁⟩ := Except.bind_eq_ok_iff.mp hrun
      obtain rfl : r₁ = r' := Except.pure_eq_ok_iff.mp hr₁
      have hargs := hread
      simp only [readBits, Except.bind_eq_ok_iff, require_eq_ok] at hargs
      obtain ⟨-, h0, -, h32, -⟩ := hargs
      have hroom : r.bitsRead + bits ≤ r.numBits := hc
      rw [hat.bitsRead, hat.numBits] at hroom
      obtain ⟨_, r₂, hread', -, hat'⟩ := readBits_ok hat h0 h32 hroom
      obtain ⟨-, rfl⟩ := Prod.mk.inj (Except.ok.inj (hread'.symm.trans hread))
      exact ⟨B, N, _, hat', hmod, .inr (by omega)⟩
  | readAlign =>
      obtain ⟨⟨zeros, r₁⟩, hread, hr₁⟩ := Except.bind_eq_ok_iff.mp hrun
      obtain rfl : r₁ = r' := Except.pure_eq_ok_iff.mp hr₁
      rcases hpos with rfl | hpos
      · have hsame : r.readAlign = .ok (true, r) := by
          simp [readAlign, hat.bitsRead, pure, Except.pure]
        obtain ⟨-, rfl⟩ := Prod.mk.inj (Except.ok.inj (hsame.symm.trans hread))
        exact ⟨B, N, 0, hat, hmod, .inl rfl⟩
      · -- the end is a byte boundary, so there is room for the padding
        obtain ⟨r₂, hread', hat'⟩ := readAlign_ok hat (by omega)
        obtain ⟨-, rfl⟩ := Prod.mk.inj (Except.ok.inj (hread'.symm.trans hread))
        exact ⟨B, N, _, hat', hmod, .inr (by omega)⟩
  | readBytes data bytes =>
      obtain ⟨⟨data', r₁⟩, hread, hr₁⟩ := Except.bind_eq_ok_iff.mp hrun
      obtain rfl : r₁ = r' := Except.pure_eq_ok_iff.mp hr₁
      have hargs := hread
      simp only [readBytes, Except.bind_eq_ok_iff, require_eq_ok] at hargs
      obtain ⟨-, halign, -⟩ := hargs
      rw [hat.getAlignBits_eq] at halign
      obtain ⟨⟨h0, hdata⟩, hroom⟩ := hc
      rw [hat.bitsRead, hat.numBits] at hroom
      obtain ⟨_, r₂, hread', -, -, hat'⟩ := readBytes_ok hat (by omega) h0 hroom hdata
      obtain ⟨-, rfl⟩ := Prod.mk.inj (Except.ok.inj (hread'.symm.trans hread))
      refine ⟨B, N, _, hat', hmod, ?_⟩
      omega

/-- Every reader that calls within the buffer can lead to is within it. -/
theorem Reached.inside {r : BitReader β} (h : r.Reached) : r.Inside := by
  obtain ⟨data, bytes, calls, ⟨h0, hint, hcover⟩, hwithin, hrun⟩ := h
  have hmod : int32 (bytes * 8) % 8 = 0 := by
    unfold int32
    omega
  have hstep : ∀ (r : BitReader β) (c : ReadCall) (r' : BitReader β), r.Inside → r.Allows c →
      r.step c = .ok r' → r'.Inside := fun _ _ _ h hc hrun => step_inside h hc hrun
  exact Run.run_inv_along hstep hwithin ⟨_, _, 0, init_at data h0 hint hcover, hmod, .inl rfl⟩ hrun

/-! ## what a read leaves alone -/

/-- `r'` reads from the same buffer as `r`. -/
structure SameInput (r r' : BitReader β) : Prop where
  data : r'.data = r.data
  numBytes : r'.numBytes = r.numBytes
  numWords : r'.numWords = r.numWords

omit [Platform β] in
theorem SameInput.refl (r : BitReader β) : r.SameInput r := ⟨rfl, rfl, rfl⟩

omit [Platform β] in
theorem SameInput.trans {r r' r'' : BitReader β} (h : r.SameInput r') (h' : r'.SameInput r'') :
    r.SameInput r'' :=
  ⟨h'.data.trans h.data, h'.numBytes.trans h.numBytes, h'.numWords.trans h.numWords⟩

/-- Loading a word keeps the buffer. -/
theorem refill_same {r r' : BitReader β} {bits : Int} (h : r.refill bits = .ok r') :
    r.SameInput r' := by
  unfold refill at h
  split at h
  · simp only [getScratch, Except.bind_eq_ok_iff, Except.pure_eq_ok_iff] at h
    obtain ⟨-, -, word, -, shifted, -, rfl⟩ := h
    exact ⟨rfl, rfl, rfl⟩
  · obtain rfl : r = r' := Except.pure_eq_ok_iff.mp h
    exact .refl r

/-- `ReadBits` keeps the buffer. -/
theorem readBits_same {r r' : BitReader β} {bits : Int} {value : U32}
    (h : r.readBits bits = .ok (value, r')) : r.SameInput r' := by
  simp only [readBits, Except.bind_eq_ok_iff, Except.pure_eq_ok_iff] at h
  obtain ⟨-, -, -, -, -, -, -, -, r₁, hrefill, -, -, heq⟩ := h
  obtain ⟨-, rfl⟩ := Prod.mk.inj heq
  have hsame := refill_same hrefill
  exact ⟨hsame.data, hsame.numBytes, hsame.numWords⟩

/-- The loop over single bytes keeps the buffer. -/
theorem readEach_same {r r' : BitReader β} {n : Nat} {xs : List U8}
    (h : r.readEach n = .ok (xs, r')) : r.SameInput r' := by
  induction n generalizing r xs with
  | zero =>
      obtain ⟨-, rfl⟩ := Prod.mk.inj (Except.pure_eq_ok_iff.mp h)
      exact .refl r
  | succ n ih =>
      simp only [readEach, Except.bind_eq_ok_iff, Except.pure_eq_ok_iff] at h
      obtain ⟨⟨value, r₁⟩, hread, ⟨rest, r₂⟩, hrest, heq⟩ := h
      obtain ⟨-, rfl⟩ := Prod.mk.inj heq
      exact (readBits_same hread).trans (ih hrest)

/-- The block copy keeps the buffer. -/
theorem readWords_same {r r' : BitReader β} {data data' : List U8} {headBytes numWords : Int}
    (h : r.readWords data headBytes numWords = .ok (data', r')) : r.SameInput r' := by
  unfold readWords at h
  split at h
  · simp only [Except.bind_eq_ok_iff, Except.pure_eq_ok_iff] at h
    obtain ⟨-, -, block, -, stored, -, heq⟩ := h
    obtain ⟨-, rfl⟩ := Prod.mk.inj heq
    exact ⟨rfl, rfl, rfl⟩
  · obtain ⟨-, rfl⟩ := Prod.mk.inj (Except.pure_eq_ok_iff.mp h)
    exact .refl r

/-- `ReadBytes` keeps the buffer. -/
theorem readBytes_same {r r' : BitReader β} {data data' : List U8} {bytes : Int}
    (h : r.readBytes data bytes = .ok (data', r')) : r.SameInput r' := by
  simp only [readBytes, readBytesRest, Except.bind_eq_ok_iff] at h
  obtain ⟨-, -, -, -, -, -, ⟨head, r₁⟩, hhead, stored, -, h⟩ := h
  have hsame := readEach_same hhead
  split at h
  · obtain ⟨-, rfl⟩ := Prod.mk.inj (Except.pure_eq_ok_iff.mp h)
    exact hsame
  · simp only [Except.bind_eq_ok_iff, Except.pure_eq_ok_iff] at h
    obtain ⟨-, -, ⟨words, r₂⟩, hwords, -, -, -, -, ⟨tail, r₃⟩, htail, _, -, -, -, -, -, heq⟩ := h
    obtain ⟨-, rfl⟩ := Prod.mk.inj heq
    exact hsame.trans ((readWords_same hwords).trans (readEach_same htail))

/-- The array keeps its length. -/
theorem length_readBytes {r r' : BitReader β} {data data' : List U8} {bytes : Int}
    (h : r.readBytes data bytes = .ok (data', r')) : data'.length = data.length := by
  simp only [readBytes, readBytesRest, Except.bind_eq_ok_iff] at h
  obtain ⟨-, -, -, -, -, -, ⟨head, r₁⟩, -, stored, hstored, h⟩ := h
  have hhead := length_writeArray hstored
  split at h
  · obtain ⟨rfl, -⟩ := Prod.mk.inj (Except.pure_eq_ok_iff.mp h)
    exact hhead
  · simp only [Except.bind_eq_ok_iff, Except.pure_eq_ok_iff] at h
    obtain ⟨-, -, ⟨words, r₂⟩, hwords, -, -, -, -, ⟨tail, r₃⟩, -, final, hfinal, -, -, -, -, heq⟩ := h
    obtain ⟨rfl, -⟩ := Prod.mk.inj heq
    have hmiddle : words.length = stored.length := by
      unfold readWords at hwords
      split at hwords
      · simp only [Except.bind_eq_ok_iff, Except.pure_eq_ok_iff] at hwords
        obtain ⟨-, -, block, -, copied, hcopied, heq⟩ := hwords
        obtain ⟨rfl, -⟩ := Prod.mk.inj heq
        exact length_writeArray hcopied
      · obtain ⟨rfl, -⟩ := Prod.mk.inj (Except.pure_eq_ok_iff.mp hwords)
        rfl
    exact (length_writeArray hfinal).trans (hmiddle.trans hhead)

/-! ## `ReadBytes` and its loop -/

/-- Two readers of one buffer at one position are the same. -/
theorem At.eq_of_sameInput {r r₁ r₂ : BitReader β} {B : List Bool} {N : Int} {pos : Nat}
    (h₁ : r₁.At B N pos) (h₂ : r₂.At B N pos) (hsame₁ : r.SameInput r₁) (hsame₂ : r.SameInput r₂) :
    r₁ = r₂ := by
  have hdata : r₁.data = r₂.data := hsame₁.data.trans hsame₂.data.symm
  have hscratch : r₁.scratch = r₂.scratch :=
    BitVec.eq_of_toNat_eq (h₁.scratch.trans h₂.scratch.symm)
  have hnumBits : r₁.numBits = r₂.numBits := h₁.numBits.trans h₂.numBits.symm
  have hnumBytes : r₁.numBytes = r₂.numBytes := hsame₁.numBytes.trans hsame₂.numBytes.symm
  have hnumWords : r₁.numWords = r₂.numWords := hsame₁.numWords.trans hsame₂.numWords.symm
  have hread : r₁.bitsRead = r₂.bitsRead := h₁.bitsRead.trans h₂.bitsRead.symm
  have hbits : r₁.scratchBits = r₂.scratchBits := h₁.scratchBits.trans h₂.scratchBits.symm
  have hindex : r₁.wordIndex = r₂.wordIndex := h₁.wordIndex.trans h₂.wordIndex.symm
  cases r₁
  cases r₂
  simp_all

/-- From a byte boundary `ReadBytes` completes, stores what the calls
`ReadBits( 8 )` return, and leaves the reader as they do. -/
theorem bulkRead {r : BitReader β} (h : r.Reached) (h8 : r.getAlignBits = 0) {data : List U8}
    {n : Nat} (hdata : n ≤ data.length) (hfit : r.bitsRead + 8 * n ≤ r.numBits) :
    ∃ xs r', r.readBytes data n = .ok (Bits.splice data 0 xs, r') ∧ r.readEach n = .ok (xs, r') ∧
      xs.length = n := by
  obtain ⟨B, N, pos, hat, -, -⟩ := h.inside
  rw [hat.getAlignBits_eq] at h8
  rw [hat.bitsRead, hat.numBits] at hfit
  obtain ⟨xs, r₁, hbulk, hxs, hlen, hat₁⟩ := @readBytes_ok β _ r B N pos hat data n (by omega)
    (by omega) hfit (by omega)
  obtain ⟨ys, r₂, hloop, hys, -, hat₂⟩ := readEach_ok hat hfit
  rw [Int.toNat_natCast] at hxs hlen hat₁
  obtain rfl : xs = ys := Bits.ofList_inj (by decide) (hxs.trans hys.symm)
  obtain rfl := hat₁.eq_of_sameInput hat₂ (readBytes_same hbulk) (readEach_same hloop)
  exact ⟨xs, r₁, hbulk, hloop, hlen⟩

/-- A reader of 12 bytes after three bits and the alignment. -/
def oneByteIn (data : β) : BitReader β where
  data := data
  scratch := 0x030201
  numBits := 96
  numBytes := 12
  numWords := 3
  bitsRead := 8
  scratchBits := 24
  wordIndex := 1

/-- Three bytes up to the next word, a word, and one more. -/
theorem bulkRead_oneByteIn :
    (∃ xs r', (oneByteIn ([0, 1, 2, 3, 4, 5, 6, 7, 8, 9, 0, 0] : Memory)).readBytes
        (List.replicate 8 0) 8 = .ok (Bits.splice (List.replicate 8 0) 0 xs, r') ∧
      (oneByteIn ([0, 1, 2, 3, 4, 5, 6, 7, 8, 9, 0, 0] : Memory)).readEach 8 = .ok (xs, r') ∧
      xs.length = 8) ∧
    ∃ xs r', (oneByteIn ([0x03020100, 0x07060504, 0x0908] : UIntArray)).readBytes
        (List.replicate 8 0) 8 = .ok (Bits.splice (List.replicate 8 0) 0 xs, r') ∧
      (oneByteIn ([0x03020100, 0x07060504, 0x0908] : UIntArray)).readEach 8 = .ok (xs, r') ∧
      xs.length = 8 := by
  have hmemory : (oneByteIn ([0, 1, 2, 3, 4, 5, 6, 7, 8, 9, 0, 0] : Memory)).Reached := by
    refine ⟨[0, 1, 2, 3, 4, 5, 6, 7, 8, 9, 0, 0], 12, [.readBits 3, .readAlign], by decide,
      ⟨?_, fun _ _ => ⟨trivial, fun _ _ => trivial⟩⟩, rfl⟩
    change (0 : Int) + 3 ≤ int32 96
    decide
  have harray : (oneByteIn ([0x03020100, 0x07060504, 0x0908] : UIntArray)).Reached := by
    refine ⟨[0x03020100, 0x07060504, 0x0908], 12, [.readBits 3, .readAlign], by decide,
      ⟨?_, fun _ _ => ⟨trivial, fun _ _ => trivial⟩⟩, rfl⟩
    change (0 : Int) + 3 ≤ int32 96
    decide
  exact ⟨bulkRead hmemory (by decide) (by decide) (by decide),
    bulkRead harray (by decide) (by decide) (by decide)⟩

end BitReader

end RudpNetwork
