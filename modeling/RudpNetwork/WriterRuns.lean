import RudpNetwork.Lib.Run
import RudpNetwork.BitWriter

/-!
# RudpNetwork.WriterRuns

What a `BitWriter` can be after calls that stay within its capacity, and what two
of its methods promise of every such state: that a second `FlushBits` changes
nothing, and that `WriteBytes` is no more than the loop over its bytes.

`Rep` says of a buffer only what has been stored in it.  To compare whole states,
`Behind` says of the words behind those that they are as they were before.

## Main results

* `flushTwice` — the states in which a second `FlushBits` changes nothing.
* `Written.writeBytes_eq` — `WriteBytes` leaves the state that the loop over its bytes
  leaves.
-/

namespace RudpNetwork

open MachineInt

/-- A call of a method of `BitWriter`. -/
inductive WriteCall
  | writeBits (value : U32) (bits : Int)
  | writeAlign
  | writeBytes (data : List U8) (bytes : Int)

namespace BitWriter

variable {β : Type} [Platform β]

/-- One call. -/
def step (w : BitWriter β) : WriteCall → Except Fault (BitWriter β)
  | .writeBits value bits => w.writeBits value bits
  | .writeAlign => w.writeAlign
  | .writeBytes data bytes => w.writeBytes data bytes

/-- What the assertion of the method says, of integers. -/
def Within (w : BitWriter β) : WriteCall → Prop
  | .writeBits _ bits => w.bitsWritten + bits ≤ w.numBits
  | .writeAlign => True
  | .writeBytes _ bytes => w.bitsWritten + 8 * bytes ≤ w.numBits

/-- `w` is what a fresh writer has become after calls within its capacity. -/
def Reached (w : BitWriter β) : Prop :=
  ∃ (data : β) (bytes : Int) (calls : List WriteCall) (w₀ : BitWriter β),
    (0 ≤ bytes ∧ 8 * bytes ≤ (Platform.bits data).length ∧
      (Platform.bits data).length < 17179869184) ∧
      init data bytes = .ok w₀ ∧ Run.Along step Within calls w₀ ∧ Run.run step calls w₀ = .ok w

/-- `w` holds bits that fit. -/
def Written (w : BitWriter β) : Prop := ∃ l, w.Rep l ∧ (l = [] ∨ (l.length : Int) ≤ w.numBits)

/-! ## the states that are reached -/

/-- Where the written bits fit, the counter is exact. -/
theorem Rep.counted {w : BitWriter β} {l : List Bool} (hw : w.Rep l)
    (hfit : l = [] ∨ (l.length : Int) ≤ w.numBits) : w.bitsWritten = l.length := by
  rcases hfit with rfl | hfit
  · exact hw.bitsWritten
  · exact hw.bitsWritten_eq hfit

/-- The step lemma: a call within the capacity leaves a writer that holds bits. -/
theorem step_written {w w' : BitWriter β} {c : WriteCall} (h : w.Written) (hc : w.Within c)
    (hrun : w.step c = .ok w') : w'.Written := by
  obtain ⟨l, hw, hfit⟩ := h
  have hcount := hw.counted hfit
  cases c with
  | writeBits value bits =>
      obtain ⟨⟨h0, -⟩, hw', hsame⟩ := writeBits_rep hw hrun
      have hroom : w.bitsWritten + bits ≤ w.numBits := hc
      refine ⟨_, hw', .inr ?_⟩
      rw [List.length_append, Bits.length_ofNat, hw.numBits_eq hw' hsame]
      omega
  | writeAlign =>
      rcases hfit with rfl | hfit
      · have hsame : w.writeAlign = .ok w := by
          simp [writeAlign, hcount, pure, Except.pure]
        obtain rfl := Except.ok.inj (hsame.symm.trans hrun)
        exact ⟨[], hw, .inl rfl⟩
      · -- the capacity is a whole number of words, so there is room for the padding
        have hmod := hw.numBits_emod
        have hroom : ((l ++ Bits.padding l.length).length : Int) ≤ w.numBits := by
          rw [List.length_append, Bits.length_padding]
          omega
        obtain ⟨w₁, hrun', hw', hsame⟩ := writeAlign_ok hw hroom
        obtain rfl := Except.ok.inj (hrun'.symm.trans hrun)
        exact ⟨_, hw', .inr (by rwa [hw.numBits_eq hw' hsame])⟩
  | writeBytes data bytes =>
      obtain ⟨hw', hsame⟩ := writeBytes_rep hw hrun
      have hroom : w.bitsWritten + 8 * bytes ≤ w.numBits := hc
      have hlen : (data.take bytes.toNat).length ≤ bytes.toNat := List.length_take_le _ _
      refine ⟨_, hw', ?_⟩
      by_cases hnone : bytes ≤ 0
      · have hz : bytes.toNat = 0 := by omega
        rw [hz, List.take_zero, Bits.ofList_nil, List.append_nil, hw.numBits_eq hw' hsame]
        exact hfit
      · refine .inr ?_
        rw [List.length_append, Bits.length_ofList, hw.numBits_eq hw' hsame]
        omega

/-- Every writer that such calls can lead to holds bits. -/
theorem Reached.written {w : BitWriter β} (h : w.Reached) : w.Written := by
  obtain ⟨data, bytes, calls, w₀, ⟨h0, hlen, hsize⟩, hinit, hwithin, hrun⟩ := h
  obtain ⟨hrep, -⟩ := init_rep h0 hlen hsize hinit
  have hstep : ∀ (w : BitWriter β) (c : WriteCall) (w' : BitWriter β), w.Written → w.Within c →
      w.step c = .ok w' → w'.Written := fun _ _ _ h hc hrun => step_written h hc hrun
  exact Run.run_inv_along hstep hwithin ⟨[], hrep, .inl rfl⟩ hrun

/-- A writer that holds bits can be flushed. -/
theorem Written.flushBits_ok {w : BitWriter β} (h : w.Written) : ∃ w', w.flushBits = .ok w' := by
  obtain ⟨l, hw, hfit⟩ := h
  rcases hfit with rfl | hfit
  · exact ⟨w, flushBits_of_dvd hw rfl⟩
  · exact BitWriter.flushBits_ok hw hfit

/-- What is pending is what is behind the last whole word. -/
theorem Written.scratchBits_eq {w : BitWriter β} (h : w.Written) :
    w.scratchBits = w.bitsWritten % 32 := by
  obtain ⟨l, hw, hfit⟩ := h
  rw [hw.scratchBits, hw.counted hfit]
  omega

/-! ## the words behind -/

/-- The words from the `k`-th on are in `w'` what they are in `w`. -/
def Behind (w w' : BitWriter β) (k : Nat) : Prop :=
  (Platform.bits w'.data).drop (32 * k) = (Platform.bits w.data).drop (32 * k)

theorem Behind.refl (w : BitWriter β) (k : Nat) : w.Behind w k := rfl

theorem Behind.mono {w w' : BitWriter β} {k k' : Nat} (h : w.Behind w' k) (hle : k ≤ k') :
    w.Behind w' k' := by
  have hdrop := congrArg (List.drop (32 * (k' - k))) h
  rw [List.drop_drop, List.drop_drop, show 32 * k + 32 * (k' - k) = 32 * k' by omega] at hdrop
  exact hdrop

/-- Two calls in a row leave alone what lies behind the second. -/
theorem Behind.trans {w w' w'' : BitWriter β} {k k' : Nat} (h : w.Behind w' k)
    (h' : w'.Behind w'' k') (hle : k ≤ k') : w.Behind w'' k' :=
  Eq.trans h' (h.mono hle)

/-- Two calls that append, one behind the other. -/
theorem Behind.append {w w' w'' : BitWriter β} {l t : List Bool} (h : w.Behind w' (l.length / 32))
    (h' : w'.Behind w'' ((l ++ t).length / 32)) : w.Behind w'' ((l ++ t).length / 32) := by
  refine h.trans h' (Nat.div_le_div_right ?_)
  rw [List.length_append]
  exact Nat.le_add_right _ _

/-- `WriteBits` stores no word behind what is written then. -/
theorem writeBits_behind {w w' : BitWriter β} {l : List Bool} {value : U32} {bits : Int}
    (hw : w.Rep l) (h : w.writeBits value bits = .ok w') :
    w.Behind w' ((l ++ Bits.ofNat bits.toNat value.toNat).length / 32) := by
  obtain ⟨-, shifted, -, ⟨hfull, w₁, hput, rfl⟩ | ⟨-, rfl⟩⟩ := writeBits_cases hw h
  · obtain ⟨-, -, hdrop, -⟩ := putScratch_data (k := l.length / 32) (by exact hw.capacity)
      (by exact hw.wordIndex) hput
    have hput' : w.Behind w₁ (l.length / 32 + 1) := hdrop
    refine hput'.mono ?_
    rw [List.length_append, Bits.length_ofNat]
    omega
  · rfl

/-- The loop over single bytes touches no word behind its bits. -/
theorem writeEach_behind {w w' : BitWriter β} {l : List Bool} {xs : List U8} (hw : w.Rep l)
    (h : w.writeEach xs = .ok w') : w.Behind w' ((l ++ Bits.ofList xs).length / 32) := by
  induction xs generalizing w l with
  | nil =>
      obtain rfl : w = w' := Except.pure_eq_ok_iff.mp h
      exact .refl w _
  | cons b bs ih =>
      obtain ⟨w₁, hwrite, hrest⟩ := Except.bind_eq_ok_iff.mp h
      obtain ⟨-, hw₁, -⟩ := writeBits_rep hw hwrite
      have hfirst := writeBits_behind hw hwrite
      have hlater := ih hw₁ hrest
      rw [show (8 : Int).toNat = 8 from rfl, ofNat_setWidth] at hfirst hlater
      rw [Bits.ofList_cons, ← List.append_assoc]
      exact hfirst.append hlater

/-- Neither does the block copy. -/
theorem writeWords_behind {w w' : BitWriter β} {l : List Bool} {data : List U8}
    {headBytes numWords : Int} (hw : w.Rep l) (hmod : l.length % 32 = 0)
    (h : w.writeWords data headBytes numWords = .ok w') :
    w.Behind w'
      ((l ++ Bits.ofList (Bits.slice data headBytes.toNat (numWords * 4).toNat)).length / 32) := by
  rcases writeWords_cases hw hmod h with
    ⟨hpos, block, buffer, hblock, hlen, hfit, hbits, rfl⟩ | ⟨-, rfl⟩
  · rw [hblock]
    have hdrop := Bits.drop_splice hfit
    have hend : l.length + (Bits.ofList block).length =
        32 * ((l ++ Bits.ofList block).length / 32) := by
      rw [List.length_append, Bits.length_ofList]
      omega
    rw [← hbits, hend] at hdrop
    exact hdrop
  · rfl

/-- Neither do the words and the tail together. -/
theorem writeBytesRest_behind {w w' : BitWriter β} {l : List Bool} {data : List U8}
    {bytes headBytes : Int} (hw : w.Rep l) (hmod : l.length % 32 = 0) (h0 : 0 ≤ headBytes)
    (hle : headBytes ≤ bytes) (h : w.writeBytesRest data bytes headBytes = .ok w') :
    w.Behind w'
      ((l ++ Bits.ofList (Bits.slice data headBytes.toNat (bytes - headBytes).toNat)).length / 32) := by
  obtain ⟨n, w₁, tail, hwords, htail, hsplit⟩ := writeBytesRest_parts hw hmod h0 hle h
  obtain ⟨hw₁, -⟩ := writeWords_rep hw hmod hwords
  have hfirst := writeWords_behind hw hmod hwords
  have hlater := writeEach_behind hw₁ htail
  rw [hsplit, Bits.ofList_append, ← List.append_assoc]
  exact hfirst.append hlater

/-- `WriteBytes` stores no word behind its bytes: the flush stores none, and the
block copy ends where its bytes do. -/
theorem writeBytes_behind {w w' : BitWriter β} {l : List Bool} {data : List U8} {bytes : Int}
    (hw : w.Rep l) (h : w.writeBytes data bytes = .ok w') :
    w.Behind w' ((l ++ Bits.ofList (data.take bytes.toNat)).length / 32) := by
  obtain ⟨head, w₁, hwrite, hparts⟩ := writeBytes_parts hw h
  obtain ⟨hw₁, -⟩ := writeEach_rep hw hwrite
  have hfirst := writeEach_behind hw hwrite
  rcases hparts with ⟨hall, rfl⟩ | ⟨headBytes, ⟨h0, hle⟩, hmod, hrest, hall⟩
  · rw [hall]
    exact hfirst
  · have hlater := writeBytesRest_behind hw₁ hmod h0 hle hrest
    rw [hall, Bits.ofList_append, ← List.append_assoc]
    exact hfirst.append hlater

/-! ## `WriteBytes` and its loop -/

/-- Two writers that come from one writer, hold the same bits, and have touched no
word behind them, are the same. -/
theorem Rep.eq_of_behind (hinj : Function.Injective (Platform.bits : β → List Bool))
    {w w₁ w₂ : BitWriter β} {l : List Bool} (h₁ : w₁.Rep l) (h₂ : w₂.Rep l)
    (hsame₁ : w.SameBuffer w₁) (hsame₂ : w.SameBuffer w₂) (hb₁ : w.Behind w₁ (l.length / 32))
    (hb₂ : w.Behind w₂ (l.length / 32)) : w₁ = w₂ := by
  have hdata : w₁.data = w₂.data := by
    apply hinj
    rw [← List.take_append_drop (32 * (l.length / 32)) (Platform.bits w₁.data), h₁.data, hb₁,
      ← hb₂, ← h₂.data, List.take_append_drop]
  have hscratch : w₁.scratch = w₂.scratch :=
    BitVec.eq_of_toNat_eq (h₁.scratch.trans h₂.scratch.symm)
  have hnumWords : w₁.numWords = w₂.numWords := hsame₁.numWords.trans hsame₂.numWords.symm
  have hnumBits : w₁.numBits = w₂.numBits := by rw [h₁.numBits, h₂.numBits, hnumWords]
  have hwritten : w₁.bitsWritten = w₂.bitsWritten := h₁.bitsWritten.trans h₂.bitsWritten.symm
  have hindex : w₁.wordIndex = w₂.wordIndex := h₁.wordIndex.trans h₂.wordIndex.symm
  have hbits : w₁.scratchBits = w₂.scratchBits := h₁.scratchBits.trans h₂.scratchBits.symm
  cases w₁
  cases w₂
  simp_all

/-- From a byte boundary the bytes that fit are written by `WriteBytes` and by the
loop, to the same effect. -/
theorem Written.writeBytes_eq (hinj : Function.Injective (Platform.bits : β → List Bool))
    {w : BitWriter β} (h : w.Written) (h8 : w.getAlignBits = 0) {data : List U8} {n : Nat}
    (hdata : n ≤ data.length) (hfit : w.bitsWritten + 8 * n ≤ w.numBits) :
    ∃ w', w.writeBytes data n = .ok w' ∧ w.writeEach (data.take n) = .ok w' := by
  obtain ⟨l, hw, hroom⟩ := h
  have hcount := hw.counted hroom
  have halign : l.length % 8 = 0 := by
    have hmod : (l.length : Int).tmod 8 = l.length % 8 := tmod_eq _ (by omega)
    rw [getAlignBits, hcount, hmod, tmod_eq _ (by omega)] at h8
    omega
  have hlen : (data.take n).length = n := by
    rw [List.length_take]
    omega
  obtain ⟨w₁, hbulk⟩ := @writeBytes_ok β _ w l data n hw halign (by omega) (by omega) (by omega)
  obtain ⟨w₂, hloop⟩ := writeEach_ok (data.take n) hw (by omega)
  obtain ⟨hw₁, hsame₁⟩ := writeBytes_rep hw hbulk
  obtain ⟨hw₂, hsame₂⟩ := writeEach_rep hw hloop
  have hb₁ := writeBytes_behind hw hbulk
  rw [Int.toNat_natCast] at hw₁ hb₁
  obtain rfl := hw₁.eq_of_behind hinj hw₂ hsame₁ hsame₂ hb₁ (writeEach_behind hw hloop)
  exact ⟨w₁, hbulk, hloop⟩

/-- In both code bases `WriteBytes` completes and leaves the writer as the calls
`WriteBits( data[i], 8 )` do. -/
theorem bulkWrite :
    (∀ w : BitWriter Memory, w.Reached → w.getAlignBits = 0 → ∀ (data : List U8) (n : Nat),
      n ≤ data.length → w.bitsWritten + 8 * n ≤ w.numBits →
      ∃ w', w.writeBytes data n = .ok w' ∧ w.writeEach (data.take n) = .ok w') ∧
    ∀ w : BitWriter UIntArray, w.Reached → w.getAlignBits = 0 → ∀ (data : List U8) (n : Nat),
      n ≤ data.length → w.bitsWritten + 8 * n ≤ w.numBits →
      ∃ w', w.writeBytes data n = .ok w' ∧ w.writeEach (data.take n) = .ok w' := by
  have hmemory : Function.Injective (Platform.bits : Memory → List Bool) :=
    fun _ _ h => Bits.ofList_inj (by decide) h
  have harray : Function.Injective (Platform.bits : UIntArray → List Bool) :=
    fun _ _ h => Bits.ofList_inj (by decide) h
  exact ⟨fun w hw h8 _ _ hdata hfit => hw.written.writeBytes_eq hmemory h8 hdata hfit,
    fun w hw h8 _ _ hdata hfit => hw.written.writeBytes_eq harray h8 hdata hfit⟩

/-- A writer of 16 bytes with one byte in it. -/
def oneByte : BitWriter Memory where
  data := List.replicate 16 0
  scratch := 7
  numBits := 128
  numWords := 4
  bitsWritten := 8
  wordIndex := 0
  scratchBits := 8

theorem oneByte_reached : oneByte.Reached := by
  have hlen : (Platform.bits (List.replicate 16 0 : Memory)).length = 8 * 16 := Bits.length_ofList _
  refine ⟨List.replicate 16 0, 16, [.writeBits 7 3, .writeAlign], _, by omega, rfl,
    ⟨?_, fun _ _ => ⟨trivial, fun _ _ => trivial⟩⟩, rfl⟩
  change (0 : Int) + 3 ≤ int32 128
  decide

/-- Three bytes up to the next word, a word, and one more. -/
theorem bulkWrite_oneByte :
    ∃ w', oneByte.writeBytes [1, 2, 3, 4, 5, 6, 7, 8] 8 = .ok w' ∧
      oneByte.writeEach [1, 2, 3, 4, 5, 6, 7, 8] = .ok w' := by
  obtain ⟨hmemory, -⟩ := bulkWrite
  exact hmemory oneByte oneByte_reached (by decide) [1, 2, 3, 4, 5, 6, 7, 8] 8 (by decide) (by decide)

/-! ## a second flush -/

/-- `FlushBits` can be called, and once more with no effect. -/
def FlushHarmless (w : BitWriter β) : Prop :=
  ∃ w', w.flushBits = .ok w' ∧ 0 ≤ w'.scratchBits ∧ w'.flushBits = .ok w'

/-- An empty register is not flushed. -/
theorem flushBits_of_scratchBits {w : BitWriter β} (h : w.scratchBits = 0) :
    w.flushBits = .ok w := by
  simp [flushBits, h, pure, Except.pure]

/-- What a flush that stores a word leaves of the counters. -/
theorem flushBits_pending {w w' : BitWriter β} (hne : w.scratchBits ≠ 0)
    (h : w.flushBits = .ok w') :
    w'.scratchBits = @Platform.flushedScratchBits β _ w.scratchBits ∧
      w'.wordIndex = int32 (w.wordIndex + 1) := by
  simp only [flushBits, if_pos hne, putScratch, Except.bind_eq_ok_iff, Except.pure_eq_ok_iff] at h
  obtain ⟨_, ⟨-, -, data, -, rfl⟩, rfl⟩ := h
  exact ⟨rfl, rfl⟩

/-- A second flush is harmless where nothing is pending after the first. -/
theorem flushHarmless_iff {w : BitWriter β} (h : w.Written) :
    w.FlushHarmless ↔
      w.scratchBits = 0 ∨ @Platform.flushedScratchBits β _ w.scratchBits = 0 := by
  constructor
  · rintro ⟨w', hflush, -, hagain⟩
    by_contra hpending
    obtain ⟨hne, hleft⟩ := not_or.mp hpending
    obtain ⟨hscratch, -⟩ := flushBits_pending hne hflush
    -- the second flush stores a word, and moves the index on
    obtain ⟨-, hindex⟩ := flushBits_pending (by rwa [hscratch]) hagain
    unfold int32 at hindex
    omega
  · intro hdone
    by_cases hz : w.scratchBits = 0
    · have hflush := flushBits_of_scratchBits hz
      exact ⟨w, hflush, by omega, hflush⟩
    · obtain ⟨w', hflush⟩ := h.flushBits_ok
      obtain ⟨hscratch, -⟩ := flushBits_pending hz hflush
      have hnone : w'.scratchBits = 0 := hscratch.trans (hdone.resolve_left hz)
      exact ⟨w', hflush, by omega, flushBits_of_scratchBits hnone⟩

/-- In C# the second flush is always harmless; in C++ only where the first one has
nothing to do. -/
theorem flushTwice {memory : BitWriter Memory} {array : BitWriter UIntArray}
    (hmemory : memory.Reached) (harray : array.Reached) :
    (memory.FlushHarmless ↔ memory.bitsWritten % 32 = 0) ∧ array.FlushHarmless := by
  refine ⟨?_, (flushHarmless_iff harray.written).mpr (.inr rfl)⟩
  rw [flushHarmless_iff hmemory.written, hmemory.written.scratchBits_eq]
  have hlow : int32 (memory.bitsWritten % 32 - 32) = memory.bitsWritten % 32 - 32 :=
    int32_eq ⟨by omega, by omega⟩
  change _ ∨ int32 (memory.bitsWritten % 32 - 32) = 0 ↔ _
  omega

/-- A writer of eight bytes with one bit in it. -/
def oneBit (data : β) : BitWriter β where
  data := data
  scratch := 1
  numBits := 64
  numWords := 2
  bitsWritten := 1
  wordIndex := 0
  scratchBits := 1

theorem oneBit_reached : (oneBit ([0, 0, 0, 0, 0, 0, 0, 0] : Memory)).Reached := by
  refine ⟨[0, 0, 0, 0, 0, 0, 0, 0], 8, [.writeBits 1 1], _, by decide, rfl,
    ⟨?_, fun _ _ => trivial⟩, rfl⟩
  change (0 : Int) + 1 ≤ int32 64
  decide

theorem oneBit_reached' : (oneBit ([0, 0] : UIntArray)).Reached := by
  refine ⟨[0, 0], 8, [.writeBits 1 1], _, by decide, rfl, ⟨?_, fun _ _ => trivial⟩, rfl⟩
  change (0 : Int) + 1 ≤ int32 64
  decide

/-- A second flush is harmless in C# and not in C++. -/
theorem flushTwice_oneBit :
    ¬(oneBit ([0, 0, 0, 0, 0, 0, 0, 0] : Memory)).FlushHarmless ∧
      (oneBit ([0, 0] : UIntArray)).FlushHarmless := by
  obtain ⟨hmemory, harray⟩ := flushTwice oneBit_reached oneBit_reached'
  refine ⟨?_, harray⟩
  rw [hmemory]
  decide

/-- The second flush of the C++ writer stores a word of zeros behind the first. -/
theorem not_flushTwice : ¬∀ w : BitWriter Memory, w.Reached → w.FlushHarmless := by
  intro h
  have hharmless := h _ oneBit_reached
  rw [flushHarmless_iff oneBit_reached.written] at hharmless
  revert hharmless
  decide

end BitWriter

end RudpNetwork
