import RudpNetwork.CSharp

/-!
# RudpNetwork.LengthCheck

What stands between a length from the wire and `ReadBytes` in the C# client:
`SerializeBytes` computes `m_bitsRead + bytes * 8` in an `int`, and a length that
makes this sum wrap is not noticed.

`LengthChecked` is what the check is for; `lengthChecked_iff` says for which
lengths it does it.  On the way, `BitReader.Within` is what is needed to stay
inside `m_data`, also where the position has lost its meaning.

## Main results

* `StreamAt` — the streams of a position in an array of words.
* `lengthChecked_iff` — the byte counts that `SerializeBytes` checks before it reads.
-/

namespace RudpNetwork

open MachineInt
open Except (Avoids)

variable {β : Type} [Platform β]

/-! ## reads inside the buffer -/

namespace BitReader

/-- The words that `r` may load are words of `B`. -/
structure Within (r : BitReader β) (B : List Bool) : Prop where
  data : Platform.bits r.data = B
  numWords : 32 * r.numWords ≤ B.length
  numWords_le : r.numWords ≤ 2147483647
  wordIndex : 0 ≤ r.wordIndex

variable {r : BitReader β} {B : List Bool}

/-- Loading a word does not leave the array. -/
theorem Within.getScratch (h : r.Within B) (h0 : 0 ≤ r.scratchBits) (h64 : r.scratchBits < 64) :
    Avoids .outOfBounds r.getScratch (·.Within B) := by
  have hle := h.numWords
  have hlow := h.wordIndex
  have hhigh := h.numWords_le
  refine Avoids.bind_require (by decide) fun hlt => ?_
  have hload : Platform.loadWord r.data r.wordIndex =
      .ok (Platform.getWord r.data r.wordIndex.toNat) := by
    rw [Platform.loadWord_eq_ok, Platform.words, h.data]
    exact ⟨⟨hlow, by omega⟩, rfl⟩
  refine Avoids.bind_ok hload (Avoids.bind_ok (Platform.shiftLeft_eq _ _ h0 h64) (.ok ?_))
  refine ⟨h.data, hle, hhigh, ?_⟩
  change 0 ≤ int32 (r.wordIndex + 1)
  rw [int32_eq ⟨by omega, by omega⟩]
  omega

/-- Bits that the register does not hold are loaded from the buffer. -/
theorem Within.readBits (h : r.Within B) (bits : Int) :
    Avoids .outOfBounds (r.readBits bits) fun result => result.2.Within B ∧
      (bits ≤ r.scratchBits → result.2.wordIndex = r.wordIndex ∧
        result.2.scratchBits = int32 (r.scratchBits - bits)) := by
  refine Avoids.bind_require (by decide) fun _ => ?_
  refine Avoids.bind_require (by decide) fun h32 => ?_
  refine Avoids.bind_require (by decide) fun _ => ?_
  refine Avoids.bind_require (by decide) fun hscratch => ?_
  simp only [refill]
  by_cases hshort : r.scratchBits < bits
  · rw [if_pos hshort]
    have hload := @Within.getScratch β _ { r with bitsRead := int32 (r.bitsRead + bits) } B
      ⟨h.data, h.numWords, h.numWords_le, h.wordIndex⟩ hscratch.1
      (Int.lt_of_lt_of_le hshort (by omega))
    refine Avoids.bind hload fun r' hr' => Avoids.bind_require (by decide) fun _ => .ok ?_
    exact ⟨⟨hr'.data, hr'.numWords, hr'.numWords_le, hr'.wordIndex⟩, fun hle => by omega⟩
  · rw [if_neg hshort]
    refine Avoids.bind_ok rfl (Avoids.bind_require (by decide) fun _ => .ok ?_)
    exact ⟨⟨h.data, h.numWords, h.numWords_le, h.wordIndex⟩, fun _ => ⟨rfl, rfl⟩⟩

/-- Single bytes come from the register or from the next word. -/
theorem Within.readEach (h : r.Within B) (n : Nat) :
    Avoids .outOfBounds (r.readEach n) fun result => result.1.length = n ∧ result.2.Within B ∧
      (8 * n ≤ r.scratchBits → r.scratchBits ≤ 64 → result.2.wordIndex = r.wordIndex) := by
  induction n generalizing r with
  | zero => exact .ok ⟨rfl, h, fun _ _ => rfl⟩
  | succ n ih =>
      refine Avoids.bind (h.readBits 8) fun ⟨value, r₁⟩ ⟨h₁, hindex⟩ => ?_
      refine Avoids.bind (ih h₁) fun ⟨xs, r'⟩ ⟨hlen, h', hindex'⟩ => .ok ⟨?_, h', ?_⟩
      · rw [List.length_cons, hlen]
      · intro hhold hle
        obtain ⟨hsame, hleft⟩ := hindex (by omega)
        change r₁.scratchBits = _ at hleft
        rw [int32_eq ⟨by omega, by omega⟩] at hleft
        exact (hindex' (by omega) (by omega)).trans hsame

/-- The words that are copied from a position whose end is inside the buffer. -/
theorem Within.readWords (h : r.Within B) {data : List U8} {headBytes numWords : Int}
    (h0 : 0 ≤ headBytes) (hfit : 32 * (r.wordIndex + numWords) ≤ B.length)
    (hsmall : r.wordIndex + numWords ≤ 2147483647)
    (hdata : headBytes + 4 * numWords ≤ data.length) :
    Avoids .outOfBounds (r.readWords data headBytes numWords) fun result =>
      result.1.length = data.length ∧ result.2.Within B := by
  have hlow := h.wordIndex
  unfold BitReader.readWords
  by_cases hpos : 0 < numWords
  · rw [if_pos hpos]
    refine Avoids.bind_require (by decide) fun _ => ?_
    obtain ⟨block, hblock⟩ : ∃ block, block =
        Platform.getBytes r.data r.wordIndex.toNat numWords.toNat := ⟨_, rfl⟩
    have hload : Platform.loadBytes r.data r.wordIndex numWords.toNat = .ok block := by
      rw [Platform.loadBytes_eq_ok, Platform.words, h.data]
      exact ⟨⟨hlow, by omega⟩, hblock.symm⟩
    have hlen : block.length = 4 * numWords.toNat := by
      have hbits := congrArg List.length (Platform.ofList_getBytes r.data r.wordIndex.toNat
        numWords.toNat (by rw [h.data]; omega))
      rw [← hblock, Bits.length_ofList, Bits.length_slice, h.data] at hbits
      omega
    have hstore := @writeArray_eq_ok data block headBytes h0 (by omega)
    refine Avoids.bind_ok hload (Avoids.bind_ok hstore (.ok ⟨length_writeArray hstore, ?_⟩))
    refine ⟨h.data, h.numWords, h.numWords_le, ?_⟩
    change 0 ≤ int32 (r.wordIndex + numWords)
    rw [int32_eq ⟨by omega, by omega⟩]
    omega
  · rw [if_neg hpos]
    exact .ok ⟨rfl, h⟩

/-- The block copy and the tail do not leave the array where all bytes are in it. -/
theorem Within.readBytesRest (h : r.Within B) {data : List U8} {bytes headBytes : Int}
    (h0 : 0 ≤ headBytes) (hle : headBytes ≤ bytes) (hdata : bytes ≤ data.length)
    (hfit : 32 * r.wordIndex + 8 * (bytes - headBytes) ≤ B.length)
    (hsmall : 32 * r.wordIndex + 8 * (bytes - headBytes) < 17179869184) :
    Avoids .outOfBounds (r.readBytesRest data bytes headBytes) fun _ => True := by
  have hquot : (bytes - headBytes).tdiv 4 = (bytes - headBytes) / 4 := tdiv_eq _ (by omega)
  refine Avoids.bind_require (by decide) fun _ => ?_
  rw [hquot]
  refine Avoids.bind (h.readWords h0 (by omega) (by omega) (by omega)) fun ⟨data', r₁⟩ ⟨hlen, h₁⟩ => ?_
  refine Avoids.bind_require (by decide) fun _ => Avoids.bind_require (by decide) fun _ => ?_
  refine Avoids.bind (h₁.readEach _) fun ⟨tail, r₂⟩ ⟨htail, _⟩ => ?_
  change data'.length = data.length at hlen
  change tail.length = _ at htail
  have hstore := @writeArray_eq_ok data' tail (headBytes + (bytes - headBytes) / 4 * 4) (by omega)
    (by omega)
  refine Avoids.bind_ok hstore (Avoids.bind_require (by decide) fun _ => ?_)
  exact Avoids.bind_require (by decide) fun _ => .ok trivial

/-- A `ReadBytes` whose bytes are bytes of the buffer. -/
theorem Within.readBytes (h : r.Within B) {N : Int} {pos : Nat} (hr : r.At B N pos)
    {data : List U8} {bytes : Int} (hdata : bytes ≤ data.length) (h8 : pos % 8 = 0)
    (hfit : pos + 8 * bytes ≤ B.length) (hsmall : pos + 8 * bytes < 17179869184) :
    Avoids .outOfBounds (r.readBytes data bytes) fun _ => True := by
  refine Avoids.bind_require (by decide) fun _ => ?_
  refine Avoids.bind_require (by decide) fun _ => ?_
  refine Avoids.bind_require (by decide) fun hoff => ?_
  obtain ⟨head, hhead, hle, h3, hword⟩ := @headBytes_spec r.bitsRead bytes hoff
  have hindex := hr.wordIndex
  have hscratch := hr.scratchBits
  rw [hr.bitsRead] at hword
  rw [hhead]
  refine Avoids.bind (h.readEach _) fun ⟨xs, r₁⟩ ⟨hlen, h₁, hsame⟩ => ?_
  change xs.length = head.toNat at hlen
  have hstore := @writeArray_eq_ok data xs 0 (le_refl 0) (by omega)
  refine Avoids.bind_ok hstore ?_
  by_cases hdone : head = bytes
  · rw [if_pos hdone]
    exact .ok trivial
  · rw [if_neg hdone]
    obtain ⟨hhead0, hmod⟩ := hword hdone
    have hsame' : r₁.wordIndex = r.wordIndex := hsame (by omega) (by omega)
    exact h₁.readBytesRest hhead0 hle (by rw [length_writeArray hstore]; exact hdata)
      (by rw [hsame']; omega) (by rw [hsame']; omega)

/-- An alignment does not leave the array. -/
theorem Within.readAlign (h : r.Within B) :
    Avoids .outOfBounds r.readAlign (·.2.Within B) := by
  unfold BitReader.readAlign
  by_cases hrem : r.bitsRead.tmod 8 ≠ 0
  · rw [if_pos hrem]
    refine Avoids.bind (h.readBits _) fun ⟨value, r'⟩ ⟨h', _⟩ => ?_
    exact Avoids.bind_require (by decide) fun _ => .ok h'
  · rw [if_neg hrem]
    exact .ok h

end BitReader

namespace ReadStream

/-! ## the check of `SerializeBytes` -/

/-- `SerializeBytes` up to its call of `ReadBytes`. -/
def checkBytes (bytes : Int) : Proc Fault (ReadStream β) Unit := do
  serializeAlign
  checkOverflow (int32 (bytes * 8))

/-- `SerializeBytes` comes to its call of `ReadBytes`. -/
def CallsReadBytes (s : ReadStream β) (bytes : Int) : Prop :=
  ∃ s', checkBytes bytes s = .ok (some (), s')

/-- The position after an alignment. -/
def aligned (s : ReadStream β) : Int := s.reader.bitsRead + s.reader.getAlignBits

/-- `SerializeBytes` is the check and, behind it, the read. -/
theorem serializeBytes_eq (data : List U8) (bytes : Int) :
    (serializeBytes data bytes : Proc Fault (ReadStream β) (List U8)) = do
      checkBytes bytes
      let data ← onReader (BitReader.readBytes · data bytes)
      countBits (int32 (bytes * 8))
      return data := by
  rw [checkBytes, Proc.bind_assoc]
  rfl

/-- The calls of an alignment stay inside the buffer. -/
theorem keeps_serializeAlign (B : List Bool) :
    Proc.Keeps (fun s s' => s.reader.Within B → s'.reader.Within B)
      (serializeAlign : Proc Fault (ReadStream β) Unit) := by
  have htrans : ∀ a b c : ReadStream β, (a.reader.Within B → b.reader.Within B) →
      (b.reader.Within B → c.reader.Within B) → a.reader.Within B → c.reader.Within B :=
    fun _ _ _ h h' ha => h' (h ha)
  refine Proc.Keeps.bind htrans (fun s o s' h => ?_) fun s₀ =>
    Proc.Keeps.bind htrans (fun s o s' h => ?_) fun _ =>
      Proc.Keeps.bind htrans (fun s o s' h hs => ?_) fun zeros => ?_
  · obtain ⟨-, rfl⟩ := Prod.mk.inj (Except.ok.inj h)
    exact id
  · rcases checkOverflow_run_ok h with ⟨-, rfl⟩ | ⟨-, rfl⟩ <;> exact id
  · obtain ⟨zeros, r, hread, -, rfl⟩ := onReader_run_ok h
    exact hs.readAlign.post _ hread
  · cases zeros with
    | false => exact Proc.Keeps.returnFalse (fun _ => id)
    | true =>
        intro s o s' h
        obtain ⟨-, rfl⟩ := Prod.mk.inj (Except.ok.inj h)
        exact id

end ReadStream

namespace CSharp

open ReadStream (checkBytes CallsReadBytes aligned)

/-- A stream over the first `n` bytes of `data`, at bit `pos`. -/
structure StreamAt (s : ReadStream UIntArray) (data : UIntArray) (n pos : Nat) : Prop where
  reader : s.reader.At (Bits.ofList data) (int32 (8 * n)) pos
  numWords : s.reader.numWords = (int32 (n + 3)).tdiv 4
  bytes : n < 2147483648
  size : n ≤ 4 * data.length
  pos_le : pos = 0 ∨ pos ≤ int32 (8 * n)

/-- A new stream stands at the start. -/
theorem streamAt_init {data : UIntArray} {n : Nat} (hn : n < 2147483648)
    (hsize : n ≤ 4 * data.length) : StreamAt (ReadStream.init data n) data n 0 where
  reader := by
    have hlen : (Platform.bits data).length = 32 * data.length := Bits.length_ofList data
    rw [Int.mul_comm]
    exact BitReader.init_at data (by omega) (by omega) (by omega)
  numWords := by
    unfold ReadStream.init BitReader.init
    dsimp only
  bytes := hn
  size := hsize
  pos_le := .inl rfl

/-- What the check is for: `ReadBytes` is called for bytes that are there, and the
others end with `STREAM_OVERFLOW`, unless the alignment has failed before. -/
structure LengthChecked (s : ReadStream UIntArray) (n : Nat) (data : List U8) (length : Int) :
    Prop where
  called : s.CallsReadBytes length → s.aligned + 8 * length ≤ 8 * n
  inside : ReadStream.serializeBytes data length s ≠ .error .outOfBounds
  refused : 8 * n < s.aligned + 8 * length →
    ∃ s', ReadStream.serializeBytes data length s = .ok (none, s') ∧
      ((∃ s₁, ReadStream.serializeAlign s = .ok (some (), s₁)) → s'.error = .streamOverflow)

/-- Zeros up to the next byte, inside the stream. -/
def Padded (data : UIntArray) (n pos : Nat) : Prop :=
  (pos + ((8 - pos % 8) % 8 : Nat) : Int) ≤ int32 (8 * n) ∧
    Bits.toNat (Bits.slice (Bits.ofList data) pos ((8 - pos % 8) % 8)) = 0

instance (data : UIntArray) (n pos : Nat) : Decidable (Padded data n pos) :=
  inferInstanceAs (Decidable (_ ∧ _))

section

variable {s : ReadStream UIntArray} {data : UIntArray} {n pos : Nat}

/-- The position of the next byte. -/
theorem StreamAt.aligned_eq (h : StreamAt s data n pos) :
    s.aligned = (pos + (8 - pos % 8) % 8 : Nat) := by
  rw [aligned, h.reader.bitsRead, h.reader.getAlignBits_eq]
  rfl

/-- The reader of a stream at a position lies in the array. -/
theorem StreamAt.within (h : StreamAt s data n pos) : s.reader.Within (Bits.ofList data) := by
  have hlen := Bits.length_ofList data
  have hsize := h.size
  have hbytes := h.bytes
  have hnum := h.numWords
  have hindex := h.reader.wordIndex
  have hle : s.reader.numWords ≤ ((n : Int) + 3) / 4 := by
    rw [hnum, ← tdiv_eq 4 (show 0 ≤ (n : Int) + 3 by omega)]
    exact Int.tdiv_le_tdiv (by decide) (int32_le (by omega))
  exact ⟨h.reader.data, by omega, by omega, by omega⟩

/-- The alignment goes through where the padding is. -/
theorem StreamAt.serializeAlign_padded (h : StreamAt s data n pos) (hpad : Padded data n pos) :
    ∃ s₁, ReadStream.serializeAlign s = .ok (some (), s₁) ∧
      s₁.reader.At (Bits.ofList data) (int32 (8 * n)) (pos + (8 - pos % 8) % 8) := by
  obtain ⟨hfit, hzero⟩ := hpad
  obtain ⟨r, hr, hrun⟩ := ReadStream.serializeAlign_eq h.reader hfit
  rw [if_pos hzero] at hrun
  exact ⟨_, hrun, hr⟩

/-- An alignment over bits that are not zero returns `false`. -/
theorem StreamAt.serializeAlign_not_padded (h : StreamAt s data n pos)
    (hpad : ¬Padded data n pos) : ∃ s₁, ReadStream.serializeAlign s = .ok (none, s₁) := by
  by_cases hfit : (pos + ((8 - pos % 8) % 8 : Nat) : Int) ≤ int32 (8 * n)
  · obtain ⟨r, -, hrun⟩ := ReadStream.serializeAlign_eq h.reader hfit
    rw [if_neg fun hzero => hpad ⟨hfit, hzero⟩] at hrun
    exact ⟨_, hrun⟩
  · have hpos := h.pos_le
    have hsmall : (pos + ((8 - pos % 8) % 8 : Nat) : Int) < 2147483648 := by
      unfold int32 at hpos
      omega
    exact ⟨_, ReadStream.serializeAlign_full h.reader hsmall (by omega)⟩

/-- The check is made on the sum that an `int` holds. -/
theorem checkOverflow_wraps {s₁ : ReadStream UIntArray} {B : List Bool} {N length : Int}
    {a : Nat} (hat : s₁.reader.At B N a) :
    ReadStream.checkOverflow (int32 (length * 8)) s₁ =
      .ok (if N < int32 (a + 8 * length) then (none, { s₁ with error := .streamOverflow })
        else (some (), s₁)) := by
  have hsum : int32 (s₁.reader.bitsRead + int32 (length * 8)) = int32 (a + 8 * length) := by
    rw [Int.add_comm, int32_int32_add, hat.bitsRead, Int.add_comm, Int.mul_comm]
  rw [ReadStream.checkOverflow, BitReader.wouldOverflow, hat.numBits, hsum]
  by_cases hlt : N < int32 (a + 8 * length) <;> simp [hlt]

/-- The check passes what the wrapped sum lets pass. -/
theorem StreamAt.checkBytes_passes (h : StreamAt s data n pos) (hpad : Padded data n pos)
    {length : Int} (hle : int32 (s.aligned + 8 * length) ≤ int32 (8 * n)) :
    ∃ s₁, checkBytes length s = .ok (some (), s₁) ∧
      s₁.reader.At (Bits.ofList data) (int32 (8 * n)) (pos + (8 - pos % 8) % 8) ∧
      s₁.reader.Within (Bits.ofList data) := by
  obtain ⟨s₁, halign, hat⟩ := h.serializeAlign_padded hpad
  rw [h.aligned_eq] at hle
  have hcheck := @checkOverflow_wraps s₁ _ _ length _ hat
  rw [if_neg (by omega)] at hcheck
  exact ⟨s₁, (Proc.bind_run_some halign).trans hcheck, hat,
    ReadStream.keeps_serializeAlign _ s _ s₁ halign h.within⟩

/-- The check refuses a length that reaches beyond the limit. -/
theorem StreamAt.checkBytes_refuses (h : StreamAt s data n pos) {length : Int}
    (hgt : Padded data n pos → int32 (8 * n) < int32 (s.aligned + 8 * length)) :
    ∃ s₁, checkBytes length s = .ok (none, s₁) ∧
      ((∃ s₂, ReadStream.serializeAlign s = .ok (some (), s₂)) → s₁.error = .streamOverflow) := by
  by_cases hpad : Padded data n pos
  · obtain ⟨s₁, halign, hat⟩ := h.serializeAlign_padded hpad
    have hlt := hgt hpad
    rw [h.aligned_eq] at hlt
    have hcheck := @checkOverflow_wraps s₁ _ _ length _ hat
    rw [if_pos hlt] at hcheck
    exact ⟨_, (Proc.bind_run_some halign).trans hcheck, fun _ => rfl⟩
  · obtain ⟨s₁, halign⟩ := h.serializeAlign_not_padded hpad
    refine ⟨s₁, Proc.bind_run_none halign, fun ⟨s₂, halign'⟩ => ?_⟩
    exact absurd (Prod.mk.inj (Except.ok.inj (halign.symm.trans halign'))).1 (by decide)

/-- Where the alignment goes through, the check does what it is for as long as the
sum is one of bytes that are there or one that is too large also as an `int`. -/
theorem lengthChecked_iff (h : StreamAt s data n pos) {val : List U8} {length : Int}
    (hval : length ≤ val.length) :
    LengthChecked s n val length ↔ (Padded data n pos →
      s.aligned + 8 * length ≤ 8 * n ∨ int32 (8 * n) < int32 (s.aligned + 8 * length)) := by
  constructor
  · intro hchecked hpad
    by_cases hle : int32 (s.aligned + 8 * length) ≤ int32 (8 * n)
    · obtain ⟨s₁, hcalls, -⟩ := h.checkBytes_passes hpad hle
      exact .inl (hchecked.called ⟨s₁, hcalls⟩)
    · exact .inr (by omega)
  · intro hcond
    have haligned := h.aligned_eq
    by_cases hcalls : Padded data n pos ∧ int32 (s.aligned + 8 * length) ≤ int32 (8 * n)
    · -- `ReadBytes` is called, and the bytes are there
      obtain ⟨hpad, hle⟩ := hcalls
      have hfit : s.aligned + 8 * length ≤ 8 * n := by
        rcases hcond hpad with hfit | hlt
        · exact hfit
        · omega
      obtain ⟨s₁, hcheck, hat, hwithin⟩ := h.checkBytes_passes hpad hle
      have hlen := Bits.length_ofList data
      have hsize := h.size
      have hbytes := h.bytes
      have hread := hwithin.readBytes hat hval (by omega) (by omega) (by omega)
      refine ⟨fun _ => hfit, fun hrun => ?_, fun hgt => by omega⟩
      rw [ReadStream.serializeBytes_eq] at hrun
      have hrun' := (Proc.bind_run_some hcheck).symm.trans hrun
      cases hbytes' : s₁.reader.readBytes val length with
      | error e =>
          have hreader : ReadStream.onReader (BitReader.readBytes · val length) s₁ = .error e := by
            rw [ReadStream.onReader, hbytes']
            rfl
          have heq := Except.error.inj ((Proc.bind_run_error hreader).symm.trans hrun')
          exact hread.ne (heq ▸ hbytes')
      | ok result =>
          obtain ⟨val', r⟩ := result
          have hreader := @ReadStream.onReader_run _ _ (BitReader.readBytes · val length) s₁ _ _
            hbytes'
          have hbad := (Proc.bind_run_some hreader).symm.trans hrun'
          cases hbad
    · -- the call returns `false` before
      have hgt : Padded data n pos → int32 (8 * n) < int32 (s.aligned + 8 * length) := by
        intro hpad
        by_contra hlt
        exact hcalls ⟨hpad, by omega⟩
      obtain ⟨s₁, hcheck, herror⟩ := h.checkBytes_refuses hgt
      have hfalse : ReadStream.serializeBytes val length s = .ok (none, s₁) := by
        rw [ReadStream.serializeBytes_eq]
        exact Proc.bind_run_none hcheck
      refine ⟨?_, ?_, fun _ => ⟨s₁, hfalse, herror⟩⟩
      · rintro ⟨s₂, hpass⟩
        exact absurd (Prod.mk.inj (Except.ok.inj (hcheck.symm.trans hpass))).1 (by decide)
      · intro hrun
        cases hfalse.symm.trans hrun

/-- Four bytes of eight are checked; 536870912 bytes are not, since the bit count wraps. -/
theorem lengthChecked_iff_sample :
    LengthChecked (ReadStream.init [0x64636261, 0] 8) 8 (uninitArray (fun _ => 0) 4) 4 ∧
      ¬LengthChecked (ReadStream.init [0x64636261, 0] 8) 8 (uninitArray (fun _ => 0) 536870912)
        536870912 := by
  have hat : StreamAt (ReadStream.init [0x64636261, 0] 8) [0x64636261, 0] 8 0 :=
    streamAt_init (n := 8) (by decide) (by decide)
  constructor
  · exact (lengthChecked_iff hat (by rw [length_uninitArray]; decide)).mpr fun _ =>
      .inl (by decide)
  · intro h
    rw [lengthChecked_iff hat (by rw [length_uninitArray]; decide)] at h
    exact absurd (h (by decide)) (by decide)

/-- A stream over eight bytes, after the 31 bits of a length. -/
def sampleLength : ReadStream UIntArray where
  context := 0
  error := .none
  bitsRead := 31
  reader := { data := [536870912, 0], scratch := 0, numBits := 64, numBytes := 8, numWords := 2,
              bitsRead := 31, scratchBits := 1, wordIndex := 1 }

/-- A string that claims to be 536870912 bytes long: `536870912 * 8` is `0`. -/
theorem deserializeString_outOfBounds :
    ∃ s, newReadStream [0, 0, 0, 32, 0, 0, 0, 0] 8 = .ok s ∧
      ReadStream.serializeInteger 0 2147483647 s = .ok (some 536870912, sampleLength) ∧
      ¬LengthChecked sampleLength 8 (uninitArray (fun _ => 0) 536870912) 536870912 ∧
      (deserializeString id : ReadProc UIntArray Unit (List U8)) (s, ()) = .error .outOfBounds :=
  ⟨_, rfl, by decide +kernel, fun h => h.inside rfl, rfl⟩

end

end CSharp

end RudpNetwork
