import RudpNetwork.RangeCheck
import RudpNetwork.ReaderRuns
import RudpNetwork.Text

/-!
# RudpNetwork.TextInterop

One string between the two code bases.  Both write a length, the padding to the next
byte and the characters, but `serialize_string` gives the length as many bits as
`buffer_size` needs and `SerializeString` always 31.

`stringInterop_iff` says when the difference does not show: the two lengths end in
the same byte, so that the bits that one of them has too many stand where the other
has padding.

## Main results

* `stringInterop_iff` — the buffer sizes and positions at which a text goes from one code
  base to the other.
-/

namespace RudpNetwork

open MachineInt
open WriteStream (Writes)
open ReadStream (Reads)

/-! ## a string on the wire -/

/-- `chars` with a length that is taken to be followed by zeros up to bit `start`. -/
def Wire.stringTo (start : Nat) (chars : List U8) (pos : Nat) : List Bool :=
  Bits.ofNat (start - pos) chars.length ++ Bits.ofList chars

/-- A text whose bytes begin at `start`. -/
theorem Wire.length_stringTo {l : List Bool} {start : Nat} (h : l.length ≤ start)
    (chars : List U8) :
    (l ++ Wire.stringTo start chars l.length).length = start + 8 * chars.length := by
  rw [List.length_append, Wire.stringTo, List.length_append, Bits.length_ofNat,
    Bits.length_ofList]
  omega

/-- The padding behind a length can be read as more of its bits. -/
theorem Wire.string_eq {chars : List U8} {bufferSize : Int}
    (h : chars.length < 2 ^ lengthBits bufferSize) (pos : Nat) :
    Wire.string chars bufferSize pos =
      Wire.stringTo (nextByte (pos + lengthBits bufferSize)) chars pos := by
  have hwidth : nextByte (pos + lengthBits bufferSize) - pos =
      lengthBits bufferSize + (8 - (pos + lengthBits bufferSize) % 8) % 8 := by
    rw [nextByte]
    omega
  have hzero : chars.length >>> lengthBits bufferSize = 0 := by
    rw [Nat.shiftRight_eq_div_pow, Nat.div_eq_of_lt h]
  rw [Wire.stringTo, hwidth, Bits.ofNat_add, hzero, Bits.ofNat_zero_right, Wire.string, Wire.int,
    Wire.bytes, Enc.append_apply, Enc.append_apply, Enc.const, Enc.const, Enc.align,
    Bits.length_ofNat, Int.sub_zero, Int.toNat_natCast, List.append_assoc]
  rfl

/-- Over any bits a reader can stand at any position, where a buffer can hold any words. -/
theorem exists_reader {γ : Type} [Platform γ]
    (hwords : ∀ (k : Nat) (l : List Bool), l.length = 32 * k → ∃ data : γ, Platform.bits data = l)
    {sent : List Bool} (hsmall : sent.length < 2147483648) (pos : Nat) :
    ∃ (t : ReadStream γ) (B : List Bool), t.At B sent.length pos ∧ B.take sent.length = sent := by
  obtain ⟨data, hbits⟩ := hwords ((sent.length + 31) / 32)
    (sent ++ List.replicate (32 * ((sent.length + 31) / 32) - sent.length) false)
    (by rw [List.length_append, List.length_replicate]; omega)
  obtain ⟨t, hat⟩ := ReadStream.exists_at data pos hsmall
    (by rw [hbits, List.length_append, List.length_replicate]; omega)
  exact ⟨t, _, hat, by rw [hbits, List.take_left]⟩

/-- Whole words are the bits of some bytes. -/
theorem exists_memory (k : Nat) (l : List Bool) (h : l.length = 32 * k) :
    ∃ data : Memory, Platform.bits data = l :=
  @Bits.exists_ofList 8 l (4 * k) (by omega)

/-- Whole words are the bits of some array of words. -/
theorem exists_uintArray (k : Nat) (l : List Bool) (h : l.length = 32 * k) :
    ∃ data : UIntArray, Platform.bits data = l :=
  @Bits.exists_ofList 32 l k h.symm

/-! ## a reader over such bits -/

/-- The data starts with `chars` at bit `pos`, and with the length up to bit `start`. -/
structure StartsAt (B : List Bool) (pos start : Nat) (chars : List U8) : Prop where
  le : pos ≤ start
  length : Bits.slice B pos (start - pos) = Bits.ofNat (start - pos) chars.length
  bytes : Bits.slice B start (8 * chars.length) = Bits.ofList chars

/-- A buffer that begins with a text has it there. -/
theorem startsAt_of_take {B l : List Bool} {start : Nat} {chars : List U8} (hle : l.length ≤ start)
    (h : B.take (l ++ Wire.stringTo start chars l.length).length =
      l ++ Wire.stringTo start chars l.length) : StartsAt B l.length start chars := by
  have hall : Bits.slice B l.length (Wire.stringTo start chars l.length).length =
      Wire.stringTo start chars l.length := by
    have hslice := @Bits.slice_take Bool B l.length (Wire.stringTo start chars l.length).length
      (l ++ Wire.stringTo start chars l.length).length (by rw [List.length_append])
    rw [← hslice, h, Bits.slice_append_right, List.take_length]
  obtain ⟨hlength, hbytes⟩ := Bits.slice_eq_append hall
  rw [Bits.length_ofNat] at hlength hbytes
  rw [Bits.length_ofList, show l.length + (start - l.length) = start by omega] at hbytes
  exact ⟨hle, hlength, hbytes⟩

section StartsAt

variable {B : List Bool} {pos start : Nat} {chars : List U8}

/-- The first bits of the length. -/
theorem StartsAt.slice_eq (h : StartsAt B pos start chars) {k : Nat} (hk : pos + k ≤ start) :
    Bits.slice B pos k = Bits.ofNat k chars.length := by
  rw [← Bits.take_slice B pos (show k ≤ start - pos by omega), h.length,
    Bits.take_ofNat (by omega)]

/-- Behind the bits that the number needs there are zeros. -/
theorem StartsAt.slice_zeros (h : StartsAt B pos start chars) {k m : Nat}
    (hlt : chars.length < 2 ^ k) (hm : pos + k + m ≤ start) :
    Bits.toNat (Bits.slice B (pos + k) m) = 0 := by
  have hdrop := Bits.drop_slice B pos k (k + m)
  rw [h.slice_eq (by omega), Nat.add_sub_cancel_left] at hdrop
  rw [← hdrop, Bits.toNat_drop, Bits.toNat_ofNat, Nat.shiftRight_eq_div_pow]
  exact Nat.div_eq_of_lt (Nat.lt_of_le_of_lt (Nat.mod_le _ _) hlt)

/-! ## the C++ reader -/

/-- A text that begins where the padding of the reader ends. -/
theorem StartsAt.stringAt (h : StartsAt B pos start chars) {bufferSize N : Int}
    (hlt : chars.length < 2 ^ lengthBits bufferSize) (hmax : chars.length ≤ bufferSize - 1)
    (hstart : nextByte (pos + lengthBits bufferSize) ≤ start)
    (hN : (start + 8 * chars.length : Nat) ≤ N) :
    StringAt B N pos bufferSize ∧ sentLength B pos bufferSize = chars.length := by
  have hfirst : sentStart pos bufferSize = nextByte (pos + lengthBits bufferSize) := rfl
  have hpad : nextByte (pos + lengthBits bufferSize) =
      pos + lengthBits bufferSize + sentPadding pos bufferSize := rfl
  have hlength : sentLength B pos bufferSize = chars.length := by
    rw [sentLength, h.slice_eq (by omega), Bits.toNat_ofNat, Nat.mod_eq_of_lt hlt]
  refine ⟨⟨by omega, by omega, by omega, ?_, by omega⟩, hlength⟩
  exact h.slice_zeros hlt (by omega)

/-- What the C++ reader stores is the string if and only if it looks for the characters
where they are, or looks for none. -/
theorem StartsAt.holdsString_iff (h : StartsAt B pos start chars) (hnul : 0 ∉ chars)
    {bufferSize : Int} (hlt : chars.length < 2 ^ lengthBits bufferSize)
    (hstart : nextByte (pos + lengthBits bufferSize) ≤ start) (h8 : start % 8 = 0)
    {stored target : List U8} (hstored : SentChars B pos bufferSize stored)
    (hlength : sentLength B pos bufferSize = chars.length) :
    HoldsString (Bits.splice target 0 (stored ++ [0])) chars ↔
      nextByte (pos + lengthBits bufferSize) = start ∨ chars = [] := by
  have hsplice : Bits.splice target 0 (stored ++ [0]) =
      stored ++ [0] ++ target.drop (stored ++ [0]).length := by
    rw [Bits.splice, List.take_zero, List.nil_append, Nat.zero_add]
  have hlen := hstored.length_eq
  have hbits : Bits.ofList stored =
      Bits.slice B (nextByte (pos + lengthBits bufferSize)) (8 * sentLength B pos bufferSize) :=
    hstored.bits
  rw [hlength] at hlen hbits
  rw [hsplice]
  constructor
  · rintro ⟨-, rest, hrest⟩
    by_contra hne
    obtain ⟨hne, hnil⟩ := not_or.mp hne
    obtain ⟨x, xs, rfl⟩ := List.exists_cons_of_ne_nil hnil
    cases stored with
    | nil => simp at hlen
    | cons y ys =>
        -- the first byte is taken from the zeros in front of the characters
        have hfirst : Bits.ofVec y = Bits.slice B (nextByte (pos + lengthBits bufferSize)) 8 := by
          have htake := congrArg (List.take 8) hbits
          rw [Bits.ofList_cons, List.take_append_of_le_length (by rw [Bits.length_ofVec]),
            List.take_of_length_le (by rw [Bits.length_ofVec]),
            Bits.take_slice _ _ (by rw [List.length_cons]; omega)] at htake
          exact htake
        obtain ⟨hbefore, hless, h8'⟩ := nextByte_spec (pos + lengthBits bufferSize)
        have hmore : (x :: xs).length <
            2 ^ (nextByte (pos + lengthBits bufferSize) - pos) :=
          Nat.lt_of_lt_of_le hlt (Nat.pow_le_pow_right (by decide) (by omega))
        have hzero := @StartsAt.slice_zeros B pos start (x :: xs) h _ 8 hmore (by omega)
        rw [show pos + (nextByte (pos + lengthBits bufferSize) - pos) =
          nextByte (pos + lengthBits bufferSize) by omega, ← hfirst, Bits.toNat_ofVec] at hzero
        obtain rfl : y = 0 := BitVec.eq_of_toNat_eq hzero
        obtain rfl : x = 0 := (List.cons.inj hrest).1
        exact hnul List.mem_cons_self
  · rintro (hsame | rfl)
    · rw [hsame, h.bytes] at hbits
      obtain rfl := Bits.ofList_inj (by decide) hbits
      exact ⟨hnul, List.prefix_append _ _⟩
    · obtain rfl := List.length_eq_zero_iff.mp hlen
      exact ⟨hnul, List.prefix_append _ _⟩

end StartsAt

/-! ## the C# reader -/

/-- `SerializeBytes` keeps the size of the array. -/
theorem ReadStream.length_serializeBytes {β : Type} [Platform β] {s s' : ReadStream β}
    {data data' : List U8} {bytes : Int}
    (h : serializeBytes data bytes s = .ok (some data', s')) : data'.length = data.length := by
  obtain ⟨_, s₁, -, h₁⟩ := Proc.bind_run_ok_some h
  obtain ⟨_, s₂, -, h₂⟩ := Proc.bind_run_ok_some h₁
  obtain ⟨stored, s₃, hread, h₃⟩ := Proc.bind_run_ok_some h₂
  obtain rfl : stored = data' := Option.some.inj (Prod.mk.inj (Except.ok.inj h₃)).1
  obtain ⟨copied, r, hcopy, hcopied, -⟩ := onReader_run_ok hread
  obtain rfl := Option.some.inj hcopied
  exact BitReader.length_readBytes hcopy

namespace CSharp

variable {τ σ : Type} {s s₁ s₂ : ReadStream UIntArray} {getString : List U8 → σ}

/-- `DeserializeBytes` gives back the array where nothing was stored. -/
theorem deserializeBytes_run {data : List U8} {bytes : Int} (o : τ) {stored : Option (List U8)}
    (h : ReadStream.serializeBytes data bytes s = .ok (stored, s₁)) :
    (deserializeBytes data bytes : ReadProc UIntArray τ (Bool × List U8)) (s, o) =
      .ok (some (stored.isSome, stored.getD data), s₁, o) :=
  Proc.bind_run_some (Proc.attempt_run (ReadStream.onStream_run h))

/-- `DeserializeString` goes on with the length, or with zero. -/
theorem deserializeString_run (o : τ) {length : Option Int}
    (h : ReadStream.serializeInteger 0 2147483647 s = .ok (length, s₁)) :
    (deserializeString getString : ReadProc UIntArray τ σ) (s, o) =
      restOfText getString (length.getD 0) (s₁, o) :=
  Proc.bind_run_some (deserializeInt_run (by decide) o h)

/-- Behind the length, a new array is filled. -/
theorem restOfText_eq (getString : List U8 → σ) (n : Nat) (s : ReadStream UIntArray) (o : τ) :
    (restOfText getString n : ReadProc UIntArray τ σ) (s, o) = (do
      let (_, val) ← deserializeBytes (List.replicate n 0) n
      return getString val : ReadProc UIntArray τ σ) (s, o) :=
  Proc.lift_bind_run (newByteArray_ok n)

/-- What `DeserializeString` returns. -/
theorem restOfText_run {n : Nat} (o : τ) {stored : Option (List U8)}
    (h : ReadStream.serializeBytes (List.replicate n 0) n s = .ok (stored, s₁)) :
    (restOfText getString n : ReadProc UIntArray τ σ) (s, o) =
      .ok (some (getString (stored.getD (List.replicate n 0))), s₁, o) :=
  (restOfText_eq getString n s o).trans (Proc.bind_run_some (deserializeBytes_run o h))

/-- The text is made of an array of the length that was read. -/
theorem restOfText_inv {n : Nat} {o o' : τ} {text : σ}
    (h : (restOfText getString n : ReadProc UIntArray τ σ) (s, o) = .ok (some text, s₁, o')) :
    ∃ val, val.length = n ∧ text = getString val := by
  cases hbytes : ReadStream.serializeBytes (List.replicate n 0) n s with
  | error e =>
      have hstop : (deserializeBytes (List.replicate n 0) n :
          ReadProc UIntArray τ (Bool × List U8)) (s, o) = .error e := by
        refine Proc.bind_run_error ?_
        rw [Proc.attempt, ReadStream.onStream_run_error hbytes]
      rw [restOfText_eq, Proc.bind_run_error hstop] at h
      contradiction
  | ok result =>
      obtain ⟨stored, s₂⟩ := result
      rw [restOfText_run o hbytes] at h
      obtain ⟨htext, -⟩ := Prod.mk.inj (Except.ok.inj h)
      refine ⟨stored.getD (List.replicate n 0), ?_, (Option.some.inj htext).symm⟩
      cases stored with
      | none => exact List.length_replicate
      | some data =>
          exact (ReadStream.length_serializeBytes hbytes).trans List.length_replicate

/-! ## what the C# reader makes of a string -/

/-- The length of a text, with its 31 bits there. -/
theorem serializeInteger_text {B : List Bool} {N : Int} {pos : Nat} (hs : s.At B N pos)
    (hfit : pos + 31 ≤ N) :
    ∃ s₁, ReadStream.serializeInteger 0 2147483647 s =
        .ok (some (Bits.toNat (Bits.slice B pos 31) : Int), s₁) ∧ s₁.At B N (pos + 31) := by
  have hwidth : bitsRequired (toU32 0) (toU32 2147483647) = (31 : Nat) := by decide
  obtain ⟨value, s₁, hrun, hvalue, hat, -⟩ := @ReadStream.serializeInteger_ok UIntArray _ s B N pos
    hs 0 2147483647 ⟨by decide, by decide⟩ ⟨by decide, by decide⟩ (by decide) 31 hwidth hfit
  rw [int32_toInt_slice (le_refl 31) hvalue] at hrun
  exact ⟨s₁, hrun, hat⟩

/-- The length of a text behind the end. -/
theorem serializeInteger_text_full {B : List Bool} {N : Int} {pos : Nat} (hs : s.At B N pos)
    (hsmall : pos + 31 < 2147483648) (hfull : N < pos + 31) :
    ∃ s₁, ReadStream.serializeInteger 0 2147483647 s = .ok (none, s₁) ∧ s₁.At B N pos := by
  have hwidth : bitsRequired (toU32 0) (toU32 2147483647) = (31 : Nat) := by decide
  have hrun := @ReadStream.serializeInteger_full UIntArray _ s B N pos hs.reader 0 2147483647
    ⟨by decide, by decide⟩ ⟨by decide, by decide⟩ (by decide) 31 hwidth (by omega) hfull
  exact ⟨_, hrun, hs.reader, hs.bitsRead⟩

/-- Bytes of zeros are decoded to as many NULs. -/
theorem decode_zeros (n : Nat) :
    Utf8.decode (List.replicate n 0) = List.replicate n (Char.ofNat 0) := by
  have hascii : ∀ c ∈ List.replicate n (Char.ofNat 0), Utf8.IsAscii c := by
    intro c hc
    obtain rfl := List.eq_of_mem_replicate hc
    decide
  have hencode := Utf8.encode_of_ascii hascii
  rw [List.map_replicate] at hencode
  exact (congrArg Utf8.decode hencode.symm).trans (Utf8.decode_encode _)

/-- A NUL in an ASCII text is a zero byte. -/
theorem nul_mem_encode {chars : List Char} (hascii : ∀ c ∈ chars, Utf8.IsAscii c)
    (h : Char.ofNat 0 ∈ chars) : (0 : U8) ∈ Utf8.encode chars := by
  rw [Utf8.encode_of_ascii hascii]
  exact List.mem_map.mpr ⟨_, h, rfl⟩

/-- An ASCII text has as many bytes as characters. -/
theorem length_encode {chars : List Char} (hascii : ∀ c ∈ chars, Utf8.IsAscii c) :
    (Utf8.encode chars).length = chars.length := by
  rw [Utf8.encode_of_ascii hascii, List.length_map]

variable {B : List Bool} {pos start : Nat} {chars : List Char}

/-- A length that is not followed by the padding of 31 bits is refused, or misread: the
bytes that it asks for are not all there. -/
theorem deserializeString_ne (hascii : ∀ c ∈ chars, Utf8.IsAscii c)
    (hnul : 0 ∉ Utf8.encode chars) (hstart : start < nextByte (pos + 31)) (h8 : start % 8 = 0)
    (hsmall : nextByte (pos + 31) + 8 * chars.length < 2147483648)
    (hs : s.At B (start + 8 * chars.length : Nat) pos) (hne : chars ≠ []) {o o' : τ}
    {text : List Char} (hrun : (deserializeString Utf8.decode : ReadProc UIntArray τ (List Char))
      (s, o) = .ok (some text, s₁, o')) : text ≠ chars := by
  rintro rfl
  have hend := nextByte_spec (pos + 31)
  by_cases hfit : pos + 31 ≤ start + 8 * text.length
  · obtain ⟨s₂, hread, hat⟩ := serializeInteger_text hs (by omega)
    rw [deserializeString_run o hread, Option.getD_some] at hrun
    obtain ⟨val, hval, htext⟩ := restOfText_inv hrun
    -- the text is ASCII, so that it has as many bytes as characters
    have hlength : Bits.toNat (Bits.slice B pos 31) = text.length := by
      rw [htext] at hascii ⊢
      rw [Utf8.length_decode_of_ascii hascii, hval]
    rw [hlength] at hrun
    obtain ⟨s₃, hbytes⟩ := @Reading.serializeBytes_missing UIntArray _ s₂ B _ _
      (List.replicate text.length 0) text.length hat.reader (by omega) (by omega)
    rw [restOfText_run o hbytes, Option.getD_none, decode_zeros] at hrun
    have hzeros := Option.some.inj (Prod.mk.inj (Except.ok.inj hrun)).1
    refine hnul (nul_mem_encode hascii ?_)
    rw [← hzeros, List.mem_replicate]
    exact ⟨by omega, rfl⟩
  · obtain ⟨s₂, hread, -⟩ := serializeInteger_text_full hs (by omega) (by omega)
    rw [deserializeString_run o hread] at hrun
    obtain ⟨val, hval, htext⟩ := @restOfText_inv τ _ _ _ _ 0 _ _ _ hrun
    obtain rfl := List.length_eq_zero_iff.mp hval
    exact hne (htext.trans rfl)

/-- Where the data ends before the 31 bits, the length is taken to be zero, and the
alignment is made from the position of the length. -/
theorem deserializeString_short (h : StartsAt B pos start []) (h8 : start % 8 = 0)
    (hshort : start < pos + 31) (hsmall : pos + 31 < 2147483648) (hs : s.At B start pos) (o : τ) :
    ∃ s', (deserializeString getString : ReadProc UIntArray τ σ) (s, o) =
        .ok (some (getString []), s', o) ∧ s'.getBitsProcessed = nextByte pos := by
  have hle := h.le
  obtain ⟨s₁, hread, hat⟩ := serializeInteger_text_full hs (by omega) (by omega)
  have hzeros : Bits.slice B pos (Wire.bytes [] pos).length = Wire.bytes [] pos := by
    have hbytes : Wire.bytes [] pos = Bits.padding pos := List.append_nil _
    rw [hbytes, Bits.length_padding, h.slice_eq (by omega)]
    exact Bits.ofNat_zero_right _
  have hlength : (Wire.bytes [] pos).length = (8 - pos % 8) % 8 := by
    rw [Wire.bytes, Enc.length_append, Enc.align, Bits.length_padding]
    rfl
  obtain ⟨s', hrun, hat', -⟩ := reads_restOfText getString [] o s₁ B start pos rfl hat hzeros
    (by rw [hlength]; omega)
  refine ⟨s', (deserializeString_run o hread).trans hrun, ?_⟩
  have hcount : s'.getBitsProcessed = (pos + (Wire.bytes [] pos).length : Nat) := hat'.bitsRead
  rw [hcount, hlength, nextByte]

/-- A C# reader gets an ASCII string, and ends behind it, if and only if its 31 bits end
in the byte in which the length that was written ends; or the string is empty and there
is no byte between the position and the end. -/
theorem receives_text_iff (hascii : ∀ c ∈ chars, Utf8.IsAscii c)
    (hnul : 0 ∉ Utf8.encode chars) {l : List Bool} (hle : l.length < start)
    (hstart : start ≤ nextByte (l.length + 31)) (h8 : start % 8 = 0)
    (hsmall : nextByte (l.length + 31) + 8 * chars.length < 2147483648) {sent : List Bool}
    (hsent : sent = l ++ Wire.stringTo start (Utf8.encode chars) l.length) :
    Receives (deserializeString Utf8.decode : ReadProc UIntArray Unit (List Char)) sent sent.length
        l.length () (fun text _ bits => text = chars ∧ bits = sent.length) ↔
      start = nextByte (l.length + 31) ∨ chars = [] ∧ nextByte l.length = start := by
  have hend := nextByte_spec (l.length + 31)
  have hencode := length_encode hascii
  have hsize : sent.length = start + 8 * chars.length := by
    rw [hsent, Wire.length_stringTo (by omega), hencode]
  have hstarts : ∀ B, B.take sent.length = sent → StartsAt B l.length start (Utf8.encode chars) := by
    intro B hB
    rw [hsent] at hB
    exact startsAt_of_take (by omega) hB
  constructor
  · intro hreceives
    by_contra hdiffers
    obtain ⟨hne, hempty⟩ := not_or.mp hdiffers
    obtain ⟨t, B, hat, htake⟩ := @exists_reader UIntArray _ exists_uintArray sent (by omega)
      l.length
    obtain ⟨text, t', o, hrun, rfl, hcount⟩ := hreceives t _ hat htake
    rw [hsize] at hat hcount
    by_cases hnil : text = []
    · obtain rfl := hnil
      obtain ⟨t₁, hrun', hcount'⟩ := @deserializeString_short Unit _ t Utf8.decode _ _ _
        (hstarts _ htake) h8 (by omega) (by omega) hat ()
      obtain ⟨-, ht⟩ := Prod.mk.inj (Except.ok.inj (hrun.symm.trans hrun'))
      obtain ⟨rfl, -⟩ := Prod.mk.inj ht
      exact hempty ⟨rfl, by simpa using (hcount'.symm.trans hcount)⟩
    · exact deserializeString_ne hascii hnul (by omega) h8 hsmall hat hnil hrun rfl
  · intro hsame
    by_cases hfull : start = nextByte (l.length + 31)
    · have hfield : Wire.stringTo start (Utf8.encode chars) l.length =
          Wire.string (Utf8.encode chars) 2147483648 l.length := by
        rw [Wire.string_eq (by rw [lengthBits_text]; omega), lengthBits_text, hfull]
      rw [hfield] at hsent
      rw [hsent]
      exact Reads.receives (fun c => reads_deserializeString Utf8.decode (by omega) ()) l
        (le_refl _) ⟨Utf8.decode_encode chars, rfl⟩
    · obtain ⟨rfl, hnext⟩ := hsame.resolve_left hfull
      intro t B hat hB
      rw [hsize] at hat ⊢
      obtain ⟨t', hrun, hcount⟩ := @deserializeString_short Unit _ t Utf8.decode _ _ _
        (hstarts B hB) h8 (by omega) (by omega) hat ()
      exact ⟨_, t', (), hrun, rfl, by rw [hcount, hnext]; rfl⟩

end CSharp

/-! ## what the C++ reader makes of a text -/

/-- A C++ reader stores the string if and only if its own length ends in the byte in
which the 31 bits end; or the string is empty. -/
theorem receives_string_iff {chars : List U8} (hnul : 0 ∉ chars) {bufferSize : Int}
    (hint : IsInt32 bufferSize) (hlen : chars.length < bufferSize - 1) {l : List Bool} {start : Nat}
    (hstart : nextByte (l.length + lengthBits bufferSize) ≤ start) (h8 : start % 8 = 0)
    (hsmall : start + 8 * chars.length < 2147483648) {target : List U8}
    (htarget : target.length = bufferSize) {sent : List Bool}
    (hsent : sent = l ++ Wire.stringTo start chars l.length) :
    Receives (Reading.serializeString id (fun array _ => array) bufferSize :
          ReadProc Memory (List U8) Unit) sent sent.length l.length target
        (fun _ array _ => HoldsString array chars) ↔
      nextByte (l.length + lengthBits bufferSize) = start ∨ chars = [] := by
  have hlt : chars.length < 2 ^ lengthBits bufferSize :=
    lt_pow_lengthBits hint (by omega) (by omega)
  have hend := nextByte_spec (l.length + lengthBits bufferSize)
  have hsize : sent.length = start + 8 * chars.length := by
    rw [hsent, Wire.length_stringTo (by omega)]
  -- every reader accepts, and what it stores decides
  have hread : ∀ (t : ReadStream Memory) (B : List Bool), t.At B sent.length l.length →
      B.take sent.length = sent →
      ∃ t' array, (Reading.serializeString id (fun array _ => array) bufferSize :
          ReadProc Memory (List U8) Unit) (t, target) = .ok (some (), t', array) ∧
        (HoldsString array chars ↔
          nextByte (l.length + lengthBits bufferSize) = start ∨ chars = []) := by
    intro t B hat hB
    rw [hsent] at hB
    have hstarts := startsAt_of_take (by omega) hB
    obtain ⟨hthere, hlength⟩ := @StartsAt.stringAt B l.length start chars hstarts bufferSize
      sent.length hlt (by omega) hstart (by rw [hsize])
    obtain ⟨stored, t', hrun, hstored⟩ := @Reading.serializeString_accepts Memory _ _ t B _ _
      bufferSize id (fun array _ => array) target hat.reader hint (by omega) hthere
      (by rw [id_eq]; omega)
    exact ⟨t', _, hrun, hstarts.holdsString_iff hnul hlt hstart h8 hstored hlength⟩
  constructor
  · intro hreceives
    obtain ⟨t, B, hat, htake⟩ := @exists_reader Memory _ exists_memory sent (by omega) l.length
    obtain ⟨t₁, array, hrun, hiff⟩ := hread t _ hat htake
    obtain ⟨_, t₂, array', hrun', hholds⟩ := hreceives t _ hat htake
    obtain ⟨-, hend⟩ := Prod.mk.inj (Except.ok.inj (hrun.symm.trans hrun'))
    obtain ⟨-, rfl⟩ := Prod.mk.inj hend
    exact hiff.mp hholds
  · intro hsame t B hat hB
    obtain ⟨t₁, array, hrun, hiff⟩ := hread t B hat hB
    exact ⟨(), t₁, array, hrun, hiff.mpr hsame⟩

/-! ## both ways -/

section Interop

variable {chars : List Char} {bufferSize : Int}

/-- What `serialize_string` sends, a C# reader gets. -/
theorem sentToCSharp_iff (hascii : ∀ c ∈ chars, Utf8.IsAscii c) (hint : IsInt32 bufferSize)
    (hlen : chars.length < bufferSize - 1) {source : List U8}
    (hsource : HoldsString source (Utf8.encode chars)) {s : WriteStream Memory} {l : List Bool}
    (hrep : s.writer.Rep l)
    (hroom : nextByte (l.length + lengthBits bufferSize) + 8 * chars.length ≤ s.writer.numBits)
    (hsmall : nextByte (l.length + 31) + 8 * chars.length < 2147483648) :
    (∃ sent, Sends (Writing.serializeString source bufferSize) s sent ∧
      Receives (CSharp.deserializeString Utf8.decode : ReadProc UIntArray Unit (List Char)) sent
        sent.length s.getBitsProcessed.toNat () fun text _ bits =>
          text = chars ∧ bits = sent.length) ↔
      nextByte (l.length + lengthBits bufferSize) = nextByte (l.length + 31) ∨
        chars = [] ∧ nextByte l.length = nextByte (l.length + lengthBits bufferSize) := by
  obtain ⟨hwide, hnarrow, -, -⟩ := lengthBits_spec hint (by omega)
  have hencode := CSharp.length_encode hascii
  have hlt : (Utf8.encode chars).length < 2 ^ lengthBits bufferSize := by
    rw [hencode]
    exact lt_pow_lengthBits hint (by omega) (by omega)
  have hend := nextByte_spec (l.length + 31)
  have hstart := nextByte_spec (l.length + lengthBits bufferSize)
  obtain ⟨hnul, rest, rfl⟩ := hsource
  rw [List.append_assoc]
  have hsize := Wire.length_string l (Utf8.encode chars) bufferSize
  have hsends := Writes.sends (fun c => @Writing.writes_serializeString_of Memory _ c _ _ hnul hint
    (by rw [hencode]; exact hlen) rest) hrep (by rw [hsize, hencode]; push_cast; exact hroom)
  rw [Wire.string_eq hlt] at hsends
  refine hsends.exists_iff.trans ?_
  rw [hrep.position_eq (by omega)]
  exact CSharp.receives_text_iff hascii hnul (by omega) (by omega) (by omega) hsmall rfl

/-- What `SerializeString` sends, a C++ reader gets. -/
theorem sentToCpp_iff (hascii : ∀ c ∈ chars, Utf8.IsAscii c) (hnul : 0 ∉ Utf8.encode chars)
    (hint : IsInt32 bufferSize) (hlen : chars.length < bufferSize - 1) {target : List U8}
    (htarget : target.length = bufferSize) {s : WriteStream UIntArray} {l : List Bool}
    (hrep : s.writer.Rep l)
    (hroom : nextByte (l.length + 31) + 8 * chars.length ≤ s.writer.numBits) :
    (∃ sent, Sends (CSharp.serializeString chars) s sent ∧
      Receives (Reading.serializeString id (fun array _ => array) bufferSize :
          ReadProc Memory (List U8) Unit) sent sent.length s.getBitsProcessed.toNat target
        fun _ array _ => HoldsString array (Utf8.encode chars)) ↔
      nextByte (l.length + lengthBits bufferSize) = nextByte (l.length + 31) ∨ chars = [] := by
  obtain ⟨-, hnarrow, -, -⟩ := lengthBits_spec hint (by omega)
  have hmax := hrep.numBits_le.2.2
  have hencode := CSharp.length_encode hascii
  have hend := nextByte_spec (l.length + 31)
  have hstart := nextByte_spec (l.length + lengthBits bufferSize)
  have hsent : CSharp.sentBytes chars = Utf8.encode chars := by
    rw [CSharp.sentBytes, (Utf8.utf16Length_eq_iff chars).mpr hascii, List.take_length]
  have hunits : Utf8.utf16Length chars = chars.length := by
    rw [(Utf8.utf16Length_eq_iff chars).mpr hascii, hencode]
  have hsize := Wire.length_string l (Utf8.encode chars) 2147483648
  have hsends := Writes.sends (fun c => @CSharp.writes_serializeString c chars
    (by rw [hunits]; omega)) hrep
    (by rw [hsent, hsize, CSharp.lengthBits_text, hencode]; push_cast; exact hroom)
  rw [hsent, Wire.string_eq (by rw [CSharp.lengthBits_text]; omega), CSharp.lengthBits_text]
    at hsends
  have hnil : Utf8.encode chars = [] ↔ chars = [] := by
    rw [← List.length_eq_zero_iff, hencode, List.length_eq_zero_iff]
  refine hsends.exists_iff.trans ?_
  rw [hrep.position_eq (by omega), ← hnil]
  exact receives_string_iff hnul hint (by rw [hencode]; exact hlen) (by omega) (by omega)
    (by omega) htarget rfl

/-- A string goes both ways between the code bases, from two writers at one position. -/
structure StringInterop (chars : List Char) (bufferSize : Int) (source target : List U8)
    (s : WriteStream Memory) (s' : WriteStream UIntArray) : Prop where
  toCSharp : ∃ sent, Sends (Writing.serializeString source bufferSize) s sent ∧
    Receives (CSharp.deserializeString Utf8.decode : ReadProc UIntArray Unit (List Char)) sent
      sent.length s.getBitsProcessed.toNat () fun text _ bits => text = chars ∧ bits = sent.length
  toCpp : ∃ sent, Sends (CSharp.serializeString chars) s' sent ∧
    Receives (Reading.serializeString id (fun array _ => array) bufferSize :
        ReadProc Memory (List U8) Unit) sent sent.length s'.getBitsProcessed.toNat target
      fun _ array _ => HoldsString array (Utf8.encode chars)

/-- An ASCII string goes both ways if and only if the two lengths end in the same byte;
the empty string also where the C++ length ends in the byte of the position. -/
theorem stringInterop_iff (hascii : ∀ c ∈ chars, Utf8.IsAscii c) (hint : IsInt32 bufferSize)
    (hlen : chars.length < bufferSize - 1) {source target : List U8}
    (hsource : HoldsString source (Utf8.encode chars)) (htarget : target.length = bufferSize)
    {s : WriteStream Memory} {s' : WriteStream UIntArray} {l l' : List Bool}
    (hrep : s.writer.Rep l) (hrep' : s'.writer.Rep l') (hcommon : l'.length = l.length)
    (hroom : nextByte (l.length + lengthBits bufferSize) + 8 * chars.length ≤ s.writer.numBits)
    (hroom' : nextByte (l.length + 31) + 8 * chars.length ≤ s'.writer.numBits) :
    StringInterop chars bufferSize source target s s' ↔
      nextByte (l.length + lengthBits bufferSize) = nextByte (l.length + 31) ∨
        chars = [] ∧ nextByte l.length = nextByte (l.length + lengthBits bufferSize) := by
  have hmax := hrep'.numBits_le.2.2
  have htoCSharp := sentToCSharp_iff hascii hint hlen hsource hrep hroom (by omega)
  have htoCpp := sentToCpp_iff hascii hsource.1 hint hlen htarget hrep' (by rwa [hcommon])
  rw [hcommon] at htoCpp
  constructor
  · exact fun h => htoCSharp.mp h.toCSharp
  · exact fun h => ⟨htoCSharp.mpr h, htoCpp.mpr (h.imp_right fun hempty => hempty.1)⟩

/-- Two fresh streams of eight bytes, that of C# with room for one character. -/
theorem exists_eightBytes :
    ∃ (s : WriteStream Memory) (s' : WriteStream UIntArray),
      (WriteStream.init [0, 0, 0, 0, 0, 0, 0, 0] 8 = .ok s ∧ WriteStream.init [0, 0] 8 = .ok s') ∧
        (s.writer.Rep [] ∧ s.writer.numBits = 64) ∧ s'.writer.Rep [] ∧
        nextByte (([] : List Bool).length + 31) + 8 * ['a'].length ≤ s'.writer.numBits := by
  obtain ⟨s, hinit, hrep, hnum, -⟩ := @WriteStream.init_ok Memory _ [0, 0, 0, 0, 0, 0, 0, 0] 8
    (by decide) (by decide) (by decide) (by decide)
  obtain ⟨s', hinit', hrep', hcap'⟩ := CSharp.exists_twoWords
  refine ⟨s, s', ⟨hinit, hinit'⟩, ⟨hrep, ?_⟩, hrep', ?_⟩
  · rw [hrep.numBits, hnum]
    decide
  · rw [hcap']
    decide

theorem isAscii_a : ∀ c ∈ ['a'], Utf8.IsAscii c := List.forall_mem_singleton.mpr (by decide)

/-- A buffer for which the length takes 25 bits. -/
theorem stringInterop_iff_large :
    ∃ (s : WriteStream Memory) (s' : WriteStream UIntArray),
      (WriteStream.init [0, 0, 0, 0, 0, 0, 0, 0] 8 = .ok s ∧ WriteStream.init [0, 0] 8 = .ok s') ∧
        StringInterop ['a'] 33554432 [97, 0] (List.replicate 33554432 0) s s' := by
  obtain ⟨s, s', hinit, ⟨hrep, hcap⟩, hrep', hroom'⟩ := exists_eightBytes
  have hroom : nextByte (([] : List Bool).length + lengthBits 33554432) + 8 * ['a'].length ≤
      s.writer.numBits := by
    rw [hcap]
    decide
  exact ⟨s, s', hinit, (stringInterop_iff isAscii_a ⟨by decide, by decide⟩ (by decide)
    (by decide) (by rw [List.length_replicate]; rfl) hrep hrep' rfl hroom hroom').mpr
    (.inl (by decide))⟩

/-- For a buffer of 16 the C++ length takes four bits, and the characters start 24 bits
before those of the C# client. -/
theorem not_stringInterop :
    ¬∀ (chars : List Char) (bufferSize : Int) (source target : List U8) (s : WriteStream Memory)
        (s' : WriteStream UIntArray) (l l' : List Bool), (∀ c ∈ chars, Utf8.IsAscii c) →
      IsInt32 bufferSize → 2 ≤ bufferSize → chars.length < bufferSize - 1 →
      HoldsString source (Utf8.encode chars) → target.length = bufferSize →
      s.writer.Rep l → s'.writer.Rep l' → l'.length = l.length →
      nextByte (l.length + lengthBits bufferSize) + 8 * chars.length ≤ s.writer.numBits →
      nextByte (l.length + 31) + 8 * chars.length ≤ s'.writer.numBits →
      StringInterop chars bufferSize source target s s' := by
  intro h
  obtain ⟨s, s', -, ⟨hrep, hcap⟩, hrep', hroom'⟩ := exists_eightBytes
  have hroom : nextByte (([] : List Bool).length + lengthBits 16) + 8 * ['a'].length ≤
      s.writer.numBits := by
    rw [hcap]
    decide
  have hinterop := h ['a'] 16 [97, 0] (List.replicate 16 0) s s' [] [] isAscii_a
    ⟨by decide, by decide⟩ (by decide) (by decide) (by decide) (by decide) hrep hrep' rfl hroom
    hroom'
  have hends := (sentToCSharp_iff isAscii_a ⟨by decide, by decide⟩ (by decide) (by decide) hrep
    hroom (by decide)).mp hinterop.toCSharp
  revert hends
  decide

end Interop

end RudpNetwork
