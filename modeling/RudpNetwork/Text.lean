import RudpNetwork.Lib.Utf8
import RudpNetwork.CSharp
import RudpNetwork.Delivery
import RudpNetwork.StringRead

/-!
# RudpNetwork.Text

The text of the C# client: `SerializeString` and `DeserializeString`, with UTF-8 as
`Encoding.Default`.

The length that is sent is `string.Length`, the number of 16-bit units, and as many
bytes of the encoding follow.  `textDelivered_iff` says which texts survive that:
those of ASCII characters, and by accident a U+FFFD at the end of such a text.

## Main results

* `textDelivered_iff` — the texts that arrive.
-/

namespace RudpNetwork

open MachineInt

/-- The first bit of the next byte, or of this one. -/
def nextByte (pos : Nat) : Nat := pos + (8 - pos % 8) % 8

/-- The next byte is less than eight bits away. -/
theorem nextByte_spec (pos : Nat) :
    pos ≤ nextByte pos ∧ nextByte pos < pos + 8 ∧ nextByte pos % 8 = 0 := by
  rw [nextByte]
  omega

/-- A text ends a whole number of bytes behind its padding. -/
theorem Wire.length_string (l : List Bool) (chars : List U8) (bufferSize : Int) :
    (l ++ Wire.string chars bufferSize l.length).length =
      nextByte (l.length + lengthBits bufferSize) + 8 * chars.length := by
  simp only [Wire.string, Wire.int, Wire.bytes, Enc.length_append, Enc.const, Enc.align,
    List.length_append, Bits.length_ofNat, Bits.length_ofList, Bits.length_padding, nextByte,
    lengthBits]
  omega

namespace CSharp

/-- `SerializeString`. -/
def serializeString (data : List Char) : Proc Fault (WriteStream UIntArray) Unit := do
  let length : Int := Utf8.utf16Length data
  Proc.ignore (serializeInt length 0 2147483647)
  Proc.ignore (serializeBytes (Utf8.encode data) length)

/-- The bytes that `SerializeString` sends. -/
def sentBytes (data : List Char) : List U8 := (Utf8.encode data).take (Utf8.utf16Length data)

/-- As many bytes are sent as the length says. -/
theorem length_sentBytes (data : List Char) : (sentBytes data).length = Utf8.utf16Length data := by
  rw [sentBytes, List.length_take, Nat.min_eq_left (Utf8.utf16Length_le data)]

open WriteStream (Writes)
open ReadStream (Reads)

variable {c : Context}

/-- `SerializeString` writes a length of 31 bits and as many bytes of the encoding. -/
theorem writes_serializeString {data : List Char} (hlen : Utf8.utf16Length data < 2147483648) :
    Writes c (serializeString data) (Wire.string (sentBytes data) 2147483648) := by
  have hint := @writes_serializeInt c (Utf8.utf16Length data) 0 2147483647 ⟨by decide, by decide⟩
    ⟨by decide, by decide⟩ (by decide) (by omega) (by omega)
  have hbytes := @WriteStream.writes_serializeBytes UIntArray _ c (Utf8.encode data)
    (Utf8.utf16Length data) (by exact_mod_cast Utf8.utf16Length_le data) (by omega)
  rw [Int.toNat_natCast] at hbytes
  rw [Wire.string, length_sentBytes]
  exact Writes.bind (Writes.ignore hint) (Writes.ignore hbytes)

/-- `DeserializeString` after its length, which is zero where it could not be read. -/
def restOfText {τ σ : Type} (getString : List U8 → σ) (length : Int) : ReadProc UIntArray τ σ := do
  let val ← newByteArray length
  let (_, val) ← deserializeBytes val length
  return getString val

/-- An array of a length that is not negative. -/
theorem newByteArray_ok (n : Nat) : newByteArray n = .ok (List.replicate n 0) := by
  rw [newByteArray, require, if_pos (by omega), Int.toNat_natCast]
  rfl

/-- The bytes behind the length are read back. -/
theorem reads_restOfText {τ σ : Type} (getString : List U8 → σ) (xs : List U8) (o : τ) :
    Reads c (restOfText getString xs.length : ReadProc UIntArray τ σ) (Wire.bytes xs) o o
      (getString xs) := by
  have hbytes := @ReadStream.reads_serializeBytes UIntArray _ c τ (List.replicate xs.length 0) xs o
    (by rw [List.length_replicate])
  rw [splice_all List.length_replicate] at hbytes
  have hstored : Reads c (deserializeBytes (List.replicate xs.length 0) xs.length :
      ReadProc UIntArray τ (Bool × List U8)) (Wire.bytes xs ++ .empty) o o (true, xs) :=
    Reads.bind (Reads.attempt hbytes) (Reads.pure _ o)
  have hrest : Reads c (restOfText getString xs.length : ReadProc UIntArray τ σ)
      (.empty ++ (Wire.bytes xs ++ .empty ++ .empty)) o o (getString xs) :=
    Reads.bind (Reads.lift (newByteArray_ok xs.length) o)
      (Reads.bind hstored (Reads.pure _ o))
  simp only [Enc.append_empty, Enc.empty_append] at hrest
  exact hrest

/-- The bytes of the length are decoded. -/
theorem reads_deserializeString {τ σ : Type} (getString : List U8 → σ) {xs : List U8}
    (hlen : xs.length < 2147483648) (o : τ) :
    Reads c (deserializeString getString : ReadProc UIntArray τ σ) (Wire.string xs 2147483648) o o
      (getString xs) := by
  have hint := @ReadStream.reads_serializeInteger UIntArray _ c τ xs.length 0 2147483647
    ⟨by decide, by decide⟩ ⟨by decide, by decide⟩ (by decide) (by omega) (by omega) o
  have hlength : Reads c (deserializeInt 0 2147483647 : ReadProc UIntArray τ Int)
      (Wire.int xs.length 0 2147483647 ++ .empty) o o xs.length :=
    Reads.assert (by decide) (Reads.bind (Reads.attempt hint) (Reads.pure _ o))
  rw [Enc.append_empty] at hlength
  exact Reads.bind hlength (reads_restOfText getString xs o)

/-! ## the round trip -/

/-- What is sent of a text spells it if and only if no byte is missing, or what is
missing is the end of a U+FFFD. -/
theorem decode_sentBytes_eq_iff (data : List Char) :
    Utf8.decode (sentBytes data) = data ↔ (∀ c ∈ data, Utf8.IsAscii c) ∨
      ∃ t, data = t ++ [Utf8.replacement] ∧ ∀ c ∈ t, Utf8.IsAscii c := by
  have hle := Utf8.utf16Length_le data
  constructor
  · intro hback
    rcases Utf8.exists_cut hle with ⟨t, rest, rfl, ht⟩ | ⟨t, c, rest, k, rfl, ht, h0, hk⟩
    · -- no character is cut, so none is missing
      have htake := Utf8.take_encode_append t rest 0
      rw [sentBytes, ht, ← Nat.add_zero (Utf8.encode t).length, htake, List.take_zero,
        List.append_nil, Utf8.decode_encode] at hback
      obtain rfl : rest = [] := List.self_eq_append_right.mp hback
      rw [List.append_nil] at ht ⊢
      exact .inl ((Utf8.utf16Length_eq_iff t).mp ht)
    · have htake := Utf8.take_encode_append t (c :: rest) k
      rw [Utf8.encode_cons, List.take_append_of_le_length (Nat.le_of_lt hk)] at htake
      rw [sentBytes, ht, htake, Utf8.decode_cut t c h0 hk, List.append_cancel_left_eq,
        List.cons.injEq] at hback
      obtain ⟨rfl, rfl⟩ := hback
      -- one unit stands for at least one byte, so the text before has no byte too many
      have hunit : Utf8.utf16Length [Utf8.replacement] = 1 := by decide
      have hbefore := Utf8.utf16Length_le t
      rw [Utf8.utf16Length_append, hunit] at ht
      exact .inr ⟨t, rfl, (Utf8.utf16Length_eq_iff t).mp (by omega)⟩
  · rintro (hascii | ⟨t, rfl, hascii⟩)
    · rw [sentBytes, (Utf8.utf16Length_eq_iff data).mpr hascii, List.take_length,
        Utf8.decode_encode]
    · have hunit : Utf8.utf16Length [Utf8.replacement] = 1 := by decide
      have hthree : (Utf8.encodeChar Utf8.replacement).length = 3 := by decide
      have htake := Utf8.take_encode_append t [Utf8.replacement] 1
      rw [Utf8.encode_cons, List.take_append_of_le_length (by omega)] at htake
      rw [sentBytes, Utf8.utf16Length_append, hunit, (Utf8.utf16Length_eq_iff t).mpr hascii, htake]
      exact Utf8.decode_cut t Utf8.replacement (by decide) (by omega)

/-- The range of the length takes 31 bits. -/
theorem lengthBits_text : lengthBits 2147483648 = 31 := by
  decide

/-- A text comes back if and only if what is sent of it spells it. -/
theorem delivers_text_iff {data : List Char} {s : WriteStream UIntArray} {l : List Bool}
    (hrep : s.writer.Rep l)
    (hroom : nextByte (l.length + 31) + 8 * Utf8.utf16Length data ≤ s.writer.numBits) :
    Delivers (serializeString data)
        (deserializeString Utf8.decode : ReadProc UIntArray Unit (List Char)) s ()
        (fun text _ => text = data) ↔ Utf8.decode (sentBytes data) = data := by
  have hint := hrep.numBits_le.2.2
  have hlen : Utf8.utf16Length data < 2147483648 := by omega
  have hsent := length_sentBytes data
  have hsize := Wire.length_string l (sentBytes data) 2147483648
  rw [lengthBits_text, hsent] at hsize
  exact delivers_iff (fun c => writes_serializeString hlen)
    (fun c => reads_deserializeString Utf8.decode (by rwa [hsent]) ()) hrep
    (by rw [hsize]; push_cast; exact hroom)

/-- A text comes back if and only if it is ASCII, or ASCII with one U+FFFD at the end. -/
theorem textDelivered_iff {data : List Char} {s : WriteStream UIntArray} {l : List Bool}
    (hrep : s.writer.Rep l)
    (hroom : nextByte (l.length + 31) + 8 * Utf8.utf16Length data ≤ s.writer.numBits) :
    Delivers (serializeString data)
        (deserializeString Utf8.decode : ReadProc UIntArray Unit (List Char)) s ()
        (fun text _ => text = data) ↔
      (∀ c ∈ data, Utf8.IsAscii c) ∨
        ∃ t, data = t ++ [Utf8.replacement] ∧ ∀ c ∈ t, Utf8.IsAscii c :=
  (delivers_text_iff hrep hroom).trans (decode_sentBytes_eq_iff data)

/-- A fresh stream over two words. -/
theorem exists_twoWords : ∃ s : WriteStream UIntArray, WriteStream.init [0, 0] 8 = .ok s ∧
    s.writer.Rep [] ∧ s.writer.numBits = 64 := by
  obtain ⟨s, hinit, hrep, hnum, -⟩ := @WriteStream.init_ok UIntArray _ [0, 0] 8 (by decide)
    (by decide) (by decide) (by decide)
  refine ⟨s, hinit, hrep, ?_⟩
  rw [hrep.numBits, hnum]
  decide

/-- One letter arrives. -/
theorem textDelivered_iff_letter :
    ∃ s : WriteStream UIntArray, WriteStream.init [0, 0] 8 = .ok s ∧
      Delivers (serializeString ['a'])
        (deserializeString Utf8.decode : ReadProc UIntArray Unit (List Char)) s ()
        (fun text _ => text = ['a']) := by
  obtain ⟨s, hinit, hrep, hcap⟩ := exists_twoWords
  have hroom : nextByte (([] : List Bool).length + 31) + 8 * Utf8.utf16Length ['a'] ≤
      s.writer.numBits := by
    rw [hcap]
    decide
  exact ⟨s, hinit, (textDelivered_iff hrep hroom).mpr
    (.inl (List.forall_mem_singleton.mpr (by decide)))⟩

/-- U+00E9 has one 16-bit unit and two bytes, of which one is sent. -/
theorem not_textDelivered :
    ¬∀ (data : List Char) (s : WriteStream UIntArray) (l : List Bool), s.writer.Rep l →
      nextByte (l.length + 31) + 8 * Utf8.utf16Length data ≤ s.writer.numBits →
      Delivers (serializeString data)
        (deserializeString Utf8.decode : ReadProc UIntArray Unit (List Char)) s ()
        (fun text _ => text = data) := by
  intro h
  obtain ⟨s, -, hrep, hcap⟩ := exists_twoWords
  have hroom : nextByte (([] : List Bool).length + 31) +
      8 * Utf8.utf16Length [Char.ofNat 0xE9] ≤ s.writer.numBits := by
    rw [hcap]
    decide
  have hback := (delivers_text_iff hrep hroom).mp (h _ s [] hrep hroom)
  revert hback
  decide

end CSharp

end RudpNetwork
