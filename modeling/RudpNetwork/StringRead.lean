import RudpNetwork.IntegerRange

/-!
# RudpNetwork.StringRead

`serialize_string` in read mode over any data: `serializeString_inBounds` says
when it accepts, and that what it stores ends at the terminator, inside the
buffer.

The length is a number of the sender's choice, and most widths leave room for
numbers above `buffer_size - 1`. The range check, the padding and the end of the
data are each tested before the first byte is stored.

## Main results

* `serializeString_inBounds` — what is accepted, and that the array is not left.
-/

namespace RudpNetwork

open MachineInt
open ReadStream (onStream onStream_run assign locals)

/-! ## the field -/

/-- The number of bits of the length. -/
def lengthBits (bufferSize : Int) : Nat :=
  (bitsRequired (toU32 0) (toU32 (bufferSize - 1))).toNat

/-- What stands in the bits of the length. -/
def sentLength (B : List Bool) (pos : Nat) (bufferSize : Int) : Nat :=
  Bits.toNat (Bits.slice B pos (lengthBits bufferSize))

/-- The number of bits from the length to the next byte. -/
def sentPadding (pos : Nat) (bufferSize : Int) : Nat := (8 - (pos + lengthBits bufferSize) % 8) % 8

/-- Where the characters start. -/
def sentStart (pos : Nat) (bufferSize : Int) : Nat :=
  pos + lengthBits bufferSize + sentPadding pos bufferSize

/-- At bit `pos` of the `limit` bits of `B` there is a string for a buffer of
`bufferSize`: a length that leaves room for the terminator, padding of zeros, and as
many bytes. -/
structure StringAt (B : List Bool) (limit : Int) (pos : Nat) (bufferSize : Int) : Prop where
  length_there : pos + lengthBits bufferSize ≤ limit
  length_le : sentLength B pos bufferSize ≤ bufferSize - 1
  padding_there : sentStart pos bufferSize ≤ limit
  padding_zero :
    Bits.toNat (Bits.slice B (pos + lengthBits bufferSize) (sentPadding pos bufferSize)) = 0
  bytes_there : sentStart pos bufferSize + 8 * sentLength B pos bufferSize ≤ limit

/-- `chars` are the bytes of the string at bit `pos`. -/
structure SentChars (B : List Bool) (pos : Nat) (bufferSize : Int) (chars : List U8) : Prop where
  length_eq : chars.length = sentLength B pos bufferSize
  bits : Bits.ofList chars =
    Bits.slice B (sentStart pos bufferSize) (8 * sentLength B pos bufferSize)

/-- The width of the length: 1 to 31 bits. -/
theorem lengthBits_spec {bufferSize : Int} (hint : IsInt32 bufferSize) (h2 : 2 ≤ bufferSize) :
    0 < lengthBits bufferSize ∧ lengthBits bufferSize ≤ 31 ∧
      bitsRequired (toU32 0) (toU32 (bufferSize - 1)) = lengthBits bufferSize ∧
      bufferSize - 1 < 2 ^ lengthBits bufferSize := by
  obtain ⟨-, hint2⟩ := hint
  obtain ⟨b, hb, hb1, -, hrange, hlow⟩ := @bitsRequired_bounds 0 (bufferSize - 1)
    ⟨by decide, by decide⟩ ⟨by omega, by omega⟩ (by omega)
  obtain rfl : lengthBits bufferSize = b := by rw [lengthBits, hb, Int.toNat_natCast]
  refine ⟨by omega, ?_, hb, by omega⟩
  by_contra hwide
  have hpow : 2 ^ 31 ≤ 2 ^ (lengthBits bufferSize - 1) :=
    Nat.pow_le_pow_right (by decide) (by omega)
  have hcast : ((2 ^ 31 : Nat) : Int) ≤ ((2 ^ (lengthBits bufferSize - 1) : Nat) : Int) :=
    Int.ofNat_le.mpr hpow
  push_cast at hcast
  omega

/-- A length in the range fits its bits. -/
theorem lt_pow_lengthBits {bufferSize : Int} (hint : IsInt32 bufferSize) (h2 : 2 ≤ bufferSize)
    {length : Nat} (h : length ≤ bufferSize - 1) : length < 2 ^ lengthBits bufferSize := by
  obtain ⟨-, -, -, hrange⟩ := lengthBits_spec hint h2
  have hcast : (length : Int) < ((2 ^ lengthBits bufferSize : Nat) : Int) := by
    push_cast
    omega
  exact Int.ofNat_lt.mp hcast

/-- Up to 31 bits are read as the number that stands in them. -/
theorem int32_toInt_slice {value : U32} {B : List Bool} {pos width : Nat} (hwidth : width ≤ 31)
    (hvalue : value.toNat = Bits.toNat (Bits.slice B pos width)) :
    int32 (value.toInt + 0) = Bits.toNat (Bits.slice B pos width) := by
  have hlt := Bits.toNat_slice_lt B pos hwidth
  rw [BitVec.toInt_eq_toNat_cond, if_pos (by omega), hvalue, int32_eq ⟨by omega, by omega⟩]
  omega

variable {β τ : Type} [Platform β]

namespace Reading

/-! ## `serialize_string` behind its length -/

/-- The rest of `serialize_string`, with the length that was read. -/
def restOfString (string : τ → List U8) (store : List U8 → τ → τ) (max length : Int) :
    ReadProc β τ Unit := do
  checkRange length 0 max
  let o ← locals
  let chars ← onStream (ReadStream.serializeBytes (string o) length)
  let chars ← writeArray chars length [0]
  assign (store chars)

/-- The macro reads the length first. -/
theorem serializeString_run {string : τ → List U8} {store : List U8 → τ → τ} {bufferSize : Int}
    (hint : IsInt32 bufferSize) (h2 : 2 ≤ bufferSize) {s s₁ : ReadStream β} {o : τ}
    {length : Option Int}
    (hread : ReadStream.serializeInteger 0 (bufferSize - 1) s = .ok (length, s₁)) :
    (serializeString string store bufferSize : ReadProc β τ Unit) (s, o) =
      match length with
      | none => .ok (none, s₁, o)
      | some length => restOfString string store (bufferSize - 1) length (s₁, o) := by
  obtain ⟨-, hint2⟩ := hint
  have hmax : int32 (bufferSize - 1) = bufferSize - 1 := int32_eq ⟨by omega, by omega⟩
  rw [serializeString, hmax]
  refine (Proc.require_bind_run (by omega)).trans ?_
  cases length with
  | none => exact Proc.bind_run_none (onStream_run hread)
  | some length => exact Proc.bind_run_some (onStream_run hread)

/-- A length beyond the buffer is refused before the first byte. -/
theorem restOfString_outOfRange {string : τ → List U8} {store : List U8 → τ → τ}
    {max length : Int} (hrange : max < length) (s : ReadStream β) (o : τ) :
    (restOfString string store max length : ReadProc β τ Unit) (s, o) = .ok (none, s, o) := by
  have hcheck : (checkRange length 0 max : ReadProc β τ Unit) (s, o) = .ok (none, s, o) := by
    rw [checkRange, if_pos (.inr hrange)]
    rfl
  exact Proc.bind_run_none hcheck

/-- A length in the range goes on with the bytes. -/
theorem restOfString_bytes {string : τ → List U8} {store : List U8 → τ → τ} {max length : Int}
    (h0 : 0 ≤ length) (hmax : length ≤ max) {s s₁ : ReadStream β} {o : τ}
    {stored : Option (List U8)}
    (hbytes : ReadStream.serializeBytes (string o) length s = .ok (stored, s₁)) :
    (restOfString string store max length : ReadProc β τ Unit) (s, o) =
      match stored with
      | none => .ok (none, s₁, o)
      | some chars => (do
          let chars ← writeArray chars length [0]
          assign (store chars) : ReadProc β τ Unit) (s₁, o) := by
  have hcheck : (checkRange length 0 max : ReadProc β τ Unit) (s, o) = .ok (some (), s, o) := by
    rw [checkRange, if_neg (by omega)]
    rfl
  have hlocals : (locals : ReadProc β τ τ) (s, o) = .ok (some o, s, o) := rfl
  rw [restOfString]
  refine (Proc.bind_run_some hcheck).trans ((Proc.bind_run_some hlocals).trans ?_)
  cases stored with
  | none => exact Proc.bind_run_none (onStream_run hbytes)
  | some chars => exact Proc.bind_run_some (onStream_run hbytes)

/-! ## the reads of `serialize_string` -/

section Reads

variable {s : ReadStream β} {B : List Bool} {N : Int} {pos : Nat} {bufferSize : Int}

/-- The length that the sender chose. -/
theorem serializeInteger_sentLength (hs : s.reader.At B N pos) (hint : IsInt32 bufferSize)
    (h2 : 2 ≤ bufferSize) (hfit : pos + lengthBits bufferSize ≤ N) :
    ∃ s₁, ReadStream.serializeInteger 0 (bufferSize - 1) s =
        .ok (some (sentLength B pos bufferSize : Int), s₁) ∧
      s₁.reader.At B N (pos + lengthBits bufferSize) := by
  obtain ⟨-, hwidth, hb, -⟩ := lengthBits_spec hint h2
  obtain ⟨-, hint2⟩ := hint
  obtain ⟨value, r, hrun, hvalue, hr⟩ := @ReadStream.serializeInteger_eq β _ s B N pos hs 0
    (bufferSize - 1) ⟨by decide, by decide⟩ ⟨by omega, by omega⟩ (by omega) _ hb hfit
  rw [int32_toInt_slice hwidth hvalue] at hrun
  exact ⟨_, hrun, hr⟩

/-- Zero padding passes. -/
theorem serializeAlign_zeros (hs : s.reader.At B N pos)
    (hfit : (pos + ((8 - pos % 8) % 8 : Nat) : Int) ≤ N)
    (hzero : Bits.toNat (Bits.slice B pos ((8 - pos % 8) % 8)) = 0) :
    ∃ s₁, ReadStream.serializeAlign s = .ok (some (), s₁) ∧
      s₁.reader.At B N (pos + (8 - pos % 8) % 8) := by
  obtain ⟨r, hr, halign⟩ := ReadStream.serializeAlign_eq hs hfit
  rw [if_pos hzero] at halign
  exact ⟨_, halign, hr⟩

/-- Padding that is not zero, or not there, fails before the first byte. -/
theorem serializeBytes_unpadded {data : List U8} {bytes : Int} (hs : s.reader.At B N pos)
    (hsmall : pos + ((8 - pos % 8) % 8 : Nat) < 2147483648)
    (h : ¬(pos + ((8 - pos % 8) % 8 : Nat) ≤ N ∧
      Bits.toNat (Bits.slice B pos ((8 - pos % 8) % 8)) = 0)) :
    ∃ s₁, ReadStream.serializeBytes data bytes s = .ok (none, s₁) := by
  by_cases hfit : (pos + ((8 - pos % 8) % 8 : Nat) : Int) ≤ N
  · obtain ⟨r, -, halign⟩ := ReadStream.serializeAlign_eq hs hfit
    rw [if_neg fun hzero => h ⟨hfit, hzero⟩] at halign
    exact ⟨_, Proc.bind_run_none halign⟩
  · have halign := ReadStream.serializeAlign_full hs (by omega) (by omega)
    exact ⟨_, Proc.bind_run_none halign⟩

/-- Bytes that are not there, behind padding or not, are not stored. -/
theorem serializeBytes_missing {data : List U8} {bytes : Nat} (hs : s.reader.At B N pos)
    (hsmall : pos + ((8 - pos % 8) % 8 : Nat) + 8 * bytes < 2147483648)
    (hmissing : N < pos + ((8 - pos % 8) % 8 : Nat) + 8 * bytes) :
    ∃ s₁, ReadStream.serializeBytes data bytes s = .ok (none, s₁) := by
  by_cases hpad : pos + ((8 - pos % 8) % 8 : Nat) ≤ N ∧
    Bits.toNat (Bits.slice B pos ((8 - pos % 8) % 8)) = 0
  · obtain ⟨s₁, halign, hat₁⟩ := serializeAlign_zeros hs hpad.1 hpad.2
    exact ⟨_, ReadStream.serializeBytes_full halign hat₁ (by omega) (by push_cast; omega)
      (by push_cast; omega)⟩
  · exact serializeBytes_unpadded hs (by omega) hpad

/-- A string for the buffer is accepted: its characters and a terminator are stored at
the start of the array. -/
theorem serializeString_accepts {string : τ → List U8} {store : List U8 → τ → τ} {o : τ}
    (hs : s.reader.At B N pos) (hint : IsInt32 bufferSize) (h2 : 2 ≤ bufferSize)
    (hthere : StringAt B N pos bufferSize) (harray : bufferSize ≤ (string o).length) :
    ∃ chars s', (serializeString string store bufferSize : ReadProc β τ Unit) (s, o) =
        .ok (some (), s', store (Bits.splice (string o) 0 (chars ++ [0])) o) ∧
      SentChars B pos bufferSize chars := by
  obtain ⟨hlengthFits, hmax, hpadFits, hzero, hfit⟩ := hthere
  obtain ⟨s₁, hread, hat₁⟩ := serializeInteger_sentLength hs hint h2 hlengthFits
  obtain ⟨s₂, halign, hat₂⟩ := serializeAlign_zeros hat₁ (by
    rw [sentStart, sentPadding] at hpadFits
    push_cast at hpadFits ⊢
    exact hpadFits) hzero
  -- the position is now that of the first character
  have haligned : sentStart pos bufferSize % 8 = 0 := by
    rw [sentStart, sentPadding]
    omega
  obtain ⟨chars, r', hbytes, hbits, hlen, -⟩ := @ReadStream.serializeBytes_ok β _ s₁ s₂ B N
    (sentStart pos bufferSize) (string o) (sentLength B pos bufferSize) halign hat₂ haligned
    (by omega) hfit (by omega)
  rw [Int.toNat_natCast] at hbits hlen
  have hstored : (Bits.splice (string o) 0 chars).length = (string o).length :=
    Bits.length_splice (by omega)
  have hterminate : writeArray (Bits.splice (string o) 0 chars)
      (sentLength B pos bufferSize : Int) [0] = .ok (Bits.splice (string o) 0 (chars ++ [0])) := by
    have htouch := @Bits.splice_splice _ (string o) chars [0] 0 (by omega)
    rw [Nat.zero_add] at htouch
    rw [writeArray_eq_ok (by omega) (by rw [List.length_singleton]; omega), Int.toNat_natCast,
      ← hlen, htouch]
  have hrest := @restOfString_bytes β τ _ string store _ _ (by omega) hmax _ _ o _ hbytes
  have hrun := @serializeString_run β τ _ string store bufferSize hint h2 _ _ o _ hread
  exact ⟨chars, _, hrun.trans (hrest.trans (Proc.lift_bind_run hterminate)), hlen, hbits⟩

/-- Anything else is refused, and the caller's variables are as they were. -/
theorem serializeString_refuses {string : τ → List U8} {store : List U8 → τ → τ} {o : τ}
    (hs : s.reader.At B N pos) (hN : N ≤ 1073741816) (hpos : pos ≤ N) (h2 : 2 ≤ bufferSize)
    (hsize : bufferSize < 134217728) (hthere : ¬StringAt B N pos bufferSize) :
    ∃ s', (serializeString string store bufferSize : ReadProc β τ Unit) (s, o) =
      .ok (none, s', o) := by
  have hint : IsInt32 bufferSize := ⟨by omega, by omega⟩
  obtain ⟨-, hwidth, hb, -⟩ := lengthBits_spec hint h2
  by_cases hlengthFits : pos + lengthBits bufferSize ≤ N
  · obtain ⟨s₁, hread, hat₁⟩ := serializeInteger_sentLength hs hint h2 hlengthFits
    rw [serializeString_run hint h2 hread]
    by_cases hmax : sentLength B pos bufferSize ≤ bufferSize - 1
    · by_cases hpad : sentStart pos bufferSize ≤ N ∧
        Bits.toNat (Bits.slice B (pos + lengthBits bufferSize) (sentPadding pos bufferSize)) = 0
      · -- the bytes are missing
        have hmissing : ¬(sentStart pos bufferSize + 8 * sentLength B pos bufferSize : Int) ≤ N :=
          fun hfit => hthere ⟨hlengthFits, hmax, hpad.1, hpad.2, hfit⟩
        rw [sentStart, sentPadding] at hmissing
        obtain ⟨s₂, hbytes⟩ := @serializeBytes_missing β _ s₁ B N _ (string o)
          (sentLength B pos bufferSize) hat₁ (by omega)
          (by push_cast at hmissing ⊢; omega)
        exact ⟨_, restOfString_bytes (by omega) hmax hbytes⟩
      · rw [sentStart, sentPadding] at hpad
        push_cast at hpad
        obtain ⟨s₂, hbytes⟩ := @serializeBytes_unpadded β _ s₁ B N _ (string o)
          (sentLength B pos bufferSize) hat₁ (by omega) (by push_cast; exact hpad)
        exact ⟨_, restOfString_bytes (by omega) hmax hbytes⟩
    · exact ⟨_, restOfString_outOfRange (by omega) s₁ o⟩
  · have hread := @ReadStream.serializeInteger_full β _ s B N pos hs 0 (bufferSize - 1)
      ⟨by decide, by decide⟩ ⟨by omega, by omega⟩ (by omega) _ hb (by omega) (by omega)
    exact ⟨_, serializeString_run hint h2 hread⟩

end Reads

/-- Over any data, the array changes only up to the terminator of an accepted string,
which lies inside the buffer. -/
theorem serializeString_inBounds {s : ReadStream β} {B : List Bool} {n pos : Nat}
    (hs : s.reader.At B (8 * n : Nat) pos) (hn : n < 2 ^ 27) (hpos : pos ≤ 8 * n)
    {bufferSize : Int} (h2 : 2 ≤ bufferSize) (hsize : bufferSize < 2 ^ 27) {array : List U8}
    (harray : bufferSize ≤ array.length) :
    ∃ result s' array', (serializeString id (fun array _ => array) bufferSize :
        ReadProc β (List U8) Unit) (s, array) = .ok (result, s', array') ∧
      array'.length = array.length ∧ array'.drop bufferSize.toNat = array.drop bufferSize.toNat ∧
      (StringAt B (8 * n : Nat) pos bufferSize → result = some () ∧
        ∃ chars, SentChars B pos bufferSize chars ∧ chars.length ≤ bufferSize - 1 ∧
          array' = Bits.splice array 0 (chars ++ [0])) ∧
      (¬StringAt B (8 * n : Nat) pos bufferSize → result = none ∧ array' = array) := by
  by_cases hthere : StringAt B (8 * n : Nat) pos bufferSize
  · obtain ⟨chars, s', hrun, hchars⟩ := @serializeString_accepts β _ _ s B _ pos
      bufferSize id (fun array _ => array) array hs ⟨by omega, by omega⟩ h2 hthere harray
    have hlen := hchars.length_eq
    have hmax := hthere.length_le
    have hfits : 0 + (chars ++ [0]).length ≤ array.length := by
      rw [List.length_append, List.length_singleton]
      omega
    have hbehind : (0 + (chars ++ [0]).length) ≤ bufferSize.toNat := by
      rw [List.length_append, List.length_singleton]
      omega
    refine ⟨_, s', _, hrun, Bits.length_splice hfits, ?_, fun _ => ⟨rfl, chars, hchars, by omega, rfl⟩,
      fun h => absurd hthere h⟩
    obtain ⟨k, hk⟩ := Nat.exists_eq_add_of_le hbehind
    rw [hk, ← List.drop_drop]
    exact (congrArg (List.drop k) (Bits.drop_splice hfits)).trans List.drop_drop
  · obtain ⟨s', hrun⟩ := @serializeString_refuses β _ _ s B _ pos bufferSize id
      (fun array _ => array) array hs (by omega) (by omega) h2 (by omega) hthere
    exact ⟨_, s', _, hrun, rfl, rfl, fun h => absurd h hthere, fun _ => ⟨rfl, rfl⟩⟩

/-- One letter in an array of three. -/
theorem serializeString_inBounds_letter :
    ∃ result s' array', (serializeString id (fun array _ => array) 2 :
        ReadProc Memory (List U8) Unit) (ReadStream.init [1, 97, 0, 0] 4, [7, 7, 7]) =
          .ok (result, s', array') ∧ array'.length = 3 ∧ array'.drop 2 = [7] := by
  have hat := @ReadStream.init_at Memory _ [1, 97, 0, 0] 4 (by decide) (by decide) (by decide)
  obtain ⟨result, s', array', hrun, hlen, hdrop, -⟩ :=
    @serializeString_inBounds Memory _ _ _ 4 0 hat.reader
    (by decide) (by decide) 2 (by decide) (by decide) [7, 7, 7] (by decide)
  exact ⟨result, s', array', hrun, hlen, hdrop⟩

end Reading

end RudpNetwork
