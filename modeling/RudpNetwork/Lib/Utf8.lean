import Mathlib.Algebra.GroupWithZero.Nat
import Mathlib.Data.Char

/-!
# RudpNetwork.Lib.Utf8

UTF-8 as bytes, and a decoder that never fails.  What is not well formed is
replaced by U+FFFD, one for each longest part that could have started a
character, as text libraries do.

`decode_encode` is the round trip.  `decode_cut` says what becomes of a text
that ends inside a character: one U+FFFD stands for the part that is left.

## Main results

* `decode_encode` — the round trip.
* `decode_cut` — a text that ends inside a character.
* `utf16Length_eq_iff`, `length_decode_of_ascii` — the texts with as many bytes as units.
-/

namespace Utf8

/-! ## encoding -/

/-- The bytes of a character. -/
def encodeChar (c : Char) : List (BitVec 8) := (String.utf8EncodeChar c).map UInt8.toBitVec

def encode (chars : List Char) : List (BitVec 8) := chars.flatMap encodeChar

/-- The number of 16-bit units of a text in UTF-16. -/
def utf16Length (chars : List Char) : Nat :=
  (chars.map fun c => if c.toNat < 0x10000 then 1 else 2).sum

def IsAscii (c : Char) : Prop := c.toNat < 0x80

instance (c : Char) : Decidable (IsAscii c) := inferInstanceAs (Decidable (_ < _))

/-! ## decoding -/

/-- U+FFFD. -/
def replacement : Char := Char.ofNat 0xFFFD

/-- A decoder between two bytes: how many bytes the character still needs, the range
of the next one, and the bits so far. -/
structure State where
  needed : Nat
  lower : Nat
  upper : Nat
  code : Nat
  deriving DecidableEq

/-- Between characters. -/
def start : State := { needed := 0, lower := 0x80, upper := 0xBF, code := 0 }

/-- The first byte of a character. -/
def lead (b : Nat) : List Char × State :=
  if b ≤ 0x7F then ([Char.ofNat b], start)
  else if 0xC2 ≤ b ∧ b ≤ 0xDF then
    ([], { needed := 1, lower := 0x80, upper := 0xBF, code := b - 0xC0 })
  else if 0xE0 ≤ b ∧ b ≤ 0xEF then
    ([], { needed := 2, lower := if b = 0xE0 then 0xA0 else 0x80,
           upper := if b = 0xED then 0x9F else 0xBF, code := b - 0xE0 })
  else if 0xF0 ≤ b ∧ b ≤ 0xF4 then
    ([], { needed := 3, lower := if b = 0xF0 then 0x90 else 0x80,
           upper := if b = 0xF4 then 0x8F else 0xBF, code := b - 0xF0 })
  else ([replacement], start)

/-- The character with the number `n`, if there is one. -/
def ofCode (n : Nat) : Char :=
  if n < 0xD800 ∨ 0xDFFF < n ∧ n < 0x110000 then Char.ofNat n else replacement

/-- After one more byte of a character. -/
def State.next (s : State) (b : Nat) : State :=
  { needed := s.needed - 1, lower := 0x80, upper := 0xBF, code := s.code * 64 + (b - 0x80) }

/-- One byte. A byte out of range ends the character and may start the next. -/
def step (s : State) (b : Nat) : List Char × State :=
  if s.needed = 0 then lead b
  else if s.lower ≤ b ∧ b ≤ s.upper then
    if s.needed = 1 then ([ofCode (s.next b).code], start) else ([], s.next b)
  else
    let (chars, s') := lead b
    (replacement :: chars, s')

/-- The end of the text. -/
def finish (s : State) : List Char := if s.needed = 0 then [] else [replacement]

def run (s : State) : List Nat → List Char
  | [] => finish s
  | b :: bs => (step s b).1 ++ run (step s b).2 bs

def decode (bytes : List (BitVec 8)) : List Char := run start (bytes.map BitVec.toNat)

/-! ## the bytes of a character as numbers -/

/-- The bytes of the character with the number `v`. -/
def units (v : Nat) : List Nat :=
  if v ≤ 0x7F then [v]
  else if v ≤ 0x7FF then [v / 64 + 0xC0, v % 64 + 0x80]
  else if v ≤ 0xFFFF then [v / 4096 + 0xE0, v / 64 % 64 + 0x80, v % 64 + 0x80]
  else [v / 262144 + 0xF0, v / 4096 % 64 + 0x80, v / 64 % 64 + 0x80, v % 64 + 0x80]

/-- A character is a code point that is no surrogate. -/
theorem toNat_bounds (c : Char) : c.toNat < 0x110000 ∧ ¬(0xD800 ≤ c.toNat ∧ c.toNat ≤ 0xDFFF) := by
  rcases c.valid with h | ⟨h, h'⟩
  · have hlt : c.toNat < 0xD800 := h
    omega
  · have hlo : 0xDFFF < c.toNat := h
    have hhi : c.toNat < 0x110000 := h'
    omega

/-- The bytes of a character, as numbers. -/
theorem map_toNat_encodeChar (c : Char) : (encodeChar c).map BitVec.toNat = units c.toNat := by
  obtain ⟨hlt, -⟩ := toNat_bounds c
  have hval : c.val.toNat = c.toNat := rfl
  have hbyte : ∀ n, n < 256 → (UInt8.ofNat n).toBitVec.toNat = n := by
    intro n hn
    change (UInt8.ofNat n).toNat = n
    rw [UInt8.toNat_ofNat', Nat.mod_eq_of_lt (by omega)]
  rw [encodeChar, List.map_map, String.utf8EncodeChar, hval, units]
  by_cases h1 : c.toNat ≤ 0x7F
  · rw [if_pos h1, if_pos h1]
    simp only [List.map_cons, List.map_nil, Function.comp_apply]
    rw [hbyte _ (by omega)]
  by_cases h2 : c.toNat ≤ 0x7FF
  · rw [if_neg h1, if_pos h2, if_neg h1, if_pos h2]
    simp only [List.map_cons, List.map_nil, Function.comp_apply]
    rw [hbyte _ (by omega), hbyte _ (by omega), @Nat.mod_eq_of_lt _ 0x20 (by omega)]
  by_cases h3 : c.toNat ≤ 0xFFFF
  · rw [if_neg h1, if_neg h2, if_pos h3, if_neg h1, if_neg h2, if_pos h3]
    simp only [List.map_cons, List.map_nil, Function.comp_apply]
    rw [hbyte _ (by omega), hbyte _ (by omega), hbyte _ (by omega),
      @Nat.mod_eq_of_lt _ 0x10 (by omega)]
  · rw [if_neg h1, if_neg h2, if_neg h3, if_neg h1, if_neg h2, if_neg h3]
    simp only [List.map_cons, List.map_nil, Function.comp_apply]
    rw [hbyte _ (by omega), hbyte _ (by omega), hbyte _ (by omega), hbyte _ (by omega),
      @Nat.mod_eq_of_lt _ 0x08 (by omega)]

theorem length_encodeChar (c : Char) : (encodeChar c).length = (units c.toNat).length := by
  rw [← map_toNat_encodeChar, List.length_map]

/-- A text is encoded part by part. -/
theorem encode_append (l r : List Char) : encode (l ++ r) = encode l ++ encode r := by
  simp [encode]

theorem encode_cons (c : Char) (chars : List Char) :
    encode (c :: chars) = encodeChar c ++ encode chars := rfl

/-! ## one step -/

theorem run_cons (s : State) (b : Nat) (bs : List Nat) :
    run s (b :: bs) = (step s b).1 ++ run (step s b).2 bs := rfl

theorem step_start (b : Nat) : step start b = lead b := rfl

/-- A byte below `0x80` is a character of its own. -/
theorem lead_one {b : Nat} (h : b ≤ 0x7F) : lead b = ([Char.ofNat b], start) := if_pos h

/-- The first byte of two. -/
theorem lead_two {b : Nat} (hlo : 0xC2 ≤ b) (hhi : b ≤ 0xDF) :
    lead b = ([], { needed := 1, lower := 0x80, upper := 0xBF, code := b - 0xC0 }) := by
  rw [lead, if_neg (by omega), if_pos ⟨hlo, hhi⟩]

/-- The first byte of three; two of them narrow the second byte. -/
theorem lead_three {b : Nat} (hlo : 0xE0 ≤ b) (hhi : b ≤ 0xEF) :
    lead b = ([], { needed := 2, lower := if b = 0xE0 then 0xA0 else 0x80,
                    upper := if b = 0xED then 0x9F else 0xBF, code := b - 0xE0 }) := by
  rw [lead, if_neg (by omega), if_neg (by omega), if_pos ⟨hlo, hhi⟩]

/-- The first byte of four; two of them narrow the second byte. -/
theorem lead_four {b : Nat} (hlo : 0xF0 ≤ b) (hhi : b ≤ 0xF4) :
    lead b = ([], { needed := 3, lower := if b = 0xF0 then 0x90 else 0x80,
                    upper := if b = 0xF4 then 0x8F else 0xBF, code := b - 0xF0 }) := by
  rw [lead, if_neg (by omega), if_neg (by omega), if_neg (by omega), if_pos ⟨hlo, hhi⟩]

/-- A byte in range, with more to come. -/
theorem step_next {n lower upper code b : Nat} (hlo : lower ≤ b) (hhi : b ≤ upper) :
    step { needed := n + 2, lower, upper, code } b =
      ([], { needed := n + 1, lower := 0x80, upper := 0xBF, code := code * 64 + (b - 0x80) }) := by
  rw [step, if_neg (by simp), if_pos ⟨hlo, hhi⟩, if_neg (by simp)]
  rfl

/-- The last byte of a character. -/
theorem step_last {lower upper code b : Nat} (hlo : lower ≤ b) (hhi : b ≤ upper) :
    step { needed := 1, lower, upper, code } b =
      ([ofCode (code * 64 + (b - 0x80))], start) := by
  rw [step, if_neg (by simp), if_pos ⟨hlo, hhi⟩, if_pos rfl]
  rfl

/-! ## characters that are there, and one that is cut -/

/-- A whole character at the start is the character. -/
theorem run_units {v : Nat} (hlt : v < 0x110000) (hvalid : ¬(0xD800 ≤ v ∧ v ≤ 0xDFFF))
    (bs : List Nat) : run start (units v ++ bs) = Char.ofNat v :: run start bs := by
  have hchar : ofCode v = Char.ofNat v := if_pos (by omega)
  rw [← hchar]
  unfold units
  split
  · next h1 =>
      rw [List.singleton_append, run_cons, step_start, lead_one h1, List.singleton_append, hchar]
  · split
    · next h2 =>
        have hcode : (v / 64 + 0xC0 - 0xC0) * 64 + (v % 64 + 0x80 - 0x80) = v := by omega
        simp only [List.cons_append, List.nil_append]
        rw [run_cons, step_start, lead_two (by omega) (by omega), run_cons,
          step_last (by omega) (by omega), hcode]
        rfl
    · split
      · next h3 =>
          have hcode : ((v / 4096 + 0xE0 - 0xE0) * 64 + (v / 64 % 64 + 0x80 - 0x80)) * 64 +
              (v % 64 + 0x80 - 0x80) = v := by omega
          simp only [List.cons_append, List.nil_append]
          rw [run_cons, step_start, lead_three (by omega) (by omega), run_cons,
            step_next (by split <;> omega) (by split <;> omega), run_cons,
            step_last (by omega) (by omega), hcode]
          rfl
      · next h3 =>
          have hcode : (((v / 262144 + 0xF0 - 0xF0) * 64 + (v / 4096 % 64 + 0x80 - 0x80)) * 64 +
              (v / 64 % 64 + 0x80 - 0x80)) * 64 + (v % 64 + 0x80 - 0x80) = v := by omega
          simp only [List.cons_append, List.nil_append]
          rw [run_cons, step_start, lead_four (by omega) (by omega), run_cons,
            step_next (by split <;> omega) (by split <;> omega), run_cons,
            step_next (by omega) (by omega), run_cons, step_last (by omega) (by omega), hcode]
          rfl

/-- A proper part of a character is one U+FFFD. -/
theorem run_cut {v : Nat} (hlt : v < 0x110000) (hvalid : ¬(0xD800 ≤ v ∧ v ≤ 0xDFFF)) {k : Nat}
    (h0 : 0 < k) (hk : k < (units v).length) : run start ((units v).take k) = [replacement] := by
  revert hk
  unfold units
  split
  · intro hk
    simp at hk
    omega
  · split
    · next h2 =>
        intro hk
        obtain rfl : k = 1 := by simp at hk; omega
        change run start [v / 64 + 0xC0] = _
        rw [run_cons, step_start, lead_two (by omega) (by omega)]
        rfl
    · split
      · next h3 =>
          intro hk
          have hcases : k = 1 ∨ k = 2 := by simp at hk; omega
          rcases hcases with rfl | rfl
          · change run start [v / 4096 + 0xE0] = _
            rw [run_cons, step_start, lead_three (by omega) (by omega)]
            rfl
          · change run start [v / 4096 + 0xE0, v / 64 % 64 + 0x80] = _
            rw [run_cons, step_start, lead_three (by omega) (by omega), run_cons,
              step_next (by split <;> omega) (by split <;> omega)]
            rfl
      · next h3 =>
          intro hk
          have hcases : k = 1 ∨ k = 2 ∨ k = 3 := by simp at hk; omega
          rcases hcases with rfl | rfl | rfl
          · change run start [v / 262144 + 0xF0] = _
            rw [run_cons, step_start, lead_four (by omega) (by omega)]
            rfl
          · change run start [v / 262144 + 0xF0, v / 4096 % 64 + 0x80] = _
            rw [run_cons, step_start, lead_four (by omega) (by omega), run_cons,
              step_next (by split <;> omega) (by split <;> omega)]
            rfl
          · change run start [v / 262144 + 0xF0, v / 4096 % 64 + 0x80, v / 64 % 64 + 0x80] = _
            rw [run_cons, step_start, lead_four (by omega) (by omega), run_cons,
              step_next (by split <;> omega) (by split <;> omega), run_cons,
              step_next (by omega) (by omega)]
            rfl

/-! ## texts -/

/-- An encoded text in front is decoded first. -/
theorem decode_encode_append (chars : List Char) (bytes : List (BitVec 8)) :
    decode (encode chars ++ bytes) = chars ++ decode bytes := by
  induction chars with
  | nil => rfl
  | cons c chars ih =>
      obtain ⟨hlt, hvalid⟩ := toNat_bounds c
      rw [encode_cons, List.append_assoc, decode, List.map_append, map_toNat_encodeChar,
        run_units hlt hvalid, Char.ofNat_toNat]
      exact congrArg (c :: ·) ih

/-- The round trip. -/
theorem decode_encode (chars : List Char) : decode (encode chars) = chars := by
  have hall := decode_encode_append chars []
  rw [List.append_nil] at hall
  rw [hall]
  exact List.append_nil chars

/-- A text that ends inside the character `c`. -/
theorem decode_cut (chars : List Char) (c : Char) {k : Nat} (h0 : 0 < k)
    (hk : k < (encodeChar c).length) :
    decode (encode chars ++ (encodeChar c).take k) = chars ++ [replacement] := by
  obtain ⟨hlt, hvalid⟩ := toNat_bounds c
  rw [length_encodeChar] at hk
  rw [decode_encode_append, decode, List.map_take, map_toNat_encodeChar,
    run_cut hlt hvalid h0 hk]

/-- Bytes cut off a text leave whole characters and perhaps a part of one. -/
theorem exists_cut {chars : List Char} {n : Nat} (hn : n ≤ (encode chars).length) :
    (∃ t rest, chars = t ++ rest ∧ n = (encode t).length) ∨
      ∃ t c rest k, chars = t ++ c :: rest ∧ n = (encode t).length + k ∧ 0 < k ∧
        k < (encodeChar c).length := by
  induction chars generalizing n with
  | nil =>
      obtain rfl : n = 0 := Nat.le_zero.mp hn
      exact .inl ⟨[], [], rfl, rfl⟩
  | cons c chars ih =>
      rw [encode_cons, List.length_append] at hn
      by_cases hk : n < (encodeChar c).length
      · by_cases h0 : n = 0
        · exact .inl ⟨[], c :: chars, rfl, h0⟩
        · exact .inr ⟨[], c, chars, n, rfl, by simp [encode], by omega, hk⟩
      · rcases @ih (n - (encodeChar c).length) (by omega)
          with ⟨t, rest, rfl, ht⟩ | ⟨t, d, rest, k, rfl, ht, hk⟩
        · refine .inl ⟨c :: t, rest, rfl, ?_⟩
          rw [encode_cons, List.length_append]
          omega
        · refine .inr ⟨c :: t, d, rest, k, rfl, ?_, hk⟩
          rw [encode_cons, List.length_append]
          omega

/-- A cut behind a text leaves the text whole. -/
theorem take_encode_append (t rest : List Char) (k : Nat) :
    (encode (t ++ rest)).take ((encode t).length + k) = encode t ++ (encode rest).take k := by
  rw [encode_append, List.take_length_add_append]

/-! ## lengths -/

/-- The lengths of two texts add up. -/
theorem utf16Length_append (l r : List Char) :
    utf16Length (l ++ r) = utf16Length l + utf16Length r := by
  simp [utf16Length]

theorem utf16Length_cons (c : Char) (chars : List Char) :
    utf16Length (c :: chars) = (if c.toNat < 0x10000 then 1 else 2) + utf16Length chars := by
  simp [utf16Length]

/-- Only an ASCII character takes as many bytes as it takes 16-bit units. -/
theorem length_encodeChar_cases (c : Char) :
    IsAscii c ∧ c.toNat < 0x10000 ∧ (encodeChar c).length = 1 ∨
      ¬IsAscii c ∧ (if c.toNat < 0x10000 then 1 else 2) < (encodeChar c).length := by
  rw [length_encodeChar, IsAscii, units]
  by_cases h1 : c.toNat ≤ 0x7F
  · rw [if_pos h1]
    exact .inl ⟨by omega, by omega, rfl⟩
  by_cases h2 : c.toNat ≤ 0x7FF
  · rw [if_neg h1, if_pos h2, if_pos (by omega)]
    exact .inr ⟨by omega, by simp⟩
  by_cases h3 : c.toNat ≤ 0xFFFF
  · rw [if_neg h1, if_neg h2, if_pos h3, if_pos (by omega)]
    exact .inr ⟨by omega, by simp⟩
  · rw [if_neg h1, if_neg h2, if_neg h3, if_neg (by omega)]
    exact .inr ⟨by omega, by simp⟩

/-- No character has fewer bytes than UTF-16 units. -/
theorem utf16Length_le (chars : List Char) : utf16Length chars ≤ (encode chars).length := by
  induction chars with
  | nil => exact Nat.le_refl 0
  | cons c chars ih =>
      rw [utf16Length_cons, encode_cons, List.length_append]
      rcases length_encodeChar_cases c with ⟨-, hc, hlen⟩ | ⟨-, hlen⟩
      · rw [if_pos hc]
        omega
      · omega

/-- A text is all ASCII if and only if both lengths agree. -/
theorem utf16Length_eq_iff (chars : List Char) :
    utf16Length chars = (encode chars).length ↔ ∀ c ∈ chars, IsAscii c := by
  induction chars with
  | nil => simp [utf16Length, encode]
  | cons c chars ih =>
      have hle := utf16Length_le chars
      rw [utf16Length_cons, encode_cons, List.length_append, List.forall_mem_cons, ← ih]
      rcases length_encodeChar_cases c with ⟨hascii, hc, hlen⟩ | ⟨hascii, hlen⟩
      · rw [if_pos hc, hlen]
        exact ⟨fun h => ⟨hascii, by omega⟩, fun h => by omega⟩
      · exact ⟨fun h => by omega, fun h => absurd h.1 hascii⟩

/-- The bytes of an ASCII text are the numbers of its characters. -/
theorem encode_of_ascii {chars : List Char} (h : ∀ c ∈ chars, IsAscii c) :
    encode chars = chars.map fun c => BitVec.ofNat 8 c.toNat := by
  induction chars with
  | nil => rfl
  | cons c chars ih =>
      obtain ⟨hc, hrest⟩ := List.forall_mem_cons.mp h
      have hle : c.toNat ≤ 0x7F := Nat.le_of_lt_succ hc
      have hchar : encodeChar c = [BitVec.ofNat 8 c.toNat] := by
        have hunits := map_toNat_encodeChar c
        rw [units, if_pos hle] at hunits
        obtain ⟨b, hb, hval⟩ := List.map_eq_singleton_iff.mp hunits
        rw [hb, ← hval, BitVec.ofNat_toNat, BitVec.setWidth_eq]
      rw [encode_cons, hchar, ih hrest]
      rfl

/-! ## texts that can only come from their own bytes -/

/-- In the middle of a character: it will not be an ASCII character. -/
def Wide (s : State) : Prop :=
  0x80 ≤ s.lower ∧ 2 ≤ s.code * 64 + (s.lower - 0x80) ∧
    (s.needed = 1 → 0x80 ≤ s.code * 64 + (s.lower - 0x80))

/-- The replacement character is not ASCII. -/
theorem not_isAscii_replacement : ¬IsAscii replacement := by
  decide

/-- A code point from `0x80` on is not ASCII. -/
theorem not_isAscii_ofCode {n : Nat} (h : 0x80 ≤ n) : ¬IsAscii (ofCode n) := by
  unfold ofCode
  split
  · next hvalid =>
      have hnum : (Char.ofNat n).toNat = n := by
        have hchar : n.isValidChar := hvalid
        rw [Char.ofNat, dif_pos hchar]
        rfl
      rw [IsAscii, hnum]
      omega
  · exact not_isAscii_replacement

/-- A first byte is a character, begins one that is not ASCII, or is replaced. -/
theorem lead_cases (b : Nat) :
    (lead b = ([Char.ofNat b], start)) ∨ (∃ s, lead b = ([], s) ∧ s.needed ≠ 0 ∧ Wide s) ∨
      lead b = ([replacement], start) := by
  by_cases h1 : b ≤ 0x7F
  · exact .inl (lead_one h1)
  by_cases h2 : 0xC2 ≤ b ∧ b ≤ 0xDF
  · refine .inr (.inl ⟨_, lead_two h2.1 h2.2, by simp, ?_⟩)
    simp only [Wide]
    omega
  by_cases h3 : 0xE0 ≤ b ∧ b ≤ 0xEF
  · refine .inr (.inl ⟨_, lead_three h3.1 h3.2, by simp, ?_⟩)
    simp only [Wide]
    split <;> omega
  by_cases h4 : 0xF0 ≤ b ∧ b ≤ 0xF4
  · refine .inr (.inl ⟨_, lead_four h4.1 h4.2, by simp, ?_⟩)
    simp only [Wide]
    split <;> omega
  · exact .inr (.inr (by rw [lead, if_neg h1, if_neg h2, if_neg h3, if_neg h4]))

/-- An ASCII text has as many bytes as characters, whatever the bytes are. -/
theorem run_ascii {s : State} {bs : List Nat} (hs : s.needed = 0 ∨ Wide s)
    (h : ∀ c ∈ run s bs, IsAscii c) : s.needed = 0 ∧ (run s bs).length = bs.length := by
  induction bs generalizing s with
  | nil =>
      rw [run, finish] at h ⊢
      by_cases h0 : s.needed = 0
      · rw [if_pos h0]
        exact ⟨h0, rfl⟩
      · rw [if_neg h0, List.forall_mem_singleton] at h
        exact absurd h not_isAscii_replacement
  | cons b bs ih =>
      rw [run_cons] at h ⊢
      by_cases h0 : s.needed = 0
      · have hstep : step s b = lead b := if_pos h0
        rw [hstep] at h ⊢
        rcases lead_cases b with hlead | ⟨s', hlead, hne, hwide⟩ | hlead
        · rw [hlead] at h ⊢
          obtain ⟨-, hlen⟩ := ih (s := start) (.inl rfl) fun c hc => h c (List.mem_cons_of_mem _ hc)
          exact ⟨h0, by simp [hlen]⟩
        · rw [hlead] at h
          exact absurd (ih (s := s') (.inr hwide) h).1 hne
        · rw [hlead] at h
          exact absurd (h replacement (by simp)) not_isAscii_replacement
      · obtain ⟨hlower, htwo, hlast⟩ := hs.resolve_left h0
        by_cases hrange : s.lower ≤ b ∧ b ≤ s.upper
        · by_cases h1 : s.needed = 1
          · have hstep : step s b = ([ofCode (s.next b).code], start) := by
              rw [step, if_neg h0, if_pos hrange, if_pos h1]
            have hwide : 0x80 ≤ (s.next b).code := by
              have hlow := hlast h1
              simp only [State.next]
              omega
            rw [hstep] at h
            exact absurd (h _ List.mem_cons_self) (not_isAscii_ofCode hwide)
          · have hstep : step s b = ([], s.next b) := by
              rw [step, if_neg h0, if_pos hrange, if_neg h1]
            have hwide : Wide (s.next b) := by
              simp only [Wide, State.next]
              omega
            have hne : (s.next b).needed ≠ 0 := by
              simp only [State.next]
              omega
            rw [hstep] at h
            exact absurd (ih (.inr hwide) h).1 hne
        · have hstep : step s b = (replacement :: (lead b).1, (lead b).2) := by
            rw [step, if_neg h0, if_neg hrange]
          rw [hstep] at h
          exact absurd (h replacement (by simp)) not_isAscii_replacement

/-- Bytes that decode to ASCII are as many as their characters. -/
theorem length_decode_of_ascii {bytes : List (BitVec 8)} (h : ∀ c ∈ decode bytes, IsAscii c) :
    (decode bytes).length = bytes.length := by
  rw [decode, (run_ascii (.inl rfl) h).2, List.length_map]

end Utf8
