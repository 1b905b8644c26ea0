import Mathlib.Tactic.Ring

/-!
# RudpNetwork.Lib.Bits

Bit strings, least significant bit first.  A bit string is a `List Bool`;
`Bits.ofNat w n` is the string of the low `w` bits of `n`, `Bits.toNat` reads
a string back as a number.  Everything a bit packer does to a scratch register
(mask, shift, or) is an append, a take or a drop here, so the packers'
invariants can be stated about strings and never about numbers.

`Bits.ofList` is the string of a list of machine words and `Bits.pack` the
byte packing: bit `i` of the string is bit `i % 8` of byte `i / 8`, with zero
padding in the last byte.

## Main results

* `toNat_ofNat`, `toVec_ofVec`, `ofList_pack` — numbers, vectors and bytes as bit strings,
  and back.
* `slice_splice_self`, `slice_splice_left`, `slice_splice_right` — reading what was
  written, and what stays.
* `toNat_or_shift`, `toNat_and_mask`, `toNat_ushiftRight` — the scratch register of a
  packer, in terms of the bits that it holds.
-/

namespace Bits

/-! ## numbers and strings -/

/-- The low `w` bits of `n`. -/
def ofNat (w n : Nat) : List Bool := (List.range w).map n.testBit

/-- The number a bit string denotes. -/
def toNat : List Bool → Nat
  | [] => 0
  | b :: bs => b.toNat + 2 * toNat bs

@[simp] theorem length_ofNat (w n : Nat) : (ofNat w n).length = w := by
  simp [ofNat]

@[simp] theorem getElem_ofNat (w n i : Nat) (h : i < (ofNat w n).length) :
    (ofNat w n)[i] = n.testBit i := by
  simp [ofNat]

@[simp] theorem ofNat_zero_left (n : Nat) : ofNat 0 n = [] := rfl

/-- A wider string is the narrow one followed by the bits above it. -/
theorem ofNat_add (a b n : Nat) : ofNat (a + b) n = ofNat a n ++ ofNat b (n >>> a) := by
  simp only [ofNat, List.range_add, List.map_append, List.map_map]
  congr 1
  apply List.map_congr_left
  intro i _
  simp [Nat.testBit_shiftRight]

/-- The first bits of a number are those of the narrower width. -/
theorem take_ofNat {k w : Nat} (h : k ≤ w) (n : Nat) : (ofNat w n).take k = ofNat k n := by
  obtain ⟨m, rfl⟩ := Nat.exists_eq_add_of_le h
  rw [ofNat_add, List.take_append_of_le_length (by rw [length_ofNat]),
    List.take_of_length_le (by rw [length_ofNat])]

/-- Only the low `w` bits count. -/
theorem ofNat_congr {w m n : Nat} (h : ∀ i < w, m.testBit i = n.testBit i) :
    ofNat w m = ofNat w n := by
  apply List.map_congr_left
  intro i hi
  exact h i (List.mem_range.mp hi)

/-- Bits above the width do not matter. -/
theorem ofNat_mod {w k : Nat} (n : Nat) (h : w ≤ k) : ofNat w (n % 2 ^ k) = ofNat w n := by
  apply ofNat_congr
  intro i hi
  have hik : i < k := by omega
  simp [hik]

theorem ofNat_zero_right (w : Nat) : ofNat w 0 = List.replicate w false := by
  apply List.ext_getElem <;> simp

/-- Bit `i` of the number is element `i` of the string. -/
theorem testBit_toNat (l : List Bool) (i : Nat) : (toNat l).testBit i = l.getD i false := by
  induction l generalizing i with
  | nil => simp [toNat]
  | cons b bs ih =>
      cases i with
      | zero => cases b <;> simp [toNat, Nat.testBit_zero]
      | succ i =>
          have hdiv : (b.toNat + 2 * toNat bs) / 2 = toNat bs := by
            have := Bool.toNat_lt b
            omega
          rw [toNat, Nat.testBit_add_one, hdiv, ih]
          simp

/-- `n` bits are a number below `2 ^ n`. -/
theorem toNat_lt (l : List Bool) : toNat l < 2 ^ l.length := by
  induction l with
  | nil => simp [toNat]
  | cons b bs ih =>
      rw [toNat, List.length_cons, Nat.pow_succ]
      cases b <;> simp <;> omega

@[simp] theorem toNat_nil : toNat [] = 0 := rfl

/-- Reading back a written number keeps its low `w` bits. -/
theorem toNat_ofNat (w n : Nat) : toNat (ofNat w n) = n % 2 ^ w := by
  apply Nat.eq_of_testBit_eq
  intro i
  rw [testBit_toNat, Nat.testBit_mod_two_pow]
  by_cases h : i < w
  · simp [h, List.getD_eq_getElem?_getD]
  · simp [h, List.getD_eq_getElem?_getD]

/-- The first `n` elements of a string are the low `n` bits of its number. -/
theorem ofNat_toNat {n : Nat} (l : List Bool) (h : n ≤ l.length) :
    ofNat n (toNat l) = l.take n := by
  apply List.ext_getElem
  · simp [h]
  · intro i hi _
    simp only [length_ofNat] at hi
    have hil : i < l.length := by omega
    simp [testBit_toNat, List.getD_eq_getElem?_getD, hil]

/-- Bits are the bits of their number. -/
theorem ofNat_length_toNat (l : List Bool) : ofNat l.length (toNat l) = l := by
  rw [ofNat_toNat l (le_refl _), List.take_length]

/-- Concatenation is `or` with a shift: the scratch register of a bit packer. -/
theorem toNat_append (l r : List Bool) :
    toNat (l ++ r) = toNat l ||| toNat r <<< l.length := by
  apply Nat.eq_of_testBit_eq
  intro i
  rw [Nat.testBit_or, Nat.testBit_shiftLeft, testBit_toNat, testBit_toNat, testBit_toNat]
  by_cases h : i < l.length
  · have hge : ¬ i ≥ l.length := by omega
    simp [h, hge, List.getD_eq_getElem?_getD, List.getElem?_append_left]
  · have hge : i ≥ l.length := by omega
    simp [hge, List.getD_eq_getElem?_getD, List.getElem?_append_right]

/-- Dropping is a right shift. -/
theorem toNat_drop (l : List Bool) (n : Nat) : toNat (l.drop n) = toNat l >>> n := by
  apply Nat.eq_of_testBit_eq
  intro i
  rw [Nat.testBit_shiftRight, testBit_toNat, testBit_toNat]
  simp [List.getD_eq_getElem?_getD]

/-- Taking is a mask. -/
theorem toNat_take (l : List Bool) (n : Nat) : toNat (l.take n) = toNat l % 2 ^ n := by
  apply Nat.eq_of_testBit_eq
  intro i
  rw [Nat.testBit_mod_two_pow, testBit_toNat, testBit_toNat]
  by_cases h : i < n
  · simp [List.getD_eq_getElem?_getD, h]
  · have hle : n ≤ i := by omega
    simp [List.getD_eq_getElem?_getD, hle]

theorem toNat_replicate_false (n : Nat) : toNat (List.replicate n false) = 0 := by
  rw [← ofNat_zero_right, toNat_ofNat, Nat.zero_mod]

/-- More bits than the string has are zeros behind it. -/
theorem ofNat_toNat_pad {n : Nat} (l : List Bool) (h : l.length ≤ n) :
    ofNat n (toNat l) = l ++ List.replicate (n - l.length) false := by
  have hpad : toNat l = toNat (l ++ List.replicate (n - l.length) false) := by
    rw [toNat_append, toNat_replicate_false, Nat.zero_shiftLeft, Nat.or_zero]
  have hlen : n = (l ++ List.replicate (n - l.length) false).length := by
    rw [List.length_append, List.length_replicate]
    omega
  calc ofNat n (toNat l)
      = ofNat (l ++ List.replicate (n - l.length) false).length
          (toNat (l ++ List.replicate (n - l.length) false)) := by rw [← hlen, hpad]
    _ = l ++ List.replicate (n - l.length) false := ofNat_length_toNat _

/-! ## strings of machine words -/

/-- The bits of a machine word. -/
def ofVec {w : Nat} (x : BitVec w) : List Bool := ofNat w x.toNat

/-- The machine word a string denotes. -/
def toVec (w : Nat) (l : List Bool) : BitVec w := BitVec.ofNat w (toNat l)

/-- The bits of a list of machine words, in order. -/
def ofList {w : Nat} (xs : List (BitVec w)) : List Bool := xs.flatMap ofVec

@[simp] theorem length_ofVec {w : Nat} (x : BitVec w) : (ofVec x).length = w := by
  simp [ofVec]

/-- A vector is the vector of its bits. -/
theorem toVec_ofVec {w : Nat} (x : BitVec w) : toVec w (ofVec x) = x := by
  apply BitVec.eq_of_toNat_eq
  rw [toVec, ofVec, toNat_ofNat, BitVec.toNat_ofNat, Nat.mod_mod]
  exact Nat.mod_eq_of_lt x.isLt

/-- Bits of the right number are the bits of their vector. -/
theorem ofVec_toVec {w : Nat} (l : List Bool) (h : l.length = w) : ofVec (toVec w l) = l := by
  rw [ofVec, toVec, BitVec.toNat_ofNat, ofNat_mod _ (le_refl w), ofNat_toNat l (by omega)]
  exact List.take_of_length_le (by omega)

/-- A vector and its bits are the same number. -/
theorem toNat_ofVec {w : Nat} (x : BitVec w) : toNat (ofVec x) = x.toNat := by
  rw [ofVec, toNat_ofNat]
  exact Nat.mod_eq_of_lt x.isLt

/-- Vectors with the same bits are equal. -/
theorem ofVec_inj {w : Nat} {x y : BitVec w} (h : ofVec x = ofVec y) : x = y := by
  rw [← toVec_ofVec x, h, toVec_ofVec]

@[simp] theorem ofList_nil {w : Nat} : ofList ([] : List (BitVec w)) = [] := rfl

@[simp] theorem ofList_cons {w : Nat} (x : BitVec w) (xs : List (BitVec w)) :
    ofList (x :: xs) = ofVec x ++ ofList xs := rfl

/-- The bits of the words of two lists, one after the other. -/
theorem ofList_append {w : Nat} (xs ys : List (BitVec w)) :
    ofList (xs ++ ys) = ofList xs ++ ofList ys := by
  simp [ofList]

@[simp] theorem length_ofList {w : Nat} (xs : List (BitVec w)) :
    (ofList xs).length = w * xs.length := by
  induction xs with
  | nil => simp
  | cons x xs ih =>
      rw [ofList_cons, List.length_append, ih, length_ofVec, List.length_cons]
      ring

theorem take_ofList {w : Nat} (xs : List (BitVec w)) (n : Nat) :
    (ofList xs).take (w * n) = ofList (xs.take n) := by
  induction xs generalizing n with
  | nil => simp
  | cons x xs ih =>
      cases n with
      | zero => simp
      | succ n =>
          have hsplit : w * (n + 1) = (ofVec x).length + w * n := by
            rw [length_ofVec]
            ring
          rw [ofList_cons, hsplit, List.take_length_add_append, ih, List.take_succ_cons,
            ofList_cons]

theorem drop_ofList {w : Nat} (xs : List (BitVec w)) (n : Nat) :
    (ofList xs).drop (w * n) = ofList (xs.drop n) := by
  induction xs generalizing n with
  | nil => simp
  | cons x xs ih =>
      cases n with
      | zero => simp
      | succ n =>
          have hsplit : w * (n + 1) = (ofVec x).length + w * n := by
            rw [length_ofVec]
            ring
          rw [ofList_cons, hsplit, List.drop_length_add_append, ih, List.drop_succ_cons]

/-- A word that is there has bits. -/
theorem ofList_cons_ne_nil {w : Nat} (hw : 0 < w) (x : BitVec w) (xs : List (BitVec w)) :
    ofList (x :: xs) ≠ [] := by
  intro h
  have hlen := congrArg List.length h
  simp only [ofList_cons, List.length_nil, List.length_append, length_ofVec] at hlen
  omega

/-- Words are determined by their bits. -/
theorem ofList_inj {w : Nat} (hw : 0 < w) {xs ys : List (BitVec w)} (h : ofList xs = ofList ys) :
    xs = ys := by
  induction xs generalizing ys with
  | nil =>
      cases ys with
      | nil => rfl
      | cons y ys => exact absurd h.symm (ofList_cons_ne_nil hw y ys)
  | cons x xs ih =>
      cases ys with
      | nil => exact absurd h (ofList_cons_ne_nil hw x xs)
      | cons y ys =>
          rw [ofList_cons, ofList_cons] at h
          obtain ⟨hx, hxs⟩ := List.append_inj h (by simp)
          rw [ofVec_inj hx, ih hxs]

/-! ## slices and splices -/

/-- The `n` elements from position `p` on. -/
def slice {α : Type} (l : List α) (p n : Nat) : List α := (l.drop p).take n

/-- Overwrite the elements from position `p` on by `xs`: a block copy into `l`. -/
def splice {α : Type} (l : List α) (p : Nat) (xs : List α) : List α :=
  l.take p ++ xs ++ l.drop (p + xs.length)

@[simp] theorem length_slice {α : Type} (l : List α) (p n : Nat) :
    (slice l p n).length = min n (l.length - p) := by
  simp [slice]

/-- A slice of at most `k` bits is a number below `2 ^ k`. -/
theorem toNat_slice_lt (l : List Bool) (p : Nat) {n k : Nat} (h : n ≤ k) :
    toNat (slice l p n) < 2 ^ k := by
  have hlen : (slice l p n).length ≤ k := by
    rw [length_slice]
    omega
  exact Nat.lt_of_lt_of_le (toNat_lt _) (Nat.pow_le_pow_right (by decide) hlen)

/-- A slice may be cut anywhere. -/
theorem slice_add {α : Type} (l : List α) (p m n : Nat) :
    slice l p (m + n) = slice l p m ++ slice l (p + m) n := by
  simp only [slice, List.take_add, List.drop_drop]

/-- The front of a slice is a shorter slice. -/
theorem take_slice {α : Type} (l : List α) (p : Nat) {m n : Nat} (h : m ≤ n) :
    (slice l p n).take m = slice l p m := by
  simp [slice, List.take_take, h]

/-- What is left of a slice is a later slice. -/
theorem drop_slice {α : Type} (l : List α) (p m n : Nat) :
    (slice l p n).drop m = slice l (p + m) (n - m) := by
  simp only [slice, List.drop_take, List.drop_drop]

/-- A prefix is a slice from the start. -/
theorem take_eq_slice {α : Type} (l : List α) (n : Nat) : l.take n = slice l 0 n := by
  simp [slice]

/-- A slice of the first part does not see the second. -/
theorem slice_append_left {α : Type} {l r : List α} {p n : Nat} (h : p + n ≤ l.length) :
    slice (l ++ r) p n = slice l p n := by
  rw [slice, List.drop_append_of_le_length (by omega), List.take_append_of_le_length
    (by rw [List.length_drop]; omega), slice]

/-- A slice from the end of the first part is a prefix of the second. -/
theorem slice_append_right {α : Type} (l r : List α) (n : Nat) :
    slice (l ++ r) l.length n = r.take n := by
  simp [slice]

/-- Overwriting keeps the length. -/
theorem length_splice {α : Type} {l xs : List α} {p : Nat} (h : p + xs.length ≤ l.length) :
    (splice l p xs).length = l.length := by
  simp only [splice, List.length_append, List.length_take, List.length_drop]
  omega

/-- Up to the end of the copied block, a splice is the old front and the block. -/
theorem take_splice {α : Type} {l xs : List α} {p : Nat} (h : p + xs.length ≤ l.length) :
    (splice l p xs).take (p + xs.length) = l.take p ++ xs := by
  have hlen : (l.take p ++ xs).length = p + xs.length := by
    rw [List.length_append, List.length_take]
    omega
  rw [splice, ← hlen, List.take_left]

/-- What lies behind the overwritten part stays. -/
theorem drop_splice {α : Type} {l xs : List α} {p : Nat} (h : p + xs.length ≤ l.length) :
    (splice l p xs).drop (p + xs.length) = l.drop (p + xs.length) := by
  have hlen : (l.take p ++ xs).length = p + xs.length := by
    rw [List.length_append, List.length_take]
    omega
  rw [splice]
  nth_rewrite 1 [← hlen]
  rw [List.drop_left]

@[simp] theorem splice_nil {α : Type} (l : List α) (p : Nat) : splice l p [] = l := by
  simp [splice]

/-- Two copies that touch are one. -/
theorem splice_splice {α : Type} {l xs ys : List α} {p : Nat} (h : p + xs.length ≤ l.length) :
    splice (splice l p xs) (p + xs.length) ys = splice l p (xs ++ ys) := by
  have hdrop : (splice l p xs).drop (p + xs.length + ys.length) =
      l.drop (p + xs.length + ys.length) := by
    rw [← List.drop_drop, drop_splice h, List.drop_drop]
  rw [splice, take_splice h, hdrop, splice, List.length_append, ← Nat.add_assoc, List.append_assoc,
    List.append_assoc, List.append_assoc, List.append_assoc]

/-- What was written can be read at its place. -/
theorem slice_splice_self {α : Type} {l xs : List α} {p : Nat} (h : p + xs.length ≤ l.length) :
    slice (splice l p xs) p xs.length = xs := by
  have hleft : (l.take p).length = p := by
    rw [List.length_take]
    omega
  have hslice := slice_append_right (l.take p) (xs ++ l.drop (p + xs.length)) xs.length
  rwa [hleft, List.take_left, ← List.append_assoc] at hslice

/-- What lies in front of the overwritten part stays. -/
theorem slice_splice_left {α : Type} {l xs : List α} {p q n : Nat} (h : p ≤ l.length)
    (hq : q + n ≤ p) : slice (splice l p xs) q n = slice l q n := by
  have hleft : (l.take p).length = p := by
    rw [List.length_take]
    omega
  rw [splice, List.append_assoc, slice_append_left (by omega)]
  nth_rewrite 2 [← List.take_append_drop p l]
  rw [slice_append_left (by omega)]

/-- A slice behind the overwritten part stays. -/
theorem slice_splice_right {α : Type} {l xs : List α} {p q : Nat} (h : p + xs.length ≤ l.length)
    (hq : p + xs.length ≤ q) (n : Nat) : slice (splice l p xs) q n = slice l q n := by
  have hdrop : (splice l p xs).drop q = l.drop q := by
    rw [show q = p + xs.length + (q - (p + xs.length)) by omega, ← List.drop_drop, drop_splice h,
      List.drop_drop]
  rw [slice, hdrop, slice]

/-- A slice within a prefix. -/
theorem slice_take {α : Type} (l : List α) {p n m : Nat} (h : p + n ≤ m) :
    slice (l.take m) p n = slice l p n := by
  rw [slice, slice, List.drop_take, List.take_take, Nat.min_eq_left (by omega)]

/-- Overwriting a slice by itself changes nothing. -/
theorem splice_slice_self {α : Type} (l : List α) {p n : Nat} (h : p + n ≤ l.length) :
    splice l p (slice l p n) = l := by
  have hlen : (slice l p n).length = n := by
    rw [length_slice]
    omega
  rw [splice, hlen, slice, List.append_assoc, ← List.drop_drop, List.take_append_drop,
    List.take_append_drop]

/-- What is behind `q` after overwriting elements behind `q`. -/
theorem drop_splice_of_le {α : Type} (l xs : List α) {p q : Nat} (hq : q ≤ p) (hp : p ≤ l.length) :
    (splice l p xs).drop q = slice l q (p - q) ++ xs ++ l.drop (p + xs.length) := by
  have hlen : (l.take p).length = p := by
    rw [List.length_take]
    omega
  rw [splice, List.append_assoc, List.drop_append_of_le_length (by omega), List.drop_take, slice,
    List.append_assoc]

/-- The two parts of a slice. -/
theorem slice_eq_append {α : Type} {l xs ys : List α} {p : Nat}
    (h : slice l p (xs ++ ys).length = xs ++ ys) :
    slice l p xs.length = xs ∧ slice l (p + xs.length) ys.length = ys := by
  have hall := congrArg List.length h
  rw [List.length_append, slice_add] at h
  refine List.append_inj h ?_
  simp only [List.length_append, length_slice] at hall ⊢
  omega

/-- A slice at words is made of whole words. -/
theorem slice_ofList {w : Nat} (xs : List (BitVec w)) (p n : Nat) :
    slice (ofList xs) (w * p) (w * n) = ofList (slice xs p n) := by
  rw [slice, drop_ofList, take_ofList, slice]

/-- Overwriting words is overwriting their bits. -/
theorem ofList_splice {w : Nat} (xs ys : List (BitVec w)) (p : Nat) :
    ofList (splice xs p ys) = splice (ofList xs) (w * p) (ofList ys) := by
  simp only [splice, ofList_append, take_ofList, length_ofList, ← Nat.mul_add, drop_ofList]

/-- Cutting a string into words of `w` bits loses nothing. -/
theorem ofList_toVec_slices {w : Nat} (l : List Bool) (n : Nat) (h : w * n ≤ l.length) :
    ofList ((List.range n).map fun i => toVec w (slice l (w * i) w)) = l.take (w * n) := by
  induction n with
  | zero => simp
  | succ n ih =>
      rw [Nat.mul_succ] at h
      have hlen : (slice l (w * n) w).length = w := by
        rw [length_slice]
        omega
      have hlast : ofList [toVec w (slice l (w * n) w)] = slice l (w * n) w := by
        rw [ofList_cons, ofList_nil, List.append_nil, ofVec_toVec _ hlen]
      rw [List.range_succ, List.map_append, ofList_append, ih (by omega), List.map_singleton, hlast,
        Nat.mul_succ, take_eq_slice, take_eq_slice, slice_add, Nat.zero_add]

/-- A string of whole words comes from some list of words. -/
theorem exists_ofList {w : Nat} (l : List Bool) (n : Nat) (h : w * n = l.length) :
    ∃ xs : List (BitVec w), ofList xs = l := by
  refine ⟨_, (ofList_toVec_slices l n (Nat.le_of_eq h)).trans ?_⟩
  rw [h, List.take_length]

/-! ## packing into bytes -/

/-- Byte packing: bit `i` of the string is bit `i % 8` of byte `i / 8`, and the
last byte is padded with zeros. -/
def pack (l : List Bool) : List (BitVec 8) :=
  (List.range ((l.length + 7) / 8)).map fun j => toVec 8 (slice l (8 * j) 8)

@[simp] theorem length_pack (l : List Bool) : (pack l).length = (l.length + 7) / 8 := by
  simp [pack]

/-- The zero bits that fill the last byte. -/
def padding (n : Nat) : List Bool := List.replicate ((8 - n % 8) % 8) false

@[simp] theorem length_padding (n : Nat) : (padding n).length = (8 - n % 8) % 8 := by
  simp [padding]

/-- Bit `k` of packed byte `j` is bit `8 * j + k` of the string. -/
theorem getLsbD_pack (l : List Bool) (j k : Nat) (hj : j < (pack l).length) (hk : k < 8) :
    (pack l)[j].getLsbD k = l.getD (8 * j + k) false := by
  simp only [pack, List.getElem_map, List.getElem_range, toVec, BitVec.getLsbD_ofNat,
    testBit_toNat]
  simp [slice, List.getD_eq_getElem?_getD, hk]

/-- A bit of a list of words lies in one of them. -/
theorem getElem_ofList {w : Nat} (xs : List (BitVec w)) (i : Nat) (h : i < (ofList xs).length)
    (hq : i / w < xs.length) : (ofList xs)[i] = xs[i / w].getLsbD (i % w) := by
  induction xs generalizing i with
  | nil => simp at hq
  | cons x xs ih =>
      simp only [length_ofList, List.length_cons] at h hq
      have hw : 0 < w := by
        rcases Nat.eq_zero_or_pos w with rfl | hw
        · simp at h
        · exact hw
      by_cases hi : i < w
      · simp only [ofList_cons]
        rw [List.getElem_append_left (by simpa using hi)]
        simp [ofVec, Nat.div_eq_of_lt hi, Nat.mod_eq_of_lt hi, BitVec.testBit_toNat]
      · have hle : w ≤ i := by omega
        have hdiv : i / w = (i - w) / w + 1 := by rw [Nat.div_eq_sub_div hw hle]
        have hmod : i % w = (i - w) % w := Nat.mod_eq_sub_mod hle
        simp only [ofList_cons]
        rw [List.getElem_append_right (by simpa using hle)]
        simp only [length_ofVec]
        rw [ih (i - w) (by rw [length_ofList]; rw [Nat.mul_succ] at h; omega) (by omega)]
        simp [hdiv, hmod]

/-- The bits of a packed string are the string and its padding. -/
theorem ofList_pack (l : List Bool) : ofList (pack l) = l ++ padding l.length := by
  apply List.ext_getElem
  · simp only [length_ofList, length_pack, List.length_append, length_padding]
    omega
  · intro i h1 h2
    have hq : i / 8 < (pack l).length := by
      rw [length_ofList] at h1
      omega
    rw [getElem_ofList _ _ h1 hq, getLsbD_pack _ _ _ hq (Nat.mod_lt _ (by decide)), Nat.div_add_mod]
    by_cases hi : i < l.length
    · simp [List.getD_eq_getElem?_getD, hi]
    · have hle : l.length ≤ i := by omega
      simp [List.getD_eq_getElem?_getD, List.getElem_append_right hle, hle, padding]

/-- Whole bytes need no padding. -/
theorem ofList_pack_of_dvd {l : List Bool} (h : 8 ∣ l.length) : ofList (pack l) = l := by
  have hz : (8 - l.length % 8) % 8 = 0 := by omega
  rw [ofList_pack, padding, hz, List.replicate_zero, List.append_nil]

/-- Packed bits are found at the start of what they are packed into. -/
theorem slice_pack (l : List Bool) (xs : List (BitVec 8)) :
    slice (ofList (pack l ++ xs)) 0 l.length = l := by
  rw [ofList_append, ofList_pack, List.append_assoc, ← take_eq_slice, List.take_left]

/-- Packing the bits of bytes gives the bytes back. -/
theorem pack_ofList (xs : List (BitVec 8)) : pack (ofList xs) = xs :=
  ofList_inj (by decide) (ofList_pack_of_dvd (by simp))

/-- Bytes whose bits start with `l` and go on with zeros up to the byte
boundary are the packing of `l`. -/
theorem eq_pack {xs : List (BitVec 8)} {l : List Bool} (h : ofList xs = l ++ padding l.length) :
    xs = pack l :=
  ofList_inj (by decide) (h.trans (ofList_pack l).symm)

/-! ## a scratch register

A register of `v` bits holds a string in its low bits: strings are appended by
`or` with a shift, and taken off by a mask and a shift. -/

/-- Or-ing a shifted word into a register appends its bits to those that are there. -/
theorem toNat_or_shift {v w : Nat} {scratch : BitVec v} {x : BitVec w} {t u : List Bool}
    (hs : scratch.toNat = toNat t) (hx : x.toNat = toNat u) (h : w + t.length ≤ v) :
    (scratch ||| (x.setWidth v <<< t.length)).toNat = toNat (t ++ u) := by
  have hxlt := x.isLt
  have hwv : 2 ^ w ≤ 2 ^ v := Nat.pow_le_pow_right (by decide) (by omega)
  have hshift : x.toNat <<< t.length < 2 ^ v := by
    rw [Nat.shiftLeft_eq]
    calc x.toNat * 2 ^ t.length
        < 2 ^ w * 2 ^ t.length := Nat.mul_lt_mul_of_pos_right hxlt (Nat.two_pow_pos _)
      _ = 2 ^ (w + t.length) := (Nat.pow_add 2 w t.length).symm
      _ ≤ 2 ^ v := Nat.pow_le_pow_right (by decide) h
  rw [BitVec.toNat_or, BitVec.toNat_shiftLeft, BitVec.toNat_setWidth,
    Nat.mod_eq_of_lt (show x.toNat < 2 ^ v by omega), Nat.mod_eq_of_lt hshift, hs, hx,
    toNat_append]

/-- The mask of `n` low bits. -/
theorem toNat_mask {v n : Nat} (h : n < v) : ((1#v <<< n) - 1#v).toNat = 2 ^ n - 1 := by
  have hpow : 2 ^ n < 2 ^ v := Nat.pow_lt_pow_right (by decide) h
  have hpos : 0 < 2 ^ n := Nat.two_pow_pos n
  have hone : 1 % 2 ^ v = 1 := Nat.mod_eq_of_lt (by omega)
  rw [BitVec.toNat_sub, BitVec.toNat_shiftLeft]
  simp only [BitVec.toNat_ofNat, hone, Nat.one_shiftLeft]
  rw [Nat.mod_eq_of_lt hpow, show 2 ^ v - 1 + 2 ^ n = 2 ^ n - 1 + 2 ^ v by omega,
    Nat.add_mod_right]
  exact Nat.mod_eq_of_lt (by omega)

/-- A mask keeps the first bits of a register. -/
theorem toNat_and_mask {v n : Nat} {scratch : BitVec v} {t : List Bool}
    (hs : scratch.toNat = toNat t) (h : n < v) :
    (scratch &&& ((1#v <<< n) - 1#v)).toNat = toNat (t.take n) := by
  rw [BitVec.toNat_and, toNat_mask h, Nat.and_two_pow_sub_one_eq_mod, hs, toNat_take]

/-- A shift to the right drops the first bits of a register. -/
theorem toNat_ushiftRight {v : Nat} {scratch : BitVec v} {t : List Bool} (n : Nat)
    (hs : scratch.toNat = toNat t) : (scratch >>> n).toNat = toNat (t.drop n) := by
  rw [BitVec.toNat_ushiftRight, hs, toNat_drop]

end Bits
