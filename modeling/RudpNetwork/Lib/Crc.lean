import Mathlib.Data.List.Basic
import Mathlib.Logic.Function.Iterate

/-!
# RudpNetwork.Lib.Crc

Table-driven 32-bit checksums, over an arbitrary table.  One step shifts the
state down by a byte and mixes in the table entry that the low byte and the next
message byte select.

When the top bytes of the table entries are all different, a step can be undone:
the top byte of the new state tells which entry was mixed in.  It follows that
the state after a message determines the state before it (`update_inj`), and,
since a state holds four bytes, that it determines up to four message bytes as
well (`update_short_inj`).

What such a table stands for is division by a polynomial, one bit at a time: each
bit that leaves the state on the right has the polynomial added where it was set
(`shift`).  Division is linear, so eight shifts of a state are eight shifts of its
low byte, which the table of the polynomial holds, added to the rest of the state
moved down (`update_byteEntry`).  Where the polynomial has its top bit, eight
shifts lose nothing of a byte (`topInjective_byteEntry`).

## Main results

* `update_inj`, `update_short_inj` — a checksum determines its seed, and up to four bytes.
* `update_byteEntry` — the table of a polynomial divides by it.
* `topInjective_byteEntry` — which polynomials have such a table.
-/

namespace Crc

variable (table : BitVec 8 → BitVec 32)

/-- The table entry that a state and a byte select. -/
def index (crc : BitVec 32) (b : BitVec 8) : BitVec 8 := crc.setWidth 8 ^^^ b

/-- The byte, mixed into the whole state, selects the same entry. -/
theorem setWidth_xor_eq_index (crc : BitVec 32) (b : BitVec 8) :
    (crc ^^^ b.setWidth 32).setWidth 8 = index crc b := by
  rw [index, BitVec.setWidth_xor, BitVec.setWidth_setWidth_of_le b (by decide), BitVec.setWidth_eq]

/-- One byte. -/
def step (crc : BitVec 32) (b : BitVec 8) : BitVec 32 := crc >>> 8 ^^^ table (index crc b)

/-- A message. -/
def update (crc : BitVec 32) (data : List (BitVec 8)) : BitVec 32 := data.foldl (step table) crc

@[simp] theorem update_nil (crc : BitVec 32) : update table crc [] = crc := rfl

@[simp] theorem update_cons (crc : BitVec 32) (b : BitVec 8) (data : List (BitVec 8)) :
    update table crc (b :: data) = update table (step table crc b) data := rfl

/-- A checksum of two parts goes through the first and then the second. -/
theorem update_append (crc : BitVec 32) (xs ys : List (BitVec 8)) :
    update table crc (xs ++ ys) = update table (update table crc xs) ys := by
  simp [update]

/-- Entries are known by their top byte. -/
def TopInjective : Prop := ∀ i j, table i >>> 24 = table j >>> 24 → i = j

variable {table}

/-- Two steps whose results agree from bit `8 * m` up, for `m ≤ 3`, used the same
entry, and started from states that agree one byte further up. -/
theorem step_agree (h : TopInjective table) {m : Nat} (hm : m ≤ 3) {crc crc' : BitVec 32}
    {b b' : BitVec 8} (hstep : step table crc b >>> (8 * m) = step table crc' b' >>> (8 * m)) :
    index crc b = index crc' b' ∧ crc >>> (8 * (m + 1)) = crc' >>> (8 * (m + 1)) := by
  have hzero : ∀ c : BitVec 32, c >>> 8 >>> 24 = 0#32 := by
    intro c
    rw [← BitVec.shiftRight_add]
    exact BitVec.ushiftRight_eq_zero (by decide)
  have htop : ∀ (c : BitVec 32) (d : BitVec 8),
      step table c d >>> 24 = table (index c d) >>> 24 := by
    intro c d
    rw [step, BitVec.ushiftRight_xor_distrib, hzero, BitVec.zero_xor]
  have hidx : index crc b = index crc' b' := by
    apply h
    rw [← htop, ← htop]
    have hshift := congrArg (fun c : BitVec 32 => c >>> (24 - 8 * m)) hstep
    simpa only [← BitVec.shiftRight_add, show 8 * m + (24 - 8 * m) = 24 by omega] using hshift
  refine ⟨hidx, ?_⟩
  rw [step, step, hidx, BitVec.ushiftRight_xor_distrib, BitVec.ushiftRight_xor_distrib,
    BitVec.xor_left_inj, ← BitVec.shiftRight_add, ← BitVec.shiftRight_add] at hstep
  rwa [show 8 * (m + 1) = 8 + 8 * m by omega]

/-- One byte more does not bring two checksums together. -/
theorem step_inj (h : TopInjective table) {crc crc' : BitVec 32} {b : BitVec 8}
    (hstep : step table crc b = step table crc' b) : crc = crc' := by
  obtain ⟨hidx, hhigh⟩ :=
    step_agree h (Nat.zero_le 3) (congrArg (fun c : BitVec 32 => c >>> (8 * 0)) hstep)
  have hlow : crc.setWidth 8 = crc'.setWidth 8 := BitVec.xor_left_inj _ |>.mp hidx
  apply BitVec.eq_of_getLsbD_eq
  intro i hi
  by_cases h8 : i < 8
  · have hbit := congrArg (BitVec.getLsbD · i) hlow
    simpa [BitVec.getLsbD_setWidth, h8] using hbit
  · have hbit := congrArg (BitVec.getLsbD · (i - 8)) hhigh
    simpa [BitVec.getLsbD_ushiftRight, show 8 + (i - 8) = i by omega] using hbit

/-- The state after a message determines the state before it. -/
theorem update_inj (h : TopInjective table) {crc crc' : BitVec 32} {data : List (BitVec 8)}
    (heq : update table crc data = update table crc' data) : crc = crc' := by
  induction data generalizing crc crc' with
  | nil => exact heq
  | cons b data ih => exact step_inj h (ih heq)

/-- Messages of at most `4 - m` bytes, whose results agree from bit `8 * m` up,
started from states that agree as much further up as the messages are long; if
they started from the same state, they are the same message. -/
theorem update_agree (h : TopInjective table) {m : Nat} {crc crc' : BitVec 32}
    {xs ys : List (BitVec 8)} (hlen : xs.length = ys.length) (hm : m + xs.length ≤ 4)
    (heq : update table crc xs >>> (8 * m) = update table crc' ys >>> (8 * m)) :
    crc >>> (8 * (m + xs.length)) = crc' >>> (8 * (m + xs.length)) ∧ (crc = crc' → xs = ys) := by
  induction xs generalizing ys crc crc' with
  | nil =>
      obtain rfl : ys = [] := List.length_eq_zero_iff.mp hlen.symm
      exact ⟨heq, fun _ => rfl⟩
  | cons b xs ih =>
      cases ys with
      | nil => simp at hlen
      | cons b' ys =>
          rw [List.length_cons] at hm
          obtain ⟨hagree, hsame⟩ := ih (Nat.succ.inj hlen) (by omega) heq
          obtain ⟨hidx, hhigh⟩ := step_agree h (by omega) hagree
          refine ⟨by rwa [List.length_cons, ← Nat.add_assoc], ?_⟩
          rintro rfl
          obtain rfl : b = b' := BitVec.xor_right_inj _ |>.mp hidx
          rw [hsame rfl]

/-- Up to four bytes at one place of a message cannot be exchanged unnoticed. -/
theorem update_short_inj (h : TopInjective table) {crc : BitVec 32}
    {before xs ys after : List (BitVec 8)} (hlen : xs.length = ys.length) (h4 : xs.length ≤ 4)
    (heq : update table crc (before ++ xs ++ after) = update table crc (before ++ ys ++ after)) :
    xs = ys := by
  rw [update_append, update_append, update_append, update_append] at heq
  have hmid := update_inj h heq
  have hagree := update_agree (m := 0) h hlen (by omega)
    (congrArg (fun c : BitVec 32 => c >>> (8 * 0)) hmid)
  exact hagree.2 rfl

/-! ## a bit at a time -/

/-- One bit of the division: the low bit leaves the state, which `poly` is added
to where the bit was set. -/
def shift (poly crc : BitVec 32) : BitVec 32 :=
  if crc.getLsbD 0 then crc >>> 1 ^^^ poly else crc >>> 1

/-- One byte, in eight shifts. -/
def bitStep (poly crc : BitVec 32) (b : BitVec 8) : BitVec 32 :=
  (shift poly)^[8] (crc ^^^ b.setWidth 32)

/-- A message, in shifts only. -/
def bitUpdate (poly crc : BitVec 32) (data : List (BitVec 8)) : BitVec 32 :=
  data.foldl (bitStep poly) crc

/-- The table of a polynomial. -/
def byteEntry (poly : BitVec 32) (i : BitVec 8) : BitVec 32 := (shift poly)^[8] (i.setWidth 32)

variable {poly : BitVec 32}

/-- The bits of a shifted register: a bit of the polynomial where one fell out. -/
theorem getLsbD_shift (x : BitVec 32) (i : Nat) :
    (shift poly x).getLsbD i = (x.getLsbD (1 + i) ^^ (x.getLsbD 0 && poly.getLsbD i)) := by
  rw [shift]
  cases x.getLsbD 0
  · rw [if_neg Bool.false_ne_true, BitVec.getLsbD_ushiftRight, Bool.false_and, Bool.xor_false]
  · rw [if_pos rfl, BitVec.getLsbD_xor, BitVec.getLsbD_ushiftRight, Bool.true_and]

/-- A shift is linear. -/
theorem shift_xor (x y : BitVec 32) : shift poly (x ^^^ y) = shift poly x ^^^ shift poly y := by
  apply BitVec.eq_of_getLsbD_eq
  intro i hi
  simp only [BitVec.getLsbD_xor, getLsbD_shift]
  cases x.getLsbD 0 <;> cases y.getLsbD 0 <;> cases poly.getLsbD i <;> simp

/-- So are several shifts. -/
theorem shift_iterate_xor (n : Nat) (x y : BitVec 32) :
    (shift poly)^[n] (x ^^^ y) = (shift poly)^[n] x ^^^ (shift poly)^[n] y := by
  induction n generalizing x y with
  | zero => rfl
  | succ n ih => rw [Function.iterate_succ_apply, shift_xor, ih]; rfl

/-- Zeros leave the state without a trace. -/
theorem shift_iterate_of_low_zero {n : Nat} {x : BitVec 32} (h : ∀ k < n, x.getLsbD k = false) :
    (shift poly)^[n] x = x >>> n := by
  induction n generalizing x with
  | zero => rw [Function.iterate_zero_apply, BitVec.ushiftRight_zero]
  | succ n ih =>
      have hshift : shift poly x = x >>> 1 := by
        rw [shift, h 0 (Nat.succ_pos n), if_neg Bool.false_ne_true]
      have hlow : ∀ k < n, (x >>> 1).getLsbD k = false := by
        intro k hk
        rw [BitVec.getLsbD_ushiftRight, Nat.add_comm]
        exact h (k + 1) (Nat.succ_lt_succ hk)
      rw [Function.iterate_succ_apply, hshift, ih hlow, ← BitVec.shiftRight_add, Nat.add_comm]

/-- The low byte of a state and the rest of it are shifted each on its own. -/
theorem shift_iterate_eight (x : BitVec 32) :
    (shift poly)^[8] x = x >>> 8 ^^^ byteEntry poly (x.setWidth 8) := by
  have hsplit : x = (x >>> 8 <<< 8) ^^^ (x.setWidth 8).setWidth 32 := by
    apply BitVec.eq_of_getLsbD_eq
    intro i hi
    by_cases h8 : i < 8
    · simp [h8, hi]
    · simp [h8, hi, show 8 + (i - 8) = i by omega]
  have hzero : ∀ k < 8, (x >>> 8 <<< 8).getLsbD k = false := by
    intro k hk
    simp [hk]
  have hback : x >>> 8 <<< 8 >>> 8 = x >>> 8 := by
    apply BitVec.eq_of_getLsbD_eq
    intro i hi
    by_cases h24 : 8 + i < 32
    · simp [h24]
    · simp [h24, BitVec.getLsbD_of_ge x (8 + i) (by omega)]
  conv_lhs => rw [hsplit]
  rw [shift_iterate_xor, shift_iterate_of_low_zero hzero, hback, byteEntry]

/-- The table of the bytes computes eight shifts at once. -/
theorem step_byteEntry (crc : BitVec 32) (b : BitVec 8) :
    step (byteEntry poly) crc b = bitStep poly crc b := by
  have hhigh : (crc ^^^ b.setWidth 32) >>> 8 = crc >>> 8 := by
    apply BitVec.eq_of_getLsbD_eq
    intro i hi
    simp
  rw [bitStep, shift_iterate_eight, hhigh, setWidth_xor_eq_index, step]

/-- Working through the table is dividing bit by bit. -/
theorem update_byteEntry (crc : BitVec 32) (data : List (BitVec 8)) :
    update (byteEntry poly) crc data = bitUpdate poly crc data := by
  induction data generalizing crc with
  | nil => rfl
  | cons b data ih => rw [update_cons, step_byteEntry, ih]; rfl

/-- A polynomial with its top bit set leaves a trace of every bit that was set:
where the top `n` bits are zero after `n` shifts, the low `n` bits were zero
before. -/
theorem low_zero_of_shift_iterate (hpoly : poly.getLsbD 31 = true) {n : Nat} (hn : n ≤ 32)
    {x : BitVec 32} (h : ∀ k < n, ((shift poly)^[n] x).getLsbD (31 - k) = false) :
    ∀ k < n, x.getLsbD k = false := by
  induction n with
  | zero => exact fun k hk => absurd hk (Nat.not_lt_zero k)
  | succ n ih =>
      have hstep : ∀ k < n + 1, (((shift poly)^[n] x).getLsbD (1 + (31 - k)) ^^
          (((shift poly)^[n] x).getLsbD 0 && poly.getLsbD (31 - k))) = false := by
        intro k hk
        rw [← getLsbD_shift, ← Function.iterate_succ_apply' (shift poly)]
        exact h k hk
      -- the last bit out would have set the top bit
      have hout : ((shift poly)^[n] x).getLsbD 0 = false := by
        have htop := hstep 0 (Nat.succ_pos n)
        rwa [BitVec.getLsbD_of_ge _ _ (by decide), Bool.false_xor, Nat.sub_zero, hpoly,
          Bool.and_true] at htop
      have hlow : ∀ k < n, x.getLsbD k = false := by
        refine ih (by omega) ?_
        intro k hk
        have hbit := hstep (k + 1) (Nat.succ_lt_succ hk)
        rwa [hout, Bool.false_and, Bool.xor_false, show 1 + (31 - (k + 1)) = 31 - k by omega] at hbit
      intro k hk
      rcases Nat.lt_succ_iff_lt_or_eq.mp hk with hk | rfl
      · exact hlow k hk
      · rwa [shift_iterate_of_low_zero hlow, BitVec.getLsbD_ushiftRight, Nat.add_zero] at hout

/-- Eight shifts of a byte can be undone from the top byte that they leave. -/
theorem topInjective_byteEntry (hpoly : poly.getLsbD 31 = true) : TopInjective (byteEntry poly) := by
  intro i j h
  have htop : ∀ k < 8, ((shift poly)^[8] (i.setWidth 32 ^^^ j.setWidth 32)).getLsbD (31 - k) =
      false := by
    intro k hk
    have hbit := congrArg (BitVec.getLsbD · (7 - k)) h
    simp only [byteEntry, BitVec.getLsbD_ushiftRight, show 24 + (7 - k) = 31 - k by omega] at hbit
    rw [shift_iterate_xor, BitVec.getLsbD_xor, hbit, Bool.xor_self]
  have hlow := low_zero_of_shift_iterate hpoly (by decide) htop
  apply BitVec.eq_of_getLsbD_eq
  intro k hk
  simpa [show k < 32 by omega] using hlow k hk

end Crc
