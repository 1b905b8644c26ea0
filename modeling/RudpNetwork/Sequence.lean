import Mathlib.Algebra.Order.Group.Abs
import Mathlib.Algebra.Order.Group.Int
import RudpNetwork.NetworkUtil

/-!
# RudpNetwork.Sequence

The 16-bit sequence numbers of `NetworkUtil.h`.

A sequence number is a counter modulo 65536, so which of two comes first and how
far apart they are is decided by the shorter way around.  The signed length of
that way is `distance`; `sequence_greater_than` is its sign, but for numbers
exactly half a turn apart, and `sequence_difference` would be its value, did it
not wrap at 32786 where it should at 32768: numbers from 32769 to 32785 apart
get the longer way.  Two counters that stay close to each other are compared as
the counters themselves (`sequenceGreaterThan_ofNat`, `sequenceDifference_ofNat`).

## Main results

* `sequence_trichotomy`, `sequenceGreaterThan_ofNat` — the comparison.
* `sequenceDifference_eq_distance`, `abs_sequenceDifference_le` — the difference, and where
  it goes the longer way.
-/

namespace RudpNetwork

/-! ## the source functions -/

/-- A `uint16_t` operand, promoted to `int`. -/
def promote (s : U16) : Int := s.toNat

/-- `sequence_greater_than`. -/
def sequenceGreaterThan (s1 s2 : U16) : Bool :=
  (promote s1 > promote s2 && promote s1 - promote s2 ≤ 32768) ||
    (promote s1 < promote s2 && promote s2 - promote s1 > 32768)

/-- `sequence_less_than`. -/
def sequenceLessThan (s1 s2 : U16) : Bool := sequenceGreaterThan s2 s1

/-- `sequence_difference`. -/
def sequenceDifference (_s1 _s2 : U16) : Int :=
  let s1 := promote _s1
  let s2 := promote _s2
  if |s1 - s2| ≥ 32786 then
    if s1 > s2 then s1 - (s2 + 65536) else s1 + 65536 - s2
  else s1 - s2

/-! ## promoted numbers -/

theorem promote_bounds (s : U16) : 0 ≤ promote s ∧ promote s < 65536 := by
  unfold promote
  omega

/-- No two numbers are a whole turn apart. -/
theorem promote_sub_bounds (s1 s2 : U16) :
    -65536 < promote s1 - promote s2 ∧ promote s1 - promote s2 < 65536 := by
  have h1 := promote_bounds s1
  have h2 := promote_bounds s2
  omega

/-- Promotion to `int` loses nothing. -/
theorem promote_inj {s1 s2 : U16} : promote s1 = promote s2 ↔ s1 = s2 :=
  Int.ofNat_inj.trans BitVec.toNat_inj

theorem promote_ofNat (n : Nat) : promote (BitVec.ofNat 16 n) = n % 65536 := by
  rw [promote, BitVec.toNat_ofNat]
  rfl

/-! ## the shorter way around -/

/-- How far `s1` is ahead of `s2`, by the shorter way around. -/
def distance (s1 s2 : U16) : Int := (s1 - s2).toInt

/-- How far apart the two numbers are, not going around. -/
def gap (s1 s2 : U16) : Int := |promote s1 - promote s2|

/-- The gap is at most `n` in both directions. -/
theorem gap_le {s1 s2 : U16} {n : Int} :
    gap s1 s2 ≤ n ↔ -n ≤ promote s1 - promote s2 ∧ promote s1 - promote s2 ≤ n := abs_le

/-- The gap is at least `n` in one of the directions. -/
theorem le_gap {s1 s2 : U16} {n : Int} :
    n ≤ gap s1 s2 ↔ n ≤ promote s1 - promote s2 ∨ n ≤ -(promote s1 - promote s2) := le_abs

/-- The way that is shorter, case by case. -/
theorem distance_eq (s1 s2 : U16) :
    distance s1 s2 =
      if promote s1 - promote s2 < -32768 then promote s1 - promote s2 + 65536
      else if promote s1 - promote s2 < 32768 then promote s1 - promote s2
      else promote s1 - promote s2 - 65536 := by
  rw [distance, BitVec.toInt_eq_toNat_cond, BitVec.toNat_sub]
  unfold promote
  split_ifs <;> omega

/-- No way is longer than half a turn. -/
theorem distance_bounds (s1 s2 : U16) : -32768 ≤ distance s1 s2 ∧ distance s1 s2 < 32768 :=
  ⟨BitVec.le_toInt _, BitVec.toInt_lt⟩

/-- Two counters at most half a turn apart are as far apart as their numbers. -/
theorem distance_ofNat {m n : Nat} (h1 : -32768 ≤ (m : Int) - n) (h2 : (m : Int) - n < 32768) :
    distance (BitVec.ofNat 16 m) (BitVec.ofNat 16 n) = m - n := by
  rw [distance_eq, promote_ofNat, promote_ofNat]
  split_ifs <;> omega

/-! ## comparison -/

/-- Greater without a wrap, or smaller by more than half a turn. -/
theorem sequenceGreaterThan_iff {s1 s2 : U16} :
    sequenceGreaterThan s1 s2 = true ↔
      (promote s2 < promote s1 ∧ promote s1 - promote s2 ≤ 32768) ∨
        (promote s1 < promote s2 ∧ 32768 < promote s2 - promote s1) := by
  simp [sequenceGreaterThan]

/-- Unless they are half a turn apart, the number that is ahead is the greater. -/
theorem sequenceGreaterThan_iff_distance {s1 s2 : U16} (h : gap s1 s2 ≠ 32768) :
    sequenceGreaterThan s1 s2 = true ↔ 0 < distance s1 s2 := by
  have hturn := promote_sub_bounds s1 s2
  have hne : promote s1 - promote s2 ≠ 32768 ∧ promote s1 - promote s2 ≠ -32768 := by
    constructor
    · intro heq
      exact h (by rw [gap, heq]; rfl)
    · intro heq
      exact h (by rw [gap, heq]; rfl)
  rw [sequenceGreaterThan_iff, distance_eq]
  split_ifs <;> omega

/-- Of two numbers, they are equal or exactly one is the greater. -/
theorem sequence_trichotomy (s1 s2 : U16) :
    (s1 = s2 ∧ sequenceGreaterThan s1 s2 = false ∧ sequenceLessThan s1 s2 = false) ∨
      (s1 ≠ s2 ∧ sequenceGreaterThan s1 s2 = true ∧ sequenceLessThan s1 s2 = false) ∨
      (s1 ≠ s2 ∧ sequenceGreaterThan s1 s2 = false ∧ sequenceLessThan s1 s2 = true) := by
  simp only [sequenceLessThan, ← Bool.not_eq_true, ne_eq, ← promote_inj, sequenceGreaterThan_iff]
  omega

/-- Counters less than half a turn apart are compared rightly. -/
theorem sequenceGreaterThan_ofNat {m n : Nat} (h1 : -32768 < (m : Int) - n)
    (h2 : (m : Int) - n < 32768) :
    sequenceGreaterThan (BitVec.ofNat 16 m) (BitVec.ofNat 16 n) = true ↔ n < m := by
  have hgap : gap (BitVec.ofNat 16 m) (BitVec.ofNat 16 n) ≠ 32768 := by
    intro heq
    have hle := gap_le.mp heq.le
    have hge := le_gap.mp heq.ge
    rw [promote_ofNat, promote_ofNat] at hle hge
    omega
  rw [sequenceGreaterThan_iff_distance hgap, distance_ofNat (by omega) h2]
  omega

/-! ## difference -/

/-- The difference is the distance, but for the numbers between the half turn
and the threshold of the source. -/
theorem sequenceDifference_eq_distance {s1 s2 : U16} (h : gap s1 s2 < 32768 ∨ 32786 ≤ gap s1 s2) :
    sequenceDifference s1 s2 = distance s1 s2 := by
  have hturn := promote_sub_bounds s1 s2
  rw [sequenceDifference, distance_eq]
  rcases h with h | h
  · have hle := gap_le.mp (Int.le_sub_one_of_lt h)
    have hlt : ¬|promote s1 - promote s2| ≥ 32786 := by
      rw [ge_iff_le, not_le]
      exact h.trans (by decide)
    rw [if_neg hlt]
    split_ifs <;> omega
  · have hge := le_gap.mp h
    rw [if_pos (show |promote s1 - promote s2| ≥ 32786 from h)]
    split_ifs <;> omega

/-- Below the threshold the difference is not wrapped. -/
theorem sequenceDifference_eq_sub {s1 s2 : U16} (h : gap s1 s2 < 32786) :
    sequenceDifference s1 s2 = promote s1 - promote s2 :=
  if_neg (not_le.mpr h)

/-- The difference is at most half a turn, but for the numbers where it wraps too late. -/
theorem abs_sequenceDifference_le {s1 s2 : U16} :
    |sequenceDifference s1 s2| ≤ 32768 ↔ gap s1 s2 ≤ 32768 ∨ 32786 ≤ gap s1 s2 := by
  by_cases h : gap s1 s2 < 32786
  · rw [sequenceDifference_eq_sub h, or_iff_left (not_le.mpr h), gap]
  · have hge : 32786 ≤ gap s1 s2 := not_lt.mp h
    obtain ⟨hlow, hhigh⟩ := distance_bounds s1 s2
    rw [sequenceDifference_eq_distance (.inr hge)]
    exact iff_of_true (abs_le.mpr ⟨hlow, hhigh.le⟩) (.inr hge)

/-- Adding the difference leads from one number to the other. -/
theorem add_sequenceDifference (s1 s2 : U16) :
    promote s1 = (promote s2 + sequenceDifference s1 s2) % 65536 := by
  have h1 := promote_bounds s1
  rw [sequenceDifference]
  split_ifs <;> omega

/-- The difference of counters is right up to 32750; a little further it can be
off by a whole turn. -/
theorem sequenceDifference_ofNat {m n : Nat} (h1 : -32750 ≤ (m : Int) - n)
    (h2 : (m : Int) - n ≤ 32750) :
    sequenceDifference (BitVec.ofNat 16 m) (BitVec.ofNat 16 n) = m - n := by
  have hgap : gap (BitVec.ofNat 16 m) (BitVec.ofNat 16 n) < 32768 ∨
      32786 ≤ gap (BitVec.ofNat 16 m) (BitVec.ofNat 16 n) := by
    rw [← Int.le_sub_one_iff, gap_le, le_gap, promote_ofNat, promote_ofNat]
    omega
  rw [sequenceDifference_eq_distance hgap, distance_ofNat (by omega) (by omega)]

/-! ## agreement -/

/-- Comparison and difference agree on two numbers. -/
structure SequencesAgree (s1 s2 : U16) : Prop where
  /-- Exactly one of equal, greater and less. -/
  trichotomy :
    (s1 = s2 ∧ sequenceGreaterThan s1 s2 = false ∧ sequenceLessThan s1 s2 = false) ∨
      (s1 ≠ s2 ∧ sequenceGreaterThan s1 s2 = true ∧ sequenceLessThan s1 s2 = false) ∨
      (s1 ≠ s2 ∧ sequenceGreaterThan s1 s2 = false ∧ sequenceLessThan s1 s2 = true)
  /-- At most half a turn. -/
  half : |sequenceDifference s1 s2| ≤ 32768
  /-- From one number to the other. -/
  leads : promote s1 = (promote s2 + sequenceDifference s1 s2) % 65536
  /-- The sign of the difference is the order. -/
  sign : |promote s1 - promote s2| ≠ 32768 →
    (0 < sequenceDifference s1 s2 ↔ sequenceGreaterThan s1 s2 = true)

/-- They agree exactly on the numbers outside the band that the threshold
leaves unwrapped. -/
theorem sequencesAgree_iff (s1 s2 : U16) :
    SequencesAgree s1 s2 ↔
      |promote s1 - promote s2| ≤ 32768 ∨ 32786 ≤ |promote s1 - promote s2| := by
  constructor
  · intro h
    exact abs_sequenceDifference_le.mp h.half
  · intro h
    refine ⟨sequence_trichotomy s1 s2, abs_sequenceDifference_le.mpr h,
      add_sequenceDifference s1 s2, ?_⟩
    intro hne
    have hband : gap s1 s2 < 32768 ∨ 32786 ≤ gap s1 s2 := h.imp_left fun hle => hle.lt_of_ne hne
    rw [sequenceDifference_eq_distance hband, sequenceGreaterThan_iff_distance hne]

/-- One past half a turn: the difference is 32769, ahead, of a number that is
not the greater. -/
theorem not_sequencesAgree : ¬∀ s1 s2 : U16, SequencesAgree s1 s2 := by
  intro h
  have hhalf := (h 32769#16 0#16).half
  exact absurd hhalf (by decide)

end RudpNetwork
