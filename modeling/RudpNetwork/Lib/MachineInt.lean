import Mathlib.Algebra.Group.Int.Defs
import Mathlib.Algebra.Group.Nat.Defs

/-!
# RudpNetwork.Lib.MachineInt

Two's-complement `int` arithmetic over `Int`: `int32` is the wrap-around that
every 32-bit signed operation ends with, `sizeT` the conversion to a 64-bit
unsigned size.  `Int.tdiv` and `Int.tmod` are C's `/` and `%`.  A `Counter` is an
unsigned counter that knows how often it was incremented, also where it wrapped.
-/

namespace MachineInt

/-- The value a 32-bit signed operation stores when its mathematical result is `x`. -/
def int32 (x : Int) : Int := (x + 2147483648) % 4294967296 - 2147483648

/-- The conversion of an `int` to `size_t`. -/
def sizeT (x : Int) : Nat := (x % 18446744073709551616).toNat

/-- The range of a 32-bit signed integer. -/
def IsInt32 (x : Int) : Prop := -2147483648 ≤ x ∧ x ≤ 2147483647

instance (x : Int) : Decidable (IsInt32 x) := inferInstanceAs (Decidable (_ ∧ _))

theorem int32_eq {x : Int} (h : IsInt32 x) : int32 x = x := by
  obtain ⟨hl, hu⟩ := h
  unfold int32
  omega

/-- A value between two that do not wrap does not wrap. -/
theorem int32_eq_of_between {x min max : Int} (hmin : IsInt32 min) (hmax : IsInt32 max)
    (hlo : min ≤ x) (hhi : x ≤ max) : int32 x = x :=
  int32_eq ⟨Int.le_trans hmin.1 hlo, Int.le_trans hhi hmax.2⟩

@[simp] theorem int32_zero : int32 0 = 0 := rfl

/-- What was wrapped is an `int`. -/
theorem isInt32_int32 (x : Int) : IsInt32 (int32 x) := by
  unfold int32 IsInt32
  omega

/-- Wrapping an intermediate result changes nothing. -/
theorem int32_int32_add (x y : Int) : int32 (int32 x + y) = int32 (x + y) := by
  unfold int32
  omega

/-- A wrapped value differs from the exact one by a multiple of `2 ^ 32`. -/
theorem int32_emod (x : Int) : int32 x % 4294967296 = x % 4294967296 := by
  unfold int32
  omega

/-- Counting up always changes the value, also where it wraps. -/
theorem int32_add_one_ne (x : Int) : int32 (x + 1) ≠ x := by
  unfold int32
  omega

/-- A number that is not negative does not grow when it is wrapped. -/
theorem int32_le {x : Int} (h : 0 ≤ x) : int32 x ≤ x := by
  unfold int32
  omega

theorem sizeT_eq {x : Int} (h : 0 ≤ x) (h' : x < 18446744073709551616) : (sizeT x : Int) = x := by
  unfold sizeT
  omega

/-- Wrapping to `size_t` does not make a number larger. -/
theorem sizeT_le {x : Int} (h : 0 ≤ x) : (sizeT x : Int) ≤ x := by
  unfold sizeT
  omega

/-- The `%` of C is the usual one where the number is not negative. -/
theorem tmod_eq {x : Int} (n : Int) (h : 0 ≤ x) : x.tmod n = x % n :=
  Int.tmod_eq_emod_of_nonneg h

theorem tdiv_eq {x : Int} (n : Int) (h : 0 ≤ x) : x.tdiv n = x / n :=
  Int.tdiv_eq_ediv_of_nonneg h

/-! ## counters -/

/-- A counter of `w` bits, and the number of its increments. -/
structure Counter (w : Nat) where
  value : BitVec w
  count : Nat
  value_eq : value = BitVec.ofNat w count

namespace Counter

variable {w : Nat}

def zero : Counter w := ⟨0, 0, rfl⟩

def increment (c : Counter w) : Counter w where
  value := c.value + 1
  count := c.count + 1
  value_eq := by
    rw [c.value_eq, BitVec.ofNat_add]
    rfl

@[simp] theorem count_zero : (zero : Counter w).count = 0 := rfl

@[simp] theorem count_increment (c : Counter w) : c.increment.count = c.count + 1 := rfl

/-- A counter that did not wrap shows the number of its increments. -/
theorem toNat_value {c : Counter w} (h : c.count < 2 ^ w) : c.value.toNat = c.count := by
  rw [c.value_eq, BitVec.toNat_ofNat, Nat.mod_eq_of_lt h]

end Counter

end MachineInt
