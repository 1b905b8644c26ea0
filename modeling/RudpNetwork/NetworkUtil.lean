import RudpNetwork.Lib.MachineInt

/-!
# RudpNetwork.NetworkUtil

The bit-width computations of `NetworkUtil.h` and `NetworkUtil.cs`.

`bits_required` decides how many bits an integer field takes on the wire, so
the two code bases only speak the same format if their ways to compute it
agree: the C++ build counts leading zeros, the portable C++ branch and C# smear
the highest bit downwards and count the ones.  `bitsRequired_eq_portable` and
`csharp_bitsRequired` are that agreement; `bitsRequired_bounds` is the only fact
about the width that the codecs need.
-/

namespace RudpNetwork

open MachineInt

/-- `uint8_t`, `byte`. -/
abbrev U8 := BitVec 8
/-- `uint16_t`, `ushort`. -/
abbrev U16 := BitVec 16
/-- `uint32_t`, `uint`. -/
abbrev U32 := BitVec 32
/-- `uint64_t`, `ulong`. -/
abbrev U64 := BitVec 64

/-- An `int` passed where a `uint32_t` is expected. -/
abbrev toU32 (x : Int) : U32 := BitVec.ofInt 32 x

/-! ## the source functions -/

/-- `popcount`, the branch without a compiler builtin; C# `PopCount`. -/
def popcount (x : U32) : U32 :=
  let a := x - ((x >>> 1) &&& 0x55555555#32)
  let b := ((a >>> 2) &&& 0x33333333#32) + (a &&& 0x33333333#32)
  let c := ((b >>> 4) + b) &&& 0x0f0f0f0f#32
  let d := c + (c >>> 8)
  let e := d + (d >>> 16)
  e &&& 0x0000003f#32

/-- Steps `a` to `e` of `log2`: every bit below the highest set one is set. -/
def smear (x : U32) : U32 :=
  let a := x ||| (x >>> 1)
  let b := a ||| (a >>> 2)
  let c := b ||| (b >>> 4)
  let d := c ||| (c >>> 8)
  d ||| (d >>> 16)

/-- `log2`; C# `Log2`. -/
def log2 (x : U32) : U32 :=
  let e := smear x
  let f := e >>> 1
  popcount f

/-- `bits_required` with `__GNUC__`; `BitVec.clz` is `__builtin_clz`. -/
def bitsRequired (min max : U32) : Int := 32 - ((max - min).clz.toNat : Int)

/-- `bits_required` without `__GNUC__`; C# `NetworkUtil.BitsRequired` cast to `int`. -/
def bitsRequiredPortable (min max : U32) : Int :=
  if min = max then 0 else ((log2 (max - min) + 1#32).toNat : Int)

namespace CSharp.NetworkUtil

/-- `NetworkUtil.PopCount`. -/
def popCount (x : U32) : U32 :=
  let a := x - ((x >>> 1) &&& 0x55555555#32)
  let b := ((a >>> 2) &&& 0x33333333#32) + (a &&& 0x33333333#32)
  let c := ((b >>> 4) + b) &&& 0x0f0f0f0f#32
  let d := c + (c >>> 8)
  let e := d + (d >>> 16)
  e &&& 0x0000003f#32

/-- `NetworkUtil.Log2`. -/
def log2 (x : U32) : U32 :=
  let a := x ||| (x >>> 1)
  let b := a ||| (a >>> 2)
  let c := b ||| (b >>> 4)
  let d := c ||| (c >>> 8)
  let e := d ||| (d >>> 16)
  let f := e >>> 1
  popCount f

/-- `NetworkUtil.BitsRequired`. -/
def bitsRequired (min max : U32) : U32 :=
  if min = max then 0#32 else log2 (max - min) + 1#32

end CSharp.NetworkUtil

/-- `host_to_network`: network order is little endian, as is the host. -/
def hostToNetwork (value : U32) : U32 := value

/-- `network_to_host`. -/
def networkToHost (value : U32) : U32 := value

/-! ## smearing -/

/-- Each bit of `y` says whether `x` has a bit at most `m - 1` places above it. -/
def Smears (x : U32) (m : Nat) (y : U32) : Prop :=
  ∀ i, y.getLsbD i = true ↔ ∃ j < m, x.getLsbD (i + j) = true

/-- A word that was not smeared. -/
theorem smears_one (x : U32) : Smears x 1 x := by
  intro i
  constructor
  · intro h
    exact ⟨0, by omega, h⟩
  · rintro ⟨j, hj, h⟩
    obtain rfl : j = 0 := by omega
    exact h

/-- Or-ing with the value shifted by the reach doubles the reach. -/
theorem Smears.step {x y : U32} {m : Nat} (h : Smears x m y) :
    Smears x (m + m) (y ||| (y >>> m)) := by
  intro i
  rw [BitVec.getLsbD_or, BitVec.getLsbD_ushiftRight, Bool.or_eq_true, h i, h (m + i)]
  constructor
  · rintro (⟨j, hj, hb⟩ | ⟨j, hj, hb⟩)
    · exact ⟨j, by omega, hb⟩
    · exact ⟨m + j, by omega, by rwa [show i + (m + j) = m + i + j by omega]⟩
  · rintro ⟨j, hj, hb⟩
    by_cases hjm : j < m
    · exact .inl ⟨j, hjm, hb⟩
    · exact .inr ⟨j - m, by omega, by rwa [show m + i + (j - m) = i + j by omega]⟩

/-- Five doublings spread the top bit over all 32 places. -/
theorem smears_smear (x : U32) : Smears x 32 (smear x) :=
  (smears_one x).step.step.step.step.step

/-- The top bit of a word. -/
theorem log2_lt_32 {x : U32} (hx : x.toNat ≠ 0) : Nat.log2 x.toNat < 32 :=
  (Nat.log2_lt hx).mpr x.isLt

/-- The smeared value is all ones up to the highest bit. -/
theorem toNat_smear {x : U32} (hx : x.toNat ≠ 0) :
    (smear x).toNat = 2 ^ (Nat.log2 x.toNat + 1) - 1 := by
  apply Nat.eq_of_testBit_eq
  intro i
  rw [Nat.testBit_two_pow_sub_one, BitVec.testBit_toNat, Bool.eq_iff_iff, smears_smear x i,
    decide_eq_true_iff]
  constructor
  · rintro ⟨j, -, hb⟩
    have hle : 2 ^ (i + j) ≤ x.toNat := Nat.ge_two_pow_of_testBit hb
    have hlog : i + j ≤ Nat.log2 x.toNat := (Nat.le_log2 hx).mpr hle
    omega
  · intro hi
    have hlog := log2_lt_32 hx
    refine ⟨Nat.log2 x.toNat - i, by omega, ?_⟩
    rw [show i + (Nat.log2 x.toNat - i) = Nat.log2 x.toNat by omega, ← BitVec.testBit_toNat]
    exact Nat.testBit_log2 hx

/-- The bit trick counts the ones of a block of ones. -/
theorem popcount_ones :
    ∀ k : Fin 32, popcount (BitVec.ofNat 32 (2 ^ k.val - 1)) = BitVec.ofNat 32 k.val := by
  decide

/-- `log2` of the source is the binary logarithm. -/
theorem toNat_log2 {x : U32} (hx : x.toNat ≠ 0) : (log2 x).toNat = Nat.log2 x.toNat := by
  have hlog := log2_lt_32 hx
  have hpow : 2 ^ Nat.log2 x.toNat < 2 ^ 32 := Nat.pow_lt_pow_right (by decide) hlog
  have hf : smear x >>> 1 = BitVec.ofNat 32 (2 ^ Nat.log2 x.toNat - 1) := by
    apply BitVec.eq_of_toNat_eq
    rw [BitVec.toNat_ushiftRight, toNat_smear hx, BitVec.toNat_ofNat, Nat.pow_succ,
      Nat.mod_eq_of_lt (by omega), Nat.shiftRight_eq_div_pow]
    omega
  have hpop := popcount_ones ⟨Nat.log2 x.toNat, hlog⟩
  have hlog2 : log2 x = popcount (smear x >>> 1) := rfl
  rw [hlog2, hf, hpop, BitVec.toNat_ofNat, Nat.mod_eq_of_lt (by omega)]

/-! ## the width -/

/-- The width is the least number of bits that hold the range. -/
theorem bitsRequired_eq_log2 {min max : U32} (h : min ≠ max) :
    bitsRequired min max = Nat.log2 (max - min).toNat + 1 := by
  have hx : max - min ≠ 0#32 := by
    intro h0
    exact h (BitVec.sub_eq_iff_eq_add.mp h0 ▸ by simp)
  have hx0 : (max - min).toNat ≠ 0 := by
    intro h0
    exact hx (BitVec.eq_of_toNat_eq h0)
  have hclz : (max - min).clz.toNat < 32 := by
    have hlt := BitVec.clz_lt_iff_ne_zero.mpr hx
    simpa [BitVec.lt_def] using hlt
  have hlow := BitVec.two_pow_sub_clz_le_toNat_of_ne_zero (by decide) hx
  have hhigh := BitVec.toNat_lt_two_pow_sub_clz (x := max - min)
  have hlog : Nat.log2 (max - min).toNat = 31 - (max - min).clz.toNat := by
    rw [Nat.log2_eq_iff hx0]
    exact ⟨hlow, by rwa [show 31 - (max - min).clz.toNat + 1 = 32 - (max - min).clz.toNat by omega]⟩
  rw [bitsRequired, hlog]
  omega

/-- Both code bases compute the same width. -/
theorem bitsRequired_eq_portable {min max : U32} (h : min ≠ max) :
    bitsRequired min max = bitsRequiredPortable min max := by
  have hx0 : (max - min).toNat ≠ 0 := by
    intro h0
    have hz : max - min = 0#32 := BitVec.eq_of_toNat_eq h0
    exact h (BitVec.sub_eq_iff_eq_add.mp hz ▸ by simp)
  have hlog := log2_lt_32 hx0
  have hsum : (log2 (max - min) + 1#32).toNat = Nat.log2 (max - min).toNat + 1 := by
    rw [BitVec.toNat_add, toNat_log2 hx0]
    exact Nat.mod_eq_of_lt (by simp only [BitVec.toNat_ofNat]; omega)
  rw [bitsRequired_eq_log2 h, bitsRequiredPortable, if_neg h, hsum]
  push_cast
  rfl

/-- The C# tricks are the portable C++ ones. -/
theorem csharp_bitsRequired (min max : U32) :
    ((CSharp.NetworkUtil.bitsRequired min max).toNat : Int) = bitsRequiredPortable min max := by
  have hlog2 : CSharp.NetworkUtil.log2 (max - min) = log2 (max - min) := rfl
  rw [CSharp.NetworkUtil.bitsRequired, bitsRequiredPortable, hlog2]
  split <;> rfl

/-! ## integer ranges -/

/-- The unsigned difference of two `int` limits is the size of the range. -/
theorem toNat_range {min max : Int} (hmin : IsInt32 min) (hmax : IsInt32 max) (h : min < max) :
    ((toU32 max - toU32 min).toNat : Int) = max - min := by
  obtain ⟨hmin1, hmin2⟩ := hmin
  obtain ⟨hmax1, hmax2⟩ := hmax
  simp only [BitVec.toNat_sub, BitVec.toNat_ofInt]
  omega

/-- Different ends of a range are different words. -/
theorem toU32_ne {min max : Int} (hmin : IsInt32 min) (hmax : IsInt32 max) (h : min < max) :
    toU32 min ≠ toU32 max := by
  intro heq
  have hrange := toNat_range hmin hmax h
  rw [heq, BitVec.sub_self, BitVec.toNat_zero] at hrange
  omega

/-- The width of an `int` range: between 1 and 32 bits, and enough for every
offset into the range. -/
theorem bitsRequired_bounds {min max : Int} (hmin : IsInt32 min) (hmax : IsInt32 max)
    (h : min < max) :
    ∃ b : Nat, bitsRequired (toU32 min) (toU32 max) = b ∧ 1 ≤ b ∧ b ≤ 32 ∧
      max - min < 2 ^ b ∧ 2 ^ (b - 1) ≤ max - min := by
  have hrange := toNat_range hmin hmax h
  have hx0 : (toU32 max - toU32 min).toNat ≠ 0 := by omega
  have hlog := log2_lt_32 hx0
  have hlow := Nat.log2_self_le hx0
  have hhigh := Nat.lt_log2_self (n := (toU32 max - toU32 min).toNat)
  refine ⟨Nat.log2 (toU32 max - toU32 min).toNat + 1, ?_, by omega, by omega, ?_, ?_⟩
  · rw [bitsRequired_eq_log2 (toU32_ne hmin hmax h)]
    push_cast
    rfl
  · rw [← hrange]
    exact_mod_cast hhigh
  · rw [← hrange, Nat.add_sub_cancel]
    exact_mod_cast hlow

/-- All three computations give the width of an `int` range. -/
theorem bitsRequired_agree {min max : Int} (hmin : IsInt32 min) (hmax : IsInt32 max)
    (h : min < max) :
    ∃ b : Nat, bitsRequired (toU32 min) (toU32 max) = b ∧
      bitsRequiredPortable (toU32 min) (toU32 max) = b ∧
      (CSharp.NetworkUtil.bitsRequired (toU32 min) (toU32 max)).toNat = b ∧
      1 ≤ b ∧ b ≤ 32 ∧ 2 ^ (b - 1) ≤ max - min ∧ max - min < 2 ^ b := by
  obtain ⟨b, hb, h1, h32, hlt, hle⟩ := bitsRequired_bounds hmin hmax h
  have hportable : bitsRequiredPortable (toU32 min) (toU32 max) = b := by
    rw [← bitsRequired_eq_portable (toU32_ne hmin hmax h), hb]
  have hcsharp : (CSharp.NetworkUtil.bitsRequired (toU32 min) (toU32 max)).toNat = b := by
    rw [← Int.ofNat_inj, csharp_bitsRequired, hportable]
  exact ⟨b, hb, hportable, hcsharp, h1, h32, hle, hlt⟩

/-- The full `int` range takes all 32 bits. -/
theorem bitsRequired_agree_full :
    ∃ b : Nat, bitsRequired (toU32 (-2147483648)) (toU32 2147483647) = b ∧
      bitsRequiredPortable (toU32 (-2147483648)) (toU32 2147483647) = b ∧
      (CSharp.NetworkUtil.bitsRequired (toU32 (-2147483648)) (toU32 2147483647)).toNat = b ∧
      1 ≤ b ∧ b ≤ 32 ∧ (2 : Int) ^ (b - 1) ≤ 2147483647 - (-2147483648) ∧
      (2147483647 : Int) - (-2147483648) < 2 ^ b :=
  bitsRequired_agree (by decide) (by decide) (by decide)

end RudpNetwork
