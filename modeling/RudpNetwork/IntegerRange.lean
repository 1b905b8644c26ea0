import RudpNetwork.Serialization

/-!
# RudpNetwork.IntegerRange

`serialize_int` on its whole domain: every pair of limits, every type the
variable may have, and every raw value that may stand on the wire.

The width of a range leaves room for codes above `max - min`.  Such a code wraps,
in the addition of `min` and once more in the variable, and the range check comes
after both.

## Main results

* `serializeInt_codesRange` — every type, every range and every raw value.
* `neverOverflows_iff` — the ranges whose computations stay within `int`.
-/

namespace RudpNetwork

open MachineInt

/-! ## the variable -/

/-- The type of a variable that `serialize_int` fills. -/
inductive IntType
  | int8
  | uint8
  | int16
  | uint16
  | int32
  deriving DecidableEq, Repr

namespace IntType

/-- The size of the type in bits. -/
def width : IntType → Nat
  | int8 | uint8 => 8
  | int16 | uint16 => 16
  | int32 => 32

def lowest : IntType → Int
  | int8 => -128
  | int16 => -32768
  | int32 => -2147483648
  | uint8 | uint16 => 0

def highest (T : IntType) : Int := T.lowest + 2 ^ T.width - 1

/-- The value that `variable = x` stores. -/
def convert (T : IntType) (x : Int) : Int := (x - T.lowest) % 2 ^ T.width + T.lowest

variable {T : IntType}

/-- A value of the type is not changed by the conversion. -/
theorem convert_eq {x : Int} (hlo : T.lowest ≤ x) (hhi : x ≤ T.highest) : T.convert x = x := by
  have hlt : x - T.lowest < 2 ^ T.width := by
    rw [highest] at hhi
    omega
  rw [convert, Int.emod_eq_of_lt (by omega) hlt]
  omega

/-- Above the range of the type the next value is the lowest one again. -/
theorem convert_above {x : Int} (hlo : T.highest < x) (hhi : x ≤ T.highest + 2 ^ T.width) :
    T.convert x = x - 2 ^ T.width := by
  rw [highest] at hlo hhi
  rw [convert, ← Int.sub_emod_right, Int.emod_eq_of_lt (by omega) (by omega)]
  omega

/-- The values of the types fit into an `int`. -/
theorem isInt32 {x : Int} (hlo : T.lowest ≤ x) (hhi : x ≤ T.highest) : IsInt32 x := by
  unfold IsInt32
  cases T <;> simp only [lowest, highest, width] at hlo hhi <;> omega

/-- The wraps of the cast to `int32_t` and of the addition do not show in a
variable that has no more than 32 bits. -/
theorem convert_int32 (unsignedValue : U32) (min : Int) :
    T.convert (MachineInt.int32 (unsignedValue.toInt + min)) =
      T.convert (min + unsignedValue.toNat) := by
  rw [BitVec.toInt_eq_toNat_cond]
  unfold MachineInt.int32 convert
  cases T <;> simp only [lowest, width] <;> split <;> omega

/-- A type that holds the range has as many bits as its codes. -/
theorem two_pow_le {min max : Int} (hlo : T.lowest ≤ min) (hhi : max ≤ T.highest) {b : Nat}
    (hlow : 2 ^ (b - 1) ≤ max - min) : (2 : Int) ^ b ≤ 2 ^ T.width := by
  have hlt : (2 : Int) ^ (b - 1) < 2 ^ T.width := by
    rw [highest] at hhi
    omega
  have hpow : 2 ^ (b - 1) < 2 ^ T.width := by exact_mod_cast hlt
  have hb : b - 1 < T.width := (Nat.pow_lt_pow_iff_right (by decide)).mp hpow
  have hle : 2 ^ b ≤ 2 ^ T.width := Nat.pow_le_pow_right (by decide) (by omega)
  exact_mod_cast hle

/-- A surplus code never wraps back into the range. -/
theorem convert_mem_iff {min max : Int} (hlt : min < max) (hlo : T.lowest ≤ min)
    (hhi : max ≤ T.highest) {b : Nat} (hlow : 2 ^ (b - 1) ≤ max - min) {r : Nat} (hr : r < 2 ^ b) :
    (min ≤ T.convert (min + r) ∧ T.convert (min + r) ≤ max) ↔ (r : Int) ≤ max - min := by
  have hwidth := two_pow_le hlo hhi hlow
  have hcode : (r : Int) < 2 ^ b := by
    have hcast : (r : Int) < ((2 ^ b : Nat) : Int) := Int.ofNat_lt.mpr hr
    push_cast at hcast
    exact hcast
  by_cases hfit : min + r ≤ T.highest
  · rw [convert_eq (by omega) hfit]
    omega
  · have hbelow := @convert_above T (min + r) (by omega) (by omega)
    rw [hbelow]
    omega

end IntType

variable {β : Type} [Platform β]

/-! ## the codes of a range -/

/-- What `serialize_int` does with a variable of type `T`, on `b` bits: the raw
values up to `max - min` are the values of the range, all others are refused. -/
structure CodesRange (β : Type) [Platform β] (T : IntType) (min max : Int) (b : Nat) : Prop where
  reads : ∀ {τ : Type} (store : Int → τ → τ) (s : ReadStream β) (o : τ) (B : List Bool) (N : Int)
    (pos : Nat), s.reader.At B N pos → pos + b ≤ N →
    ∃ (r : Nat) (value : Int) (s' : ReadStream β), r = Bits.toNat (Bits.slice B pos b) ∧ r < 2 ^ b ∧
      Reading.serializeInt T.convert store min max (s, o) =
        .ok (if (r : Int) ≤ max - min then some () else none, s', store value o) ∧
      ((r : Int) ≤ max - min → value = min + r) ∧ s'.reader.At B N (pos + b) ∧
      s'.bitsRead = int32 (s.bitsRead + b) ∧ s.Same s'
  writes : ∀ (c : Context) (v : Int), min ≤ v → v ≤ max →
    WriteStream.Writes c (Writing.serializeInt v min max : Proc Fault (WriteStream β) Unit)
      (.const (Bits.ofNat b (v - min).toNat))

/-- The read of `b` bits behind `serialize_int`, wherever the stream stands. -/
theorem ReadStream.serializeInteger_eq {s : ReadStream β} {B : List Bool} {N : Int} {pos : Nat}
    (hs : s.reader.At B N pos) {min max : Int} (hmin : IsInt32 min) (hmax : IsInt32 max)
    (hlt : min < max) {b : Nat} (hb : bitsRequired (toU32 min) (toU32 max) = b)
    (hfit : pos + b ≤ N) :
    ∃ (unsignedValue : U32) (r : BitReader β), serializeInteger min max s =
        .ok (some (int32 (unsignedValue.toInt + min)),
          { s with reader := r, bitsRead := int32 (s.bitsRead + b) }) ∧
      unsignedValue.toNat = Bits.toNat (Bits.slice B pos b) ∧ r.At B N (pos + b) := by
  obtain ⟨b', hb', hb1, hb32, -, -⟩ := bitsRequired_bounds hmin hmax hlt
  obtain ⟨read, r, hrun, hvalue, hat⟩ := @takeBits_eq β _ s B N pos hs b (by omega) (by omega) hfit
  refine ⟨read, r, ?_, hvalue, hat⟩
  exact (serializeInteger_run hmin hmax hlt hb).trans (Proc.bind_run_some hrun)

/-- `serialize_int` after its read. -/
theorem Reading.serializeInt_run {τ : Type} (cast : Int → Int) (store : Int → τ → τ)
    {min max int32Value : Int} (hlt : min < max) {s s' : ReadStream β} (o : τ)
    (hread : ReadStream.serializeInteger min max s = .ok (some int32Value, s')) :
    (serializeInt cast store min max : ReadProc β τ Unit) (s, o) =
      .ok (if min ≤ cast int32Value ∧ cast int32Value ≤ max then some () else none, s',
        store (cast int32Value) o) := by
  rw [serializeInt]
  refine (Proc.require_bind_run hlt).trans ?_
  refine (Proc.bind_run_some (ReadStream.onStream_run hread)).trans ?_
  by_cases hrange : cast int32Value < min ∨ max < cast int32Value
  · rw [if_neg (by omega), checkRange, if_pos hrange]
    rfl
  · rw [if_pos (by omega), checkRange, if_neg hrange]
    rfl

/-- `serialize_int` accepts exactly the values it can encode. -/
theorem serializeInt_codesRange (T : IntType) {min max : Int} (hmin : IsInt32 min)
    (hmax : IsInt32 max) (hlt : min < max) (hlo : T.lowest ≤ min) (hhi : max ≤ T.highest) :
    ∃ b : Nat, bitsRequired (toU32 min) (toU32 max) = b ∧ CodesRange β T min max b := by
  obtain ⟨b, hb, hb1, hb32, -, hlow⟩ := bitsRequired_bounds hmin hmax hlt
  refine ⟨b, hb, ?_, ?_⟩
  · intro τ store s o B N pos hs hfit
    obtain ⟨read, r, hread, hvalue, hat⟩ :=
      ReadStream.serializeInteger_eq hs hmin hmax hlt hb hfit
    have hrun := Reading.serializeInt_run T.convert store hlt o hread
    have hcode : read.toNat < 2 ^ b := by
      rw [hvalue]
      refine Nat.lt_of_lt_of_le (Bits.toNat_lt _) (Nat.pow_le_pow_right (by decide) ?_)
      rw [Bits.slice, List.length_take]
      omega
    have hmem := IntType.convert_mem_iff hlt hlo hhi hlow hcode
    rw [IntType.convert_int32] at hrun
    simp only [hmem] at hrun
    refine ⟨read.toNat, T.convert (min + read.toNat), _, hvalue, hcode, hrun, ?_, hat, rfl, rfl, rfl⟩
    intro hr
    exact IntType.convert_eq (by omega) (by omega)
  · intro c v hvlo hvhi
    have hw := @Writing.writes_serializeInt β _ c v min max hmin hmax hlt hvlo hvhi
    rwa [Wire.int, hb, Int.toNat_natCast] at hw

/-- A `uint8_t` that holds `[1, 6]`: the raw values 6 and 7 are refused. -/
theorem serializeInt_codesRange_sample :
    ∃ b : Nat, bitsRequired (toU32 1) (toU32 6) = b ∧ CodesRange Memory .uint8 1 6 b :=
  serializeInt_codesRange .uint8 (by decide) (by decide) (by decide) (by decide) (by decide)

/-! ## signed overflow -/

/-- The signed operations of `SerializeInteger` stay in the range of `int32_t`:
`value - min` in the writing stream, and in the reading stream the conversion of
what `takeBits` read, and the addition of `min` to it. -/
structure NeverOverflows (min max : Int) : Prop where
  writes : ∀ value, min ≤ value → value ≤ max → IsInt32 (value - min)
  reads : ∀ (s s' : ReadStream Memory) (unsignedValue : U32),
    ReadStream.takeBits (bitsRequired (toU32 min) (toU32 max)) s = .ok (some unsignedValue, s') →
    IsInt32 unsignedValue.toNat ∧ IsInt32 (unsignedValue.toInt + min) ∧
      IsInt32 (unsignedValue.toNat + min)

/-- Any raw value can stand on the wire. -/
theorem exists_takeBits {b r : Nat} (h1 : 1 ≤ b) (h32 : b ≤ 32) (hr : r < 2 ^ b) :
    ∃ (s s' : ReadStream Memory) (unsignedValue : U32),
      ReadStream.takeBits b s = .ok (some unsignedValue, s') ∧ unsignedValue.toNat = r := by
  have hpow : 2 ^ b ≤ 2 ^ 32 := Nat.pow_le_pow_right (by decide) h32
  obtain ⟨word, hword⟩ : ∃ word : U32, word = BitVec.ofNat 32 r := ⟨_, rfl⟩
  obtain ⟨buffer, hbuffer⟩ : ∃ buffer : Memory, buffer = Bits.pack (Bits.ofVec word) := ⟨_, rfl⟩
  have hbits : Bits.ofList buffer = Bits.ofNat 32 r := by
    rw [hbuffer, Bits.ofList_pack_of_dvd (by simp), Bits.ofVec, hword, BitVec.toNat_ofNat,
      Bits.ofNat_mod _ (le_refl 32)]
  have hat := @ReadStream.init_at Memory _ buffer 4 (by decide) (by decide) (by
    change 32 * ((4 + 3) / 4) ≤ ((Bits.ofList buffer).length : Int)
    rw [hbits, Bits.length_ofNat]
    decide)
  obtain ⟨value, s', hrun, hvalue, -⟩ := @ReadStream.takeBits_ok Memory _ _ _ _ _ hat b (by omega)
    (by omega) (by change (0 : Int) + b ≤ 32; omega)
  refine ⟨_, s', value, hrun, ?_⟩
  rw [hvalue, Int.toNat_natCast]
  change Bits.toNat (Bits.slice (Bits.ofList buffer) 0 b) = r
  rw [hbits, ← Bits.take_eq_slice, Bits.toNat_take, Bits.toNat_ofNat,
    Nat.mod_eq_of_lt (b := 2 ^ 32) (by omega), Nat.mod_eq_of_lt hr]

/-- Integer coding never overflows exactly when the range has less than `2 ^ 31`
steps and its codes, the surplus ones too, end below `2 ^ 31`. -/
theorem neverOverflows_iff {min max : Int} (hmin : IsInt32 min) (hmax : IsInt32 max)
    (hlt : min < max) :
    NeverOverflows min max ↔ max - min < 2147483648 ∧
      min + 2 ^ (bitsRequired (toU32 min) (toU32 max)).toNat ≤ 2147483648 := by
  obtain ⟨b, hb, hb1, hb32, -, hlow⟩ := bitsRequired_bounds hmin hmax hlt
  have hpos : 0 < 2 ^ b := Nat.two_pow_pos b
  rw [hb, Int.toNat_natCast]
  constructor
  · intro h
    obtain ⟨-, hrange⟩ := h.writes max (by omega) (le_refl max)
    obtain ⟨s, s', read, hread, hvalue⟩ := exists_takeBits hb1 hb32 (r := 2 ^ b - 1) (by omega)
    obtain ⟨-, -, -, hsum⟩ := h.reads s s' read (by rw [hb]; exact hread)
    have hcast : (read.toNat : Int) = ((2 ^ b : Nat) : Int) - 1 := by omega
    push_cast at hcast
    exact ⟨by omega, by omega⟩
  · rintro ⟨hrange, hcodes⟩
    refine ⟨fun value hlo hhi => ⟨by omega, by omega⟩, fun s s' read hread => ?_⟩
    have hcode := ReadStream.takeBits_lt hread
    rw [hb, Int.toNat_natCast] at hcode
    have hcast : (read.toNat : Int) < ((2 ^ b : Nat) : Int) := Int.ofNat_lt.mpr hcode
    push_cast at hcast
    -- a range of less than `2 ^ 31` steps has no code of 32 bits
    have hb31 : b ≤ 31 := by
      by_contra hgt
      obtain rfl : b = 32 := by omega
      norm_num at hlow
      omega
    have hsmall : 2 ^ b ≤ 2 ^ 31 := Nat.pow_le_pow_right (by decide) hb31
    obtain ⟨hmin1, -⟩ := hmin
    have hint : read.toInt = read.toNat := by
      rw [BitVec.toInt_eq_toNat_cond, if_pos (by omega)]
    rw [hint]
    exact ⟨⟨by omega, by omega⟩, ⟨by omega, by omega⟩, ⟨by omega, by omega⟩⟩

/-- The range from -5 to 20. -/
theorem neverOverflows_iff_sample : NeverOverflows (-5) 20 ↔ (20 : Int) - (-5) < 2147483648 ∧
    (-5 : Int) + 2 ^ (bitsRequired (toU32 (-5)) (toU32 20)).toNat ≤ 2147483648 :=
  neverOverflows_iff (by decide) (by decide) (by decide)

/-- The range `[2147483645, 2147483647]` has two bits on the wire. The raw value 3
is added to its minimum before anything looks at it. -/
theorem not_neverOverflows :
    ¬ ∀ min max : Int, IsInt32 min → IsInt32 max → min < max → NeverOverflows min max := by
  intro h
  have hrange := h 2147483645 2147483647 (by decide) (by decide) (by decide)
  have hb : bitsRequired (toU32 2147483645) (toU32 2147483647) = (2 : Nat) := by decide
  obtain ⟨s, s', read, hread, hvalue⟩ := @exists_takeBits 2 3 (by decide) (by decide) (by decide)
  obtain ⟨-, -, -, hsum⟩ := hrange.reads s s' read (by rw [hb]; exact hread)
  omega

end RudpNetwork
