import RudpNetwork.Overrun

/-!
# RudpNetwork.Measure

`MeasureStream`: the stream that counts what a serialize function would write.

It cannot know where an alignment falls and counts seven bits for each.  So it
is never below `WriteStream`, and seven bits above it at most for each field
that aligns (`enc_le_measured`, `measured_le_enc`); the two never meet again
after an alignment, but the inequalities add up.  A buffer of the measured size
is therefore large enough (`measure_bounds`).

## Main results

* `measures_measureField` — what a field is measured as, for every type of field.
* `measure_bounds` — the measure is at least what the writer needs, and at most seven bits
  an alignment more.
-/

namespace RudpNetwork

open MachineInt

/-- `class MeasureStream`. -/
structure MeasureStream where
  context : Context
  error : ProtocolError
  totalBytes : Int
  bitsWritten : Int

namespace MeasureStream

/-! ## the methods of `MeasureStream` -/

/-- `MeasureStream( bytes )`. -/
def init (bytes : Int) : MeasureStream :=
  { context := 0, error := .none, totalBytes := bytes, bitsWritten := 0 }

/-- `m_bitsWritten += bits`. -/
def countBits (bits : Int) : Proc Fault MeasureStream Unit :=
  Proc.modify fun s => { s with bitsWritten := int32 (s.bitsWritten + bits) }

/-- `SerializeInteger`. -/
def serializeInteger (value min max : Int) : Proc Fault MeasureStream Unit := do
  assert (min < max)
  assert (min ≤ value)
  assert (value ≤ max)
  countBits (bitsRequired (toU32 min) (toU32 max))

/-- `SerializeBits`. -/
def serializeBits (_value : U32) (bits : Int) : Proc Fault MeasureStream Unit := do
  assert (0 < bits)
  assert (bits ≤ 32)
  countBits bits

/-- `GetAlignBits`: the worst case. -/
def getAlignBits : Int := 7

/-- `SerializeAlign`. -/
def serializeAlign : Proc Fault MeasureStream Unit := countBits getAlignBits

/-- `SerializeBytes`. -/
def serializeBytes (_data : List U8) (bytes : Int) : Proc Fault MeasureStream Unit := do
  Proc.ignore serializeAlign
  countBits (int32 (bytes * 8))

/-- `GetBitsProcessed`. -/
def getBitsProcessed (s : MeasureStream) : Int := s.bitsWritten

/-- `GetBytesProcessed`. -/
def getBytesProcessed (s : MeasureStream) : Int := (int32 (s.bitsWritten + 7)).tdiv 8

end MeasureStream

/-! ## the macros -/

namespace Measuring

/-- `serialize_int`. -/
def serializeInt (value min max : Int) : Proc Fault MeasureStream Unit := do
  assert (min < max)
  assert (min ≤ value)
  assert (value ≤ max)
  MeasureStream.serializeInteger (int32 value) min max

/-- `serialize_bits`. -/
def serializeBits (value : U32) (bits : Int) : Proc Fault MeasureStream Unit := do
  assert (0 < bits)
  assert (bits ≤ 32)
  MeasureStream.serializeBits value bits

/-- `serialize_bool`. -/
def serializeBool (value : Bool) : Proc Fault MeasureStream Unit :=
  serializeBits (if value then 1 else 0) 1

/-- `serialize_uint32`. -/
def serializeUint32 (value : U32) : Proc Fault MeasureStream Unit := serializeBits value 32

/-- `serialize_uint64`. -/
def serializeUint64 (value : U64) : Proc Fault MeasureStream Unit := do
  let lo := (value &&& 0xFFFFFFFF#64).setWidth 32
  let hi := (value >>> 32).setWidth 32
  serializeBits lo 32
  serializeBits hi 32

/-- `serialize_float`, on the bit pattern. -/
def serializeFloat (intValue : U32) : Proc Fault MeasureStream Unit :=
  MeasureStream.serializeBits intValue 32

/-- `serialize_double`, on the bit pattern. -/
def serializeDouble (intValue : U64) : Proc Fault MeasureStream Unit := serializeUint64 intValue

/-- `serialize_bytes`. -/
def serializeBytes (data : List U8) (bytes : Int) : Proc Fault MeasureStream Unit :=
  MeasureStream.serializeBytes data bytes

/-- `serialize_string`. -/
def serializeString (string : List U8) (bufferSize : Int) : Proc Fault MeasureStream Unit := do
  let length ← strlen string
  let length := int32 length
  assert (length < int32 (bufferSize - 1))
  serializeInt length 0 (int32 (bufferSize - 1))
  serializeBytes string length

/-- `serialize_align`. -/
def serializeAlign : Proc Fault MeasureStream Unit := MeasureStream.serializeAlign

end Measuring

/-- The macro of a field. -/
def measureField : Field → Proc Fault MeasureStream Unit
  | .int value min max => Measuring.serializeInt value min max
  | .bits value width => Measuring.serializeBits value width
  | .bool value => Measuring.serializeBool value
  | .uint32 value => Measuring.serializeUint32 value
  | .uint64 value => Measuring.serializeUint64 value
  | .float pattern => Measuring.serializeFloat pattern
  | .double pattern => Measuring.serializeDouble pattern
  | .bytes data => Measuring.serializeBytes data data.length
  | .string chars bufferSize => Measuring.serializeString (chars ++ [0]) bufferSize
  | .align => Measuring.serializeAlign

/-- A serialize function that measures the fields in order. -/
def measureFields (fields : List Field) : Proc Fault MeasureStream Unit := forM fields measureField

/-! ## what a measuring procedure counts -/

/-- `x` returns `true` and counts `k` bits, as far as an `int` can count. -/
def Measures (x : Proc Fault MeasureStream Unit) (k : Nat) : Prop :=
  ∀ s : MeasureStream, 0 ≤ s.bitsWritten → s.bitsWritten + k < 2147483648 →
    x s = .ok (some (), { s with bitsWritten := s.bitsWritten + k })

theorem Measures.pure : Measures (pure ()) 0 := by
  intro s _ _
  simp

/-- The measures of two calls add up. -/
theorem Measures.bind {x y : Proc Fault MeasureStream Unit} {k m : Nat} (hx : Measures x k)
    (hy : Measures y m) : Measures (do x; y) (k + m) := by
  intro s h0 hsmall
  refine (Proc.bind_run_some (hx s h0 (by omega))).trans ?_
  rw [hy _ (by simp only; omega) (by simp only; omega)]
  simp only [Int.add_assoc, Int.natCast_add]

theorem Measures.assert {p : Prop} [Decidable p] {x : Proc Fault MeasureStream Unit} {k : Nat}
    (hp : p) (hx : Measures x k) : Measures (do assert p; x) k := by
  intro s h0 hsmall
  exact (Proc.require_bind_run hp).trans (hx s h0 hsmall)

theorem Measures.ignore {x : Proc Fault MeasureStream Unit} {k : Nat} (hx : Measures x k) :
    Measures (Proc.ignore x) k := by
  intro s h0 hsmall
  exact Proc.ignore_run (hx s h0 hsmall)

theorem Measures.forM {τ : Type} {f : τ → Proc Fault MeasureStream Unit} {k : τ → Nat} {l : List τ}
    (hf : ∀ a ∈ l, Measures (f a) (k a)) : Measures (forM l f) (l.map k).sum := by
  induction l with
  | nil => exact Measures.pure
  | cons a l ih =>
      rw [List.forM_cons, List.map_cons, List.sum_cons]
      exact Measures.bind (hf a (by simp)) (ih fun b hb => hf b (List.mem_cons_of_mem a hb))

/-- The counter of the stream goes up by the bits. -/
theorem measures_countBits {bits : Int} {k : Nat} (h : bits = k) :
    Measures (MeasureStream.countBits bits) k := by
  intro s h0 hsmall
  rw [MeasureStream.countBits, Proc.modify_run, h, int32_eq ⟨by omega, by omega⟩]

/-- `serialize_int` is measured as the bits of its range. -/
theorem measures_serializeInt {value min max : Int} (hmin : IsInt32 min) (hmax : IsInt32 max)
    (hlt : min < max) (hlo : min ≤ value) (hhi : value ≤ max) :
    Measures (Measuring.serializeInt value min max)
      (bitsRequired (toU32 min) (toU32 max)).toNat := by
  obtain ⟨b, hb, -, -, -, -⟩ := bitsRequired_bounds hmin hmax hlt
  refine Measures.assert hlt (Measures.assert hlo (Measures.assert hhi ?_))
  rw [int32_eq_of_between hmin hmax hlo hhi]
  refine Measures.assert hlt (Measures.assert hlo (Measures.assert hhi ?_))
  exact measures_countBits (by rw [hb, Int.toNat_natCast])

/-- `SerializeBits` of the stream counts its width. -/
theorem measures_streamBits (value : U32) {bits : Int} (h0 : 0 < bits) (h32 : bits ≤ 32) :
    Measures (MeasureStream.serializeBits value bits) bits.toNat :=
  Measures.assert h0 (Measures.assert h32 (measures_countBits (by omega)))

/-- `serialize_bits` is measured as its width. -/
theorem measures_serializeBits (value : U32) {bits : Int} (h0 : 0 < bits) (h32 : bits ≤ 32) :
    Measures (Measuring.serializeBits value bits) bits.toNat :=
  Measures.assert h0 (Measures.assert h32 (measures_streamBits value h0 h32))

/-- `serialize_uint64` is measured as two words. -/
theorem measures_serializeUint64 (value : U64) : Measures (Measuring.serializeUint64 value) 64 :=
  Measures.bind (measures_serializeBits _ (by decide) (by decide))
    (measures_serializeBits _ (by decide) (by decide))

/-- Bytes are counted with the worst case of their alignment. -/
theorem measures_serializeBytes (data : List U8) (n : Nat) :
    Measures (Measuring.serializeBytes data n) (7 + 8 * n) := by
  intro s h0 hsmall
  have halign : Measures (Proc.ignore MeasureStream.serializeAlign) 7 :=
    Measures.ignore (measures_countBits rfl)
  have hcount : Measures (MeasureStream.countBits (int32 ((n : Int) * 8))) (8 * n) :=
    measures_countBits (by rw [int32_eq ⟨by omega, by omega⟩]; omega)
  exact Measures.bind halign hcount s h0 hsmall

/-- `serialize_string` is measured with seven bits for its alignment. -/
theorem measures_serializeString {chars : List U8} {bufferSize : Int} (hnul : 0 ∉ chars)
    (hint : IsInt32 bufferSize) (hlen : (chars.length : Int) < bufferSize - 1) :
    Measures (Measuring.serializeString (chars ++ [0]) bufferSize)
      ((bitsRequired (toU32 0) (toU32 (bufferSize - 1))).toNat + (7 + 8 * chars.length)) := by
  obtain ⟨hint1, hint2⟩ := hint
  have hmax : IsInt32 (bufferSize - 1) := ⟨by omega, by omega⟩
  have hlength : int32 (chars.length : Int) = chars.length := int32_eq ⟨by omega, by omega⟩
  have hrest : Measures (do
      assert ((chars.length : Int) < bufferSize - 1)
      Measuring.serializeInt chars.length 0 (bufferSize - 1)
      Measuring.serializeBytes (chars ++ [0]) chars.length)
      ((bitsRequired (toU32 0) (toU32 (bufferSize - 1))).toNat + (7 + 8 * chars.length)) :=
    Measures.assert hlen (Measures.bind
      (measures_serializeInt ⟨by decide, by decide⟩ hmax (by omega) (by omega) (by omega))
      (measures_serializeBytes _ _))
  intro s h0 hsmall
  rw [Measuring.serializeString]
  refine (Proc.lift_bind_run (strlen_terminated hnul [])).trans ?_
  rw [hlength, int32_eq hmax]
  exact hrest s h0 hsmall

namespace Field

/-- The bits that are counted for a field. -/
def measured : Field → Nat
  | int _ min max => (bitsRequired (toU32 min) (toU32 max)).toNat
  | bits _ width => width.toNat
  | bool _ => 1
  | uint32 _ => 32
  | uint64 _ => 64
  | float _ => 32
  | double _ => 64
  | bytes data => 7 + 8 * data.length
  | string chars bufferSize =>
      (bitsRequired (toU32 0) (toU32 (bufferSize - 1))).toNat + (7 + 8 * chars.length)
  | align => 7

/-- The fields that align. -/
def aligns : Field → Nat
  | bytes _ => 1
  | string _ _ => 1
  | align => 1
  | _ => 0

end Field

/-- One field of any type. -/
theorem measures_measureField {f : Field} (h : f.Valid) : Measures (measureField f) f.measured := by
  cases f with
  | int value min max =>
      obtain ⟨hmin, hmax, hlt, hlo, hhi⟩ := h
      exact measures_serializeInt hmin hmax hlt hlo hhi
  | bits value width => exact measures_serializeBits value h.1 h.2
  | bool value => exact measures_serializeBits _ (by decide) (by decide)
  | uint32 value => exact measures_serializeBits value (by decide) (by decide)
  | uint64 value => exact measures_serializeUint64 value
  | float pattern => exact measures_streamBits pattern (by decide) (by decide)
  | double pattern => exact measures_serializeUint64 pattern
  | bytes data => exact measures_serializeBytes data data.length
  | string chars bufferSize =>
      obtain ⟨hnul, hint, hlen⟩ := h
      exact measures_serializeString hnul hint hlen
  | align => exact measures_countBits rfl

/-- Of one field the writer appends what is counted, less the part of an
alignment that is not needed. -/
theorem length_enc_measured (f : Field) (pos : Nat) :
    (f.enc pos).length ≤ f.measured ∧ f.measured ≤ (f.enc pos).length + 7 * f.aligns := by
  have hbytes : ∀ (data : List U8) (pos : Nat),
      (Wire.bytes data pos).length = (8 - pos % 8) % 8 + 8 * data.length := by
    intro data pos
    rw [Wire.bytes, Enc.length_append, Enc.align, Enc.const, Bits.length_padding, Bits.length_ofList]
  cases f with
  | bytes data =>
      rw [Field.enc, Field.measured, Field.aligns, hbytes]
      omega
  | string chars bufferSize =>
      rw [Field.enc, Field.measured, Field.aligns, Wire.string, Enc.length_append, hbytes, Wire.int,
        Enc.const, Bits.length_ofNat]
      omega
  | align =>
      rw [Field.enc, Field.measured, Field.aligns, Enc.align, Bits.length_padding]
      omega
  | _ =>
      simp [Field.enc, Field.measured, Field.aligns, Wire.int, Wire.bits, Wire.bool, Wire.uint64,
        Enc.const]

/-- The inequalities add up, wherever the fields start. -/
theorem length_concat_measured (fields : List Field) (pos : Nat) :
    (Enc.concat (fields.map Field.enc) pos).length ≤ (fields.map Field.measured).sum ∧
      (fields.map Field.measured).sum ≤
        (Enc.concat (fields.map Field.enc) pos).length + 7 * (fields.map Field.aligns).sum := by
  induction fields generalizing pos with
  | nil => simp [Enc.concat, Enc.empty]
  | cons f fields ih =>
      have hf := length_enc_measured f pos
      have hrest := ih (pos + (f.enc pos).length)
      rw [List.map_cons, List.map_cons, List.map_cons, List.sum_cons, List.sum_cons, Enc.concat,
        Enc.length_append]
      omega

/-- A list of fields from a new stream: the measures add up. -/
theorem measureFields_init {fields : List Field} (hvalid : ∀ f ∈ fields, f.Valid) (totalBytes : Int)
    (hsmall : (fields.map Field.measured).sum < 2147483648) :
    ∃ m, measureFields fields (MeasureStream.init totalBytes) = .ok (some (), m) ∧
      m.getBitsProcessed = (fields.map Field.measured).sum := by
  have hmeasures : Measures (measureFields fields) (fields.map Field.measured).sum :=
    Measures.forM fun f hf => measures_measureField (hvalid f hf)
  have hrun := hmeasures (MeasureStream.init totalBytes) (le_refl 0) (by
    change (0 : Int) + _ < _
    omega)
  refine ⟨_, hrun, ?_⟩
  change (0 : Int) + _ = _
  omega

/-- The bits measured are at least the bits that a `WriteStream` writes, and
exceed them by at most seven for each field that aligns. A buffer with room for
the measured bytes takes the whole list and the flush. -/
theorem measure_bounds {fields : List Field} (hvalid : ∀ f ∈ fields, f.Valid) (totalBytes : Int)
    (hsmall : (fields.map Field.measured).sum < 2147483648) :
    ∃ m, measureFields fields (MeasureStream.init totalBytes) = .ok (some (), m) ∧
      ∀ buffer : Memory, buffer.length % 4 = 0 → 8 * buffer.length < 2147483648 →
        ∃ s, WriteStream.init buffer buffer.length = .ok s ∧
          (∀ s₁, writeFields fields s = .ok (some (), s₁) →
            s₁.getBitsProcessed ≤ m.getBitsProcessed ∧
            m.getBitsProcessed ≤ s₁.getBitsProcessed + 7 * (fields.map Field.aligns).sum) ∧
          ((m.getBitsProcessed + 7) / 8 ≤ buffer.length →
            ∃ s₁ s₂, writeFields fields s = .ok (some (), s₁) ∧
              WriteStream.flush s₁ = .ok (some (), s₂)) := by
  obtain ⟨hle, hge⟩ := length_concat_measured fields 0
  rw [← wireBits] at hle hge
  obtain ⟨m, hmeasure, hm⟩ := measureFields_init hvalid totalBytes hsmall
  refine ⟨m, hmeasure, fun buffer h4 hsize => ?_⟩
  have hlen : (Platform.bits buffer).length = 8 * buffer.length := Bits.length_ofList buffer
  obtain ⟨s, hinit, hrep, hwords, -, -, hctx, -⟩ := WriteStream.init_ok
    (show (0 : Int) ≤ buffer.length by omega) (by omega)
    (show 8 * (buffer.length : Int) ≤ (Platform.bits buffer).length by omega) (by omega)
  have hroom : s.writer.numBits = 8 * buffer.length := by
    rw [hrep.numBits, hwords, int32_eq ⟨by omega, by omega⟩]
    omega
  have hwrites := @writes_writeFields Memory _ 0 fields hvalid
  rw [hm]
  refine ⟨s, hinit, fun s₁ hrun => ?_, fun hfit => ?_⟩
  · -- a run that completes had room for the whole encoding
    have hfits := (overruns_writeFields hvalid).fits hctx hrep (by rw [List.length_nil]; omega)
      (show wireBits fields < 2147483648 by omega) hrun
    obtain ⟨s', hrun', hrep', hsame⟩ := hwrites s [] hctx hrep hfits
    obtain ⟨-, rfl⟩ := Prod.mk.inj (Except.ok.inj (hrun.symm.trans hrun'))
    have hbits := hrep'.bitsWritten_eq (by rwa [hrep.numBits_eq hrep' hsame.buffer])
    have hwritten : s₁.getBitsProcessed = wireBits fields := hbits
    rw [hwritten]
    omega
  · have hbits : (wireBits fields : Int) ≤ s.writer.numBits := by
      rw [hroom]
      omega
    obtain ⟨s₁, s₂, hrun, hflush, -⟩ := WriteStream.writes_flush hwrites hctx hrep hbits
    exact ⟨s₁, s₂, hrun, hflush⟩

/-- The fields of the example, in a buffer of three words. -/
theorem measure_bounds_sample :
    ∃ m, measureFields sampleFields (MeasureStream.init 0) = .ok (some (), m) ∧
      ∃ s s₁ s₂, WriteStream.init (List.replicate 12 0 : Memory) 12 = .ok s ∧
        writeFields sampleFields s = .ok (some (), s₁) ∧
        WriteStream.flush s₁ = .ok (some (), s₂) ∧
        s₁.getBitsProcessed ≤ m.getBitsProcessed ∧
        m.getBitsProcessed ≤ s₁.getBitsProcessed + 7 * 3 := by
  obtain ⟨m, hmeasure, hall⟩ := measure_bounds valid_sampleFields 0 (by decide +kernel)
  obtain ⟨s, hinit, hbounds, hroom⟩ := hall (List.replicate 12 0) (by decide) (by decide)
  have hfit : (m.getBitsProcessed + 7) / 8 ≤ 12 := by
    rw [← (Prod.mk.inj (Except.ok.inj hmeasure)).2]
    decide +kernel
  obtain ⟨s₁, s₂, hrun, hflush⟩ := hroom hfit
  exact ⟨m, hmeasure, s, s₁, s₂, hinit, hrun, hflush, hbounds s₁ hrun⟩

end RudpNetwork
