import RudpNetwork.Fields

/-!
# RudpNetwork.Truncation

What a reader does with data that has been cut short.

`Stops` is the counterpart of `Reads`: the encoding of the field is in the
buffer, but not all of it may be read.  As with `Reads` there is one lemma for
each macro.  `readFields_truncated` puts them together: of a sequence that was
written and flushed, whatever the cut, the fields before it are read back and
the field that it hits is reported.

## Main results

* `stops_readField` — a field that was cut fails with an overflow, for every type.
* `readFields_truncated` — every cut of a sequence of fields.
-/

namespace RudpNetwork

open MachineInt

variable {β : Type} [Platform β]

namespace ReadStream

variable {τ α γ : Type} {c : Context}

/-- In a stream with the context `c` and the bits `e` at its position, of which the
last may not be read, `x` returns `false` and reports an overflow. The data ends
with a byte, not before the position. -/
def Stops (c : Context) (x : ReadProc β τ α) (e : Enc) (o : τ) : Prop :=
  ∀ s B (N : Int) (pos : Nat), s.context = c → s.At B N pos → N % 8 = 0 → pos ≤ N →
    N < pos + (e pos).length → pos + (e pos).length < 2147483648 →
    Bits.slice B pos (e pos).length = e pos →
    ∃ s' o', x (s, o) = .ok (none, s', o') ∧ s'.error = .streamOverflow

/-- Nothing is never cut short. -/
theorem Stops.nothing (x : ReadProc β τ α) (o : τ) : Stops c x .empty o := by
  intro s B N pos _ _ _ hle hcut _ _
  have hlen : (Enc.empty pos).length = 0 := rfl
  omega

/-- Neither is padding, because the data ends with a byte. -/
theorem Stops.align (x : ReadProc β τ α) (o : τ) : Stops c x .align o := by
  intro s B N pos _ _ h8 hle hcut _ _
  rw [Enc.align, Bits.length_padding] at hcut
  omega

/-- The cut is in the first part, or behind it. -/
theorem Stops.bind {x : ReadProc β τ α} {f : α → ReadProc β τ γ} {e₁ e₂ : Enc} {o o' : τ} {a : α}
    (hx : Stops c x e₁ o) (hread : Reads c x e₁ o o' a) (hf : Stops c (f a) e₂ o') :
    Stops c (x >>= f) (e₁ ++ e₂) o := by
  intro s B N pos hc hs h8 hle hcut hsmall hslice
  rw [Enc.append_apply] at hslice
  rw [Enc.length_append] at hcut hsmall
  obtain ⟨h1, h2⟩ := Bits.slice_eq_append hslice
  by_cases hfit : (pos + (e₁ pos).length : Int) ≤ N
  · obtain ⟨s₁, hrun, hat, hsame⟩ := hread s B N pos hc hs h1 hfit
    obtain ⟨s', o'', hrun', herr⟩ := hf s₁ B N _ (hsame.context.trans hc) hat h8 (by omega)
      (by omega) (by omega) h2
    exact ⟨s', o'', (Proc.bind_run_some hrun).trans hrun', herr⟩
  · obtain ⟨s', o'', hrun, herr⟩ := hx s B N pos hc hs h8 hle (by omega) (by omega) h1
    exact ⟨s', o'', Proc.bind_run_none hrun, herr⟩

/-- What follows reads nothing. -/
theorem Stops.before {x : ReadProc β τ α} {f : α → ReadProc β τ γ} {e : Enc} {o : τ}
    (hx : Stops c x e o) : Stops c (x >>= f) e o := by
  intro s B N pos hc hs h8 hle hcut hsmall hslice
  obtain ⟨s', o', hrun, herr⟩ := hx s B N pos hc hs h8 hle hcut hsmall hslice
  exact ⟨s', o', Proc.bind_run_none hrun, herr⟩

/-- What comes first reads nothing. -/
theorem Stops.after {x : ReadProc β τ α} {f : α → ReadProc β τ γ} {e : Enc} {o o' : τ} {a : α}
    (hread : Reads c x .empty o o' a) (hf : Stops c (f a) e o') : Stops c (x >>= f) e o := by
  rw [← Enc.empty_append e]
  exact Stops.bind (Stops.nothing x o) hread hf

theorem Stops.assert {p : Prop} [Decidable p] {x : ReadProc β τ α} {e : Enc} {o : τ} (hp : p)
    (hx : Stops c x e o) : Stops c (do assert p; x) e o := by
  have hassert : RudpNetwork.assert p = .ok () := require_eq_ok.mpr hp
  exact Stops.after (Reads.lift hassert o) hx

/-! ## the methods of the stream -/

/-- `SerializeBits` whose bits were cut. -/
theorem stops_serializeBits (value : U32) {bits : Int} (h0 : 0 < bits) (h32 : bits ≤ 32) (o : τ) :
    Stops c (onStream (serializeBits bits) : ReadProc β τ U32)
      (.const (Bits.ofNat bits.toNat value.toNat)) o := by
  intro s B N pos _ hs _ _ hcut hsmall _
  rw [Enc.const, Bits.length_ofNat] at hcut hsmall
  have hrun := serializeBits_full hs.reader h0 h32 (by omega) (by omega)
  exact ⟨_, o, onStream_run hrun, rfl⟩

/-- `SerializeInteger` whose bits were cut. -/
theorem stops_serializeInteger {value min max : Int} (hmin : IsInt32 min) (hmax : IsInt32 max)
    (hlt : min < max) (o : τ) :
    Stops c (onStream (serializeInteger min max) : ReadProc β τ Int)
      (Wire.int value min max) o := by
  intro s B N pos _ hs _ _ hcut hsmall _
  obtain ⟨b, hb, -, -, -, -⟩ := bitsRequired_bounds hmin hmax hlt
  rw [Wire.int, Enc.const, Bits.length_ofNat, hb, Int.toNat_natCast] at hcut hsmall
  have hrun := serializeInteger_full hs.reader hmin hmax hlt hb (by omega) hcut
  exact ⟨_, o, onStream_run hrun, rfl⟩

/-- The alignment in front of the bytes is not cut; the bytes are. -/
theorem stops_serializeBytes {data xs : List U8} (o : τ) :
    Stops c (onStream (serializeBytes data xs.length) : ReadProc β τ (List U8)) (Wire.bytes xs) o := by
  intro s B N pos _ hs h8 hle hcut hsmall hslice
  rw [Wire.bytes] at hcut hsmall hslice
  rw [Enc.length_append, Enc.align, Enc.const, Bits.length_padding, Bits.length_ofList] at hcut hsmall
  obtain ⟨hzeros, -⟩ := Bits.slice_eq_append hslice
  rw [Enc.align, Bits.length_padding] at hzeros
  obtain ⟨s₁, halign, hat, -⟩ := serializeAlign_ok hs hzeros (by omega)
  have hrun := @serializeBytes_full β _ s s₁ B N _ data xs.length halign hat.reader (by omega)
    (by omega) (by omega)
  exact ⟨_, o, onStream_run hrun, rfl⟩

end ReadStream

/-! ## the macros -/

namespace Reading

open ReadStream (Stops Reads)

variable {τ : Type} {c : Context}

/-- `serialize_int` whose bits were cut. -/
theorem stops_serializeInt {cast : Int → Int} {store : Int → τ → τ} {value min max : Int}
    (hmin : IsInt32 min) (hmax : IsInt32 max) (hlt : min < max) (o : τ) :
    Stops c (serializeInt cast store min max : ReadProc β τ Unit) (Wire.int value min max) o :=
  Stops.assert hlt (Stops.before (ReadStream.stops_serializeInteger hmin hmax hlt o))

/-- `serialize_bits` whose bits were cut. -/
theorem stops_serializeBits {store : U32 → τ → τ} (value : U32) {bits : Int} (h0 : 0 < bits)
    (h32 : bits ≤ 32) (o : τ) :
    Stops c (serializeBits store bits : ReadProc β τ Unit) (Wire.bits value bits) o :=
  Stops.assert h0 (Stops.assert h32 (Stops.before (ReadStream.stops_serializeBits value h0 h32 o)))

/-- `serialize_bool` whose bit was cut. -/
theorem stops_serializeBool {store : Bool → τ → τ} (value : Bool) (o : τ) :
    Stops c (serializeBool store : ReadProc β τ Unit) (Wire.bool value) o := by
  rw [← Wire.bits_bool]
  exact stops_serializeBits _ (by decide) (by decide) o

/-- `serialize_uint64` whose words were cut. -/
theorem stops_serializeUint64 {store : U64 → τ → τ} (value : U64) (o : τ) :
    Stops c (serializeUint64 store : ReadProc β τ Unit) (Wire.uint64 value) o := by
  rw [← Wire.bits_halves]
  exact Stops.bind (ReadStream.stops_serializeBits _ (by decide) (by decide) o)
    (ReadStream.reads_serializeBits _ (by decide) (by decide) o)
    (Stops.before (ReadStream.stops_serializeBits _ (by decide) (by decide) o))

/-- The uninitialised local is stored before `false` is returned. -/
theorem stops_serializeFloat {store : U32 → τ → τ} (uninit value : U32) (o : τ) :
    Stops c (serializeFloat uninit store : ReadProc β τ Unit) (Wire.bits value 32) o := by
  intro s B N pos hc hs h8 hle hcut hsmall hslice
  obtain ⟨s', o', hrun, herr⟩ := ReadStream.stops_serializeBits value (by decide) (by decide) o
    s B N pos hc hs h8 hle hcut hsmall hslice
  refine ⟨s', store uninit o', ?_, herr⟩
  rw [serializeFloat]
  exact Proc.bind_run_some (Proc.attempt_run hrun)

theorem stops_serializeBytes {data : τ → List U8} {store : List U8 → τ → τ} {xs : List U8} (o : τ) :
    Stops c (serializeBytes data store xs.length : ReadProc β τ Unit) (Wire.bytes xs) o :=
  Stops.after (Reads.locals o) (Stops.before (ReadStream.stops_serializeBytes o))

/-- The cut is in the length, or the length is read and the cut is in the characters. -/
theorem stops_serializeString {string : τ → List U8} {store : List U8 → τ → τ} {chars : List U8}
    {bufferSize : Int} (hint : IsInt32 bufferSize) (hlen : (chars.length : Int) < bufferSize - 1)
    (o : τ) :
    Stops c (serializeString string store bufferSize : ReadProc β τ Unit)
      (Wire.string chars bufferSize) o := by
  obtain ⟨hint1, hint2⟩ := hint
  have hmin : IsInt32 0 := ⟨by decide, by decide⟩
  have hmax : IsInt32 (bufferSize - 1) := ⟨by omega, by omega⟩
  have hpos : 0 < bufferSize - 1 := by omega
  have hnonneg : (0 : Int) ≤ chars.length := by omega
  rw [serializeString, int32_eq hmax, Wire.string]
  refine Stops.assert hpos (Stops.bind (ReadStream.stops_serializeInteger hmin hmax hpos o)
    (ReadStream.reads_serializeInteger hmin hmax hpos hnonneg (by omega) o) ?_)
  refine Stops.after (reads_checkRange hnonneg (by omega) o) ?_
  exact Stops.after (Reads.locals o) (Stops.before (ReadStream.stops_serializeBytes o))

end Reading

/-! ## sequences of fields -/

variable {c : Context}

/-- A field of any type that was cut. -/
theorem stops_readField {f : Field} {t : FieldType} (hv : f.Valid) (hm : f.Matches t)
    (vs : List Value) :
    ReadStream.Stops c (readField t : ReadProc β (List Value) Unit) f.enc vs := by
  cases hm with
  | int value min max =>
      rw [readField]
      exact Reading.stops_serializeInt hv.1 hv.2.1 hv.2.2.1 vs
  | bits value width =>
      rw [readField]
      exact Reading.stops_serializeBits value hv.1 hv.2 vs
  | bool value =>
      rw [readField]
      exact Reading.stops_serializeBool value vs
  | uint32 value =>
      rw [readField]
      exact Reading.stops_serializeBits value (by decide) (by decide) vs
  | uint64 value =>
      rw [readField]
      exact Reading.stops_serializeUint64 value vs
  | float pattern uninit =>
      rw [readField]
      exact Reading.stops_serializeFloat uninit pattern vs
  | double pattern =>
      rw [readField]
      exact Reading.stops_serializeUint64 pattern vs
  | bytes data array h =>
      rw [readField, h]
      exact Reading.stops_serializeBytes vs
  | string chars bufferSize array h =>
      rw [readField, h]
      exact Reading.stops_serializeString hv.2.1 hv.2.2 vs
  | align => exact ReadStream.Stops.align _ vs

/-- A reader of `types` gets the values of the first fields; at the next one it
returns `false` and reports an overflow. -/
def FailsInside (s : ReadStream β) (vs : List Value) (fields : List Field)
    (types : List FieldType) : Prop :=
  ∃ before f after first t rest, fields = before ++ f :: after ∧ types = first ++ t :: rest ∧
    before.length = first.length ∧ ∃ s₁ s₂ out,
      readFields first (s, vs) = .ok (some (), s₁, vs ++ before.flatMap Field.values) ∧
      s₁.error = s.error ∧
      readField t (s₁, vs ++ before.flatMap Field.values) = .ok (none, s₂, out) ∧
      readFields types (s, vs) = .ok (none, s₂, out) ∧ s₂.error = .streamOverflow

/-- The cut is in the first field, or that field is read and the cut is in the
others. -/
theorem failsInside_of_cut {fields : List Field} {types : List FieldType}
    (hv : ∀ f ∈ fields, f.Valid) (hm : List.Forall₂ Field.Matches fields types)
    {s : ReadStream β} {B : List Bool} {N : Int} {pos : Nat} (vs : List Value)
    (hs : s.At B N pos) (h8 : N % 8 = 0) (hle : pos ≤ N)
    (hcut : N < pos + (Enc.concat (fields.map Field.enc) pos).length)
    (hsmall : pos + (Enc.concat (fields.map Field.enc) pos).length < 2147483648)
    (hslice : Bits.slice B pos (Enc.concat (fields.map Field.enc) pos).length =
      Enc.concat (fields.map Field.enc) pos) :
    FailsInside s vs fields types := by
  induction hm generalizing s pos vs with
  | nil =>
      have hlen : (Enc.concat (List.map Field.enc []) pos).length = 0 := rfl
      omega
  | @cons f t fields types hft hrest ih =>
      rw [List.map_cons, Enc.concat, Enc.append_apply] at hslice
      rw [List.map_cons, Enc.concat, Enc.length_append] at hcut hsmall
      obtain ⟨h1, h2⟩ := Bits.slice_eq_append hslice
      by_cases hfit : (pos + (f.enc pos).length : Int) ≤ N
      · obtain ⟨s₁, hrun, hat, hsame⟩ := reads_readField (hv f (by simp)) hft vs s B N pos rfl hs h1
          hfit
        obtain ⟨before, g, after, first, u, rest, hfields, htypes, hlen, s₂, s₃, out, hbefore, herr,
          hfail, hall, hover⟩ := ih (fun g hg => hv g (List.mem_cons_of_mem f hg))
            (vs ++ f.values) hat (by omega) (by omega) (by omega) h2
        rw [List.append_assoc, ← List.flatMap_cons] at hbefore hfail
        refine ⟨f :: before, g, after, t :: first, u, rest, by rw [hfields, List.cons_append],
          by rw [htypes, List.cons_append], by rw [List.length_cons, List.length_cons, hlen], s₂, s₃,
          out, ?_, herr.trans hsame.error, hfail, ?_, hover⟩
        · rw [readFields, List.forM_cons]
          exact (Proc.bind_run_some hrun).trans hbefore
        · rw [readFields, List.forM_cons]
          exact (Proc.bind_run_some hrun).trans hall
      · obtain ⟨s', out, hrun, hover⟩ := stops_readField (hv f (by simp)) hft vs s B N pos rfl hs h8
          hle (by omega) (by omega) h1
        refine ⟨[], f, fields, [], t, types, rfl, rfl, rfl, s, s', out, ?_, rfl, ?_, ?_, hover⟩
        · rw [List.flatMap_nil, List.append_nil]
          rfl
        · rwa [List.flatMap_nil, List.append_nil]
        · rw [readFields, List.forM_cons]
          exact Proc.bind_run_none hrun

/-- Of what was written and flushed, every byte is missed: with a smaller byte
count the fields before the cut are read back, the field that is cut is not, and
the stream says why. -/
theorem readFields_truncated {fields : List Field} {types : List FieldType}
    (hvalid : ∀ f ∈ fields, f.Valid) (hmatch : List.Forall₂ Field.Matches fields types)
    {buffer : Memory} (h4 : buffer.length % 4 = 0) (hint : buffer.length < 2147483648) :
    ∃ s, WriteStream.init buffer buffer.length = .ok s ∧
      ((wireBits fields : Int) ≤ s.getBitsRemaining →
        ∃ s₁ s₂, writeFields fields s = .ok (some (), s₁) ∧
          WriteStream.flush s₁ = .ok (some (), s₂) ∧
          ∀ n : Nat, n < s₂.getBytesProcessed →
            FailsInside (ReadStream.init s₂.getData n) [] fields types) := by
  have hlen : (Platform.bits buffer).length = 8 * buffer.length := Bits.length_ofList buffer
  obtain ⟨s, hinit, hroom, hwrite⟩ := WriteStream.writes_fresh (writes_writeFields hvalid)
    (show (0 : Int) ≤ buffer.length by omega) (by omega) (show 8 * (buffer.length : Int) ≤
      (Platform.bits buffer).length by omega) (by omega)
  refine ⟨s, hinit, fun hfit => ?_⟩
  obtain ⟨s₁, s₂, hrun, hflush, hbits, hlen₂, -, hbytesP, -⟩ := hwrite hfit
  refine ⟨s₁, s₂, hrun, hflush, fun n hn => ?_⟩
  have hslice := slice_of_flushed hbits
  obtain ⟨m, hm⟩ : ∃ m, m = wireBits fields := ⟨_, rfl⟩
  rw [← wireBits, ← hm] at hbytesP
  rw [hroom, ← hm] at hfit
  have hsmall : (8 * ((m + 7) / 8) : Nat) ≤ 8 * (buffer.length : Int) ∧
      8 * ((m + 7) / 8) < 2147483648 := by
    unfold int32 at hfit
    omega
  have hat := @ReadStream.init_at Memory _ s₂.getData n (by omega) (by omega) (by omega)
  rw [show int32 ((n : Int) * 8) = 8 * n by rw [int32_eq ⟨by omega, by omega⟩, Int.mul_comm]] at hat
  rw [wireBits] at hm
  exact failsInside_of_cut hvalid hmatch [] hat (by omega) (by omega) (by omega) (by omega) hslice

/-- Every cut of the fields of the example. -/
theorem readFields_truncated_sample :
    ∃ s s₁ s₂, WriteStream.init (List.replicate 12 0 : Memory) 12 = .ok s ∧
      writeFields sampleFields s = .ok (some (), s₁) ∧
      WriteStream.flush s₁ = .ok (some (), s₂) ∧
      ∀ n : Nat, n < s₂.getBytesProcessed →
        FailsInside (ReadStream.init s₂.getData n) [] sampleFields sampleTypes := by
  obtain ⟨s, hinit, hrun⟩ := @readFields_truncated sampleFields sampleTypes valid_sampleFields
    matches_sampleFields (List.replicate 12 0) (by decide) (by decide)
  have hfit : (wireBits sampleFields : Int) ≤ s.getBitsRemaining := by
    rw [← Except.ok.inj hinit]
    decide +kernel
  obtain ⟨s₁, s₂, h⟩ := hrun hfit
  exact ⟨s, s₁, s₂, hinit, h⟩

end RudpNetwork
