import RudpNetwork.Fields

/-!
# RudpNetwork.Overrun

What a writer does when its buffer is too small.

`WriteStream` has no overflow check: its methods return `true`, and it is
`BitWriter` that stops at an assertion.  `Overruns` says so for a procedure, and
is the counterpart of `Writes`; together they decide for every buffer whether a
sequence of writes completes.

## Main results

* `Overruns` — a procedure that stops at an assertion wherever its encoding does not fit.
* `overruns_writeFields` — no list of fields is cut short by the end of the buffer.
-/

namespace RudpNetwork

open MachineInt

variable {β : Type} [Platform β]

namespace WriteStream

variable {c : Context}

/-- In a stream with the context `c` and no room for `e`, `x` stops at an
assertion of the bit writer. -/
def Overruns (c : Context) (x : Proc Fault (WriteStream β) Unit) (e : Enc) : Prop :=
  ∀ s l, s.context = c → s.writer.Rep l → (l.length : Int) ≤ s.writer.numBits →
    s.writer.numBits < ((l ++ e l.length).length : Int) →
    (l ++ e l.length).length < 2147483648 → x s = .error .assertion

/-- There is always room for nothing. -/
theorem Overruns.nothing (x : Proc Fault (WriteStream β) Unit) : Overruns c x .empty := by
  intro s l _ _ hle hfull _
  rw [Enc.empty, List.append_nil] at hfull
  omega

/-- There is always room for padding, because the buffer ends with a word. -/
theorem Overruns.align (x : Proc Fault (WriteStream β) Unit) : Overruns c x .align := by
  intro s l _ hs hle hfull _
  have hround := hs.numBits_emod
  rw [Enc.align, List.length_append, Bits.length_padding] at hfull
  omega

/-- The room ends in the first part, or behind it. -/
theorem Overruns.bind {x y : Proc Fault (WriteStream β) Unit} {e₁ e₂ : Enc}
    (hx : Overruns c x e₁) (hwrite : Writes c x e₁) (hy : Overruns c y e₂) :
    Overruns c (do x; y) (e₁ ++ e₂) := by
  intro s l hc hs hle hfull hsmall
  rw [Enc.append_apply, ← List.append_assoc] at hfull hsmall
  by_cases hfit : ((l ++ e₁ l.length).length : Int) ≤ s.writer.numBits
  · obtain ⟨s₁, hrun, hrep, hsame⟩ := hwrite s l hc hs hfit
    have hnum := hs.numBits_eq hrep hsame.buffer
    rw [← List.length_append] at hfull hsmall
    have hstop := hy s₁ _ (hsame.context.trans hc) hrep (by omega) (by omega) hsmall
    exact (Proc.bind_run_some hrun).trans hstop
  · have hlen := @List.length_append _ (l ++ e₁ l.length) (e₂ (l.length + (e₁ l.length).length))
    exact Proc.bind_run_error (hx s l hc hs hle (by omega) (by omega))

/-- An assertion that holds does not change where a writer stops. -/
theorem Overruns.assert {p : Prop} [Decidable p] {x : Proc Fault (WriteStream β) Unit} {e : Enc}
    (hx : Overruns c x e) : Overruns c (do assert p; x) e := by
  intro s l hc hs hle hfull hsmall
  by_cases hp : p
  · exact (Proc.require_bind_run hp).trans (hx s l hc hs hle hfull hsmall)
  · have hassert : RudpNetwork.assert p = .error .assertion := by
      simp [RudpNetwork.assert, require, hp]
    refine Proc.bind_run_error ?_
    change Proc.lift _ s = _
    rw [Proc.lift, hassert]
    rfl

/-- A fault is not caught by a caller that forgets the result. -/
theorem Overruns.ignore {x : Proc Fault (WriteStream β) Unit} {e : Enc} (hx : Overruns c x e) :
    Overruns c (Proc.ignore x) e := by
  intro s l hc hs hle hfull hsmall
  rw [Proc.ignore, hx s l hc hs hle hfull hsmall]

/-- A loop over a list stops at the first element that has no room. -/
theorem Overruns.forM {τ : Type} {f : τ → Proc Fault (WriteStream β) Unit} {e : τ → Enc}
    {l : List τ} (hf : ∀ a ∈ l, Overruns c (f a) (e a)) (hwrite : ∀ a ∈ l, Writes c (f a) (e a)) :
    Overruns c (forM l f) (.concat (l.map e)) := by
  induction l with
  | nil => exact Overruns.nothing _
  | cons a l ih =>
      rw [List.forM_cons, List.map_cons]
      exact Overruns.bind (hf a (by simp)) (hwrite a (by simp))
        (ih (fun b hb => hf b (List.mem_cons_of_mem a hb))
          fun b hb => hwrite b (List.mem_cons_of_mem a hb))

/-- A loop of `n` rounds stops at the first round that has no room. -/
theorem Overruns.times {x : Proc Fault (WriteStream β) Unit} {e : Enc} (hx : Overruns c x e)
    (hwrite : Writes c x e) (n : Nat) :
    Overruns c (Proc.times n x) (.concat (List.replicate n e)) := by
  induction n with
  | zero => exact Overruns.nothing _
  | succ n ih => exact Overruns.bind hx hwrite ih

/-- A run that completes had room. -/
theorem Overruns.fits {x : Proc Fault (WriteStream β) Unit} {e : Enc} (hx : Overruns c x e)
    {s s' : WriteStream β} {l : List Bool} {o : Option Unit} (hc : s.context = c)
    (hs : s.writer.Rep l) (hle : (l.length : Int) ≤ s.writer.numBits)
    (hsmall : (l ++ e l.length).length < 2147483648) (h : x s = .ok (o, s')) :
    ((l ++ e l.length).length : Int) ≤ s.writer.numBits := by
  by_contra hfull
  rw [hx s l hc hs hle (by omega) hsmall] at h
  contradiction

/-! ## the writing methods -/

/-- A fault of the bit writer is one of the stream. -/
theorem overruns_onWriter {f : BitWriter β → Except Fault (BitWriter β)} {e : Enc}
    (hf : ∀ w l, w.Rep l → (l.length : Int) ≤ w.numBits →
      w.numBits < ((l ++ e l.length).length : Int) → (l ++ e l.length).length < 2147483648 →
      f w = .error .assertion) :
    Overruns c (onWriter f) e := by
  intro s l _ hs hle hfull hsmall
  rw [onWriter, hf s.writer l hs hle hfull hsmall]
  rfl

/-- `WriteBits` asserts that its bits fit. -/
theorem overruns_writeBits (value : U32) {bits : Int} (h0 : 0 < bits) (h32 : bits ≤ 32) :
    Overruns c (onWriter (BitWriter.writeBits · value bits) : Proc Fault (WriteStream β) Unit)
      (.const (Bits.ofNat bits.toNat value.toNat)) := by
  apply overruns_onWriter
  intro w l hw hle hfull hsmall
  rw [Enc.const, List.length_append, Bits.length_ofNat] at hfull hsmall
  exact BitWriter.writeBits_full hw value h0 h32 (by omega) (by omega)

/-- `SerializeBits` does not look for room before it writes. -/
theorem overruns_serializeBits (value : U32) {bits : Int} (h0 : 0 < bits) (h32 : bits ≤ 32) :
    Overruns c (serializeBits value bits : Proc Fault (WriteStream β) Unit)
      (.const (Bits.ofNat bits.toNat value.toNat)) :=
  Overruns.assert (Overruns.assert (overruns_writeBits value h0 h32))

/-- Neither does `SerializeInteger`. -/
theorem overruns_serializeInteger {value min max : Int} (hmin : IsInt32 min) (hmax : IsInt32 max)
    (hlt : min < max) :
    Overruns c (serializeInteger value min max : Proc Fault (WriteStream β) Unit)
      (Wire.int value min max) := by
  obtain ⟨b, hb, hb1, hb32, -, -⟩ := bitsRequired_bounds hmin hmax hlt
  have hbits := @Platform.bitsRequired_eq β _ (toU32 min) (toU32 max) (toU32_ne hmin hmax hlt)
  refine Overruns.assert (Overruns.assert (Overruns.assert ?_))
  rw [hbits]
  have hover := @overruns_writeBits β _ c (toU32 (value - min)) b (by omega) (by omega)
  intro s l hc hs hle hfull hsmall
  rw [Wire.int, Enc.const, List.length_append, Bits.length_ofNat, hb] at hfull hsmall
  rw [hb]
  apply hover s l hc hs hle <;> rwa [Enc.const, List.length_append, Bits.length_ofNat]

/-- The alignment in front of the bytes fits; the bytes do not. -/
theorem overruns_serializeBytes {data : List U8} {bytes : Int} (hlen : bytes ≤ data.length)
    (h0 : 0 ≤ bytes) :
    Overruns c (serializeBytes data bytes : Proc Fault (WriteStream β) Unit)
      (.align ++ .const (Bits.ofList (data.take bytes.toNat))) := by
  refine Overruns.assert ?_
  intro s l hc hs hle hfull hsmall
  have hround := hs.numBits_emod
  have hbytes : (data.take bytes.toNat).length = bytes.toNat := by
    rw [List.length_take]
    omega
  rw [Enc.append_apply, ← List.append_assoc, List.length_append, Enc.const, Bits.length_ofList,
    hbytes, Enc.align] at hfull hsmall
  obtain ⟨s₁, hrun, hrep, hsame⟩ := writes_serializeAlign s l hc hs (by
    rw [Enc.align, List.length_append, Bits.length_padding]
    omega)
  have hnum := hs.numBits_eq hrep hsame.buffer
  have hlen8 : (l ++ Bits.padding l.length).length = l.length + (8 - l.length % 8) % 8 := by
    rw [List.length_append, Bits.length_padding]
  rw [Enc.align] at hrep
  have hstop := @BitWriter.writeBytes_full β _ s₁.writer _ data bytes hrep (by omega) h0 (by omega)
    (by omega) (by omega)
  refine (Proc.bind_run_some hrun).trans ?_
  rw [onWriter, hstop]
  rfl

end WriteStream

/-! ## the macros -/

namespace Writing

open WriteStream (Overruns Writes)

variable {c : Context}

/-- `serialize_int` without room for its bits. -/
theorem overruns_serializeInt {value min max : Int} (hmin : IsInt32 min) (hmax : IsInt32 max)
    (hlt : min < max) (hlo : min ≤ value) (hhi : value ≤ max) :
    Overruns c (serializeInt value min max : Proc Fault (WriteStream β) Unit)
      (Wire.int value min max) := by
  refine Overruns.assert (Overruns.assert (Overruns.assert ?_))
  rw [int32_eq_of_between hmin hmax hlo hhi]
  exact WriteStream.overruns_serializeInteger hmin hmax hlt

theorem overruns_serializeBits (value : U32) {bits : Int} (h0 : 0 < bits) (h32 : bits ≤ 32) :
    Overruns c (serializeBits value bits : Proc Fault (WriteStream β) Unit) (Wire.bits value bits) :=
  Overruns.assert (Overruns.assert (WriteStream.overruns_serializeBits value h0 h32))

/-- `serialize_bool` without room for its bit. -/
theorem overruns_serializeBool (value : Bool) :
    Overruns c (serializeBool value : Proc Fault (WriteStream β) Unit) (Wire.bool value) := by
  rw [← Wire.bits_bool]
  exact overruns_serializeBits _ (by decide) (by decide)

/-- `serialize_uint64` without room for both of its words. -/
theorem overruns_serializeUint64 (value : U64) :
    Overruns c (serializeUint64 value : Proc Fault (WriteStream β) Unit) (Wire.uint64 value) := by
  rw [← Wire.bits_halves]
  exact Overruns.bind (overruns_serializeBits _ (by decide) (by decide))
    (writes_serializeBits _ (by decide) (by decide))
    (overruns_serializeBits _ (by decide) (by decide))

theorem overruns_serializeBytes (data : List U8) :
    Overruns c (serializeBytes data data.length : Proc Fault (WriteStream β) Unit)
      (Wire.bytes data) := by
  have hover := @WriteStream.overruns_serializeBytes β _ c data data.length (le_refl _) (by omega)
  rwa [Int.toNat_natCast, List.take_length] at hover

/-- `serialize_string` without room for its length or its bytes. -/
theorem overruns_serializeString {chars : List U8} {bufferSize : Int} (hnul : 0 ∉ chars)
    (hint : IsInt32 bufferSize) (hlen : (chars.length : Int) < bufferSize - 1) :
    Overruns c (serializeString (chars ++ [0]) bufferSize : Proc Fault (WriteStream β) Unit)
      (Wire.string chars bufferSize) := by
  obtain ⟨hint1, hint2⟩ := hint
  have hmin : IsInt32 0 := ⟨by decide, by decide⟩
  have hmax : IsInt32 (bufferSize - 1) := ⟨by omega, by omega⟩
  have hlength : int32 (chars.length : Int) = chars.length := int32_eq ⟨by omega, by omega⟩
  have hbytes := @WriteStream.overruns_serializeBytes β _ c (chars ++ [0]) chars.length
    (by simp) (by omega)
  rw [Int.toNat_natCast, List.take_left] at hbytes
  have hrest : Overruns c (do
      assert ((chars.length : Int) < bufferSize - 1)
      serializeInt chars.length 0 (bufferSize - 1)
      serializeBytes (chars ++ [0]) chars.length : Proc Fault (WriteStream β) Unit)
      (Wire.string chars bufferSize) :=
    Overruns.assert (Overruns.bind
      (overruns_serializeInt hmin hmax (by omega) (by omega) (by omega))
      (writes_serializeInt hmin hmax (by omega) (by omega) (by omega)) hbytes)
  intro s l hc hs hle hfull hsmall
  rw [serializeString]
  refine (Proc.lift_bind_run (strlen_terminated hnul [])).trans ?_
  rw [hlength, int32_eq hmax]
  exact hrest s l hc hs hle hfull hsmall

end Writing

/-! ## sequences of fields -/

variable {c : Context}

/-- One field of any type. -/
theorem overruns_writeField {f : Field} (h : f.Valid) :
    WriteStream.Overruns c (writeField f : Proc Fault (WriteStream β) Unit) f.enc := by
  cases f with
  | int value min max =>
      obtain ⟨hmin, hmax, hlt, hlo, hhi⟩ := h
      exact Writing.overruns_serializeInt hmin hmax hlt hlo hhi
  | bits value width => exact Writing.overruns_serializeBits value h.1 h.2
  | bool value => exact Writing.overruns_serializeBool value
  | uint32 value => exact Writing.overruns_serializeBits value (by decide) (by decide)
  | uint64 value => exact Writing.overruns_serializeUint64 value
  | float pattern => exact WriteStream.overruns_serializeBits pattern (by decide) (by decide)
  | double pattern => exact Writing.overruns_serializeUint64 pattern
  | bytes data => exact Writing.overruns_serializeBytes data
  | string chars bufferSize =>
      obtain ⟨hnul, hint, hlen⟩ := h
      exact Writing.overruns_serializeString hnul hint hlen
  | align => exact WriteStream.Overruns.align _

/-- A list of fields stops at the first that has no room. -/
theorem overruns_writeFields {fields : List Field} (h : ∀ f ∈ fields, f.Valid) :
    WriteStream.Overruns c (writeFields fields : Proc Fault (WriteStream β) Unit)
      (.concat (fields.map Field.enc)) :=
  WriteStream.Overruns.forM (fun f hf => overruns_writeField (h f hf))
    fun f hf => writes_writeField (h f hf)

end RudpNetwork
