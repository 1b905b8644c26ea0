import RudpNetwork.Fields
import RudpNetwork.RangeCheck
import RudpNetwork.StringRead
import Mathlib.Data.List.Forall2

/-!
# RudpNetwork.Acceptance

What a reader of typed fields accepts: the encodings of fields of these types, and
nothing else.

`readFields_writeFields` starts from what was written.  Here the bytes are arbitrary,
and what may stand in them is a relation: `Decides x o L` says that `x` takes any
encoding of `L` that is present and returns `false` when none is.  For a macro the
relation is that some value is stored (`Stores`).  Two readers in sequence store the
pair of their values, so one lemma a macro is enough for all lists of types
(`readFields_accepts_iff`).

## Main results

* `stores_readField`, `stores_readFields` — a field, and a list of fields, accept the
  encodings of what may be stored and nothing else.
* `readFields_accepts_iff` — which bytes a list of reads accepts, and what it stores then.
-/

namespace RudpNetwork

open MachineInt

variable {β τ α γ : Type} [Platform β]

/-- Only the bits of its width of a value are sent. -/
theorem Wire.bits_setWidth (value : U32) {w : Nat} :
    bits ((value.setWidth w).setWidth 32) w = bits value w := by
  have hlow : ((value.setWidth w).setWidth 32).toNat = value.toNat % 2 ^ w := by
    rw [BitVec.toNat_setWidth, BitVec.toNat_setWidth]
    exact Nat.mod_eq_of_lt (lt_of_le_of_lt (Nat.mod_le _ _) value.isLt)
  rw [bits, bits, hlow, Int.toNat_natCast, Bits.ofNat_mod _ (le_refl w)]

/-- The encoding `e` stands at bit `pos` of the first `N` bits of `B`. -/
structure Present (B : List Bool) (N : Int) (pos : Nat) (e : Enc) : Prop where
  bits : Bits.slice B pos (e pos).length = e pos
  there : (pos + (e pos).length : Int) ≤ N

/-- Nothing stands everywhere. -/
theorem Present.empty {B : List Bool} {N : Int} {pos : Nat} (h : pos ≤ N) :
    Present B N pos .empty :=
  ⟨rfl, by rw [Enc.empty, List.length_nil]; omega⟩

/-- A sequence is present when its parts are. -/
theorem present_append_iff {B : List Bool} {N : Int} {pos : Nat} {e₁ e₂ : Enc} :
    Present B N pos (e₁ ++ e₂) ↔
      Present B N pos e₁ ∧ Present B N (pos + (e₁ pos).length) e₂ := by
  constructor
  · rintro ⟨hbits, hthere⟩
    rw [Enc.append_apply] at hbits
    rw [Enc.length_append] at hthere
    obtain ⟨h₁, h₂⟩ := Bits.slice_eq_append hbits
    exact ⟨⟨h₁, by omega⟩, ⟨h₂, by omega⟩⟩
  · rintro ⟨h₁, h₂⟩
    refine ⟨?_, ?_⟩
    · rw [Enc.length_append, Bits.slice_add, h₁.bits, h₂.bits]
      rfl
    · have hthere := h₂.there
      rw [Enc.length_append]
      omega

/-- The bits up to the end of the data lie in the buffer. -/
theorem BitReader.At.length_slice {r : BitReader β} {B : List Bool} {N : Int} {p : Nat}
    (hr : r.At B N p) (pos k : Nat) (hfit : (pos + k : Int) ≤ N) :
    (Bits.slice B pos k).length = k := by
  have hcover := hr.cover
  rw [Bits.length_slice]
  omega

/-- Bits that are there are present. -/
theorem present_const_iff {B : List Bool} {N : Int} {pos : Nat} {l : List Bool} :
    Present B N pos (.const l) ↔ Bits.slice B pos l.length = l ∧ (pos + l.length : Int) ≤ N :=
  ⟨fun h => ⟨h.bits, h.there⟩, fun h => ⟨h.1, h.2⟩⟩

/-- `x`, called with the variables `o`, accepts the encodings of `L`, each with the variables and
the value that it leaves, and nothing else. -/
structure Decides (x : ReadProc β τ α) (o : τ) (L : Enc → τ → α → Prop) : Prop where
  accepts : ∀ (s : ReadStream β) B N pos e o' a, s.At B N pos → L e o' a → Present B N pos e →
    ∃ s', x (s, o) = .ok (some a, s', o') ∧ s'.At B N (pos + (e pos).length)
  refuses : ∀ (s : ReadStream β) B N (pos : Nat), s.At B N pos → pos ≤ N → N ≤ 1073741816 →
    (∀ e o' a, L e o' a → ¬Present B N pos e) → ∃ s' o', x (s, o) = .ok (none, s', o')

namespace Decides

variable {x : ReadProc β τ α} {o : τ} {L M : Enc → τ → α → Prop}

/-- What every stream reads is accepted. -/
theorem accepts_of_reads (hreads : ∀ c e o' a, L e o' a → ReadStream.Reads c x e o o' a)
    (s : ReadStream β) (B : List Bool) (N : Int) (pos : Nat) (e : Enc) (o' : τ) (a : α)
    (hs : s.At B N pos) (hL : L e o' a) (hpresent : Present B N pos e) :
    ∃ s', x (s, o) = .ok (some a, s', o') ∧ s'.At B N (pos + (e pos).length) := by
  obtain ⟨s', hrun, hat, -⟩ :=
    hreads s.context e o' a hL s B N pos rfl hs hpresent.bits hpresent.there
  exact ⟨s', hrun, hat⟩

theorem congr (h : Decides x o L) (hLM : ∀ e o' a, L e o' a ↔ M e o' a) : Decides x o M := by
  have heq : L = M := by
    funext e o' a
    exact propext (hLM e o' a)
  exact heq ▸ h

/-- A procedure that runs like another one. -/
theorem of_run {y : ReadProc β τ α} (h : Decides y o L) (hrun : ∀ s, x (s, o) = y (s, o)) :
    Decides x o L where
  accepts s := by
    rw [hrun s]
    exact h.accepts s
  refuses s := by
    rw [hrun s]
    exact h.refuses s

/-- A value that is returned at once is accepted on no bits. -/
theorem pure (a : α) (o : τ) : Decides (pure a : ReadProc β τ α) o
    fun e o' a' => e = .empty ∧ o' = o ∧ a' = a := by
  constructor
  · refine accepts_of_reads ?_
    rintro c _ _ _ ⟨rfl, rfl, rfl⟩
    exact ReadStream.Reads.pure _ _
  · intro s B N pos hs hpos _ hnone
    exact absurd (Present.empty hpos) (hnone _ _ _ ⟨rfl, rfl, rfl⟩)

/-- What follows decides the rest, whatever was read before. -/
theorem bind {f : α → ReadProc β τ γ} {K : τ → α → Enc → τ → γ → Prop} (hx : Decides x o L)
    (hf : ∀ e o' a, L e o' a → Decides (f a) o' (K o' a)) :
    Decides (x >>= f) o fun e o'' d =>
      ∃ e₁ o' a e₂, L e₁ o' a ∧ K o' a e₂ o'' d ∧ e = e₁ ++ e₂ := by
  constructor
  · rintro s B N pos _ o'' d hs ⟨e₁, o', a, e₂, hL, hK, rfl⟩ hpresent
    obtain ⟨h₁, h₂⟩ := present_append_iff.mp hpresent
    obtain ⟨s₁, hrun, hat⟩ := hx.accepts s B N pos e₁ o' a hs hL h₁
    obtain ⟨s', hrun', hat'⟩ := (hf e₁ o' a hL).accepts s₁ B N _ e₂ o'' d hat hK h₂
    refine ⟨s', (Proc.bind_run_some hrun).trans hrun', ?_⟩
    rwa [Enc.length_append, ← Nat.add_assoc]
  · intro s B N pos hs hpos hN hnone
    by_cases h : ∃ e₁ o' a, L e₁ o' a ∧ Present B N pos e₁
    · -- the first part goes through, and the second one is not there
      obtain ⟨e₁, o', a, hL, h₁⟩ := h
      obtain ⟨s₁, hrun, hat⟩ := hx.accepts s B N pos e₁ o' a hs hL h₁
      have hthere := h₁.there
      obtain ⟨s', o'', hrun'⟩ := (hf e₁ o' a hL).refuses s₁ B N _ hat (by push_cast; omega) hN
        fun e₂ o'' d hK h₂ =>
          hnone _ o'' d ⟨e₁, o', a, e₂, hL, hK, rfl⟩ (present_append_iff.mpr ⟨h₁, h₂⟩)
      exact ⟨s', o'', (Proc.bind_run_some hrun).trans hrun'⟩
    · obtain ⟨s', o', hrun⟩ := hx.refuses s B N pos hs hpos hN
        fun e₁ o' a hL h₁ => h ⟨e₁, o', a, hL, h₁⟩
      exact ⟨s', o', Proc.bind_run_none hrun⟩

/-- A procedure that takes `k` bits whatever they are, when any `k` bits encode something. -/
theorem of_takes {k : Nat} (hx : ReadStream.Takes x k) (hk : k ≤ 64)
    (hreads : ∀ c e o' a, L e o' a → ReadStream.Reads c x e o o' a)
    (hall : ∀ l pos, l.length = k → ∃ e o' a, L e o' a ∧ e pos = l) : Decides x o L := by
  refine ⟨accepts_of_reads hreads, fun s B N pos hs hpos hN hnone => ?_⟩
  have hfull : N < pos + k := by
    by_contra hfit
    have hlen := hs.reader.length_slice pos k (by omega)
    obtain ⟨e, o', a, hL, he⟩ := hall _ pos hlen
    refine hnone e o' a hL ⟨?_, ?_⟩
    · rw [he, hlen]
    · rw [he, hlen]
      omega
  obtain ⟨s', o', -, hrun, -⟩ := (hx s o B N pos hs (by omega)).2 hfull
  exact ⟨s', o', hrun⟩

end Decides

/-- `x` takes any value of `P`, in the encoding of the value, and stores it; it returns
`false` when there is none. -/
def Stores {ν : Type} (x : ReadProc β τ Unit) (P : ν → Prop) (enc : ν → Enc) (store : ν → τ → τ) :
    Prop :=
  ∀ o, Decides x o fun e o' _ => ∃ v, P v ∧ e = enc v ∧ o' = store v o

namespace Stores

variable {ν μ : Type} {x y : ReadProc β τ Unit} {P : ν → Prop} {enc : ν → Enc} {store : ν → τ → τ}

/-- The same values under other names. -/
theorem congr {Q : μ → Prop} {f : μ → Enc} {t : μ → τ → τ} (h : Stores x P enc store)
    (hPQ : ∀ v, P v → ∃ w, Q w ∧ enc v = f w ∧ store v = t w)
    (hQP : ∀ w, Q w → ∃ v, P v ∧ f w = enc v ∧ t w = store v) : Stores x Q f t := by
  refine fun o => (h o).congr fun e o' _ => ⟨?_, ?_⟩
  · rintro ⟨v, hv, rfl, rfl⟩
    obtain ⟨w, hw, henc, hstore⟩ := hPQ v hv
    exact ⟨w, hw, henc, by rw [hstore]⟩
  · rintro ⟨w, hw, rfl, rfl⟩
    obtain ⟨v, hv, henc, hstore⟩ := hQP w hw
    exact ⟨v, hv, henc, by rw [hstore]⟩

/-- One value after the other. -/
theorem seq {Q : μ → Prop} {f : μ → Enc} {t : μ → τ → τ} (hx : Stores x P enc store)
    (hy : Stores y Q f t) :
    Stores (do x; y) (fun p : ν × μ => P p.1 ∧ Q p.2) (fun p => enc p.1 ++ f p.2)
      (fun p o => t p.2 (store p.1 o)) := by
  refine fun o => (Decides.bind (hx o) fun e o' _ _ => hy o').congr fun e o'' _ => ⟨?_, ?_⟩
  · rintro ⟨_, _, _, _, ⟨v, hv, rfl, rfl⟩, ⟨w, hw, rfl, rfl⟩, rfl⟩
    exact ⟨(v, w), ⟨hv, hw⟩, rfl, rfl⟩
  · rintro ⟨⟨v, w⟩, ⟨hv, hw⟩, rfl, rfl⟩
    exact ⟨_, _, (), _, ⟨v, hv, rfl, rfl⟩, ⟨w, hw, rfl, rfl⟩, rfl⟩

end Stores

namespace Reading

/-! ## the macros -/

/-- `serialize_int` stores a value of its range, and refuses an offset beyond it. -/
theorem stores_serializeInt {store : Int → τ → τ} {min max : Int} (hmin : IsInt32 min)
    (hmax : IsInt32 max) (hlt : min < max) :
    Stores (serializeInt id store min max : ReadProc β τ Unit)
      (fun value => min ≤ value ∧ value ≤ max) (fun value => Wire.int value min max) store := by
  intro o
  constructor
  · refine Decides.accepts_of_reads ?_
    rintro c _ _ _ ⟨value, ⟨hlo, hhi⟩, rfl, rfl⟩
    exact reads_serializeInt hmin hmax hlt hlo hhi rfl o
  · intro s B N pos hs hpos hN hnone
    obtain ⟨b, hb, hb1, hb32, -, hlow⟩ := bitsRequired_bounds hmin hmax hlt
    by_cases hfit : (pos + b : Int) ≤ N
    · obtain ⟨read, r, hread, hvalue, -⟩ :=
        ReadStream.serializeInteger_eq hs.reader hmin hmax hlt hb hfit
      have hlen := hs.reader.length_slice pos b hfit
      have hcode : read.toNat < 2 ^ b := hvalue ▸ Bits.toNat_slice_lt B pos (le_refl b)
      have hrun := serializeInt_run id store hlt o hread
      have hmem := @IntType.convert_mem_iff .int32 min max hlt hmin.1 hmax.2 b hlow _ hcode
      have hint := isInt32_int32 (read.toInt + min)
      rw [← IntType.convert_int32, IntType.convert_eq hint.1 hint.2] at hmem
      -- a code of the range would be the encoding of its value
      have hsurplus : ¬(read.toNat : Int) ≤ max - min := by
        intro hrange
        refine hnone _ _ () ⟨min + read.toNat, ⟨by omega, by omega⟩, rfl, rfl⟩ ?_
        change Present B N pos (Wire.int (min + read.toNat) min max)
        rw [Wire.int, hb, Int.toNat_natCast, add_sub_cancel_left, Int.toNat_natCast, hvalue,
          present_const_iff, Bits.length_ofNat, Bits.ofNat_toNat _ hlen.ge]
        exact ⟨(Bits.take_slice B pos (le_refl b)).symm, hfit⟩
      rw [id_eq, if_neg (fun h => hsurplus (hmem.mp h))] at hrun
      exact ⟨_, _, hrun⟩
    · exact ⟨_, o, serializeInt_none hlt o
        (ReadStream.serializeInteger_full hs.reader hmin hmax hlt hb (by omega) (by omega))⟩

/-- Any bits are a value of their width. -/
theorem stores_serializeBits {w : Nat} {store : U32 → τ → τ} (h0 : 0 < w) (h32 : w ≤ 32) :
    Stores (serializeBits store w : ReadProc β τ Unit) (fun _ : BitVec w => True)
      (fun value => Wire.bits (value.setWidth 32) w) (fun value => store (value.setWidth 32)) := by
  refine fun o => Decides.of_takes (takes_serializeBits h0 h32) (by omega) ?_ ?_
  · rintro c _ _ _ ⟨value, -, rfl, rfl⟩
    exact reads_serializeBits_narrow value h0 h32 o
  · intro l pos hlen
    obtain ⟨value, hvalue⟩ := Wire.exists_bits hlen h32
    exact ⟨_, _, (), ⟨value, trivial, rfl, rfl⟩, hvalue pos⟩

/-- `serialize_bool` stores either bit. -/
theorem stores_serializeBool {store : Bool → τ → τ} :
    Stores (serializeBool store : ReadProc β τ Unit) (fun _ => True) Wire.bool store := by
  have hbit := @takes_serializeBits β _ τ (fun v => store (v ≠ 0)) 1 (by decide) (by decide)
  refine fun o => Decides.of_takes hbit (by decide) ?_ ?_
  · rintro c _ _ _ ⟨value, -, rfl, rfl⟩
    exact reads_serializeBool value o
  · intro l pos hlen
    obtain ⟨value, rfl⟩ := List.length_eq_one_iff.mp hlen
    exact ⟨_, _, (), ⟨value, trivial, rfl, rfl⟩, rfl⟩

/-- `serialize_uint32` stores any word. -/
theorem stores_serializeUint32 {store : U32 → τ → τ} :
    Stores (serializeUint32 store : ReadProc β τ Unit) (fun _ => True)
      (fun value => Wire.bits value 32) store := by
  have h := @stores_serializeBits β τ _ 32 store (by decide) (by decide)
  simp only [BitVec.setWidth_eq] at h
  exact h

/-- `serialize_uint64` stores any two words. -/
theorem stores_serializeUint64 {store : U64 → τ → τ} :
    Stores (serializeUint64 store : ReadProc β τ Unit) (fun _ => True) Wire.uint64 store := by
  refine fun o => Decides.of_takes takes_serializeUint64 (le_refl 64) ?_ ?_
  · rintro c _ _ _ ⟨value, -, rfl, rfl⟩
    exact reads_serializeUint64 value o
  · intro l pos hlen
    exact ⟨_, _, (), ⟨Bits.toVec 64 l, trivial, rfl, rfl⟩, Bits.ofVec_toVec l hlen⟩

/-- The read of the local decides, whatever is stored when it fails. -/
theorem takes_serializeFloat {uninit : U32} {store : U32 → τ → τ} :
    ReadStream.Takes (serializeFloat uninit store : ReadProc β τ Unit) 32 := by
  intro s o B N pos hs hsmall
  obtain ⟨hok, hfull⟩ :=
    @ReadStream.takes_serializeBits β _ τ 32 (by decide) (by decide) s o B N pos hs hsmall
  constructor
  · intro hfit
    obtain ⟨value, s', o', hrun, hat⟩ := hok hfit
    exact ⟨(), s', store value o', Proc.bind_run_some (Proc.attempt_run hrun), hat⟩
  · intro hlt
    obtain ⟨s', o', pos', hrun, hat⟩ := hfull hlt
    exact ⟨s', store uninit o', pos', Proc.bind_run_some (Proc.attempt_run hrun), hat⟩

/-- `serialize_float` stores any bit pattern, whatever stood in its uninitialised variable. -/
theorem stores_serializeFloat {uninit : U32} {store : U32 → τ → τ} :
    Stores (serializeFloat uninit store : ReadProc β τ Unit) (fun _ => True)
      (fun value => Wire.bits value 32) store := by
  refine fun o => Decides.of_takes takes_serializeFloat (by decide) ?_ ?_
  · rintro c _ _ _ ⟨value, -, rfl, rfl⟩
    exact reads_serializeFloat uninit value o
  · intro l pos hlen
    obtain ⟨value, hvalue⟩ := Wire.exists_bits hlen (le_refl 32)
    exact ⟨_, _, (), ⟨value.setWidth 32, trivial, rfl, rfl⟩, hvalue pos⟩

section Bytes

variable {s : ReadStream β} {B : List Bool} {N : Int} {p pos : Nat}

/-- Zeros up to the next byte are an alignment. -/
theorem present_align_iff (hs : s.At B N p) (pos : Nat) :
    Present B N pos .align ↔ (pos + ((8 - pos % 8) % 8 : Nat) : Int) ≤ N ∧
      Bits.toNat (Bits.slice B pos ((8 - pos % 8) % 8)) = 0 := by
  have hlen : (Enc.align pos).length = (8 - pos % 8) % 8 := Bits.length_padding pos
  constructor
  · rintro ⟨hbits, hthere⟩
    rw [hlen] at hbits hthere
    exact ⟨hthere, by rw [hbits, Enc.align, Bits.padding, Bits.toNat_replicate_false]⟩
  · rintro ⟨hfit, hzero⟩
    refine ⟨?_, by rwa [hlen]⟩
    have hbits := Bits.ofNat_length_toNat (Bits.slice B pos ((8 - pos % 8) % 8))
    rw [hzero, hs.reader.length_slice _ _ hfit, Bits.ofNat_zero_right] at hbits
    rw [hlen, ← hbits]
    rfl

/-- Behind the alignment any bytes are bytes. -/
theorem exists_bytes (hs : s.At B N p) (halign : Present B N pos .align) {n : Nat}
    (hfit : pos + ((8 - pos % 8) % 8 : Nat) + 8 * n ≤ N) :
    ∃ xs : List U8, xs.length = n ∧ Present B N pos (Wire.bytes xs) := by
  have hlen : (Bits.slice B (pos + (8 - pos % 8) % 8) (8 * n)).length = 8 * n := by
    have hall := hs.reader.length_slice pos ((8 - pos % 8) % 8 + 8 * n) (by push_cast; omega)
    rw [Bits.slice_add, List.length_append, hs.reader.length_slice pos _ (by omega)] at hall
    omega
  obtain ⟨xs, hxs⟩ := @Bits.exists_ofList 8 _ n hlen.symm
  have hcount : xs.length = n := by
    rw [← hxs, Bits.length_ofList] at hlen
    omega
  refine ⟨xs, hcount, present_append_iff.mpr ⟨halign, ?_⟩⟩
  have hpad : (Enc.align pos).length = (8 - pos % 8) % 8 := Bits.length_padding pos
  rw [hpad, present_const_iff, Bits.length_ofList, hcount, hxs]
  exact ⟨rfl, by push_cast; omega⟩

/-- `serialize_align` accepts zero padding only. -/
theorem stores_serializeAlign :
    Stores (serializeAlign : ReadProc β τ Unit) (fun _ : Unit => True) (fun _ => .align)
      (fun _ o => o) := by
  intro o
  constructor
  · refine Decides.accepts_of_reads ?_
    rintro c _ _ _ ⟨-, -, rfl, rfl⟩
    exact ReadStream.reads_serializeAlign _
  · intro s B N pos hs hpos hN hnone
    have hmissing := mt (present_align_iff hs pos).mpr (hnone _ _ () ⟨(), trivial, rfl, rfl⟩)
    by_cases hfit : (pos + ((8 - pos % 8) % 8 : Nat) : Int) ≤ N
    · obtain ⟨r, -, hrun⟩ := ReadStream.serializeAlign_eq hs.reader hfit
      rw [if_neg fun hzero => hmissing ⟨hfit, hzero⟩] at hrun
      exact ⟨_, o, ReadStream.onStream_run hrun⟩
    · have hrun := ReadStream.serializeAlign_full hs.reader (by omega) (by omega)
      exact ⟨_, o, ReadStream.onStream_run hrun⟩

/-- `serialize_bytes` stores as many bytes as it was asked for. -/
theorem stores_serializeBytes {data : τ → List U8} {store : List U8 → τ → τ} {n : Nat}
    (hdata : ∀ o, (data o).length = n) (hn : n < 134217728) :
    Stores (serializeBytes data store n : ReadProc β τ Unit) (fun xs => xs.length = n) Wire.bytes
      (fun xs o => store (Bits.splice (data o) 0 xs) o) := by
  intro o
  constructor
  · refine Decides.accepts_of_reads ?_
    rintro c _ _ _ ⟨xs, rfl, rfl, rfl⟩
    exact reads_serializeBytes (hdata o).ge
  · intro s B N pos hs hpos hN hnone
    have hstops : ∃ s₁, ReadStream.serializeBytes (data o) n s = .ok (none, s₁) := by
      by_cases halign : Present B N pos .align
      · refine serializeBytes_missing hs.reader (by omega) ?_
        by_contra hfit
        obtain ⟨xs, hxs, hpresent⟩ := exists_bytes hs halign (Int.not_lt.mp hfit)
        exact hnone _ _ () ⟨xs, hxs, rfl, rfl⟩ hpresent
      · exact serializeBytes_unpadded hs.reader (by omega)
          (mt (present_align_iff hs pos).mpr halign)
    obtain ⟨s₁, hrun⟩ := hstops
    have hlocals : (ReadStream.locals : ReadProc β τ τ) (s, o) = .ok (some o, s, o) := rfl
    exact ⟨s₁, o, (Proc.bind_run_some hlocals).trans
      (Proc.bind_run_none (ReadStream.onStream_run hrun))⟩

/-- What makes `serialize_string` accept is that a string is present. -/
theorem exists_string {bufferSize : Int} (hs : s.At B N pos) (h : StringAt B N pos bufferSize) :
    ∃ chars : List U8, (chars.length : Int) ≤ bufferSize - 1 ∧
      Present B N pos (Wire.string chars bufferSize) := by
  obtain ⟨hlength, hmax, hpadding, hzero, hbytes⟩ := h
  rw [sentStart] at hbytes hpadding
  rw [sentPadding] at hbytes hpadding hzero
  have halign := (present_align_iff hs (pos + lengthBits bufferSize)).mpr
    ⟨by push_cast at hpadding ⊢; exact hpadding, hzero⟩
  obtain ⟨chars, hchars, hpresent⟩ := @exists_bytes β _ s B N pos _ hs halign
    (sentLength B pos bufferSize) (by push_cast at hbytes ⊢; exact hbytes)
  refine ⟨chars, by omega, present_append_iff.mpr ⟨?_, ?_⟩⟩
  · rw [Wire.int, Int.sub_zero, Int.toNat_natCast, hchars, ← lengthBits, present_const_iff,
      Bits.length_ofNat, sentLength, Bits.ofNat_toNat _ (hs.reader.length_slice pos _ hlength).ge]
    exact ⟨(Bits.take_slice B pos (le_refl _)).symm, hlength⟩
  · rwa [Wire.int, Enc.const, Bits.length_ofNat, ← lengthBits]

/-- `serialize_string` stores a length below the size of its buffer and as many bytes behind it.
-/
theorem stores_serializeString {string : τ → List U8} {store : List U8 → τ → τ} {n : Nat}
    (hstring : ∀ o, (string o).length = n) (h2 : 2 ≤ n) (hn : n < 134217728) :
    Stores (serializeString string store n : ReadProc β τ Unit)
      (fun chars => (chars.length : Int) ≤ n - 1) (fun chars => Wire.string chars n)
      (fun chars o => store (Bits.splice (string o) 0 (chars ++ [0])) o) := by
  intro o
  have harray := hstring o
  constructor
  · refine Decides.accepts_of_reads ?_
    rintro c _ _ _ ⟨chars, hlen, rfl, rfl⟩
    exact reads_serializeString_of ⟨by omega, by omega⟩ (by omega) (by omega) hlen
  · intro s B N pos hs hpos hN hnone
    have hmissing : ¬StringAt B N pos n := by
      intro hthere
      obtain ⟨chars, hlen, hpresent⟩ := exists_string hs hthere
      exact hnone _ _ () ⟨chars, hlen, rfl, rfl⟩ hpresent
    obtain ⟨s', hrun⟩ := @serializeString_refuses β _ _ s B N pos _ string store o hs.reader hN hpos
      (by omega) (by omega) hmissing
    exact ⟨s', o, hrun⟩

end Bytes

end Reading

/-! ## fields -/

/-- The variables that the macros can be given: a range, a width, an array with room for a
character and its terminator. -/
def FieldType.Sane : FieldType → Prop
  | int min max => IsInt32 min ∧ IsInt32 max ∧ min < max
  | bits width => 0 < width ∧ width ≤ 32
  | bytes data => data.length < 134217728
  | string array => 2 ≤ array.length ∧ array.length < 134217728
  | _ => True

namespace Field

/-- The fields that a reader takes: a string may hold NULs, and one character more than a
writer sends. -/
def Readable : Field → Prop
  | int value min max => min ≤ value ∧ value ≤ max
  | string chars bufferSize => (chars.length : Int) ≤ bufferSize - 1
  | _ => True

/-- What its variable holds then: a string ends at its first NUL. -/
def received : Field → List Value
  | string chars _ => [.string (chars.takeWhile (· ≠ 0))]
  | f => f.values

end Field

/-- Fields that readers of these types take. -/
def Readable (fields : List Field) (types : List FieldType) : Prop :=
  List.Forall₂ (fun f t => f.Matches t ∧ f.Readable) fields types

/-- The C string in an array that starts with these characters and a NUL. -/
theorem takeWhile_terminated {array chars : List U8} :
    (Bits.splice array 0 (chars ++ [0])).takeWhile (· ≠ 0) = chars.takeWhile (· ≠ 0) := by
  rw [Bits.splice, List.take_zero, List.nil_append, List.append_assoc]
  generalize List.drop _ array = rest
  induction chars with
  | nil => simp
  | cons c chars ih => rw [List.cons_append, List.takeWhile_cons, List.takeWhile_cons, ih]

/-- One field of any type: the case split over the types of fields. -/
theorem stores_readField {t : FieldType} (ht : t.Sane) :
    Stores (readField t : ReadProc β (List Value) Unit) (fun f => f.Matches t ∧ f.Readable)
      Field.enc (fun f vs => vs ++ f.received) := by
  cases t with
  | int min max =>
      rw [readField]
      refine (Reading.stores_serializeInt ht.1 ht.2.1 ht.2.2).congr ?_ ?_
      · exact fun value hrange => ⟨_, ⟨.int value min max, hrange⟩, rfl, rfl⟩
      · rintro _ ⟨⟨value⟩, hrange⟩
        exact ⟨value, hrange, rfl, rfl⟩
  | bits width =>
      obtain ⟨w, rfl⟩ := Int.eq_ofNat_of_zero_le (le_of_lt ht.1)
      obtain ⟨h0, h32⟩ := ht
      rw [readField]
      refine (Reading.stores_serializeBits (by omega) (by omega)).congr ?_ ?_
      · intro value _
        refine ⟨_, ⟨.bits (value.setWidth 32) w, trivial⟩, rfl, funext fun vs => ?_⟩
        have hvalue := Wire.ofNat_mod_narrow value
        exact congrArg (fun v => vs ++ [Value.uint32 v]) hvalue.symm
      · rintro _ ⟨hm, -⟩
        cases hm with
        | bits value =>
            refine ⟨value.setWidth w, trivial, (Wire.bits_setWidth value).symm, funext fun vs => ?_⟩
            have hvalue :
                BitVec.ofNat 32 (value.toNat % 2 ^ w) = (value.setWidth w).setWidth 32 := by
              apply BitVec.eq_of_toNat_eq
              rw [BitVec.toNat_ofNat, BitVec.toNat_setWidth, BitVec.toNat_setWidth]
            exact congrArg (fun v => vs ++ [Value.uint32 v]) hvalue
  | bool =>
      rw [readField]
      refine Reading.stores_serializeBool.congr ?_ ?_
      · exact fun value _ => ⟨_, ⟨.bool value, trivial⟩, rfl, rfl⟩
      · rintro _ ⟨⟨⟩, -⟩
        exact ⟨_, trivial, rfl, rfl⟩
  | uint32 =>
      rw [readField]
      refine Reading.stores_serializeUint32.congr ?_ ?_
      · exact fun value _ => ⟨_, ⟨.uint32 value, trivial⟩, rfl, rfl⟩
      · rintro _ ⟨⟨⟩, -⟩
        exact ⟨_, trivial, rfl, rfl⟩
  | uint64 =>
      rw [readField]
      refine Reading.stores_serializeUint64.congr ?_ ?_
      · exact fun value _ => ⟨_, ⟨.uint64 value, trivial⟩, rfl, rfl⟩
      · rintro _ ⟨⟨⟩, -⟩
        exact ⟨_, trivial, rfl, rfl⟩
  | float uninit =>
      rw [readField]
      refine Reading.stores_serializeFloat.congr ?_ ?_
      · exact fun value _ => ⟨_, ⟨.float value uninit, trivial⟩, rfl, rfl⟩
      · rintro _ ⟨⟨⟩, -⟩
        exact ⟨_, trivial, rfl, rfl⟩
  | double =>
      rw [readField]
      refine Reading.stores_serializeUint64.congr ?_ ?_
      · exact fun value _ => ⟨_, ⟨.double value, trivial⟩, rfl, rfl⟩
      · rintro _ ⟨⟨⟩, -⟩
        exact ⟨_, trivial, rfl, rfl⟩
  | bytes data =>
      rw [readField]
      refine (Reading.stores_serializeBytes (fun _ => rfl) ht).congr ?_ ?_
      · intro xs hlen
        refine ⟨_, ⟨.bytes xs data hlen.symm, trivial⟩, rfl, ?_⟩
        rw [splice_all hlen.symm]
        rfl
      · rintro _ ⟨hm, -⟩
        cases hm with
        | bytes xs _ hlen =>
            refine ⟨xs, hlen.symm, rfl, ?_⟩
            rw [splice_all hlen]
            rfl
  | string array =>
      rw [readField]
      refine (Reading.stores_serializeString (fun _ => rfl) ht.1 ht.2).congr ?_ ?_
      · intro chars hlen
        refine ⟨_, ⟨.string chars _ array rfl, hlen⟩, rfl, ?_⟩
        rw [takeWhile_terminated]
        rfl
      · rintro _ ⟨hm, hlen⟩
        cases hm with
        | string chars _ _ hsize =>
            subst hsize
            refine ⟨chars, hlen, rfl, ?_⟩
            rw [takeWhile_terminated]
            rfl
  | align =>
      rw [readField]
      refine Reading.stores_serializeAlign.congr ?_ ?_
      · exact fun _ _ => ⟨_, ⟨.align, trivial⟩, rfl, funext fun vs => (List.append_nil vs).symm⟩
      · rintro _ ⟨⟨⟩, -⟩
        exact ⟨(), trivial, rfl, funext List.append_nil⟩

/-- A list of fields, by induction on the list of types. -/
theorem stores_readFields {types : List FieldType} (ht : ∀ t ∈ types, t.Sane) :
    Stores (readFields types : ReadProc β (List Value) Unit) (fun fields => Readable fields types)
      (fun fields => .concat (fields.map Field.enc))
      (fun fields vs => vs ++ fields.flatMap Field.received) := by
  induction types with
  | nil =>
      refine fun vs => (Decides.pure () vs).congr fun e vs' _ => ⟨?_, ?_⟩
      · rintro ⟨rfl, rfl, -⟩
        exact ⟨[], .nil, rfl, (List.append_nil _).symm⟩
      · rintro ⟨_, ⟨⟩, rfl, rfl⟩
        exact ⟨rfl, List.append_nil _, rfl⟩
  | cons t types ih =>
      rw [readFields, List.forM_cons]
      have hhead := @stores_readField β _ t (ht t List.mem_cons_self)
      have htail := ih fun t' ht' => ht t' (List.mem_cons_of_mem t ht')
      refine fun vs => (Stores.seq hhead htail vs).congr fun e vs' _ => ⟨?_, ?_⟩
      · rintro ⟨⟨f, fields⟩, ⟨hf, hfields⟩, rfl, rfl⟩
        exact ⟨f :: fields, .cons hf hfields, rfl, List.append_assoc _ _ _⟩
      · rintro ⟨_, hread, rfl, rfl⟩
        obtain ⟨f, fields, hf, hfields, rfl⟩ := List.forall₂_cons_right_iff.mp hread
        exact ⟨(f, fields), ⟨hf, hfields⟩, rfl, (List.append_assoc _ _ _).symm⟩

/-! ## a stream over a buffer -/

/-- The first `n` bytes of the buffer start with the encoding. -/
def StartsWith (buffer : Memory) (n : Nat) (e : Enc) : Prop :=
  Present (Platform.bits buffer) (8 * n : Nat) 0 e

/-- Clearing the rest of the buffer leaves what it starts with. -/
theorem StartsWith.cleared {buffer zeros : List U8} {n : Nat} {e : Enc}
    (h : StartsWith buffer n e) (hn : n ≤ buffer.length) :
    StartsWith (Bits.splice buffer n zeros) n e := by
  have hthere := h.there
  refine ⟨?_, hthere⟩
  refine Eq.trans ?_ h.bits
  change Bits.slice (Bits.ofList (Bits.splice buffer n zeros)) 0 (e 0).length =
    Bits.slice (Bits.ofList buffer) 0 (e 0).length
  rw [Bits.ofList_splice]
  exact Bits.slice_splice_left (by rw [Bits.length_ofList]; omega) (by push_cast at hthere; omega)

/-- Over any bytes, the procedure ends, with or without success. It succeeds if and only if
the bytes start with the encoding of a value; the value is then stored, and exactly its
bits were processed. -/
theorem Stores.accepts_iff {ν : Type} {x : ReadProc Memory τ Unit} {P : ν → Prop} {enc : ν → Enc}
    {store : ν → τ → τ} (h : Stores x P enc store) {buffer : Memory} {n : Nat}
    (hn : 4 * ((n + 3) / 4) ≤ buffer.length) (hsmall : n < 134217728) (c : Context) (o : τ) :
    ∃ result s o', x ({ ReadStream.init buffer n with context := c }, o) = .ok (result, s, o') ∧
      (result = some () ↔ ∃ v, P v ∧ StartsWith buffer n (enc v)) ∧
      ∀ v, P v → StartsWith buffer n (enc v) →
        o' = store v o ∧ s.getBitsProcessed = (enc v 0).length := by
  have hlen : (Platform.bits buffer).length = 8 * buffer.length := Bits.length_ofList buffer
  have hinit := @ReadStream.init_at Memory _ buffer n (by omega) (by omega) (by omega)
  have hbits : int32 ((n : Int) * 8) = (8 * n : Nat) := by
    rw [int32_eq ⟨by omega, by omega⟩]
    omega
  rw [hbits] at hinit
  have hat : ({ ReadStream.init buffer n with context := c } : ReadStream Memory).At
      (Platform.bits buffer) (8 * n : Nat) 0 := ⟨hinit.reader, hinit.bitsRead⟩
  by_cases hsome : ∃ v, P v ∧ StartsWith buffer n (enc v)
  · have haccepts : ∀ v, P v → StartsWith buffer n (enc v) →
        ∃ s', x ({ ReadStream.init buffer n with context := c }, o) = .ok (some (), s', store v o) ∧
          s'.At (Platform.bits buffer) (8 * n : Nat) (enc v 0).length := by
      intro v hv hstart
      obtain ⟨s', hrun, hat'⟩ := (h o).accepts _ _ _ 0 _ _ () hat ⟨v, hv, rfl, rfl⟩ hstart
      rw [Nat.zero_add] at hat'
      exact ⟨s', hrun, hat'⟩
    obtain ⟨v, hv, hstart⟩ := hsome
    obtain ⟨s, hrun, -⟩ := haccepts v hv hstart
    refine ⟨_, s, _, hrun, ⟨fun _ => ⟨v, hv, hstart⟩, fun _ => rfl⟩, ?_⟩
    -- any other value that the bytes start with is stored the same way, and as long
    intro w hw hstart'
    obtain ⟨s', hrun', hat'⟩ := haccepts w hw hstart'
    obtain ⟨-, hsame⟩ := Prod.mk.inj (Except.ok.inj (hrun.symm.trans hrun'))
    obtain ⟨rfl, hstored⟩ := Prod.mk.inj hsame
    exact ⟨hstored, hat'.bitsRead⟩
  · obtain ⟨s, o', hrun⟩ := (h o).refuses _ _ _ 0 hat (by omega) (by omega) fun e o' _ => by
      rintro ⟨v, hv, rfl, -⟩ hpresent
      exact hsome ⟨v, hv, hpresent⟩
    refine ⟨_, s, o', hrun, ⟨fun hfalse => absurd hfalse.symm (Option.some_ne_none ()),
      fun hv => absurd hv hsome⟩, fun v hv hstart => absurd ⟨v, hv, hstart⟩ hsome⟩

/-- Reading fields of any types over any bytes succeeds if and only if the bytes start with
fields of these types, and these are then what the variables hold. -/
theorem readFields_accepts_iff {types : List FieldType} (ht : ∀ t ∈ types, t.Sane)
    {buffer : Memory} {n : Nat} (hn : 4 * ((n + 3) / 4) ≤ buffer.length) (hsmall : n < 134217728) :
    ∃ result s vs, readFields types (ReadStream.init buffer n, []) = .ok (result, s, vs) ∧
      (result = some () ↔ ∃ fields, Readable fields types ∧
        StartsWith buffer n (.concat (fields.map Field.enc))) ∧
      ∀ fields, Readable fields types → StartsWith buffer n (.concat (fields.map Field.enc)) →
        vs = fields.flatMap Field.received ∧ s.getBitsProcessed = wireBits fields :=
  (stores_readFields ht).accepts_iff hn hsmall 0 []

/-- Two bytes with an integer and a string of one letter in them. -/
theorem readFields_accepts_iff_sample : ∃ result s vs,
    readFields [.int 1 6, .string [7, 7, 7]] (ReadStream.init ([13, 65, 0, 0] : Memory) 2, []) =
      .ok (result, s, vs) ∧
    result = some () ∧ vs = [.int 6, .string [65]] ∧ s.getBitsProcessed = 16 := by
  have hread : Readable [.int 6 1 6, .string [65] 3] [.int 1 6, .string [7, 7, 7]] :=
    .cons ⟨.int 6 1 6, by simp [Field.Readable]⟩
      (.cons ⟨.string [65] 3 [7, 7, 7] rfl, by simp [Field.Readable]⟩ .nil)
  have hstart : StartsWith [13, 65, 0, 0] 2
      (.concat ([.int 6 1 6, .string [65] 3].map Field.enc)) :=
    ⟨by decide +kernel, by decide +kernel⟩
  obtain ⟨result, s, vs, hrun, haccepts, hvalues⟩ :=
    @readFields_accepts_iff [.int 1 6, .string [7, 7, 7]] (by simp [FieldType.Sane, IsInt32])
      [13, 65, 0, 0] 2 (by decide) (by decide)
  obtain ⟨hvs, hbits⟩ := hvalues _ hread hstart
  exact ⟨result, s, vs, hrun, haccepts.mpr ⟨_, hread, hstart⟩, hvs, hbits⟩

end RudpNetwork
