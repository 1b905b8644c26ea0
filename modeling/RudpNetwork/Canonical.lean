import RudpNetwork.Outcome

/-!
# RudpNetwork.Canonical

What `ReadPacket` accepted, `WritePacket` writes again.

`readPacket_writePacket` starts from a packet; here the start is a buffer, and
nothing is known of it but that a packet came out.  `ReadStream.Reached` is what
can be said of the stream in such a run: the words that were loaded lie in the
buffer, whether or not the rest of it does.  `Serialize.Canonical` says that a
template fills its members with values whose encoding is the very bits that it
took; `readPacket_canonical` puts it together for the packet type and the body.

## Main results

* `Serialize.Canonical` — a template fills its members with values whose encoding is the
  bits that it took.
* `TestPacketA.canonical` and its kin — the body of every packet type is such a template.
* `readPacket_canonical` — writing an accepted packet again gives its bits and its length.
-/

namespace RudpNetwork

open MachineInt
open ReadStream (onStream assign orReturn)
open Proc (Triple Leaves)

variable {σ τ α β : Type}

/-! ## reads that went through -/

namespace BitReader

variable [Platform β]

/-- Less may be known to lie in the buffer. -/
theorem Loaded.shrink {r : BitReader β} {B : List Bool} {room room' pos : Nat}
    (h : r.Loaded B room pos) (hle : room' ≤ room) (hpos : pos ≤ room') (hround : room' % 32 = 0) :
    r.Loaded B room' pos where
  data := h.data
  room_le_words := le_trans hle h.room_le_words
  room_le_length := le_trans hle h.room_le_length
  room_emod := hround
  room_lt := lt_of_le_of_lt hle h.room_lt
  pos_le := hpos
  wordIndex := h.wordIndex
  scratchBits := h.scratchBits
  scratch := h.scratch

/-- The load only goes through where there is another word. -/
theorem Loaded.grow {r r' : BitReader β} {B : List Bool} {pos : Nat}
    (h : r.Loaded B (32 * ((pos + 31) / 32)) pos) (hnum : r.numWords ≤ 536870912) {bitsRead : Int}
    (hload : ({ r with bitsRead } : BitReader β).getScratch = .ok r') :
    r.Loaded B (32 * ((pos + 31) / 32) + 32) pos := by
  have hindex := h.wordIndex
  simp only [getScratch, Except.bind_eq_ok_iff, require_eq_ok, Platform.loadWord_eq_ok] at hload
  obtain ⟨-, hlt, _, ⟨⟨-, hwords⟩, -⟩, -⟩ := hload
  rw [Platform.words, h.data] at hwords
  exact ⟨h.data, by omega, by omega, by omega, by omega, by omega, hindex, h.scratchBits, h.scratch⟩

/-- A `ReadBits` that returns has passed its test and stayed in the buffer. -/
theorem readBits_returned {r r' : BitReader β} {B : List Bool} {pos : Nat}
    (h : r.Loaded B (32 * ((pos + 31) / 32)) pos) (hnum : r.numWords ≤ 536870912) {bits : Int}
    {value : U32} (hread : r.readBits bits = .ok (value, r')) :
    (0 < bits ∧ int32 (r.bitsRead + bits) ≤ r.numBits) ∧
      value.toNat = Bits.toNat (Bits.slice B pos bits.toNat) ∧
      r'.Loaded B (32 * ((pos + bits.toNat + 31) / 32)) (pos + bits.toNat) ∧
      r'.numWords = r.numWords ∧ r'.numBits = r.numBits ∧
      r'.bitsRead = int32 (r.bitsRead + bits) := by
  have hsteps := hread
  simp only [readBits, Except.bind_eq_ok_iff, require_eq_ok] at hsteps
  obtain ⟨-, h0, -, h32, -, hcheck, -, -, r₁, hrefill, -⟩ := hsteps
  have hbits := h.scratchBits
  have hroom : ∃ room : Nat, pos + bits ≤ room ∧ r.Loaded B room pos := by
    unfold refill at hrefill
    by_cases hshort : r.scratchBits < bits
    · rw [if_pos hshort] at hrefill
      exact ⟨32 * ((pos + 31) / 32) + 32, by omega, h.grow hnum hrefill⟩
    · exact ⟨32 * ((pos + 31) / 32), by omega, h⟩
  obtain ⟨room, hfit, hroom⟩ := hroom
  obtain ⟨value', scratch, scratchBits, wordIndex, hrun, hvalue, hloaded⟩ :=
    readBits_inside hroom h0 h32 hcheck hfit
  obtain ⟨rfl, rfl⟩ := Prod.mk.inj (Except.ok.inj (hread.symm.trans hrun))
  have hround := hloaded.room_emod
  exact ⟨⟨h0, hcheck⟩, hvalue, hloaded.shrink (by omega) (by omega) (by omega), rfl, rfl, rfl⟩

end BitReader

namespace ReadStream

variable [Platform β]

/-- The stream has come to bit `pos` of `B` without a wrap, and everything it loaded lies
in `B`. -/
structure Reached (s : ReadStream β) (B : List Bool) (N : Int) (pos : Nat) : Prop where
  loaded : s.reader.Loaded B (32 * ((pos + 31) / 32)) pos
  numWords : s.reader.numWords ≤ 536870912
  numBits : s.reader.numBits = N
  readerBits : s.reader.bitsRead = pos
  bitsRead : s.bitsRead = pos
  le_numBits : 0 < pos → pos ≤ N

/-- Unless there was an error, the stream has come to bit `pos`, and `A` was found on the
way. -/
def Passed (B : List Bool) (N : Int) (pos : Nat) (A : Prop) (s : ReadStream β) : Prop :=
  s.error = .none → A ∧ s.Reached B N pos

/-- The same, after a read of `width` bits that returned `v`. -/
def Read (B : List Bool) (N : Int) (pos width : Nat) (A : Prop) (v : U32) (s : ReadStream β) : Prop :=
  s.Passed B N (pos + width) (A ∧ v.toNat = Bits.toNat (Bits.slice B pos width))

/-- A new stream has loaded nothing. -/
theorem init_reached (buffer : β) (bytes : Int) :
    (init buffer bytes).Reached (Platform.bits buffer) (int32 (bytes * 8)) 0 := by
  have hnum : (init buffer bytes).reader.numWords ≤ 536870912 := by
    have hint := (isInt32_int32 (bytes + 3)).2
    change (int32 (bytes + 3)).tdiv 4 ≤ 536870912
    by_cases hneg : 0 ≤ int32 (bytes + 3)
    · rw [tdiv_eq _ hneg]
      omega
    · have hquot : 0 ≤ (-int32 (bytes + 3)).tdiv 4 := Int.tdiv_nonneg (by omega) (by decide)
      rw [Int.neg_tdiv] at hquot
      omega
  exact ⟨⟨rfl, Nat.zero_le _, Nat.zero_le _, rfl, by decide, Nat.zero_le _, rfl, rfl,
    by simp [init, BitReader.init, Bits.slice]⟩, hnum, rfl, rfl, rfl, nofun⟩

/-- What was read lies in the buffer. -/
theorem Reached.pos_le {s : ReadStream β} {B : List Bool} {N : Int} {pos : Nat}
    (h : s.Reached B N pos) : pos ≤ B.length :=
  le_trans h.loaded.pos_le h.loaded.room_le_length

section Reads

variable {B : List Bool} {N : Int} {pos width : Nat} {A : Prop}

/-- What a read returned is what stands at the position; a refused one leaves an error. -/
theorem triple_takeBits (hsmall : pos + width < 2147483648) :
    Triple (Passed B N pos A) (takeBits width : Proc Fault (ReadStream β) U32)
      (Read B N pos width A) (fun s => s.error ≠ .none) := by
  have hcheck : Triple (Passed B N pos A) (checkOverflow width : Proc Fault (ReadStream β) Unit)
      (fun _ => Passed B N pos A) (fun s => s.error ≠ .none) := by
    constructor
    · intro s _ s' hs hrun
      rcases checkOverflow_run_ok hrun with ⟨-, rfl⟩ | ⟨hnone, -⟩
      · exact hs
      · contradiction
    · intro s s' _ hrun
      rcases checkOverflow_run_ok hrun with ⟨hsome, -⟩ | ⟨-, rfl⟩
      · contradiction
      · exact nofun
  have hread : Triple (Passed B N pos A) (onReader (BitReader.readBits · (width : Int)) :
      Proc Fault (ReadStream β) U32)
      (fun v s => Read B N pos width A v { s with bitsRead := int32 (s.bitsRead + width) })
      (fun s => s.error ≠ .none) := by
    constructor
    · intro s v s' hs hrun herror
      obtain ⟨value, r, hbits, hsome, rfl⟩ := onReader_run_ok hrun
      obtain rfl := Option.some.inj hsome
      obtain ⟨hfound, hreached⟩ := hs herror
      obtain ⟨⟨h0, hle⟩, hvalue, hloaded, hwords, hnum, hcount⟩ :=
        BitReader.readBits_returned hreached.loaded hreached.numWords hbits
      have hsum : int32 ((pos : Int) + width) = (pos + width : Nat) :=
        int32_eq ⟨by omega, by omega⟩
      rw [Int.toNat_natCast] at hvalue hloaded
      rw [hreached.readerBits, hsum] at hcount hle
      refine ⟨⟨hfound, hvalue⟩, ⟨hloaded, hwords.le.trans hreached.numWords,
        hnum.trans hreached.numBits, hcount, ?_, fun _ => hle.trans hreached.numBits.le⟩⟩
      change int32 (s.bitsRead + width) = _
      rw [hreached.bitsRead, hsum]
    · intro s s' _ hrun
      obtain ⟨_, _, -, hnone, -⟩ := onReader_run_ok hrun
      contradiction
  exact Triple.bind hcheck fun _ => Triple.bind hread fun _ =>
    Triple.bind (Triple.modify fun _ hs => hs) fun _ => Triple.pure fun _ hs => hs

/-- `SerializeBits` passes `width` bits and returns their value. -/
theorem triple_serializeBits (hsmall : pos + width < 2147483648) :
    Triple (Passed B N pos A) (serializeBits width : Proc Fault (ReadStream β) U32)
      (Read B N pos width A) (fun s => s.error ≠ .none) :=
  Triple.bind (Triple.lift fun _ _ _ hs => hs) fun _ =>
    Triple.bind (Triple.lift fun _ _ _ hs => hs) fun _ => triple_takeBits hsmall

/-- An integer whose field is narrower than a word is the offset in its field. -/
theorem triple_serializeInteger {min max : Int} (hmin : IsInt32 min) (hmax : IsInt32 max)
    (hlt : min < max) (hb : bitsRequired (toU32 min) (toU32 max) = width) (h31 : width ≤ 31)
    (hsmall : pos + width < 2147483648) :
    Triple (Passed B N pos A) (serializeInteger min max : Proc Fault (ReadStream β) Int)
      (fun v => Passed B N (pos + width)
        (A ∧ v = int32 ((Bits.toNat (Bits.slice B pos width) : Int) + min)))
      (fun s => s.error ≠ .none) := by
  have hbits := @Platform.bitsRequired_eq β _ (toU32 min) (toU32 max) (toU32_ne hmin hmax hlt)
  rw [serializeInteger, hbits, hb]
  refine Triple.bind (Triple.lift fun _ _ _ hs => hs) fun _ =>
    Triple.bind (triple_takeBits hsmall) fun u => Triple.pure fun s hs herror => ?_
  obtain ⟨⟨hfound, hvalue⟩, hreached⟩ := hs herror
  have hval := Bits.toNat_slice_lt B pos h31
  rw [← hvalue] at hval ⊢
  rw [BitVec.toInt_eq_toNat_cond, if_pos (by omega)]
  exact ⟨⟨hfound, rfl⟩, hreached⟩

end Reads

end ReadStream

/-! ## the members that were read are the bits that were taken -/

section Callers

variable {P : ReadStream β → Prop} {Q : α → ReadStream β → Prop} {E : ReadStream β → Prop}

/-- A read of the stream does not see the object. -/
theorem triple_stream {x : Proc Fault (ReadStream β) α} (hx : Triple P x Q E) :
    Triple (fun s => P s.1) (onStream x : ReadProc β τ α) (fun a s => Q a s.1) (fun s => E s.1) where
  value s a s' hs hrun := hx.value s.1 a s'.1 hs (ReadStream.onStream_run_ok (o := s.2) hrun).1
  exit s s' hs hrun := hx.exit s.1 s'.1 hs (ReadStream.onStream_run_ok (o := s.2) hrun).1

/-- A call of the stream leaves the caller's variables alone. -/
theorem onStream_leaves {γ : Type} (view : τ → γ) (x : Proc Fault (ReadStream β) α) :
    Leaves (fun s => view s.2) (onStream x : ReadProc β τ α) := by
  intro s o s' hrun
  exact congrArg view (ReadStream.onStream_run_ok (o := s.2) hrun).2

/-- Storing into one member leaves the others alone. -/
theorem assign_leaves {γ : Type} {view : τ → γ} {f : τ → τ} (h : ∀ o, view (f o) = view o) :
    Leaves (fun s => view s.2) (assign f : ReadProc β τ Unit) :=
  Leaves.modify fun s => h s.2

end Callers

namespace Serialize

open ReadStream (Passed Reached)

/-- The template reads `k` bits into members that are encoded by these bits. -/
def Canonical (S : Serialize σ) (e : σ → Enc) (k : Nat) : Prop :=
  ∀ (B : List Bool) (N : Int) (pos : Nat) (A : Prop), pos + k < 2147483648 →
    Triple (fun s => Passed B N pos A s.1) S.read
      (fun _ s => Passed B N (pos + k) (A ∧ Bits.slice B pos k = e s.2 pos) s.1) fun _ => True

/-- Reading leaves a view of the members alone. -/
def Spares {γ : Type} (S : Serialize σ) (view : σ → γ) : Prop := Leaves (fun s => view s.2) S.read

section Spares

variable {γ : Type} {view : σ → γ}

/-- `serialize_int` leaves everything but its member alone. -/
theorem spares_int {get : σ → Int} {set : Int → σ → σ} {min max : Int} {cast : Int → Int}
    (h : ∀ v o, view (set v o) = view o) : (int get set min max cast).Spares view := by
  refine Leaves.bind (.lift _) fun _ => .bind (onStream_leaves view _) fun v =>
    .bind (assign_leaves (h (cast v))) fun _ => ?_
  unfold Reading.checkRange
  split
  · exact .returnFalse
  · exact .pure ()

/-- `serialize_bits` leaves everything but its member alone. -/
theorem spares_bits {w : Nat} {get : σ → BitVec w} {set : BitVec w → σ → σ} {n : Int}
    (h : ∀ v o, view (set v o) = view o) : (bits get set n).Spares view :=
  Leaves.bind (.lift _) fun _ => .bind (.lift _) fun _ => .bind (onStream_leaves view _) fun _ =>
    assign_leaves (h _)

/-- `serialize_uint64` leaves everything but its member alone. -/
theorem spares_uint64 {get : σ → U64} {set : U64 → σ → σ} (h : ∀ v o, view (set v o) = view o) :
    (uint64 get set).Spares view :=
  Leaves.bind (onStream_leaves view _) fun _ => .bind (onStream_leaves view _) fun _ =>
    assign_leaves (h _)

/-- A loop leaves alone what each of its rounds leaves alone. -/
theorem spares_forEach {ι : Type} {l : List ι} {S : ι → Serialize σ}
    (h : ∀ i ∈ l, (S i).Spares view) : (forEach l S).Spares view := by
  induction l with
  | nil => exact .pure _
  | cons i l ih =>
      exact Leaves.bind (h i (by simp)) fun _ => ih fun j hj => h j (List.mem_cons_of_mem i hj)

end Spares

/-- A slice in front of the position is as long as it says. -/
theorem length_slice_reached {s : ReadStream Memory} {B : List Bool} {N : Int} {pos width : Nat}
    (h : s.Reached B N (pos + width)) : (Bits.slice B pos width).length = width := by
  have hle := h.pos_le
  rw [Bits.length_slice]
  omega

/-- A member whose field is narrower than a word, of a type that holds every value of the
field. -/
theorem canonical_int {get : σ → Int} {set : Int → σ → σ} {min max : Int} {cast : Int → Int}
    (hmin : IsInt32 min) (hmax : IsInt32 max) (hlt : min < max) {b : Nat}
    (hb : bitsRequired (toU32 min) (toU32 max) = b) (h31 : b ≤ 31)
    (hcast : ∀ x : Nat, x < 2 ^ b → cast (int32 (x + min)) = x + min)
    (hget : ∀ v o, min ≤ v → v ≤ max → get (set v o) = v) :
    (int get set min max cast).Canonical (fun o => Wire.int (get o) min max) b := by
  intro B N pos A hsmall
  have hread := triple_stream (τ := σ) (@ReadStream.triple_serializeInteger Memory _ B N pos b A
    min max hmin hmax hlt hb h31 hsmall)
  refine Triple.bind (Triple.lift fun _ _ _ hs => hs) fun _ =>
    Triple.bind (hread.weaken (fun _ _ hs => hs) fun _ _ => trivial) fun v =>
    Triple.bind (Q := fun _ s => (∃ o, s.2 = set (cast v) o) ∧ Passed B N (pos + b)
        (A ∧ v = int32 ((Bits.toNat (Bits.slice B pos b) : Int) + min)) s.1)
      (Triple.modify fun s hs => ⟨⟨s.2, rfl⟩, hs⟩) fun _ => ?_
  unfold Reading.checkRange
  split
  · exact Triple.returnFalse fun _ _ => trivial
  · next hin =>
    refine Triple.pure fun s hs herror => ?_
    obtain ⟨⟨o, hset⟩, hdone⟩ := hs
    obtain ⟨⟨hfound, hv⟩, hreached⟩ := hdone herror
    have hlen := length_slice_reached hreached
    have hback := hcast _ (Bits.toNat_slice_lt B pos (le_refl b))
    rw [← hv] at hback
    have hoffset : (cast v - min).toNat = Bits.toNat (Bits.slice B pos b) := by omega
    refine ⟨⟨hfound, ?_⟩, hreached⟩
    simp only [Wire.int, Enc.const, hset, hget (cast v) o (by omega) (by omega), hb,
      Int.toNat_natCast, hoffset]
    rw [Bits.ofNat_toNat _ (by omega), List.take_of_length_le (by omega)]

/-- A member that is read with all its bits. -/
theorem canonical_bits {w : Nat} {get : σ → BitVec w} {set : BitVec w → σ → σ}
    (hget : ∀ v o, get (set v o) = v) :
    (bits get set w).Canonical (fun o => Wire.bits ((get o).setWidth 32) w) w := by
  intro B N pos A hsmall
  have hread := triple_stream (τ := σ)
    (@ReadStream.triple_serializeBits Memory _ B N pos w A hsmall)
  refine Triple.bind (Triple.lift fun _ _ _ hs => hs) fun _ =>
    Triple.bind (Triple.lift fun _ _ _ hs => hs) fun _ =>
    Triple.bind (hread.weaken (fun _ _ hs => hs) fun _ _ => trivial) fun v =>
    Triple.modify fun s hs herror => ?_
  obtain ⟨⟨hfound, hv⟩, hreached⟩ := hs herror
  have hlen := length_slice_reached hreached
  have hval := Bits.toNat_slice_lt B pos (le_refl w)
  rw [← hv] at hval
  refine ⟨⟨hfound, ?_⟩, hreached⟩
  simp only [Wire.bits, Enc.const, hget, Int.toNat_natCast, BitVec.toNat_setWidth]
  rw [Nat.mod_eq_of_lt hval, Nat.mod_eq_of_lt (by omega), hv, Bits.ofNat_toNat _ (by omega),
    List.take_of_length_le (by omega)]

/-- The halves of a 64-bit value are those that its bits were taken in. -/
theorem ofVec_halves {lo hi : U32} {l r : List Bool} (hl : l.length = 32) (hr : r.length = 32)
    (hlo : lo.toNat = Bits.toNat l) (hhi : hi.toNat = Bits.toNat r) :
    Bits.ofVec (hi.setWidth 64 <<< 32 ||| lo.setWidth 64) = l ++ r := by
  obtain ⟨u, hu⟩ : ∃ u : U64, u = Bits.toVec 64 (l ++ r) := ⟨_, rfl⟩
  have hvec : Bits.ofVec u = l ++ r := by
    rw [hu]
    exact Bits.ofVec_toVec _ (by simp [hl, hr])
  have hword : ∀ {x y : U32} {t : List Bool}, x.toNat = Bits.toNat t →
      Bits.ofNat (32 : Int).toNat y.toNat = t → x = y := by
    rintro x y t hx rfl
    apply BitVec.eq_of_toNat_eq
    rw [hx, Bits.toNat_ofNat]
    exact Nat.mod_eq_of_lt y.isLt
  have hhalves := congrFun (Wire.bits_halves u) 0
  obtain ⟨hleft, hright⟩ := List.append_inj (hhalves.trans hvec)
    (by simp [Wire.bits, Enc.const, hl])
  rw [hword hlo hleft, hword hhi hright, Wire.halves_eq, hvec]

/-- `serialize_uint64` takes the 64 bits of the value that it stores. -/
theorem canonical_uint64 {get : σ → U64} {set : U64 → σ → σ} (hget : ∀ v o, get (set v o) = v) :
    (uint64 get set).Canonical (fun o => Wire.uint64 (get o)) 64 := by
  intro B N pos A hsmall
  have hlo := triple_stream (τ := σ)
    (@ReadStream.triple_serializeBits Memory _ B N pos 32 A (by omega))
  have hhi := fun lo : U32 => triple_stream (τ := σ)
    (@ReadStream.triple_serializeBits Memory _ B N (pos + 32) 32
      (A ∧ lo.toNat = Bits.toNat (Bits.slice B pos 32)) (by omega))
  refine Triple.bind (hlo.weaken (fun _ _ hs => hs) fun _ _ => trivial) fun lo =>
    Triple.bind ((hhi lo).weaken (fun _ _ hs => hs) fun _ _ => trivial) fun hi =>
    Triple.modify fun s hs herror => ?_
  obtain ⟨⟨⟨hfound, hlow⟩, hhigh⟩, hreached⟩ := hs herror
  have hle := hreached.pos_le
  have hlen : (Bits.slice B pos 32).length = 32 := by
    rw [Bits.length_slice]
    omega
  refine ⟨⟨hfound, ?_⟩, hreached⟩
  change Bits.slice B pos (32 + 32) = Wire.uint64 (get (set _ s.2)) pos
  rw [hget, Bits.slice_add]
  exact (ofVec_halves hlen (length_slice_reached hreached) hlow hhigh).symm

/-- Two templates in a row, when the second leaves alone what the first has stored. -/
theorem Canonical.seq {S T : Serialize σ} {e f : σ → Enc} {k m : Nat} (hS : S.Canonical e k)
    (hT : T.Canonical f m) (hspare : T.Spares e) :
    (S ++ T).Canonical (fun o => e o ++ f o) (k + m) := by
  intro B N pos A hsmall
  refine ⟨fun s u s'' hs hrun herror => ?_, fun _ _ _ _ => trivial⟩
  obtain ⟨_, s', hfirst, hsecond⟩ := Proc.bind_run_ok_some hrun
  have htook := (hS B N pos A (by omega)).value s _ s' hs hfirst
  -- what was found in the first part is carried along as a fact about `s'`
  obtain ⟨⟨⟨hfound, hfront⟩, hback⟩, hreached⟩ := (hT B N (pos + k) _ (by omega)).value s' _ s''
    htook hsecond herror
  have hkept : e s''.2 = e s'.2 := hspare _ _ _ hsecond
  have hlen : (e s'.2 pos).length = k := by
    have hle := hreached.pos_le
    rw [← hfront, Bits.length_slice]
    omega
  rw [← Nat.add_assoc]
  refine ⟨⟨hfound, ?_⟩, hreached⟩
  change _ = (e s''.2 ++ f s''.2) pos
  rw [Bits.slice_add, Enc.append_apply, hkept, hlen, hfront, hback]

/-- A loop over different members, by induction on the list of indices. -/
theorem Canonical.forEach {ι : Type} {l : List ι} {S : ι → Serialize σ} {e : ι → σ → Enc} {k : Nat}
    (h : ∀ i, (S i).Canonical (e i) k) (hl : l.Nodup)
    (hspare : ∀ i j, i ≠ j → (S j).Spares (e i)) :
    (Serialize.forEach l S).Canonical (fun o => .concat (l.map fun i => e i o)) (l.length * k) := by
  induction l with
  | nil =>
      intro B N pos A _
      refine Triple.pure fun s hs herror => ?_
      obtain ⟨hfound, hreached⟩ := hs herror
      simpa [Bits.slice, Enc.concat, Enc.empty] using And.intro hfound hreached
  | cons i l ih =>
      obtain ⟨hi, hl⟩ := List.nodup_cons.mp hl
      have hall := Canonical.seq (h i) (ih hl) (spares_forEach fun j hj =>
        hspare i j fun heq => hi (heq ▸ hj))
      rw [List.length_cons, Nat.succ_mul, Nat.add_comm]
      exact hall

end Serialize

/-! ## the packet classes -/

open Serialize (spares_int spares_bits spares_uint64 canonical_int canonical_bits canonical_uint64)

/-- A field narrower than a word keeps its values in an `int`. -/
theorem int32_offset {b x : Nat} {min : Int} (hmin : -1024 ≤ min ∧ min ≤ 1024) (h16 : b ≤ 16)
    (hx : x < 2 ^ b) : int32 ((x : Int) + min) = x + min := by
  have hpow : 2 ^ b ≤ 2 ^ 16 := Nat.pow_le_pow_right (by decide) h16
  exact int32_eq ⟨by omega, by omega⟩

/-- The body of a `TestPacketA` is read from 17 bits. -/
theorem TestPacketA.canonical : serialize.Canonical enc 17 := by
  have ha := @canonical_int TestPacketA (·.a) (fun v p => { p with a := v }) (-10) 10 id (by decide)
    (by decide) (by decide) 5 (by decide) (by decide)
    (fun x hx => int32_offset (by decide) (by decide) hx) fun _ _ _ _ => rfl
  have hb := @canonical_int TestPacketA (·.b) (fun v p => { p with b := v }) (-20) 20 id (by decide)
    (by decide) (by decide) 6 (by decide) (by decide)
    (fun x hx => int32_offset (by decide) (by decide) hx) fun _ _ _ _ => rfl
  have hc := @canonical_int TestPacketA (·.c) (fun v p => { p with c := v }) (-30) 30 id (by decide)
    (by decide) (by decide) 6 (by decide) (by decide)
    (fun x hx => int32_offset (by decide) (by decide) hx) fun _ _ _ _ => rfl
  exact (ha.seq hb (spares_int fun _ _ => rfl)).seq hc (spares_int fun _ _ => rfl)

/-- The body of a `TestPacketB` is read from 8 bits. -/
theorem TestPacketB.canonical : serialize.Canonical enc 8 := by
  have hx := @canonical_int TestPacketB (·.x) (fun v p => { p with x := v }) (-5) 5 id (by decide)
    (by decide) (by decide) 4 (by decide) (by decide)
    (fun x hx => int32_offset (by decide) (by decide) hx) fun _ _ _ _ => rfl
  have hy := @canonical_int TestPacketB (·.y) (fun v p => { p with y := v }) (-5) 5 id (by decide)
    (by decide) (by decide) 4 (by decide) (by decide)
    (fun x hx => int32_offset (by decide) (by decide) hx) fun _ _ _ _ => rfl
  exact hx.seq hy (spares_int fun _ _ => rfl)

/-- The elements are bytes, so the range of the macro leaves nothing of the field out. -/
theorem TestPacketC.canonical : serialize.Canonical enc 128 := by
  have helem : ∀ i : Fin 16, Serialize.Canonical
      (.int (fun p : TestPacketC => p.data[i].toNat)
        (fun v p => { p with data := p.data.set i (BitVec.ofInt 8 v) }) 0 255 toUInt8)
      (fun p => Wire.int p.data[i].toNat 0 255) 8 := by
    intro i
    refine canonical_int (by decide) (by decide) (by decide) (by decide) (by decide) ?_ ?_
    · intro x hx
      rw [int32_offset (by decide) (by decide) hx]
      unfold toUInt8
      omega
    · intro v o h0 h255
      have hself : (o.data.set i (BitVec.ofInt 8 v))[i] = BitVec.ofInt 8 v := by simp
      rw [hself, BitVec.toNat_ofInt]
      omega
  refine Serialize.Canonical.forEach helem (List.nodup_finRange 16) fun i j hij => spares_int ?_
  intro v o
  have hne : (j : Nat) ≠ i := fun heq => hij (Fin.ext heq.symm)
  have hother : (o.data.set j (BitVec.ofInt 8 v))[i] = o.data[i] := by
    simp [Vector.getElem_set_ne, hne]
  simp only [hother]

/-- A message type and a session id take 24 bits. -/
theorem SessionMessage.canonical : serialize.Canonical enc 24 :=
  (canonical_bits fun _ _ => rfl).seq (canonical_bits fun _ _ => rfl)
    (spares_bits fun _ _ => rfl)

/-- A stop message takes eight bits more, for the reason. -/
theorem StopMessage.canonical : serialize.Canonical enc 32 := by
  have hcmd := @canonical_bits StopMessage 8 (·.cmd) (fun v p => { p with cmd := v })
    fun _ _ => rfl
  have hsid := @canonical_bits StopMessage 16 (·.sid) (fun v p => { p with sid := v })
    fun _ _ => rfl
  have hreason := @canonical_bits StopMessage 8 (·.reason) (fun v p => { p with reason := v })
    fun _ _ => rfl
  exact (hcmd.seq hsid (spares_bits fun _ _ => rfl)).seq hreason (spares_bits fun _ _ => rfl)

/-- A start request takes 64 bits more, for the user id. -/
theorem ConnectionStartReq.canonical : serialize.Canonical enc 88 := by
  have hcmd := @canonical_bits ConnectionStartReq 8 (·.cmd) (fun v p => { p with cmd := v })
    fun _ _ => rfl
  have hsid := @canonical_bits ConnectionStartReq 16 (·.sid) (fun v p => { p with sid := v })
    fun _ _ => rfl
  have huid := @canonical_uint64 ConnectionStartReq (·.uid) (fun v p => { p with uid := v })
    fun _ _ => rfl
  exact (hcmd.seq hsid (spares_bits fun _ _ => rfl)).seq huid (spares_uint64 fun _ _ => rfl)

namespace FactoryPacket

open ReadStream (Passed)

/-- The packets of one class have the same fields. -/
theorem fieldBits_of_getType {p q : FactoryPacket} (h : p.getType = q.getType) :
    p.fieldBits = q.fieldBits := by
  cases p <;> cases q <;> first | rfl | simp [getType, TestPacketTypes.value] at h

/-- The body that was read into a packet encodes to the bits it was read from. -/
theorem triple_readInto_canonical {S : Serialize σ} {e : σ → Enc} {k : Nat} (hS : S.Canonical e k)
    (wrap : σ → FactoryPacket) (henc : ∀ o, (wrap o).enc = e o) (o : σ) {B : List Bool} {N : Int}
    {pos : Nat} {A : Prop} (hsmall : pos + k < 2147483648) :
    Triple (Passed B N pos A) (readInto S wrap o)
      (fun p => Passed B N (pos + k) (A ∧ Bits.slice B pos k = p.enc pos)) fun _ => True where
  value s p s' hs hrun := by
    obtain ⟨u, o', hread, rfl⟩ := readInto_run_some hrun
    rw [henc]
    exact (hS B N pos A hsmall).value _ u _ hs hread
  exit _ _ _ _ := trivial

/-- The body that a packet was read from is its encoding. -/
theorem triple_serializeRead_canonical (q : FactoryPacket) {B : List Bool} {N : Int} {pos : Nat}
    {A : Prop} (hsmall : pos + q.fieldBits.sum < 2147483648) :
    Triple (Passed B N pos A) q.serializeRead
      (fun p => Passed B N (pos + q.fieldBits.sum)
        (A ∧ Bits.slice B pos q.fieldBits.sum = p.enc pos)) fun _ => True := by
  cases q with
  | testPacketA p => exact triple_readInto_canonical TestPacketA.canonical _ (fun _ => rfl) p hsmall
  | testPacketB p => exact triple_readInto_canonical TestPacketB.canonical _ (fun _ => rfl) p hsmall
  | testPacketC p => exact triple_readInto_canonical TestPacketC.canonical _ (fun _ => rfl) p hsmall
  | connectionStartReq p =>
      exact triple_readInto_canonical ConnectionStartReq.canonical _ (fun _ => rfl) p hsmall
  | connectionStartRsp p =>
      exact triple_readInto_canonical SessionMessage.canonical _ (fun _ => rfl) p hsmall
  | connectionStopReq p =>
      exact triple_readInto_canonical StopMessage.canonical _ (fun _ => rfl) p hsmall
  | connectionStopRsp p =>
      exact triple_readInto_canonical StopMessage.canonical _ (fun _ => rfl) p hsmall
  | connectionHeartBeat p =>
      exact triple_readInto_canonical SessionMessage.canonical _ (fun _ => rfl) p hsmall

end FactoryPacket

/-! ## the stages of `ReadPacket` -/

section Stages

open ReadStream (Passed)

variable {B : List Bool} {N : Int} {pos : Nat} {A : Prop}

/-- A read whose outcome is not looked at. -/
theorem triple_skipped {width : Nat} (hsmall : pos + width < 2147483648) :
    Triple (fun s => Passed B N pos A s.1)
      (onStream (ReadStream.serializeBits width) : ReadProc Memory τ U32)
      (fun _ s => Passed B N (pos + width) A s.1) (fun s => Passed B N (pos + width) A s.1) :=
  (triple_stream (ReadStream.triple_serializeBits hsmall)).weaken
    (fun _ _ hs herror => ⟨(hs herror).1.1, (hs herror).2⟩) fun _ hs herror => absurd herror hs

/-- The prefix bytes are passed, whatever they are. -/
theorem triple_readPrefix_passed (info : PacketInfo)
    (hsmall : 8 * info.prefixBytes.toNat < 2147483648) :
    Triple (fun s => Passed B N 0 A s.1) (readPrefix info : ReadProc Memory τ Unit)
      (fun _ s => Passed B N (8 * info.prefixBytes.toNat) A s.1) fun _ => True := by
  have hloop : ∀ (n pos : Nat), pos + 8 * n < 2147483648 →
      Triple (fun s => Passed B N pos A s.1)
        (Proc.times n (Proc.ignore (onStream (ReadStream.serializeBits 8))) : ReadProc Memory τ Unit)
        (fun _ s => Passed B N (pos + 8 * n) A s.1) fun _ => True := by
    intro n
    induction n with
    | zero => exact fun pos _ => Triple.pure fun _ hs => hs
    | succ n ih =>
        intro pos hpos
        have hbyte : Triple (fun s => Passed B N pos A s.1)
            (Proc.ignore (onStream (ReadStream.serializeBits 8)) : ReadProc Memory τ Unit)
            (fun _ s => Passed B N (pos + 8) A s.1) fun _ => True :=
          Triple.ignore (@triple_skipped τ B N pos A 8 (by omega))
        have hrest := ih (pos + 8) (by omega)
        rw [show pos + 8 + 8 * n = pos + 8 * (n + 1) by omega] at hrest
        exact Triple.bind hbyte fun _ => hrest
  have hall := hloop info.prefixBytes.toNat 0 (by omega)
  rwa [Nat.zero_add] at hall

/-- The slot of the checksum is passed. -/
theorem triple_checkCrc32_passed (info : PacketInfo) (buffer : Memory) (bufferSize : Int)
    (hsmall : pos + slotWidth info < 2147483648) :
    Triple (fun s => Passed B N pos A s.1)
      (checkCrc32 info buffer bufferSize : ReadProc Memory (ReadResult σ) Unit)
      (fun _ s => Passed B N (pos + slotWidth info) A s.1) fun _ => True := by
  unfold slotWidth at hsmall ⊢
  unfold checkCrc32
  split
  · exact Triple.pure fun _ hs => hs
  · next hraw =>
    rw [if_neg hraw] at hsmall
    have hread : Triple (fun s => Passed B N pos A s.1)
        (readCrc32 : ReadProc Memory (ReadResult σ) U32)
        (fun _ s => Passed B N (pos + 32) A s.1) fun _ => True :=
      Triple.bind (Triple.attempt (triple_skipped hsmall)) fun _ => Triple.pure fun _ hs => hs
    exact Triple.bind hread fun _ => Triple.bind (Triple.lift fun _ _ _ hs => hs) fun _ =>
      triple_orReturn (Triple.check (fun _ hs _ => hs) fun _ _ _ => trivial)

/-- The bits of the packet type are the encoding of what was read. -/
theorem triple_readType_passed {f : PacketFactory} (hint : IsInt32 f.getNumPacketTypes)
    (hsmall : pos + typeBits f < 2147483648) :
    Triple (fun s => Passed B N pos A s.1) (readType f : ReadProc Memory (ReadResult σ) Int)
      (fun packetType s => Passed B N (pos + typeBits f)
        (A ∧ Bits.slice B pos (typeBits f) = typeEnc f packetType pos) s.1) fun _ => True := by
  refine Triple.bind (Triple.lift fun _ _ _ hs => hs) fun _ => ?_
  split
  · next hmany =>
    obtain ⟨hbits, -, hb31, -, -⟩ := typeBits_bounds hint hmany
    obtain ⟨hmax, hlast⟩ := lastType_eq hint (by omega)
    have hread := triple_stream (τ := ReadResult σ) (@ReadStream.triple_serializeInteger Memory _ B N
      pos (typeBits f) A 0 (f.getNumPacketTypes - 1) (by decide) hlast (by omega) hbits hb31 hsmall)
    rw [hmax]
    refine triple_orReturn (hread.weaken (fun packetType s hs herror => ?_) fun _ _ => trivial)
    obtain ⟨⟨hfound, hvalue⟩, hreached⟩ := hs herror
    have hlen := Serialize.length_slice_reached hreached
    have hval := Bits.toNat_slice_lt B pos hb31
    rw [int32_eq ⟨by omega, by omega⟩] at hvalue
    have hoffset : (packetType - 0).toNat = Bits.toNat (Bits.slice B pos (typeBits f)) := by omega
    refine ⟨⟨hfound, ?_⟩, hreached⟩
    rw [typeEnc, if_pos hmany, Wire.int, Enc.const, hbits, hoffset, Int.toNat_natCast,
      Bits.ofNat_toNat _ (by omega), List.take_of_length_le (by omega)]
  · next hone =>
    refine Triple.pure fun s hs herror => ?_
    obtain ⟨hfound, hreached⟩ := hs herror
    rw [typeBits, typeEnc, if_neg hone, if_neg hone]
    exact ⟨⟨hfound, by simp [Bits.slice, Enc.empty]⟩, hreached⟩

/-- Where the packet type starts. -/
def typeStart (info : PacketInfo) : Nat := 8 * info.prefixBytes.toNat + slotWidth info

/-- The stages in front of the body take the prefix, the checksum and the packet type. -/
theorem triple_typeStages_passed {f : PacketFactory} (hint : IsInt32 f.getNumPacketTypes)
    {info : PacketInfo} (buffer : Memory) (bufferSize : Int)
    (hsmall : typeStart info + typeBits f < 2147483648) :
    Triple (fun s => Passed B N 0 A s.1)
      (typeStages f info buffer bufferSize none : ReadProc Memory (ReadResult σ) Int)
      (fun packetType s => Passed B N (typeStart info + typeBits f)
        (A ∧ Bits.slice B (typeStart info) (typeBits f) = typeEnc f packetType (typeStart info)) s.1)
      fun _ => True := by
  have hsum : 8 * info.prefixBytes.toNat + slotWidth info = typeStart info := rfl
  exact Triple.bind (triple_readPrefix_passed info (by omega)) fun _ =>
    Triple.bind (triple_checkCrc32_passed info buffer bufferSize (by omega)) fun _ =>
    Triple.bind (Q := fun _ (s : ReadStream Memory × ReadResult σ) =>
        Passed B N (typeStart info) A s.1) (Triple.pure fun _ hs => hs)
      fun _ => triple_readType_passed hint hsmall

/-- The bits of the body are the encoding of the packet. -/
theorem triple_packetStages_passed (uninit : Uninit) {packetType : Int} {k : Nat}
    (hk : ∀ q : FactoryPacket, q.getType = packetType → q.fieldBits.sum = k)
    (hsmall : pos + k < 2147483648) :
    Triple (fun s => Passed B N pos A s.1)
      (packetStages uninit packetType : ReadProc Memory (ReadResult σ) FactoryPacket)
      (fun p s => s.1.error = .none ∧ Passed B N (pos + k) (A ∧ Bits.slice B pos k = p.enc pos) s.1)
      fun _ => True := by
  have hmake : Triple (fun s => Passed B N pos A s.1)
      (makePacket uninit packetType : ReadProc Memory (ReadResult σ) FactoryPacket)
      (fun q s => q.fieldBits.sum = k ∧ Passed B N pos A s.1) fun _ => True := by
    refine Triple.bind (Q := fun packet s => (∀ q, packet = some q → q.fieldBits.sum = k) ∧
        Passed B N pos A s.1) (Triple.lift fun packet s hmade hs => ⟨?_, hs⟩) fun packet => ?_
    · rintro q rfl
      exact hk q (PacketFactory.getType_createPacket hmade)
    · cases packet with
      | none =>
          exact Triple.bind (Triple.modify (Q := fun _ _ => True) fun _ _ => trivial) fun _ =>
            Triple.returnFalse fun _ _ => trivial
      | some q =>
          exact Triple.bind (Triple.modify (Q := fun _ s => q.fieldBits.sum = k ∧
            Passed B N pos A s.1) fun _ hs => ⟨hs.1 q rfl, hs.2⟩) fun _ => Triple.pure fun _ hs => hs
  have hbody : ∀ q : FactoryPacket, Triple
      (fun s => q.fieldBits.sum = k ∧ Passed B N pos A s.1)
      (readBody q : ReadProc Memory (ReadResult σ) FactoryPacket)
      (fun p s => Passed B N (pos + k) (A ∧ Bits.slice B pos k = p.enc pos) s.1) fun _ => True := by
    intro q
    refine triple_orReturn ⟨fun s p s' hs hrun => ?_, fun _ _ _ _ => trivial⟩
    obtain ⟨rfl, hpassed⟩ := hs
    exact (triple_stream (q.triple_serializeRead_canonical hsmall)).value s p s' hpassed hrun
  have hcheck : ∀ p : FactoryPacket, Triple
      (fun s => Passed B N (pos + k) (A ∧ Bits.slice B pos k = p.enc pos) s.1)
      (checkError : ReadProc Memory (ReadResult σ) Unit)
      (fun _ s => s.1.error = .none ∧ Passed B N (pos + k) (A ∧ Bits.slice B pos k = p.enc pos) s.1)
      fun _ => True := by
    refine fun p => ⟨fun s _ s' hs hrun => ?_, fun _ _ _ _ => trivial⟩
    obtain ⟨herror, rfl⟩ := checkError_run_some hrun
    exact ⟨herror, hs⟩
  exact Triple.bind hmake fun q => Triple.bind (hbody q) fun p => Triple.bind (hcheck p) fun _ =>
    Triple.pure fun _ hs => hs

end Stages

/-! ## written again -/

/-- With enough room the bits of a packet are in the buffer, in either format. -/
theorem writePacket_slice {f : PacketFactory} {info : PacketInfo} {packet : Packet}
    {header : Option Writable} {eh ep : Enc} (hid : info.protocolId ≠ 0)
    (hpre : info.rawFormat = false → 0 ≤ info.prefixBytes) (ht : WritableType f packet.getType)
    (hh : WriteStream.Writes info.context (writeHeader header) eh)
    (hp : WriteStream.Writes info.context packet.serializeWrite ep) {buffer : Memory}
    {bufferSize : Nat} (hpos : 0 < bufferSize) (h4 : bufferSize % 4 = 0)
    (hlen : bufferSize ≤ buffer.length) (hsize : buffer.length < 2147483648) {k : Nat}
    (hk : k = (packetEnc f info 0 eh packet.getType ep 0).length)
    (hfit : (k : Int) ≤ int32 (8 * bufferSize)) :
    ∃ crc written, writePacket f info packet buffer bufferSize header =
        .ok (((k + 7) / 8 : Nat), written) ∧
      Bits.slice (Bits.ofList written) 0 (packetEnc f info crc eh packet.getType ep 0).length =
        packetEnc f info crc eh packet.getType ep 0 := by
  by_cases hraw : info.rawFormat = true
  · obtain ⟨s, s', hwrite, hflush, herror, hbytes, hslice, -, -⟩ :=
      writePacket_flush hid ht hh hp hpos h4 hlen hsize hk hfit
    refine ⟨0, s'.getData, ?_, by rw [← hk, hslice]⟩
    rw [hwrite, ← hbytes]
    exact finishPacket_raw hraw hflush herror
  · obtain ⟨crc, written, hwrite, hslice, -⟩ :=
      writePacket_ok hid (hpre (by simpa using hraw)) ht hh hp hpos h4 hlen hsize hk hfit
    exact ⟨crc, written, hwrite, hslice⟩

/-- The packet type and the body of a packet without a header. -/
theorem slice_packetEnc {f : PacketFactory} {info : PacketInfo} {crc : U32} {packetType : Int}
    {body : Enc} {k : Nat} (hbody : ∀ pos, (body pos).length = k) {B : List Bool}
    (h : Bits.slice B 0 (packetEnc f info crc .empty packetType body 0).length =
      packetEnc f info crc .empty packetType body 0) :
    Bits.slice B (typeStart info) (typeBits f + k) =
      typeEnc f packetType (typeStart info) ++ body (typeStart info + typeBits f) := by
  have hfront : (List.replicate (8 * info.prefixBytes.toNat) false ++ slotBits info crc).length =
      typeStart info := by
    rw [List.length_append, List.length_replicate, length_slotBits, typeStart]
  have hsplit : packetEnc f info crc .empty packetType body 0 =
      (List.replicate (8 * info.prefixBytes.toNat) false ++ slotBits info crc) ++
        (typeEnc f packetType (typeStart info) ++ body (typeStart info + typeBits f)) := by
    simp only [packetEnc, Enc.append_apply, Enc.const, Enc.empty, length_slotBits, length_typeEnc,
      List.length_replicate, List.length_nil, List.nil_append, Nat.zero_add, Nat.add_zero,
      List.append_assoc, typeStart]
  rw [hsplit] at h
  obtain ⟨-, hback⟩ := Bits.slice_eq_append h
  rwa [hfront, Nat.zero_add, List.length_append, length_typeEnc, hbody] at hback

/-- The packet that `ReadPacket` took from a buffer, up to where its stream then stands, is
in the first `m` bytes of what `WritePacket` wrote: every bit from the packet type on is
the same. -/
structure Rewritten (f : PacketFactory) (info : PacketInfo) (buffer : Memory) (bufferSize : Int)
    (p : FactoryPacket) (s : ReadStream Memory) (m : Nat) (written : Memory) : Prop where
  pos : 0 < m
  le : m ≤ bufferSize
  consumed : s.getBitsProcessed = (typeStart info + (typeBits f + p.fieldBits.sum) : Nat)
  bits : Bits.slice (Bits.ofList written) (typeStart info) (typeBits f + p.fieldBits.sum) =
    Bits.slice (Bits.ofList buffer) (typeStart info) (typeBits f + p.fieldBits.sum)

/-- Accepted packets are canonical. -/
theorem readPacket_canonical {f : PacketFactory}
    (hf : f.getNumPacketTypes = TestPacketTypes.numTypes.value) {uninit : Uninit} {info : PacketInfo}
    (hpre : info.rawFormat = false → 0 ≤ info.prefixBytes) {buffer : Memory} {bufferSize : Int}
    {o : σ} {p : FactoryPacket} {r : ReadResult σ}
    (h : readPacket f uninit info buffer bufferSize none o = .ok (some p, r)) {out : Memory}
    {outSize : Nat} (h4 : outSize % 4 = 0) (hlen : outSize ≤ out.length)
    (hsize : out.length < 2147483648)
    (hfit : (packetBits f info .empty p : Int) ≤ int32 (8 * outSize)) :
    ∃ (s : ReadStream Memory) (m : Nat) (written : Memory),
      checkedStages f uninit info buffer bufferSize none
        ({ ReadStream.init buffer bufferSize with context := info.context }, { header := o }) =
          .ok (some p, s, r) ∧
      writePacket f info p.toPacket out outSize none = .ok ((m : Int), written) ∧
      Rewritten f info buffer bufferSize p s m written := by
  obtain ⟨hsizepos, hid, s, hrun⟩ := readPacket_eq_ok.mp h
  have hnum : f.getNumPacketTypes = 106 := hf
  have hint : IsInt32 f.getNumPacketTypes := ⟨by omega, by omega⟩
  have htype := p.getType_bounds
  obtain ⟨k, hk⟩ : ∃ k, k = packetBits f info .empty p := ⟨_, rfl⟩
  have hklen : k = typeStart info + typeBits f + p.fieldBits.sum := by
    rw [hk, packetBits, length_packetEnc p.length_enc, typeStart]
  have hkpos := packetBits_pos hf info .empty p
  have hsmall := bytes_lt h4 hfit
  rw [← hk] at hfit hkpos hsmall
  have hpos : 0 < outSize := by
    rcases Nat.eq_zero_or_pos outSize with rfl | hpos
    · exact absurd hfit (by rw [Int.ofNat_zero, Int.mul_zero, int32_zero]; omega)
    · exact hpos
  -- what was read
  have hstages := hrun
  rw [checkedStages_eq] at hstages
  obtain ⟨packetType, s₁, hfirst, hsecond⟩ := Proc.bind_run_ok_some hstages
  have hfresh := (triple_typeStages f info buffer bufferSize none).value _ _ _
    (show Fresh ({ header := o } : ReadResult σ) from ⟨rfl, rfl, rfl⟩) hfirst
  obtain ⟨⟨hptype, hrange⟩, -⟩ :=
    (triple_packetStages uninit packetType).value _ _ _ hfresh hsecond
  have hstart : ({ ReadStream.init buffer bufferSize with context := info.context } :
      ReadStream Memory).Reached (Platform.bits buffer) (int32 (bufferSize * 8)) 0 := by
    obtain ⟨hloaded, hwords, hbits, hcount, hread, hle⟩ := ReadStream.init_reached buffer bufferSize
    exact ⟨hloaded, hwords, hbits, hcount, hread, hle⟩
  have hpassed := (triple_typeStages_passed hint (A := True) buffer bufferSize (by omega)).value _ _ _
    (fun _ => ⟨trivial, hstart⟩) hfirst
  obtain ⟨herror, hdone⟩ := (triple_packetStages_passed uninit (k := p.fieldBits.sum)
    (fun q hq => by rw [FactoryPacket.fieldBits_of_getType (hq.trans hptype.symm)])
    (by omega)).value _ _ _ hpassed hsecond
  obtain ⟨⟨⟨-, htypebits⟩, hbody⟩, hreached⟩ := hdone herror
  rw [← hklen] at hreached
  rw [← hptype] at htypebits
  have hbuffer : Bits.slice (Bits.ofList buffer) (typeStart info) (typeBits f + p.fieldBits.sum) =
      typeEnc f p.getType (typeStart info) ++ p.enc (typeStart info + typeBits f) := by
    rw [Bits.slice_add, ← htypebits, ← hbody]
    rfl
  -- what is written
  have hwritable : KnownType f p.getType := ⟨hint, htype.1, by omega⟩
  obtain ⟨crc, written, hwrite, hslice⟩ := @writePacket_slice f info p.toPacket none .empty p.enc hid
    hpre hwritable.writable WriteStream.Writes.pure (FactoryPacket.writes_serializeWrite hrange) out
    outSize hpos h4 hlen hsize k hk hfit
  refine ⟨s, _, written, hrun, hwrite, by omega, ?_, ?_, ?_⟩
  · have hroom := hreached.le_numBits hkpos
    have hwide := int32_le (show 0 ≤ bufferSize * 8 by omega)
    omega
  · rw [ReadStream.getBitsProcessed, hreached.bitsRead]
    omega
  · rw [hbuffer]
    exact slice_packetEnc p.length_enc hslice

/-- Four zero bytes, in the raw format, are a packet of type 0. -/
theorem readPacket_canonical_sample :
    ∃ (s : ReadStream Memory) (m : Nat) (written : Memory),
      checkedStages ⟨106⟩ ⟨0, 0, 0, 0⟩ { rawFormat := true, protocolId := 1 } [0, 0, 0, 0] 4 none
          ({ ReadStream.init [0, 0, 0, 0] 4 with context := 0 }, { header := () }) =
        .ok (some (.testPacketA ⟨-10, -20, -30⟩), s, { header := (), created := 1 }) ∧
      writePacket ⟨106⟩ { rawFormat := true, protocolId := 1 }
          (FactoryPacket.testPacketA ⟨-10, -20, -30⟩).toPacket [9, 9, 9, 9] (4 : Nat) none =
        .ok ((m : Int), written) ∧
      Rewritten ⟨106⟩ { rawFormat := true, protocolId := 1 } [0, 0, 0, 0] 4
        (.testPacketA ⟨-10, -20, -30⟩) s m written :=
  readPacket_canonical rfl (fun _ => by decide) (by decide +kernel)
    (by decide) (by decide) (by decide) (by decide)

end RudpNetwork
