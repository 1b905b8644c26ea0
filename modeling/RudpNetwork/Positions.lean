import RudpNetwork.Lib.Ends
import RudpNetwork.Outcome

/-!
# RudpNetwork.Positions

Which calls of `ReadPacket` complete.

`readPacket_outcome` is about the runs that return.  The others stop in
`BitReader::ReadBits`: `WouldOverflow` adds the width to the position in an
`int`, and where the sum wraps, a read is let through that goes on behind the
last word.  A `Tape` is a buffer together with these comparisons, and
`StaysInside` follows the reads of the call over it, field by field.
`readPacket_coherent_iff` says that the call is coherent if and only if it stays
inside.

## Main results

* `Walks`, `Completes` — the fields that a read passes over, and when it completes.
* `readPacket_coherent_iff` — a call is coherent exactly when it stays inside the buffer.
* `not_readPacket_coherent` — a datagram close to the end of the range of `int`.
-/

namespace RudpNetwork

open MachineInt
open ReadStream (onStream assign orReturn)
open Proc (Ends Completes)

variable {σ τ α : Type}

/-! ## the tape -/

/-- The bits of a buffer, the count that `WouldOverflow` compares with, and the end of
the last word. -/
structure Tape where
  bits : List Bool
  limit : Int
  room : Nat

namespace Tape

/-- What `BitReader( data, bytes )` makes of a buffer. -/
def of (buffer : Memory) (bytes : Int) : Tape where
  bits := Platform.bits buffer
  limit := int32 (bytes * 8)
  room := 32 * ((int32 (bytes + 3)).tdiv 4).toNat

variable (t : Tape)

/-- `WouldOverflow` at bit `pos`. -/
def Refuses (pos width : Nat) : Prop := t.limit < int32 (pos + width)

instance (pos width : Nat) : Decidable (t.Refuses pos width) := inferInstanceAs (Decidable (_ < _))

/-- A read that is let through ends before the last word does. -/
def Inside (pos width : Nat) : Prop := t.Refuses pos width ∨ pos + width ≤ t.room

/-- The bits of a field, as a number. -/
def value (pos width : Nat) : Nat := Bits.toNat (Bits.slice t.bits pos width)

/-- What a read returns. -/
def take (pos width : Nat) : Option Nat :=
  if t.Refuses pos width then none else some (t.value pos width)

/-- Where a read ends: at an error it goes nowhere. -/
def skip (width pos : Nat) : Nat := if t.Refuses pos width then pos else pos + width

/-- The fields from `pos` on are read inside, up to one that is refused or out of its
range; behind the last one, `rest` holds. -/
def Holds : List FieldShape → (Nat → Prop) → Nat → Prop
  | [], rest, pos => rest pos
  | field :: fields, rest, pos =>
      t.Inside pos field.width ∧ ∀ v, t.take pos field.width = some v → v ≤ field.max →
        Holds fields rest (pos + field.width)

variable {t}

/-- `width` bits are a number below `2 ^ width`. -/
theorem value_lt (pos width : Nat) : t.value pos width < 2 ^ width :=
  Bits.toNat_slice_lt t.bits pos (le_refl width)

/-- A read returns the bits where it is not refused. -/
theorem take_eq_some {pos width v : Nat} :
    t.take pos width = some v ↔ ¬t.Refuses pos width ∧ t.value pos width = v := by
  by_cases h : t.Refuses pos width <;> simp [take, h]

/-- What is read is below `2 ^ width`. -/
theorem take_lt {pos width v : Nat} (h : t.take pos width = some v) : v < 2 ^ width := by
  obtain ⟨-, rfl⟩ := take_eq_some.mp h
  exact value_lt pos width

/-- Fields in a row are followed one after the other. -/
theorem holds_append (fs gs : List FieldShape) (rest : Nat → Prop) :
    t.Holds (fs ++ gs) rest = t.Holds fs (t.Holds gs rest) := by
  induction fs with
  | nil => rfl
  | cons f fs ih =>
      funext pos
      simp only [List.cons_append, Holds, ih]

/-- The count leaves a word of room below `2 ^ 31`, so that `WouldOverflow` adds without
wrapping. -/
structure Exact (t : Tape) : Prop where
  limit_le : t.limit ≤ t.room
  limit_lt : t.limit + 32 < 2147483648

section Exact

variable {pos width : Nat}

/-- Without a wrap, a read that is not refused ends before the limit. -/
theorem Exact.fits (h : t.Exact) (hpos : pos ≤ t.limit.toNat) (hwidth : width ≤ 32) :
    t.Refuses pos width ∨ width = 0 ∨ pos + width ≤ t.limit.toNat := by
  have hlimit := h.limit_lt
  have hsum : int32 ((pos : Int) + width) = pos + width := int32_eq ⟨by omega, by omega⟩
  rw [Refuses, hsum]
  omega

/-- Without a wrap, no read leaves the buffer. -/
theorem Exact.inside (h : t.Exact) (hpos : pos ≤ t.limit.toNat) (hwidth : width ≤ 32) :
    t.Inside pos width := by
  have hle := h.limit_le
  obtain hrefuse | hzero | hfit := h.fits hpos hwidth
  · exact .inl hrefuse
  · exact .inr (by omega)
  · exact .inr (by omega)

/-- Nor does a position pass the limit. -/
theorem Exact.skip_le (h : t.Exact) (hpos : pos ≤ t.limit.toNat) (hwidth : width ≤ 32) :
    t.skip width pos ≤ t.limit.toNat := by
  unfold skip
  split
  · exact hpos
  · next hpass =>
      have hfit := (h.fits hpos hwidth).resolve_left hpass
      omega

/-- Nor do the positions of the prefix bytes. -/
theorem Exact.iterate (h : t.Exact) {i : Nat} : (t.skip 8)^[i] 0 ≤ t.limit.toNat := by
  induction i with
  | zero => exact Nat.zero_le _
  | succ i ih =>
      rw [Function.iterate_succ_apply']
      exact h.skip_le ih (by decide)

/-- Without a wrap, fields of at most 32 bits stay inside, whatever they are. -/
theorem Exact.holds (h : t.Exact) {fields : List FieldShape} (hfields : ∀ f ∈ fields, f.width ≤ 32)
    (hpos : pos ≤ t.limit.toNat) : t.Holds fields (fun _ => True) pos := by
  induction fields generalizing pos with
  | nil => trivial
  | cons f fields ih =>
      have hwidth := hfields f (by simp)
      refine ⟨h.inside hpos hwidth, fun v htake _ => ih (fun g hg => hfields g (by simp [hg])) ?_⟩
      obtain ⟨hpass, -⟩ := take_eq_some.mp htake
      have hnext := h.skip_le hpos hwidth
      rwa [skip, if_neg hpass] at hnext

end Exact

/-- Inside the count, a loop of reads advances every time. -/
theorem iterate_skip (hlimit : t.limit < 2147483648) {k : Nat} (h : (8 * k : Nat) ≤ t.limit) :
    (t.skip 8)^[k] 0 = 8 * k := by
  induction k with
  | zero => rfl
  | succ k ih =>
      have hsum : int32 (((8 * k : Nat) : Int) + (8 : Nat)) = 8 * k + 8 := by
        rw [int32_eq ⟨by omega, by omega⟩]
        omega
      have hpass : ¬t.Refuses (8 * k) 8 := by
        rw [Refuses, hsum]
        omega
      rw [Function.iterate_succ_apply', ih (by omega), skip, if_neg hpass]
      omega

/-- A limit that is no closer than 32 bits to the end of `int` leaves no room for a wrap. -/
theorem exact_of {buffer : Memory} {n : Nat} (hn : n < 2147483648)
    (hlimit : int32 ((n : Int) * 8) + 32 < 2147483648) : (of buffer n).Exact := by
  refine ⟨?_, hlimit⟩
  have hle := int32_le (show 0 ≤ (n : Int) * 8 by omega)
  change int32 ((n : Int) * 8) ≤ (32 * ((int32 ((n : Int) + 3)).tdiv 4).toNat : Nat)
  by_cases hwrap : (n : Int) + 3 < 2147483648
  · rw [int32_eq (x := (n : Int) + 3) ⟨by omega, by omega⟩, tdiv_eq _ (by omega)]
    omega
  · -- where the number of words wraps, the count of bits has wrapped to a negative number
    have hneg : int32 ((n : Int) * 8) < 0 := by
      unfold int32
      omega
    omega

end Tape

/-- A field is at most as wide as a word. -/
theorem FactoryPacket.width_le (p : FactoryPacket) : ∀ f ∈ p.fields, f.width ≤ 32 := by
  cases p <;> simp [fields, FieldShape.bits]

/-! ## the stream over the tape -/

namespace ReadStream

section Stands

variable {β : Type} [Platform β]

/-- The stream of either code base stands at bit `pos` of the tape. The position that
it counts has wrapped. -/
structure Stands (s : ReadStream β) (t : Tape) (pos : Nat) : Prop where
  loaded : s.reader.Loaded t.bits t.room pos
  words : 32 * s.reader.numWords.toNat = t.room
  numBits : s.reader.numBits = t.limit
  bitsRead : s.reader.bitsRead = int32 pos

/-- A fresh stream stands at the start. -/
theorem init_stands {buffer : β} {t : Tape} {n : Nat} (hint : n < 2147483648)
    (hwords : 32 * ((n + 3) / 4) ≤ (Platform.bits buffer).length)
    (hbits : t.bits = Platform.bits buffer) (hlimit : t.limit = int32 ((n : Int) * 8))
    (hroom : t.room = 32 * ((int32 ((n : Int) + 3)).tdiv 4).toNat) :
    (init buffer n).Stands t 0 := by
  have hdiv : ((int32 ((n : Int) + 3)).tdiv 4).toNat ≤ (n + 3) / 4 := by
    by_cases hwrap : (n : Int) + 3 < 2147483648
    · rw [int32_eq ⟨by omega, by omega⟩, tdiv_eq _ (by omega)]
      omega
    · have hneg : int32 ((n : Int) + 3) ≤ 0 := by
        unfold int32
        omega
      have hquot : 0 ≤ (-int32 ((n : Int) + 3)).tdiv 4 := Int.tdiv_nonneg (by omega) (by decide)
      rw [Int.neg_tdiv] at hquot
      omega
  have hnum : (init buffer (n : Int)).reader.numWords = (int32 ((n : Int) + 3)).tdiv 4 := by
    simp only [init, BitReader.init]
  have hstart : (init buffer (n : Int)).reader.scratch.toNat =
      Bits.toNat (Bits.slice t.bits 0 (32 * ((0 + 31) / 32) - 0)) := by
    simp [init, BitReader.init, Bits.slice]
  have hloaded : (init buffer (n : Int)).reader.Loaded t.bits t.room 0 := by
    refine ⟨hbits.symm, ?_, ?_, ?_, ?_, Nat.zero_le _, rfl, rfl, hstart⟩
    · rw [hroom, hnum]
    · rw [hroom, hbits]
      omega
    · rw [hroom]
      exact Nat.mul_mod_right _ _
    · rw [hroom]
      omega
  exact ⟨hloaded, by rw [hroom, hnum], hlimit.symm, rfl⟩

variable {t : Tape} {pos width : Nat} {s : ReadStream β}

/-- The sum that `ReadBits` checks again. -/
theorem Stands.sum (hs : s.Stands t pos) (width : Nat) :
    int32 (s.reader.bitsRead + width) = int32 (pos + width) := by
  rw [hs.bitsRead, int32_int32_add]

/-- The comparison of the stream is that of the tape. -/
theorem Stands.checkOverflow (hs : s.Stands t pos) (width : Nat) :
    checkOverflow width s =
      if t.Refuses pos width then .ok (none, { s with error := .streamOverflow })
      else .ok (some (), s) := by
  have hover : s.reader.wouldOverflow width = decide (t.Refuses pos width) := by
    rw [BitReader.wouldOverflow, hs.sum, hs.numBits]
    rfl
  simp only [ReadStream.checkOverflow, hover, decide_eq_true_eq]

/-- A refused read sets the error and moves nothing. -/
theorem Stands.takeBits_refused (hs : s.Stands t pos) (hrefuse : t.Refuses pos width) :
    takeBits width s = .ok (none, { s with error := .streamOverflow }) := by
  have hcheck := hs.checkOverflow width
  rw [if_pos hrefuse] at hcheck
  exact Proc.bind_run_none hcheck

/-- What `SerializeBits` lets through, the assertion of `ReadBits` lets through. -/
theorem Stands.passes (hs : s.Stands t pos) (hpass : ¬t.Refuses pos width) :
    ReadStream.checkOverflow width s = .ok (some (), s) ∧
      int32 (s.reader.bitsRead + width) ≤ s.reader.numBits := by
  have hcheck := hs.checkOverflow width
  rw [if_neg hpass] at hcheck
  refine ⟨hcheck, ?_⟩
  rw [hs.sum, hs.numBits]
  exact Int.not_lt.mp hpass

/-- A read that is let through ends inside the words. -/
theorem Stands.takeBits_inside (hs : s.Stands t pos) (h0 : 0 < width) (h32 : width ≤ 32)
    (hpass : ¬t.Refuses pos width) (hfit : pos + width ≤ t.room) :
    ∃ (value : U32) (s' : ReadStream β), takeBits width s = .ok (some value, s') ∧
      value.toNat = t.value pos width ∧ s'.Stands t (pos + width) ∧ s.Same s' := by
  obtain ⟨hcheck, hagain⟩ := hs.passes hpass
  obtain ⟨value, scratch, scratchBits, wordIndex, hread, hvalue, hloaded⟩ :=
    BitReader.readBits_inside hs.loaded (show (0 : Int) < width by omega) (by omega) hagain
      (by omega)
  rw [Int.toNat_natCast] at hvalue hloaded
  refine ⟨value, _, (Proc.bind_run_some hcheck).trans (Proc.bind_run_some (onReader_run hread)),
    hvalue, ⟨hloaded, hs.words, hs.numBits, ?_⟩, ⟨rfl, rfl⟩⟩
  rw [Nat.cast_add]
  exact hs.sum width

/-- A read that is let through and goes on behind the words stops at the assertion of
the load. -/
theorem Stands.takeBits_outside (hs : s.Stands t pos) (h0 : 0 < width) (h32 : width ≤ 32)
    (hpass : ¬t.Refuses pos width) (hout : t.room < pos + width) :
    takeBits width s = .error .assertion := by
  obtain ⟨hcheck, hagain⟩ := hs.passes hpass
  have hstop := BitReader.readBits_outside hs.loaded hs.words (show (0 : Int) < width by omega)
    (by omega) hagain (by omega)
  have hreader : onReader (BitReader.readBits · width) s = .error .assertion := by
    rw [onReader, hstop]
    rfl
  exact (Proc.bind_run_some hcheck).trans (Proc.bind_run_error hreader)

end Stands

/-- The streams over memory that stand at bit `pos`. -/
abbrev StandsAt (t : Tape) (pos : Nat) (s : ReadStream Memory) : Prop := s.Stands t pos

/-- A new stream stands at the start of its tape. -/
theorem init_stands_of {buffer : Memory} {n : Nat} (hint : n < 2147483648)
    (hwords : 4 * ((n + 3) / 4) ≤ buffer.length) : (init buffer n).Stands (.of buffer n) 0 := by
  have hlen : (Platform.bits buffer).length = 8 * buffer.length := Bits.length_ofList _
  exact init_stands hint (by omega) rfl rfl rfl

section Reads

variable {t : Tape} {pos : Nat}

/-- A read is refused, goes through, or stops at the assertion of the load. -/
theorem ends_takeBits {width : Nat} (h0 : 0 < width) (h32 : width ≤ 32) :
    Ends (StandsAt t pos) (takeBits width) (t.Inside pos width)
      ((t.take pos width).map (BitVec.ofNat 32)) (StandsAt t (t.skip width pos)) := by
  constructor
  · intro s hs hin
    by_cases hrefuse : t.Refuses pos width
    · have hrun := hs.takeBits_refused hrefuse
      rw [Tape.take, Tape.skip, if_pos hrefuse, if_pos hrefuse]
      exact ⟨_, hrun, hs.loaded, hs.words, hs.numBits, hs.bitsRead⟩
    · obtain ⟨value, s', hrun, hvalue, hat, -⟩ :=
        hs.takeBits_inside h0 h32 hrefuse (hin.resolve_left hrefuse)
      have htaken : (t.take pos width).map (BitVec.ofNat 32) = some value := by
        rw [Tape.take, if_neg hrefuse, Option.map_some, ← hvalue, BitVec.ofNat_toNat,
          BitVec.setWidth_eq]
      rw [htaken, Tape.skip, if_neg hrefuse]
      exact ⟨s', hrun, hat⟩
  · intro s hs hin
    obtain ⟨hrefuse, hout⟩ := not_or.mp hin
    exact ⟨_, hs.takeBits_outside h0 h32 hrefuse (by omega)⟩

/-- `SerializeBits` ends exactly where its bits lie inside. -/
theorem ends_serializeBits {width : Nat} (h0 : 0 < width) (h32 : width ≤ 32) :
    Ends (StandsAt t pos) (serializeBits width) (t.Inside pos width)
      ((t.take pos width).map (BitVec.ofNat 32)) (StandsAt t (t.skip width pos)) :=
  Ends.require (by omega) (Ends.require (by omega) (ends_takeBits h0 h32))

/-- An integer whose field is narrower than a word comes out as the offset in its
field. -/
theorem ends_serializeInteger {min max : Int} (hmin : IsInt32 min) (hmax : IsInt32 max)
    (hlt : min < max) {b : Nat} (hb : bitsRequired (toU32 min) (toU32 max) = b) (h31 : b ≤ 31) :
    Ends (StandsAt t pos) (serializeInteger min max) (t.Inside pos b)
      ((t.take pos b).map fun v : Nat => int32 (v + min)) (StandsAt t (t.skip b pos)) := by
  obtain ⟨b', hb', hb1, -, -, -⟩ := bitsRequired_bounds hmin hmax hlt
  have hbits := @Platform.bitsRequired_eq Memory _ (toU32 min) (toU32 max) (toU32_ne hmin hmax hlt)
  have hread := @ends_takeBits t pos b (by omega) (by omega)
  have hvalue : (t.take pos b).map (fun v : Nat => int32 (v + min)) =
      ((t.take pos b).map (BitVec.ofNat 32)).map fun u => int32 (u.toInt + min) := by
    cases htake : t.take pos b with
    | none => rfl
    | some v =>
        have hv := Tape.take_lt htake
        have hpow : 2 ^ b ≤ 2 ^ 31 := Nat.pow_le_pow_right (by decide) h31
        have hnat : (BitVec.ofNat 32 v).toNat = v := by
          rw [BitVec.toNat_ofNat]
          omega
        have hint : (BitVec.ofNat 32 v).toInt = v := by
          rw [BitVec.toInt_eq_toNat_cond, hnat, if_pos (by omega)]
        simp only [Option.map_some, hint]
  rw [hvalue]
  refine Ends.require hlt ?_
  rw [hbits, hb]
  exact Ends.map _ hread

end Reads

end ReadStream

/-- The stream of a caller stands at bit `pos` of the tape. -/
def Tape.On (t : Tape) (pos : Nat) (s : ReadStream Memory × τ) : Prop := s.1.Stands t pos

section Callers

variable {t : Tape} {pos next : Nat} {S : Prop} {out : Option α}

/-- A read of the stream does not touch the object. -/
theorem ends_onStream {x : Proc Fault (ReadStream Memory) α}
    (hx : Ends (ReadStream.StandsAt t pos) x S out (ReadStream.StandsAt t next)) :
    Ends (t.On pos) (onStream x : ReadProc Memory τ α) S out (t.On next) where
  run s hs hS := by
    obtain ⟨s', hrun, hs'⟩ := hx.run s.1 hs hS
    exact ⟨_, ReadStream.onStream_run hrun, hs'⟩
  fault s hs hS := by
    obtain ⟨e, hrun⟩ := hx.fault s.1 hs hS
    refine ⟨e, ?_⟩
    rw [onStream, hrun]
    rfl

/-- A failure that leaves the function does not move the position. -/
theorem ends_orReturn {x : ReadProc Memory τ α} (f : τ → τ)
    (hx : Ends (t.On pos) x S out (t.On next)) :
    Ends (t.On pos) (orReturn f x) S out (t.On next) where
  run s hs hS := by
    obtain ⟨s', hrun, hs'⟩ := hx.run s hs hS
    cases out with
    | none => exact ⟨_, ReadStream.orReturn_run_none hrun, hs'⟩
    | some a => exact ⟨_, ReadStream.orReturn_run_some hrun, hs'⟩
  fault s hs hS := by
    obtain ⟨e, hrun⟩ := hx.fault s hs hS
    exact ⟨e, by rw [orReturn, hrun]⟩

/-- Storing into the object moves nothing. -/
theorem ends_assign (f : τ → τ) :
    Ends (t.On pos) (assign f : ReadProc Memory τ Unit) True (some ()) (t.On pos) :=
  Ends.modify fun _ hs => hs

end Callers

/-! ## the fields of a body -/

/-- `x` reads the fields one after the other, and stops early only at one that is
refused or out of its range: whatever follows is run from behind the last one. -/
def Walks (x : ReadProc Memory τ Unit) (fields : List FieldShape) : Prop :=
  ∀ (t : Tape) (y : ReadProc Memory τ Unit) (rest : Nat → Prop),
    (∀ pos, Completes (t.On pos) y (rest pos)) →
    ∀ pos, Completes (t.On pos) (x >>= fun _ => y) (t.Holds fields rest pos)

namespace Walks

variable {fs gs : List FieldShape}

/-- A step that does not read. -/
theorem nil {x : ReadProc Memory τ Unit}
    (hx : ∀ (t : Tape) pos, Ends (t.On pos) x True (some ()) (t.On pos)) : Walks x [] := by
  intro t y rest hy pos
  exact (Completes.bind (T := fun _ => rest pos) (hx t pos) fun _ _ => hy pos).congr
    (by simp [Tape.Holds])

theorem require {p : Prop} [Decidable p] {x : ReadProc Memory τ Unit} (hp : p) (hx : Walks x fs) :
    Walks (do assert p; x) fs := by
  intro t y rest hy pos
  rw [Proc.bind_assoc]
  exact Completes.require hp (hx t y rest hy pos)

/-- A field is read and passed; a value out of its range ends the body. -/
theorem field {f : FieldShape} {x : ReadProc Memory τ α} {y : α → ReadProc Memory τ Unit}
    {g : Nat → α}
    (hx : ∀ (t : Tape) pos, Ends (t.On pos) x (t.Inside pos f.width) ((t.take pos f.width).map g)
      (t.On (t.skip f.width pos)))
    (hin : ∀ v ≤ f.max, Walks (y (g v)) fs)
    (hout : ∀ v, v < 2 ^ f.width → f.max < v →
      ∀ (t : Tape) pos, Ends (t.On pos) (y (g v)) True none (t.On pos)) :
    Walks (x >>= y) (f :: fs) := by
  intro t z rest hz pos
  rw [Proc.bind_assoc]
  have hfollow : ∀ a, (t.take pos f.width).map g = some a → Completes (t.On (t.skip f.width pos))
      (y a >>= fun _ => z) (t.value pos f.width ≤ f.max → t.Holds fs rest (pos + f.width)) := by
    intro a ha
    obtain ⟨v, htake, rfl⟩ := Option.map_eq_some_iff.mp ha
    obtain ⟨hpass, hv⟩ := Tape.take_eq_some.mp htake
    rw [hv, Tape.skip, if_neg hpass]
    by_cases hmax : v ≤ f.max
    · exact (hin v hmax t z rest hz _).congr (by simp [hmax])
    · have hstop := hout v (Tape.take_lt htake) (by omega) t (pos + f.width)
      exact (Completes.bind (T := fun _ => True) hstop nofun).congr (by simp [hmax])
  refine (Completes.bind (hx t pos) hfollow).congr (and_congr_right fun _ => ?_)
  cases htake : t.take pos f.width with
  | none => simp
  | some v =>
      obtain ⟨-, hv⟩ := Tape.take_eq_some.mp htake
      simp [hv]

/-- Two reads in a row walk over the fields of both. -/
theorem append {x y : ReadProc Memory τ Unit} (hx : Walks x fs) (hy : Walks y gs) :
    Walks (do x; y) (fs ++ gs) := by
  intro t z rest hz pos
  rw [Proc.bind_assoc, Tape.holds_append]
  exact hx t _ _ (hy t z rest hz) pos

theorem forM {ι : Type} {l : List ι} {f : FieldShape} {x : ι → ReadProc Memory τ Unit}
    (hx : ∀ i, Walks (x i) [f]) : Walks (forM l x) (List.replicate l.length f) := by
  induction l with
  | nil => exact nil fun _ _ => Ends.pure ()
  | cons i l ih =>
      rw [List.forM_cons, List.length_cons, List.replicate_succ]
      exact append (hx i) ih

/-- The run itself, with nothing behind it. -/
theorem completes {x : ReadProc Memory τ Unit} (hx : Walks x fs) (t : Tape) (pos : Nat) :
    Completes (t.On pos) x (t.Holds fs (fun _ => True) pos) := by
  have hall := hx t (pure ()) (fun _ => True) (fun p => (Ends.pure ()).completes) pos
  intro s hs
  rw [← hall s hs]
  cases hrun : x s with
  | error e => simp [Proc.bind_run_error hrun]
  | ok r =>
      obtain ⟨o, s'⟩ := r
      cases o with
      | none => simp [Proc.bind_run_none hrun]
      | some a => simp [Proc.bind_run_some hrun]

end Walks

namespace Serialize

/-- What `checkRange` does with the raw values of the field. -/
theorem walks_int {get : σ → Int} {set : Int → σ → σ} {min max : Int} {cast : Int → Int}
    {f : FieldShape} (hmin : IsInt32 min) (hmax : IsInt32 max) (hlt : min < max)
    (hb : bitsRequired (toU32 min) (toU32 max) = f.width) (h31 : f.width ≤ 31)
    (hcast : ∀ v : Nat, v < 2 ^ f.width →
      (v ≤ f.max ↔ min ≤ cast (int32 (v + min)) ∧ cast (int32 (v + min)) ≤ max))
    (hpow : f.max < 2 ^ f.width) :
    Walks (int get set min max cast).read [f] := by
  have hcheck : ∀ (v : Int) (t : Tape) pos, Ends (t.On pos)
      (do assign (set v); Reading.checkRange v min max : ReadProc Memory σ Unit) (True ∧ True)
      (if min ≤ v ∧ v ≤ max then some () else none) (t.On pos) := by
    intro v t pos
    refine Ends.bind (ends_assign (set v)) ?_
    unfold Reading.checkRange
    by_cases hin : min ≤ v ∧ v ≤ max
    · rw [if_pos hin, if_neg (by omega)]
      exact Ends.pure ()
    · rw [if_neg hin, if_pos (by omega)]
      exact Ends.returnFalse
  refine Walks.require hlt (Walks.field
    (fun t pos => ends_onStream (ReadStream.ends_serializeInteger hmin hmax hlt hb h31))
    (fun v hv => Walks.nil fun t pos => ?_) fun v hv hgt t pos => ?_)
  · have hin := (hcast v (by omega)).mp hv
    have hends := hcheck (cast (int32 (v + min))) t pos
    rwa [if_pos hin, and_true] at hends
  · have hin := mt (hcast v hv).mpr (by omega)
    have hends := hcheck (cast (int32 (v + min))) t pos
    rwa [if_neg hin, and_true] at hends

theorem walks_bits {w : Nat} {get : σ → BitVec w} {set : BitVec w → σ → σ} {n : Nat} (h0 : 0 < n)
    (h32 : n ≤ 32) : Walks (bits get set n).read [.bits n] := by
  refine Walks.require (by omega) (Walks.require (by omega) (Walks.field
    (fun t pos => ends_onStream (ReadStream.ends_serializeBits h0 h32))
    (fun v _ => Walks.nil fun t pos => ends_assign _) fun v hv hgt => ?_))
  simp only [FieldShape.bits] at hv hgt
  omega

theorem walks_uint64 {get : σ → U64} {set : U64 → σ → σ} :
    Walks (uint64 get set).read [.bits 32, .bits 32] := by
  have hread : ∀ (t : Tape) pos, Ends (t.On pos)
      (onStream (ReadStream.serializeBits (32 : Nat)) : ReadProc Memory σ U32) (t.Inside pos 32)
      ((t.take pos 32).map (BitVec.ofNat 32)) (t.On (t.skip 32 pos)) :=
    fun t pos => ends_onStream (ReadStream.ends_serializeBits (by decide) (by decide))
  have hnone : ∀ v, v < 2 ^ (FieldShape.bits 32).width → ¬(FieldShape.bits 32).max < v := by
    intro v hv
    simp only [FieldShape.bits] at hv ⊢
    omega
  exact Walks.field hread
    (fun lo _ => Walks.field hread (fun hi _ => Walks.nil fun t pos => ends_assign _)
      fun v hv hgt => absurd hgt (hnone v hv))
    fun v hv hgt => absurd hgt (hnone v hv)

end Serialize

/-- Three ranges of 21, 41 and 61 values. -/
theorem TestPacketA.walks : Walks serialize.read [⟨5, 20⟩, ⟨6, 40⟩, ⟨6, 60⟩] := by
  have ha := @Serialize.walks_int TestPacketA (·.a) (fun v p => { p with a := v }) (-10) 10 id
    ⟨5, 20⟩ (by decide) (by decide) (by decide) (by decide) (by decide)
    (fun v hv => by simp only [id, int32] at hv ⊢; omega) (by decide)
  have hb := @Serialize.walks_int TestPacketA (·.b) (fun v p => { p with b := v }) (-20) 20 id
    ⟨6, 40⟩ (by decide) (by decide) (by decide) (by decide) (by decide)
    (fun v hv => by simp only [id, int32] at hv ⊢; omega) (by decide)
  have hc := @Serialize.walks_int TestPacketA (·.c) (fun v p => { p with c := v }) (-30) 30 id
    ⟨6, 60⟩ (by decide) (by decide) (by decide) (by decide) (by decide)
    (fun v hv => by simp only [id, int32] at hv ⊢; omega) (by decide)
  exact (ha.append hb).append hc

/-- Two ranges of 11 values. -/
theorem TestPacketB.walks : Walks serialize.read [⟨4, 10⟩, ⟨4, 10⟩] := by
  have hx := @Serialize.walks_int TestPacketB (·.x) (fun v p => { p with x := v }) (-5) 5 id
    ⟨4, 10⟩ (by decide) (by decide) (by decide) (by decide) (by decide)
    (fun v hv => by simp only [id, int32] at hv ⊢; omega) (by decide)
  have hy := @Serialize.walks_int TestPacketB (·.y) (fun v p => { p with y := v }) (-5) 5 id
    ⟨4, 10⟩ (by decide) (by decide) (by decide) (by decide) (by decide)
    (fun v hv => by simp only [id, int32] at hv ⊢; omega) (by decide)
  exact hx.append hy

/-- Sixteen bytes. -/
theorem TestPacketC.walks : Walks serialize.read (List.replicate 16 (.bits 8)) := by
  have hall := @Walks.forM TestPacketC (Fin 16) (List.finRange 16) (.bits 8) _ fun i =>
    @Serialize.walks_int TestPacketC (fun p => p.data[i].toNat)
      (fun v p => { p with data := p.data.set i (BitVec.ofInt 8 v) }) 0 255 toUInt8 (.bits 8)
      (by decide) (by decide) (by decide) (by decide) (by decide)
      (fun v hv => by simp only [FieldShape.bits, toUInt8, int32] at hv ⊢; omega) (by decide)
  rwa [List.length_finRange] at hall

/-- A message type and a session id. -/
theorem SessionMessage.walks : Walks serialize.read [.bits 8, .bits 16] :=
  Walks.append (Serialize.walks_bits (by decide) (by decide))
    (Serialize.walks_bits (by decide) (by decide))

/-- A message type, a session id and a reason. -/
theorem StopMessage.walks : Walks serialize.read [.bits 8, .bits 16, .bits 8] :=
  Walks.append (Walks.append (Serialize.walks_bits (by decide) (by decide))
    (Serialize.walks_bits (by decide) (by decide))) (Serialize.walks_bits (by decide) (by decide))

/-- A message type, a session id and the two words of a user id. -/
theorem ConnectionStartReq.walks :
    Walks serialize.read [.bits 8, .bits 16, .bits 32, .bits 32] :=
  Walks.append (Walks.append (Serialize.walks_bits (by decide) (by decide))
    (Serialize.walks_bits (by decide) (by decide))) Serialize.walks_uint64

namespace FactoryPacket

variable {t : Tape} {pos : Nat}

/-- The body of a packet completes where its fields lie inside. -/
theorem completes_readInto {S : Serialize σ} {fs : List FieldShape} (hS : Walks S.read fs)
    (wrap : σ → FactoryPacket) (o : σ) :
    Completes (ReadStream.StandsAt t pos) (readInto S wrap o) (t.Holds fs (fun _ => True) pos) := by
  intro s hs
  rw [← hS.completes t pos (s, o) hs, readInto]
  cases hrun : S.read (s, o) <;> simp [Except.map]

/-- The members are read field by field. -/
theorem completes_serializeRead (p : FactoryPacket) :
    Completes (ReadStream.StandsAt t pos) p.serializeRead
      (t.Holds p.fields (fun _ => True) pos) := by
  cases p with
  | testPacketA p => exact completes_readInto TestPacketA.walks _ p
  | testPacketB p => exact completes_readInto TestPacketB.walks _ p
  | testPacketC p => exact completes_readInto TestPacketC.walks _ p
  | connectionStartReq p => exact completes_readInto ConnectionStartReq.walks _ p
  | connectionStartRsp p => exact completes_readInto SessionMessage.walks _ p
  | connectionStopReq p => exact completes_readInto StopMessage.walks _ p
  | connectionStopRsp p => exact completes_readInto StopMessage.walks _ p
  | connectionHeartBeat p => exact completes_readInto SessionMessage.walks _ p

end FactoryPacket

/-! ## the stages of `ReadPacket` -/

namespace Tape

variable (t : Tape) (info : PacketInfo)

/-- Where the slot starts. The reads of the prefix go on after an error. -/
def slotPos : Nat := (t.skip 8)^[info.prefixBytes.toNat] 0

/-- What `read_crc32` is after the slot. -/
def slotValue : U32 := ((t.take (t.slotPos info) 32).map (BitVec.ofNat 32)).getD 0

/-- Where the packet type starts. -/
def typePos : Nat := if info.rawFormat then t.slotPos info else t.skip 32 (t.slotPos info)

end Tape

section Stages

variable {t : Tape} {pos : Nat}

/-- The prefix ends where each of its bytes is refused or lies inside. -/
theorem ends_readPrefix (info : PacketInfo) :
    Ends (t.On 0) (readPrefix info : ReadProc Memory τ Unit)
      (∀ i < info.prefixBytes.toNat, t.Inside ((t.skip 8)^[i] 0) 8) (some ())
      (t.On (t.slotPos info)) := by
  have hbyte : ∀ i, Ends (t.On i)
      (Proc.ignore (onStream (ReadStream.serializeBits 8)) : ReadProc Memory τ Unit) (t.Inside i 8)
      (some ()) (t.On (t.skip 8 i)) :=
    fun i => Ends.ignore (ends_onStream (@ReadStream.ends_serializeBits t i 8 (by decide) (by decide)))
  exact Ends.times hbyte _ 0

/-- The slot of the checksum is one word. -/
theorem ends_readCrc32 (info : PacketInfo) :
    Ends (t.On (t.slotPos info)) (readCrc32 : ReadProc Memory τ U32)
      (t.Inside (t.slotPos info) 32) (some (t.slotValue info))
      (t.On (t.skip 32 (t.slotPos info))) :=
  Ends.map (·.getD 0) (Ends.attempt (ends_onStream
    (@ReadStream.ends_serializeBits t _ 32 (by decide) (by decide))))

/-- The checksum is computed inside the buffer unless the prefix is shorter than the
slot is long, below zero. -/
theorem expectedCrc32_cases {info : PacketInfo} {buffer : Memory} {n : Nat}
    (hint : IsInt32 info.prefixBytes) (hslot : info.prefixBytes + 4 ≤ n) (hpos : 0 < n)
    (hn : n < 2147483648) (hlen : n ≤ buffer.length) :
    (-4 ≤ info.prefixBytes → ∃ crc, expectedCrc32 info buffer n = .ok crc) ∧
      (info.prefixBytes < -4 → ∃ e, expectedCrc32 info buffer n = .error e) := by
  obtain ⟨hlow, -⟩ := hint
  have heq : expectedCrc32 info buffer n = calculateCrc32 buffer (info.prefixBytes + 4)
      (crc32Length info n) (crc32 (bytesOf 0) (crc32 (bytesOf info.protocolId) 0)) := by
    simp only [expectedCrc32, hostToNetwork, calculateCrc32_bytesOf]
    rfl
  rw [heq]
  constructor
  · intro hpre
    have hlength : crc32Length info n = n - 4 - info.prefixBytes := by
      rw [crc32Length, int32_eq ⟨by omega, by omega⟩]
      exact sizeT_eq (by omega) (by omega)
    exact ⟨_, calculateCrc32_eq_ok.mpr ⟨.inr ⟨by omega, by omega⟩, rfl⟩⟩
  · intro hpre
    have hlength : 0 < crc32Length info n := by
      unfold crc32Length sizeT int32
      omega
    cases hrun : calculateCrc32 buffer (info.prefixBytes + 4) (crc32Length info n)
        (crc32 (bytesOf 0) (crc32 (bytesOf info.protocolId) 0)) with
    | error e => exact ⟨e, rfl⟩
    | ok crc =>
        obtain ⟨hrange, -⟩ := calculateCrc32_eq_ok.mp hrun
        omega

end Stages

/-- The call gets as far as the packet type: there is no checksum in the raw format,
and otherwise the one in the slot is right. -/
def Accepted (info : PacketInfo) (buffer : Memory) (bufferSize : Int) : Prop :=
  info.rawFormat = true ∨
    expectedCrc32 info buffer bufferSize = .ok ((Tape.of buffer bufferSize).slotValue info)

instance (info : PacketInfo) (buffer : Memory) (bufferSize : Int) :
    Decidable (Accepted info buffer bufferSize) := inferInstanceAs (Decidable (_ ∨ _))

/-- The check ends where the slot lies inside, with a mismatch or without. -/
theorem ends_checkCrc32 {info : PacketInfo} {buffer : Memory} {n : Nat}
    (hint : IsInt32 info.prefixBytes)
    (hslot : info.rawFormat = true ∨ info.prefixBytes + 4 ≤ n) (hpos : 0 < n)
    (hn : n < 2147483648) (hlen : n ≤ buffer.length) :
    Ends ((Tape.of buffer n).On ((Tape.of buffer n).slotPos info))
      (checkCrc32 info buffer n : ReadProc Memory (ReadResult σ) Unit)
      (info.rawFormat = false →
        -4 ≤ info.prefixBytes ∧ (Tape.of buffer n).Inside ((Tape.of buffer n).slotPos info) 32)
      (if Accepted info buffer n then some () else none)
      ((Tape.of buffer n).On ((Tape.of buffer n).typePos info)) := by
  have hread := @ends_readCrc32 (ReadResult σ) (Tape.of buffer n) info
  unfold checkCrc32 Tape.typePos
  cases hraw : info.rawFormat with
  | true =>
      have hpass : Accepted info buffer n := .inl hraw
      have hnone : (true = false → -4 ≤ info.prefixBytes ∧
          (Tape.of buffer n).Inside ((Tape.of buffer n).slotPos info) 32) ↔ True := by simp
      rw [if_pos rfl, if_pos rfl, if_pos hpass, hnone]
      exact Ends.pure ()
  | false =>
      have hnraw : ¬info.rawFormat = true := by simp [hraw]
      have hslot' : (false = false → -4 ≤ info.prefixBytes ∧
          (Tape.of buffer n).Inside ((Tape.of buffer n).slotPos info) 32) ↔
          (Tape.of buffer n).Inside ((Tape.of buffer n).slotPos info) 32 ∧
            -4 ≤ info.prefixBytes := by simp [and_comm]
      obtain ⟨hok, herror⟩ := expectedCrc32_cases hint (hslot.resolve_left hnraw) hpos hn hlen
      rw [if_neg Bool.false_ne_true, if_neg Bool.false_ne_true, hslot']
      refine Ends.bind hread ?_
      by_cases hpre : -4 ≤ info.prefixBytes
      · obtain ⟨crc, hcrc⟩ := hok hpre
        have hiff : Accepted info buffer n ↔ crc = (Tape.of buffer n).slotValue info := by
          rw [Accepted, hcrc]
          simp [hraw]
        simp only [hiff, hpre]
        exact Ends.lift_bind hcrc (ends_orReturn _ (Ends.check _))
      · obtain ⟨e, he⟩ := herror (by omega)
        simp only [hpre]
        exact Ends.lift_fault he

section Rest

variable {t : Tape} {pos : Nat} {f : PacketFactory}

/-- The packet type ends where its bits lie inside. -/
theorem ends_readType (hint : IsInt32 f.getNumPacketTypes) (hmany : 1 < f.getNumPacketTypes) :
    Ends (t.On pos) (readType f : ReadProc Memory (ReadResult σ) Int) (t.Inside pos (typeBits f))
      ((t.take pos (typeBits f)).map fun v : Nat => (v : Int)) (t.On (t.skip (typeBits f) pos)) := by
  obtain ⟨hbits, -, hb31, -, -⟩ := typeBits_bounds hint hmany
  obtain ⟨hmax, hlast⟩ := lastType_eq hint (by omega)
  have hread := @ReadStream.ends_serializeInteger t pos 0 (f.getNumPacketTypes - 1) (by decide)
    hlast (by omega) _ hbits hb31
  have hvalue : (t.take pos (typeBits f)).map (fun v : Nat => int32 (v + 0)) =
      (t.take pos (typeBits f)).map fun v : Nat => (v : Int) := by
    cases htake : t.take pos (typeBits f) with
    | none => simp only [Option.map_none]
    | some v =>
        have hv := Tape.take_lt htake
        have hpow : 2 ^ typeBits f ≤ 2 ^ 31 := Nat.pow_le_pow_right (by decide) hb31
        simp only [Option.map_some, Int.add_zero, int32_eq (x := v) ⟨by omega, by omega⟩]
  rw [hvalue] at hread
  refine Ends.require (by omega) ?_
  rw [if_pos hmany, hmax]
  exact ends_orReturn _ (ends_onStream hread)

/-- The body of a packet of any class. -/
theorem completes_readBody (packet : FactoryPacket) :
    Completes (t.On pos) (readBody packet : ReadProc Memory (ReadResult σ) FactoryPacket)
      (t.Holds packet.fields (fun _ => True) pos) := by
  intro s hs
  obtain ⟨stream, r⟩ := s
  rw [← packet.completes_serializeRead stream hs]
  unfold readBody orReturn onStream
  cases hrun : packet.serializeRead stream with
  | error e => simp [Except.map, hrun]
  | ok result =>
      obtain ⟨a, stream'⟩ := result
      cases a <;> simp [Except.map, hrun]

/-- The last check has no assertion. -/
theorem checkError_run (s : ReadStream Memory × ReadResult σ) : ∃ r, checkError s = .ok r := by
  obtain ⟨stream, r⟩ := s
  by_cases herror : stream.error = .none
  · exact ⟨_, by rw [checkError, if_pos herror]⟩
  · exact ⟨_, by rw [checkError, if_neg herror]⟩

/-- The stages behind the packet type, for the class that the type names. -/
theorem completes_packetStages (uninit : Uninit) {packetType : Nat} :
    Completes (t.On pos)
      (packetStages uninit packetType : ReadProc Memory (ReadResult σ) FactoryPacket)
      (∀ p, PacketFactory.createPacket uninit packetType = .ok (some p) →
        t.Holds p.fields (fun _ => True) pos) := by
  obtain ⟨packet, hmake⟩ :=
    PacketFactory.createPacket_ok uninit (show (0 : Int) ≤ packetType from Int.natCast_nonneg _)
  have hends : Ends (t.On pos)
      (makePacket uninit packetType : ReadProc Memory (ReadResult σ) FactoryPacket) (True ∧ True)
      packet (t.On pos) := by
    refine Ends.lift_bind hmake ?_
    cases packet with
    | none => exact Ends.bind (ends_assign _) Ends.returnFalse
    | some p => exact Ends.bind (ends_assign _) (Ends.pure p)
  have hrest : ∀ p, packet = some p → Completes (t.On pos)
      (do let packet ← readBody p; checkError; return packet :
        ReadProc Memory (ReadResult σ) FactoryPacket) (t.Holds p.fields (fun _ => True) pos) := by
    intro p _
    refine Completes.before (completes_readBody p) fun q s => ?_
    obtain ⟨⟨o, s'⟩, hrun⟩ := checkError_run s
    cases o with
    | none => exact ⟨_, Proc.bind_run_none hrun⟩
    | some u => exact ⟨_, Proc.bind_run_some hrun⟩
  refine (Completes.bind hends hrest).congr ?_
  simp [hmake]

end Rest

/-! ## the outcome of every call -/

/-- Every read of the call that `WouldOverflow` lets through stays inside the words of
the buffer, and the bytes under the checksum lie in it. -/
structure StaysInside (f : PacketFactory) (uninit : Uninit) (info : PacketInfo) (buffer : Memory)
    (bufferSize : Int) : Prop where
  skipped : ∀ i < info.prefixBytes.toNat,
    (Tape.of buffer bufferSize).Inside (((Tape.of buffer bufferSize).skip 8)^[i] 0) 8
  slot : info.rawFormat = false → -4 ≤ info.prefixBytes ∧
    (Tape.of buffer bufferSize).Inside ((Tape.of buffer bufferSize).slotPos info) 32
  type : Accepted info buffer bufferSize →
    (Tape.of buffer bufferSize).Inside ((Tape.of buffer bufferSize).typePos info) (typeBits f)
  body : Accepted info buffer bufferSize → ∀ (packetType : Nat) p,
    (Tape.of buffer bufferSize).take ((Tape.of buffer bufferSize).typePos info) (typeBits f) =
      some packetType → PacketFactory.createPacket uninit packetType = .ok (some p) →
    (Tape.of buffer bufferSize).Holds p.fields (fun _ => True)
      ((Tape.of buffer bufferSize).typePos info + typeBits f)

section

variable {f : PacketFactory} {uninit : Uninit} {info : PacketInfo} {buffer : Memory} {n : Nat} {o : σ}

/-- All stages: the conditions of the parts, each at the position where the parts before it have
ended. -/
theorem completes_checkedStages (hint : IsInt32 f.getNumPacketTypes)
    (hmany : 1 < f.getNumPacketTypes) (hpre : IsInt32 info.prefixBytes)
    (hslot : info.rawFormat = true ∨ info.prefixBytes + 4 ≤ n) (hpos : 0 < n)
    (hn : n < 2147483648) (hlen : n ≤ buffer.length) :
    Completes ((Tape.of buffer n).On 0)
      (checkedStages f uninit info buffer n none : ReadProc Memory (ReadResult σ) FactoryPacket)
      (StaysInside f uninit info buffer n) := by
  have hcheck := @ends_checkCrc32 σ info buffer n hpre hslot hpos hn hlen
  generalize ht : Tape.of buffer n = t at hcheck
  have hbody : ∀ packetType : Int, (t.take (t.typePos info) (typeBits f)).map
      (fun v : Nat => (v : Int)) = some packetType →
      Completes (t.On (t.skip (typeBits f) (t.typePos info)))
        (packetStages uninit packetType : ReadProc Memory (ReadResult σ) FactoryPacket)
        (∀ p, PacketFactory.createPacket uninit packetType = .ok (some p) →
          t.Holds p.fields (fun _ => True) (t.typePos info + typeBits f)) := by
    intro packetType htype
    obtain ⟨v, htake, rfl⟩ := Option.map_eq_some_iff.mp htype
    obtain ⟨hpass, -⟩ := Tape.take_eq_some.mp htake
    rw [Tape.skip, if_neg hpass]
    exact completes_packetStages uninit
  have htype := Completes.bind (ends_readType hint hmany) hbody
  have hrest := Completes.bind (f := fun _ : Unit => readType f >>= packetStages uninit) hcheck
    fun _ _ => htype
  have hall := Completes.bind_some (f := fun _ : Unit => checkCrc32 info buffer n >>=
    fun _ => readType f >>= packetStages uninit) (ends_readPrefix info) hrest
  rw [checkedStages_eq]
  unfold typeStages
  simp only [Proc.bind_assoc]
  change Completes _ (readPrefix info >>= fun _ => checkCrc32 info buffer n >>=
    fun _ => readType f >>= packetStages uninit) _
  refine hall.congr ⟨fun h => ?_, fun h => ?_⟩
  · obtain ⟨hskipped, hslot, hrest⟩ := h
    refine ⟨by rwa [ht], by rwa [ht], fun hpass => ?_, fun hpass v p htake hmake => ?_⟩
    · rw [ht]
      exact (hrest () (if_pos hpass)).1
    · rw [ht] at htake ⊢
      exact (hrest () (if_pos hpass)).2 v (by rw [htake, Option.map_some]) p hmake
  · obtain ⟨hskipped, hslot, htype, hfields⟩ := h
    rw [ht] at hskipped hslot htype hfields
    refine ⟨hskipped, hslot, fun _ hif => ?_⟩
    have hpass : Accepted info buffer n := by
      by_contra hno
      rw [if_neg hno] at hif
      contradiction
    refine ⟨htype hpass, fun packetType hread p hmake => ?_⟩
    obtain ⟨v, htake, rfl⟩ := Option.map_eq_some_iff.mp hread
    exact hfields hpass v p htake hmake

/-- A call completes if and only if it stays inside. -/
theorem readPacket_completes_iff (hint : IsInt32 f.getNumPacketTypes)
    (hmany : 1 < f.getNumPacketTypes) (hid : info.protocolId ≠ 0)
    (hpre : IsInt32 info.prefixBytes)
    (hslot : info.rawFormat = true ∨ info.prefixBytes + 4 ≤ n) (hpos : 0 < n)
    (hn : n < 2147483648) (hwords : 4 * ((n + 3) / 4) ≤ buffer.length) :
    (∃ packet r, readPacket f uninit info buffer n none o = .ok (packet, r)) ↔
      StaysInside f uninit info buffer n := by
  have hstart : ({ ReadStream.init buffer n with context := info.context } : ReadStream Memory).Stands
      (.of buffer n) 0 := by
    obtain ⟨hloaded, hwords, hnum, hread⟩ := ReadStream.init_stands_of hn hwords
    exact ⟨hloaded, hwords, hnum, hread⟩
  rw [← completes_checkedStages hint hmany hpre hslot hpos hn (by omega)
    (_, ({ header := o } : ReadResult σ)) hstart]
  constructor
  · rintro ⟨packet, r, hrun⟩
    obtain ⟨-, -, s, hstages⟩ := readPacket_eq_ok.mp hrun
    exact ⟨_, hstages⟩
  · rintro ⟨⟨packet, s, r⟩, hstages⟩
    exact ⟨packet, r, readPacket_eq_ok.mpr ⟨by omega, hid, s, hstages⟩⟩

/-- Exactly the calls that stay inside are coherent. -/
theorem readPacket_coherent_iff (hnum : f.numPacketTypes = TestPacketTypes.numTypes.value)
    (hid : info.protocolId ≠ 0) (hpre : IsInt32 info.prefixBytes)
    (hslot : info.rawFormat = true ∨ info.prefixBytes + 4 ≤ n) (hpos : 0 < n)
    (hn : n < 2147483648) (hwords : 4 * ((n + 3) / 4) ≤ buffer.length) :
    (∃ packet r, readPacket f uninit info buffer n none o = .ok (packet, r) ∧
        Coherent f info buffer n none o packet r) ↔
      StaysInside f uninit info buffer n := by
  have hcount : f.getNumPacketTypes = 106 := hnum
  rw [← readPacket_completes_iff (o := o) ⟨by omega, by omega⟩ (by omega) hid hpre hslot hpos hn
    hwords]
  constructor
  · rintro ⟨packet, r, hrun, -⟩
    exact ⟨packet, r, hrun⟩
  · rintro ⟨packet, r, hrun⟩
    exact ⟨packet, r, hrun, readPacket_outcome hrun⟩

/-- As long as the count of bits is not within a word of `2 ^ 31`, no sum of a position and
a width wraps. -/
theorem staysInside_of_limit (hint : IsInt32 f.getNumPacketTypes) (hmany : 1 < f.getNumPacketTypes)
    (hsum : info.rawFormat = false → -4 ≤ info.prefixBytes) (hn : n < 2147483648)
    (hlimit : int32 ((n : Int) * 8) + 32 < 2147483648) : StaysInside f uninit info buffer n := by
  obtain ⟨-, hb1, hb31, -, -⟩ := typeBits_bounds hint hmany
  have hexact := @Tape.exact_of buffer n hn hlimit
  have hpre := hexact.iterate (i := info.prefixBytes.toNat)
  have htype : (Tape.of buffer n).typePos info ≤ (Tape.of buffer n).limit.toNat := by
    unfold Tape.typePos
    split
    · exact hpre
    · exact hexact.skip_le hpre (by decide)
  refine ⟨fun i _ => hexact.inside hexact.iterate (by decide),
    fun hraw => ⟨hsum hraw, hexact.inside hpre (by decide)⟩,
    fun _ => hexact.inside htype (by omega), fun _ v p htake _ => ?_⟩
  obtain ⟨hpass, -⟩ := Tape.take_eq_some.mp htake
  have hnext := hexact.skip_le htype (show typeBits f ≤ 32 by omega)
  rw [Tape.skip, if_neg hpass] at hnext
  exact hexact.holds p.width_le hnext

end

/-- Eight zero bytes, far from the end of the range of `int`. -/
theorem readPacket_coherent_iff_sample :
    ∃ packet r, readPacket { numPacketTypes := 106 } { cmd := 0, sid := 0, uid := 0, reason := 0 }
        { prefixBytes := 1, protocolId := 1 } [0, 0, 0, 0, 0, 0, 0, 0] (8 : Nat) none () =
          .ok (packet, r) ∧
      Coherent { numPacketTypes := 106 } { prefixBytes := 1, protocolId := 1 }
        [0, 0, 0, 0, 0, 0, 0, 0] (8 : Nat) none () packet r :=
  (readPacket_coherent_iff rfl (by decide) (by decide) (.inr (by decide)) (by decide) (by decide)
    (by decide)).mpr (staysInside_of_limit (by decide) (by decide) (fun _ => by decide) (by decide)
      (by decide))

/-- A datagram of `2 ^ 28 - 1` bytes that are all `101`: behind a prefix that leaves it four
bytes starts a `ConnectionStartReq`. -/
def endlessInfo : PacketInfo := { rawFormat := true, prefixBytes := 268435451, protocolId := 1 }

def endlessBuffer : Memory := uninitArray (fun _ => 101) 268435456

/-- Its packet type. -/
theorem value_endlessBuffer :
    Bits.toNat (Bits.slice (Platform.bits endlessBuffer) (8 * 268435451) 7) = 101 := by
  have hlen : (Bits.slice endlessBuffer 268435451 1).length = 1 := by
    rw [Bits.length_slice, endlessBuffer, length_uninitArray]
    omega
  obtain ⟨x, hx⟩ := List.length_eq_one_iff.mp hlen
  have hmem : x ∈ endlessBuffer := by
    have hslice : x ∈ Bits.slice endlessBuffer 268435451 1 := by simp [hx]
    exact List.mem_of_mem_drop (List.mem_of_mem_take hslice)
  obtain ⟨-, -, rfl⟩ := List.mem_map.mp hmem
  have hbyte : Bits.slice (Platform.bits endlessBuffer) (8 * 268435451) (8 * 1) =
      Bits.ofList [(101 : U8)] := by
    rw [← hx]
    exact Bits.slice_ofList endlessBuffer 268435451 1
  rw [← Bits.take_slice _ _ (show 7 ≤ 8 * 1 by decide), hbyte]
  decide

/-- The lower half of `uid` starts at bit `2 ^ 31 - 9`. `WouldOverflow` compares with a sum
that has wrapped, and the last word ends at bit `2 ^ 31`. -/
theorem not_staysInside (uninit : Uninit) :
    ¬StaysInside { numPacketTypes := 106 } uninit endlessInfo endlessBuffer (268435455 : Nat) := by
  intro h
  have hbits : (Tape.of endlessBuffer (268435455 : Nat)).bits = Platform.bits endlessBuffer := rfl
  have hlimit : (Tape.of endlessBuffer (268435455 : Nat)).limit = 2147483640 := by decide
  have hroom : (Tape.of endlessBuffer (268435455 : Nat)).room = 2147483648 := by decide
  have hfields := h.body (.inl rfl) 101
  generalize Tape.of endlessBuffer (268435455 : Nat) = t at hbits hlimit hroom hfields
  have hpass : ∀ pos width : Nat, pos + width ≤ 2147483640 → ¬t.Refuses pos width := by
    intro pos width hle
    rw [Tape.Refuses, hlimit, int32_eq ⟨by omega, by omega⟩]
    omega
  have hpre : endlessInfo.prefixBytes.toNat = 268435451 := by decide
  have htype : t.typePos endlessInfo = 8 * 268435451 := by
    rw [Tape.typePos, if_pos (show endlessInfo.rawFormat = true from rfl), Tape.slotPos, hpre]
    exact Tape.iterate_skip (by omega) (by omega)
  have hvalue : t.value (8 * 268435451) 7 = 101 := by
    rw [Tape.value, hbits]
    exact value_endlessBuffer
  have hnext : ∀ {pos width : Nat}, pos + width ≤ 2147483640 →
      t.take pos width = some (t.value pos width) ∧ t.value pos width ≤ 2 ^ width - 1 := by
    intro pos width hle
    have hlt := @Tape.value_lt t pos width
    exact ⟨Tape.take_eq_some.mpr ⟨hpass pos width hle, rfl⟩, by omega⟩
  have hbody := hfields _ (htype ▸ Tape.take_eq_some.mpr ⟨hpass _ _ (by decide), hvalue⟩) rfl
  rw [htype] at hbody
  obtain ⟨hcmd, hmax⟩ := @hnext 2147483615 8 (by decide)
  obtain ⟨hsid, hmax'⟩ := @hnext 2147483623 16 (by decide)
  have hinside := ((hbody.2 _ hcmd hmax).2 _ hsid hmax').1
  obtain hrefuse | hfit := hinside
  · rw [Tape.Refuses, hlimit] at hrefuse
    exact absurd hrefuse (by decide)
  · rw [hroom] at hfit
    exact absurd hfit (by decide)

theorem not_readPacket_coherent :
    ¬∃ packet r, readPacket { numPacketTypes := 106 } { cmd := 0, sid := 0, uid := 0, reason := 0 }
        endlessInfo endlessBuffer (268435455 : Nat) none () = .ok (packet, r) ∧
      Coherent { numPacketTypes := 106 } endlessInfo endlessBuffer (268435455 : Nat) none () packet
        r := by
  rintro ⟨packet, r, hrun, -⟩
  have hlen : endlessBuffer.length = 268435456 := length_uninitArray _ _
  exact not_staysInside _ ((readPacket_completes_iff (by decide) (by decide) (by decide) (by decide)
    (.inl rfl) (by decide) (by decide) (by omega)).mp ⟨packet, r, hrun⟩)

end RudpNetwork
