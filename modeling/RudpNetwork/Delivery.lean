import RudpNetwork.Serialization

/-!
# RudpNetwork.Delivery

One field from a writer to a reader that stands at the same position: what the
writer leaves in its buffer after a flush, and what a reader of such bits gets.

`delivers_iff` reduces a round trip to the contracts of the two procedures, and
is used for the two fields of `Serialization.h` that do not come back:
`serialize_enum` never assigns what it read, and `serialize_string` in write mode
asks for one character of room more than in read mode.

## Main results

* `delivers_iff` — a field is delivered exactly when what the writer sends is what the
  reader receives.
* `enumDelivered_iff` — the fields that `serialize_enum` delivers.
* `stringDelivered_iff` — the texts that `serialize_string` delivers.
-/

namespace RudpNetwork

open MachineInt
open WriteStream (Writes)
open ReadStream (Reads)

variable {β γ τ α : Type} [Platform β] [Platform γ]

/-! ## sending and receiving -/

/-- `w` and a flush succeed, and the buffer starts with the bits `sent`. -/
def Sends (w : Proc Fault (WriteStream β) Unit) (s : WriteStream β) (sent : List Bool) : Prop :=
  ∃ s₁ s₂, w s = .ok (some (), s₁) ∧ WriteStream.flush s₁ = .ok (some (), s₂) ∧
    s₂.getBitsProcessed = sent.length ∧ (Platform.bits s₂.getData).take sent.length = sent

/-- Over `limit` bits that start with `sent`, at bit `pos`, `r` succeeds, with a value,
variables and a position that satisfy `post`. -/
def Receives (r : ReadProc γ τ α) (sent : List Bool) (limit : Int) (pos : Nat) (o : τ)
    (post : α → τ → Int → Prop) : Prop :=
  ∀ (t : ReadStream γ) (B : List Bool), t.At B limit pos → B.take sent.length = sent →
    ∃ a t' o', r (t, o) = .ok (some a, t', o') ∧ post a o' t'.getBitsProcessed

/-- What `w` sends, `r` receives at the position of `w`, whatever follows, and ends
where `w` ended. -/
def Delivers (w : Proc Fault (WriteStream β) Unit) (r : ReadProc γ τ α) (s : WriteStream β)
    (o : τ) (post : α → τ → Prop) : Prop :=
  ∃ sent, Sends w s sent ∧ ∀ limit : Int, sent.length ≤ limit →
    Receives r sent limit s.getBitsProcessed.toNat o fun a o' bits =>
      post a o' ∧ bits = sent.length

/-- What a writer sends is determined. -/
theorem Sends.unique {w : Proc Fault (WriteStream β) Unit} {s : WriteStream β}
    {sent sent' : List Bool} (h : Sends w s sent) (h' : Sends w s sent') : sent = sent' := by
  obtain ⟨s₁, s₂, hrun, hflush, hcount, hbits⟩ := h
  obtain ⟨t₁, t₂, hrun', hflush', hcount', hbits'⟩ := h'
  obtain ⟨-, rfl⟩ := Prod.mk.inj (Except.ok.inj (hrun.symm.trans hrun'))
  obtain ⟨-, rfl⟩ := Prod.mk.inj (Except.ok.inj (hflush.symm.trans hflush'))
  have hlen : sent.length = sent'.length := by omega
  rw [← hbits, ← hbits', hlen]

/-- So a statement about what is sent is one about these bits. -/
theorem Sends.exists_iff {w : Proc Fault (WriteStream β) Unit} {s : WriteStream β}
    {sent : List Bool} (h : Sends w s sent) {P : List Bool → Prop} :
    (∃ sent, Sends w s sent ∧ P sent) ↔ P sent := by
  constructor
  · rintro ⟨sent', hsent', hP⟩
    obtain rfl := h.unique hsent'
    exact hP
  · exact fun hP => ⟨sent, h, hP⟩

/-- The position of a writer is the number of its bits. -/
theorem BitWriter.Rep.position_eq {s : WriteStream β} {l : List Bool} (h : s.writer.Rep l)
    (hfit : (l.length : Int) ≤ s.writer.numBits) : s.getBitsProcessed.toNat = l.length := by
  have hwritten : s.getBitsProcessed = l.length := h.bitsWritten_eq hfit
  rw [hwritten, Int.toNat_natCast]

/-- A writer with room ends with the bits that it held and the encoding behind them,
in a buffer that has all the words that a reader of these bits loads. -/
theorem Writes.flushed {w : Proc Fault (WriteStream β) Unit} {e : Enc} (hw : ∀ c, Writes c w e)
    {s : WriteStream β} {l : List Bool} (hrep : s.writer.Rep l)
    (hroom : ((l ++ e l.length).length : Int) ≤ s.writer.numBits) :
    ∃ s₁ s₂, w s = .ok (some (), s₁) ∧ WriteStream.flush s₁ = .ok (some (), s₂) ∧
      s₂.getBitsProcessed = (l ++ e l.length).length ∧
      (Platform.bits s₂.getData).take (l ++ e l.length).length = l ++ e l.length ∧
      32 * (((l ++ e l.length).length + 31) / 32) ≤ (Platform.bits s₂.getData).length := by
  obtain ⟨s₁, hrun, hrep₁, hsame⟩ := hw s.context s l rfl hrep hroom
  have hnum := hrep.numBits_eq hrep₁ hsame.buffer
  have hint := hrep.numBits_le.2.2
  have hround := hrep.numBits_emod
  generalize l ++ e l.length = sent at *
  obtain ⟨w', hflush⟩ := BitWriter.flushBits_ok hrep₁ (by omega)
  have hrun' := WriteStream.onWriter_run hflush
  obtain ⟨hbits, -, hcount⟩ := WriteStream.flush_data hrep₁ hrun'
  have hlen := congrArg List.length hbits
  rw [List.length_take, List.length_append, List.length_replicate] at hlen
  have htake := congrArg (List.take sent.length) hbits
  rw [List.take_take, Nat.min_eq_left (by omega), List.take_left] at htake
  exact ⟨s₁, _, hrun, hrun', (hcount (by omega)).1, htake, by omega⟩

/-- A procedure that writes an encoding sends the bits of the encoding. -/
theorem Writes.sends {w : Proc Fault (WriteStream β) Unit} {e : Enc} (hw : ∀ c, Writes c w e)
    {s : WriteStream β} {l : List Bool} (hrep : s.writer.Rep l)
    (hroom : ((l ++ e l.length).length : Int) ≤ s.writer.numBits) :
    Sends w s (l ++ e l.length) := by
  obtain ⟨s₁, s₂, hrun, hflush, hcount, hbits, -⟩ := Writes.flushed hw hrep hroom
  exact ⟨s₁, s₂, hrun, hflush, hcount, hbits⟩

/-- A reader can stand at any position of a buffer. -/
theorem ReadStream.exists_at (data : γ) {limit : Nat} (pos : Nat) (hsmall : limit < 2147483648)
    (hcover : 32 * ((limit + 31) / 32) ≤ (Platform.bits data).length) :
    ∃ t : ReadStream γ, t.At (Platform.bits data) limit pos := by
  obtain ⟨k, hk⟩ : ∃ k, k = (pos + 31) / 32 := ⟨_, rfl⟩
  have hlt := Bits.toNat_slice_lt (Platform.bits data) pos (show 32 * k - pos ≤ 64 by omega)
  refine ⟨{ context := 0, error := .none, bitsRead := pos, reader := {
    data, numBits := limit, numBytes := ((limit + 7) / 8 : Nat),
    numWords := ((limit + 31) / 32 : Nat), bitsRead := pos, wordIndex := (k : Nat),
    scratchBits := (32 * k - pos : Nat),
    scratch := BitVec.ofNat 64 (Bits.toNat (Bits.slice (Platform.bits data) pos (32 * k - pos))) }},
    ⟨rfl, rfl, ⟨by omega, by omega⟩, ?_, rfl, ?_, ?_, ?_⟩, rfl⟩
  · intro _
    change (limit : Int) ≤ 32 * ((limit + 31) / 32 : Nat) ∧
      32 * (((limit + 31) / 32 : Nat) : Int) ≤ _
    omega
  · rw [hk]
  · rw [hk]
  · rw [hk] at hlt ⊢
    rw [BitVec.toNat_ofNat, Nat.mod_eq_of_lt hlt]

/-- A procedure that reads an encoding receives what the bits of the encoding hold. -/
theorem Reads.receives {r : ReadProc γ τ α} {e : Enc} {o o' : τ} {a : α}
    (hr : ∀ c, Reads c r e o o' a) (l : List Bool) {limit : Int}
    (hlimit : (l ++ e l.length).length ≤ limit) {post : α → τ → Int → Prop}
    (hpost : post a o' (l ++ e l.length).length) :
    Receives r (l ++ e l.length) limit l.length o post := by
  intro t B hat hB
  have hslice : Bits.slice B l.length (e l.length).length = e l.length := by
    have hall : Bits.slice (B.take (l ++ e l.length).length) l.length (e l.length).length =
        Bits.slice B l.length (e l.length).length :=
      Bits.slice_take B (by rw [List.length_append])
    rw [← hall, hB, Bits.slice_append_right, List.take_length]
  rw [List.length_append] at hlimit hpost
  obtain ⟨t', hrun, hat', -⟩ := hr t.context t B limit l.length rfl hat hslice
    (by push_cast at hlimit; exact hlimit)
  refine ⟨a, t', o', hrun, ?_⟩
  have hcount : t'.getBitsProcessed = (l.length + (e l.length).length : Nat) := hat'.bitsRead
  rwa [hcount]

/-- What a reader receives is determined by its contract. -/
theorem Reads.receives_iff {r : ReadProc γ τ α} {e : Enc} {o o' : τ} {a : α}
    (hr : ∀ c, Reads c r e o o' a) {l : List Bool} {data : γ}
    (hcover : 32 * (((l ++ e l.length).length + 31) / 32) ≤ (Platform.bits data).length)
    (hdata : (Platform.bits data).take (l ++ e l.length).length = l ++ e l.length)
    (hsmall : (l ++ e l.length).length < 2147483648) {post : α → τ → Int → Prop} :
    Receives r (l ++ e l.length) (l ++ e l.length).length l.length o post ↔
      post a o' (l ++ e l.length).length := by
  refine ⟨fun h => ?_, Reads.receives hr l (le_refl _)⟩
  obtain ⟨t, hat⟩ := @ReadStream.exists_at γ _ data (l ++ e l.length).length l.length hsmall hcover
  obtain ⟨a₁, t₁, o₁, hrun, hpost⟩ := h t _ hat hdata
  obtain ⟨a₂, t₂, o₂, hrun', hpost'⟩ := @Reads.receives γ τ α _ r e o o' a hr l _ (le_refl _)
    (fun a₂ o₂ bits => a₂ = a ∧ o₂ = o' ∧ bits = ((l ++ e l.length).length : Int))
    ⟨rfl, rfl, rfl⟩ t _ hat hdata
  obtain ⟨ha, ht, ho⟩ : a₁ = a₂ ∧ t₁ = t₂ ∧ o₁ = o₂ := by
    simpa using hrun.symm.trans hrun'
  obtain ⟨rfl, rfl, hbits⟩ := hpost'
  rwa [ha, ho, ht, hbits] at hpost

/-- With room for the field, a round trip is as good as the value that the reader of
the encoding gets. -/
theorem delivers_iff {w : Proc Fault (WriteStream β) Unit} {r : ReadProc β τ α} {e : Enc}
    {o o' : τ} {a : α} (hw : ∀ c, Writes c w e) (hr : ∀ c, Reads c r e o o' a)
    {s : WriteStream β} {l : List Bool} (hrep : s.writer.Rep l)
    (hroom : ((l ++ e l.length).length : Int) ≤ s.writer.numBits) {post : α → τ → Prop} :
    Delivers w r s o post ↔ post a o' := by
  have hint := hrep.numBits_le.2.2
  obtain ⟨-, s₂, -, -, -, hdata, hcover⟩ := Writes.flushed hw hrep hroom
  unfold Delivers
  rw [(Writes.sends hw hrep hroom).exists_iff, hrep.position_eq (by
    rw [List.length_append] at hroom
    omega)]
  constructor
  · intro hreceives
    exact ((Reads.receives_iff hr hcover hdata (by omega)).mp (hreceives _ (le_refl _))).1
  · exact fun hpost limit hlimit => Reads.receives hr l hlimit ⟨hpost, rfl⟩

/-! ## `serialize_enum` -/

/-- An enumerator comes back if and only if the field held it before: the field keeps
its value. -/
theorem enumDelivered_iff {ε : Type} {code : ε → Int} {numEntries : Int}
    (hint : IsInt32 numEntries) (h2 : 2 ≤ numEntries) {v : ε} (hlo : 0 ≤ code v)
    (hhi : code v < numEntries) {s : WriteStream β} {l : List Bool} (hrep : s.writer.Rep l)
    (hroom : l.length + bitsRequired (toU32 0) (toU32 (numEntries - 1)) ≤ s.writer.numBits)
    (previous : ε) :
    Delivers (Writing.serializeEnum (code v) numEntries)
        (Reading.serializeEnum id (fun x _ => x) numEntries : ReadProc β ε Unit) s previous
        (fun _ field => field = v) ↔ previous = v := by
  obtain ⟨b, hb, -, -, -, -⟩ := @bitsRequired_bounds 0 (numEntries - 1)
    ⟨by decide, by decide⟩ ⟨by omega, by have := hint.2; omega⟩ (by omega)
  refine @delivers_iff β _ _ _ _ _ _ _ _ _ (fun c => Writing.writes_serializeEnum hint h2 hlo hhi)
    (fun c => Reading.reads_serializeEnum hint h2 hlo hhi previous) s l hrep ?_ _
  rw [List.length_append, Wire.int, Enc.const, Bits.length_ofNat, hb, Int.toNat_natCast]
  rw [hb] at hroom
  push_cast
  omega

/-- A value that the field already holds seems to arrive. -/
theorem enumDelivered_iff_same :
    ∃ s : WriteStream Memory, WriteStream.init [0, 0, 0, 0] 4 = .ok s ∧
      Delivers (Writing.serializeEnum (Bool.toNat true) 2)
        (Reading.serializeEnum id (fun x _ => x) 2 : ReadProc Memory Bool Unit) s true
        (fun _ field => field = true) := by
  obtain ⟨s, hinit, hrep, hnum, -⟩ := @WriteStream.init_ok Memory _ [0, 0, 0, 0] 4 (by decide)
    (by decide) (by decide) (by decide)
  have hroom : (([] : List Bool).length : Int) + bitsRequired (toU32 0) (toU32 (2 - 1)) ≤
      s.writer.numBits := by
    rw [hrep.numBits, hnum]
    decide
  exact ⟨s, hinit, (@enumDelivered_iff Memory _ Bool (fun b => (b.toNat : Int)) 2
    ⟨by decide, by decide⟩ (by decide) true (by decide) (by decide) s [] hrep hroom true).mpr rfl⟩

/-- One of two enumerators is written, and the field keeps the other. -/
theorem not_enumDelivered :
    ¬∀ (ε : Type) (code : ε → Int) (numEntries : Int) (v previous : ε) (s : WriteStream Memory)
        (l : List Bool), IsInt32 numEntries → 2 ≤ numEntries → 0 ≤ code v → code v < numEntries →
      s.writer.Rep l →
      l.length + bitsRequired (toU32 0) (toU32 (numEntries - 1)) ≤ s.writer.numBits →
      Delivers (Writing.serializeEnum (code v) numEntries)
        (Reading.serializeEnum id (fun x _ => x) numEntries : ReadProc Memory ε Unit) s previous
        (fun _ field => field = v) := by
  intro h
  obtain ⟨s, -, hrep, hnum, -⟩ := @WriteStream.init_ok Memory _ [0, 0, 0, 0] 4 (by decide)
    (by decide) (by decide) (by decide)
  have hcap : s.writer.numBits = 32 := by
    rw [hrep.numBits, hnum]
    decide
  have hroom : (([] : List Bool).length : Int) + bitsRequired (toU32 0) (toU32 (2 - 1)) ≤
      s.writer.numBits := by
    rw [hcap]
    decide
  have hdelivers := h Bool (fun b => (b.toNat : Int)) 2 true false s [] ⟨by decide, by decide⟩
    (by decide) (by decide) (by decide) hrep hroom
  have hkept := (delivers_iff (fun c => Writing.writes_serializeEnum ⟨by decide, by decide⟩
    (by decide) (by decide) (by decide)) (fun c => Reading.reads_serializeEnum
    ⟨by decide, by decide⟩ (by decide) (by decide) (by decide) false) hrep
    (by rw [hcap]; decide)).mp hdelivers
  exact absurd hkept (by decide)

/-! ## `serialize_string` -/

/-- `chars` and the terminator stand at the start of the array. -/
def HoldsString (array chars : List U8) : Prop := 0 ∉ chars ∧ chars ++ [0] <+: array

instance (array chars : List U8) : Decidable (HoldsString array chars) :=
  inferInstanceAs (Decidable (_ ∧ _))

/-- `strlen` stops at the terminator. -/
theorem HoldsString.strlen_eq {array chars : List U8} (h : HoldsString array chars) :
    strlen array = .ok chars.length := by
  obtain ⟨hnul, rest, rfl⟩ := h
  rw [List.append_assoc]
  exact strlen_terminated hnul rest

/-- A string that fills its array up to the terminator stops the writer. -/
theorem Writing.serializeString_error {array chars : List U8} {bufferSize : Int}
    (hint : IsInt32 bufferSize) (hfits : (chars.length : Int) ≤ bufferSize - 1)
    (harray : HoldsString array chars) (hlen : ¬(chars.length : Int) < bufferSize - 1)
    (s : WriteStream β) : serializeString array bufferSize s = .error .assertion := by
  obtain ⟨-, hint2⟩ := hint
  have hlength : int32 (chars.length : Int) = chars.length := int32_eq ⟨by omega, by omega⟩
  have hmax : int32 (bufferSize - 1) = bufferSize - 1 := int32_eq ⟨by omega, by omega⟩
  have hassert : (Proc.lift (assert ((chars.length : Int) < bufferSize - 1)) :
      Proc Fault (WriteStream β) Unit) s = .error .assertion := by
    rw [Proc.lift, assert, require, if_neg hlen]
    rfl
  rw [serializeString]
  refine (Proc.lift_bind_run harray.strlen_eq).trans ?_
  rw [hlength, hmax]
  exact Proc.bind_run_error hassert

/-- A string comes back if and only if its array has a second character of room
behind it: the writer refuses the longest strings that the reader accepts. -/
theorem stringDelivered_iff {source chars target : List U8} {bufferSize : Int}
    (hint : IsInt32 bufferSize) (hsource : HoldsString source chars)
    (hfits : (chars.length : Int) ≤ bufferSize - 1) (htarget : target.length = bufferSize)
    {s : WriteStream β} {l : List Bool} (hrep : s.writer.Rep l)
    (hroom : ((l ++ Wire.string chars bufferSize l.length).length : Int) ≤ s.writer.numBits) :
    Delivers (Writing.serializeString source bufferSize)
        (Reading.serializeString id (fun array _ => array) bufferSize : ReadProc β (List U8) Unit)
        s target (fun _ array => HoldsString array chars) ↔
      (chars.length : Int) < bufferSize - 1 := by
  constructor
  · rintro ⟨sent, ⟨s₁, s₂, hrun, -⟩, -⟩
    by_contra hlen
    rw [Writing.serializeString_error hint hfits hsource hlen] at hrun
    contradiction
  · intro hlen
    obtain ⟨hnul, rest, rfl⟩ := hsource
    rw [List.append_assoc]
    refine (delivers_iff (fun c => Writing.writes_serializeString_of hnul hint hlen rest)
      (fun c => Reading.reads_serializeString hint htarget.symm hlen) hrep hroom).mpr ?_
    exact ⟨hnul, List.prefix_append _ _⟩

/-- A text of one letter arrives in a buffer of three characters. -/
theorem stringDelivered_iff_letter :
    ∃ s : WriteStream Memory, WriteStream.init [0, 0, 0, 0] 4 = .ok s ∧
      Delivers (Writing.serializeString [97, 0] 3)
        (Reading.serializeString id (fun array _ => array) 3 : ReadProc Memory (List U8) Unit)
        s [0, 0, 0] (fun _ array => HoldsString array [97]) := by
  obtain ⟨s, hinit, hrep, hnum, -⟩ := @WriteStream.init_ok Memory _ [0, 0, 0, 0] 4 (by decide)
    (by decide) (by decide) (by decide)
  have hroom : (([] ++ Wire.string [97] 3 0).length : Int) ≤ s.writer.numBits := by
    rw [hrep.numBits, hnum]
    decide
  exact ⟨s, hinit, (@stringDelivered_iff Memory _ [97, 0] [97] [0, 0, 0] 3
      ⟨by decide, by decide⟩ (by decide)
    (by decide) (by decide) s [] hrep hroom).mpr (by decide)⟩

/-- One character and its terminator fill an array of two. -/
theorem not_stringDelivered :
    ¬∀ (source chars target : List U8) (bufferSize : Int) (s : WriteStream Memory)
        (l : List Bool), IsInt32 bufferSize → 2 ≤ bufferSize → HoldsString source chars →
      chars.length ≤ bufferSize - 1 → target.length = bufferSize → s.writer.Rep l →
      ((l ++ Wire.string chars bufferSize l.length).length : Int) ≤ s.writer.numBits →
      Delivers (Writing.serializeString source bufferSize)
        (Reading.serializeString id (fun array _ => array) bufferSize :
          ReadProc Memory (List U8) Unit)
        s target (fun _ array => HoldsString array chars) := by
  intro h
  obtain ⟨s, -, hrep, hnum, -⟩ := @WriteStream.init_ok Memory _ [0, 0, 0, 0] 4 (by decide)
    (by decide) (by decide) (by decide)
  have hroom : (([] ++ Wire.string [97] 2 0).length : Int) ≤ s.writer.numBits := by
    rw [hrep.numBits, hnum]
    decide
  obtain ⟨sent, ⟨s₁, s₂, hrun, -⟩, -⟩ := h [97, 0] [97] [0, 0] 2 s [] ⟨by decide, by decide⟩
    (by decide) (by decide) (by decide) (by decide) hrep hroom
  have herror := @Writing.serializeString_error Memory _ [97, 0] [97] 2 ⟨by decide, by decide⟩
    (by decide) (by decide) (by decide) s
  rw [herror] at hrun
  contradiction

end RudpNetwork
