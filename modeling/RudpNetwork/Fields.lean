import RudpNetwork.Serialization

/-!
# RudpNetwork.Fields

Sequences of typed fields.  A writer sends a list of `Field`s; a reader that
knows only their types fills one variable for each.  `readFields_writeFields` is
the round trip of a whole sequence, from a fresh stream over the buffer through
the final flush to a second stream over what was written.

## Main results

* `writes_writeField`, `reads_readField` — one field, both ways.
* `readFields_writeFields` — the round trip of a list of fields through a buffer.
-/

namespace RudpNetwork

open MachineInt

/-- A field to be written, with the arguments of its macro. Floating-point
values stand as their bit patterns. -/
inductive Field
  | int (value min max : Int)
  | bits (value : U32) (width : Int)
  | bool (value : Bool)
  | uint32 (value : U32)
  | uint64 (value : U64)
  | float (pattern : U32)
  | double (pattern : U64)
  | bytes (data : List U8)
  | string (chars : List U8) (bufferSize : Int)
  | align

/-- A field to be read, with what its macro gets from the reader: the arrays
that are filled, and what the uninitialised local of `serialize_float` holds. -/
inductive FieldType
  | int (min max : Int)
  | bits (width : Int)
  | bool
  | uint32
  | uint64
  | float (uninit : U32)
  | double
  | bytes (data : List U8)
  | string (array : List U8)
  | align

/-- What a variable of the reader holds in the end; a string is what its array
holds before the terminator. -/
inductive Value
  | int (value : Int)
  | uint32 (value : U32)
  | bool (value : Bool)
  | uint64 (value : U64)
  | float (pattern : U32)
  | double (pattern : U64)
  | bytes (data : List U8)
  | string (chars : List U8)
  deriving DecidableEq

namespace Field

/-- The arguments the macros accept. -/
def Valid : Field → Prop
  | int value min max => IsInt32 min ∧ IsInt32 max ∧ min < max ∧ min ≤ value ∧ value ≤ max
  | bits _ width => 0 < width ∧ width ≤ 32
  | string chars bufferSize =>
      0 ∉ chars ∧ IsInt32 bufferSize ∧ (chars.length : Int) < bufferSize - 1
  | _ => True

/-- The field on the wire. -/
def enc : Field → Enc
  | int value min max => Wire.int value min max
  | bits value width => Wire.bits value width
  | bool value => Wire.bool value
  | uint32 value => Wire.bits value 32
  | uint64 value => Wire.uint64 value
  | float pattern => Wire.bits pattern 32
  | double pattern => Wire.uint64 pattern
  | bytes data => Wire.bytes data
  | string chars bufferSize => Wire.string chars bufferSize
  | align => .align

/-- What the reader gets: the written value, bits reduced to their width. -/
def values : Field → List Value
  | int value _ _ => [.int value]
  | bits value width => [.uint32 (BitVec.ofNat 32 (value.toNat % 2 ^ width.toNat))]
  | bool value => [.bool value]
  | uint32 value => [.uint32 value]
  | uint64 value => [.uint64 value]
  | float pattern => [.float pattern]
  | double pattern => [.double pattern]
  | bytes data => [.bytes data]
  | string chars _ => [.string chars]
  | align => []

/-- A reader of this type reads the field. -/
inductive Matches : Field → FieldType → Prop
  | int value min max : Matches (int value min max) (.int min max)
  | bits value width : Matches (bits value width) (.bits width)
  | bool value : Matches (bool value) .bool
  | uint32 value : Matches (uint32 value) .uint32
  | uint64 value : Matches (uint64 value) .uint64
  | float pattern uninit : Matches (float pattern) (.float uninit)
  | double pattern : Matches (double pattern) .double
  | bytes data array (h : array.length = data.length) : Matches (bytes data) (.bytes array)
  | string chars bufferSize array (h : (array.length : Int) = bufferSize) :
      Matches (string chars bufferSize) (.string array)
  | align : Matches align .align

end Field

/-- The number of bits of a sequence that starts at the beginning of a buffer. -/
def wireBits (fields : List Field) : Nat := (Enc.concat (fields.map Field.enc) 0).length

variable {β : Type} [Platform β]

/-- The macro of a field, with `Stream::IsWriting`. -/
def writeField : Field → Proc Fault (WriteStream β) Unit
  | .int value min max => Writing.serializeInt value min max
  | .bits value width => Writing.serializeBits value width
  | .bool value => Writing.serializeBool value
  | .uint32 value => Writing.serializeUint32 value
  | .uint64 value => Writing.serializeUint64 value
  | .float pattern => Writing.serializeFloat pattern
  | .double pattern => Writing.serializeDouble pattern
  | .bytes data => Writing.serializeBytes data data.length
  | .string chars bufferSize => Writing.serializeString (chars ++ [0]) bufferSize
  | .align => Writing.serializeAlign

/-- The macro of a field, with `Stream::IsReading`. -/
def readField : FieldType → ReadProc β (List Value) Unit
  | .int min max => Reading.serializeInt id (fun v vs => vs ++ [.int v]) min max
  | .bits width => Reading.serializeBits (fun v vs => vs ++ [.uint32 v]) width
  | .bool => Reading.serializeBool (fun v vs => vs ++ [.bool v])
  | .uint32 => Reading.serializeUint32 (fun v vs => vs ++ [.uint32 v])
  | .uint64 => Reading.serializeUint64 (fun v vs => vs ++ [.uint64 v])
  | .float uninit => Reading.serializeFloat uninit (fun v vs => vs ++ [.float v])
  | .double => Reading.serializeDouble (fun v vs => vs ++ [.double v])
  | .bytes data =>
      Reading.serializeBytes (fun _ => data) (fun xs vs => vs ++ [.bytes xs]) data.length
  | .string array =>
      Reading.serializeString (fun _ => array)
        (fun xs vs => vs ++ [.string (xs.takeWhile (· ≠ 0))]) array.length
  | .align => Reading.serializeAlign

/-- A serialize function that writes the fields in order. -/
def writeFields (fields : List Field) : Proc Fault (WriteStream β) Unit := forM fields writeField

/-- A serialize function that reads fields of these types in order. -/
def readFields (types : List FieldType) : ReadProc β (List Value) Unit := forM types readField

variable {c : Context}

/-- A valid field is written as its encoding. -/
theorem writes_writeField {f : Field} (h : f.Valid) :
    WriteStream.Writes c (writeField f : Proc Fault (WriteStream β) Unit) f.enc := by
  cases f with
  | int value min max =>
      obtain ⟨hmin, hmax, hlt, hlo, hhi⟩ := h
      exact Writing.writes_serializeInt hmin hmax hlt hlo hhi
  | bits value width => exact Writing.writes_serializeBits value h.1 h.2
  | bool value => exact Writing.writes_serializeBool value
  | uint32 value => exact Writing.writes_serializeBits value (by decide) (by decide)
  | uint64 value => exact Writing.writes_serializeUint64 value
  | float pattern => exact WriteStream.writes_serializeBits pattern (by decide) (by decide)
  | double pattern => exact Writing.writes_serializeUint64 pattern
  | bytes data => exact Writing.writes_serializeBytes data
  | string chars bufferSize =>
      obtain ⟨hnul, hint, hlen⟩ := h
      exact Writing.writes_serializeString hnul hint hlen
  | align => exact WriteStream.writes_serializeAlign

/-- The C string in an array that starts with NUL-free characters and a NUL. -/
theorem takeWhile_splice {array chars : List U8} (hnul : 0 ∉ chars) :
    (Bits.splice array 0 (chars ++ [0])).takeWhile (· ≠ 0) = chars := by
  rw [Bits.splice, List.take_zero, List.nil_append, List.append_assoc,
    List.takeWhile_append_of_pos (by grind)]
  simp

/-- Data of the length of the array replaces all of it. -/
theorem splice_all {array data : List U8} (h : array.length = data.length) :
    Bits.splice array 0 data = data := by
  rw [Bits.splice, List.take_zero, List.nil_append, Nat.zero_add, ← h, List.drop_length,
    List.append_nil]

/-- A reader that knows the type of a field gets its values back. -/
theorem reads_readField {f : Field} {t : FieldType} (hv : f.Valid) (hm : f.Matches t)
    (vs : List Value) :
    ReadStream.Reads c (readField t : ReadProc β (List Value) Unit) f.enc vs (vs ++ f.values) () := by
  cases hm with
  | int value min max =>
      obtain ⟨hmin, hmax, hlt, hlo, hhi⟩ := hv
      exact @Reading.reads_serializeInt β _ _ c id (fun v vs => vs ++ [.int v]) value min max hmin hmax
        hlt hlo hhi rfl vs
  | bits value width =>
      exact @Reading.reads_serializeBits β _ _ c (fun v vs => vs ++ [.uint32 v])
        value width hv.1 hv.2 vs
  | bool value => exact @Reading.reads_serializeBool β _ _ c (fun v vs => vs ++ [.bool v]) value vs
  | uint32 value =>
      have hr := @Reading.reads_serializeBits_narrow β _ _ c 32
        (fun v (vs : List Value) => vs ++ [.uint32 v]) value (by decide) (by decide) vs
      rwa [BitVec.setWidth_eq] at hr
  | uint64 value =>
      exact @Reading.reads_serializeUint64 β _ _ c (fun v vs => vs ++ [.uint64 v]) value vs
  | float pattern uninit =>
      exact @Reading.reads_serializeFloat β _ _ c (fun v vs => vs ++ [.float v]) uninit pattern vs
  | double pattern =>
      exact @Reading.reads_serializeUint64 β _ _ c (fun v vs => vs ++ [.double v]) pattern vs
  | bytes data array h =>
      have hr := @Reading.reads_serializeBytes β _ _ c (fun _ => array)
        (fun xs (vs : List Value) => vs ++ [.bytes xs]) data vs (by omega)
      rw [splice_all h, ← h] at hr
      exact hr
  | string chars bufferSize array h =>
      obtain ⟨hnul, hint, hlen⟩ := hv
      have hr := @Reading.reads_serializeString β _ _ c (fun _ => array)
        (fun xs (vs : List Value) => vs ++ [.string (xs.takeWhile (· ≠ 0))]) chars bufferSize vs
        hint h.symm hlen
      rw [takeWhile_splice hnul] at hr
      rw [readField, h]
      exact hr
  | align =>
      rw [Field.values, List.append_nil]
      exact ReadStream.reads_serializeAlign vs

/-- A list of fields is written as the concatenation of the encodings. -/
theorem writes_writeFields {fields : List Field} (h : ∀ f ∈ fields, f.Valid) :
    WriteStream.Writes c (writeFields fields : Proc Fault (WriteStream β) Unit)
      (.concat (fields.map Field.enc)) :=
  WriteStream.Writes.forM fun f hf => writes_writeField (h f hf)

/-- The list of its types reads it back, by induction on the list. -/
theorem reads_readFields {fields : List Field} {types : List FieldType}
    (hv : ∀ f ∈ fields, f.Valid) (hm : List.Forall₂ Field.Matches fields types)
    (vs : List Value) :
    ReadStream.Reads c (readFields types : ReadProc β (List Value) Unit)
      (.concat (fields.map Field.enc)) vs (vs ++ fields.flatMap Field.values) () := by
  induction hm generalizing vs with
  | nil =>
      rw [List.flatMap_nil, List.append_nil]
      exact ReadStream.Reads.pure () vs
  | @cons f t fields types hft _ ih =>
      rw [readFields, List.forM_cons, List.map_cons, Enc.concat, List.flatMap_cons,
        ← List.append_assoc]
      exact ReadStream.Reads.bind (reads_readField (hv f (by simp)) hft vs)
        (ih (fun g hg => hv g (List.mem_cons_of_mem f hg)) _)

/-! ## the round trip -/

/-- A flushed buffer starts with what was written. -/
theorem slice_of_flushed {B l padding : List Bool}
    (h : B.take (32 * ((l.length + 31) / 32)) = l ++ padding) : Bits.slice B 0 l.length = l := by
  have htake := congrArg (List.take l.length) h
  rw [List.take_take, Nat.min_eq_left (by omega), List.take_left] at htake
  rw [← Bits.take_eq_slice]
  exact htake

/-- What was written to a fresh stream and flushed can be read back, by any
reader of the same encoding, from a stream over the bytes that were processed. -/
theorem reads_of_writes {τ α : Type} {x : Proc Fault (WriteStream β) Unit} {y : ReadProc β τ α}
    {e : Enc} {o o' : τ} {a : α} (hx : WriteStream.Writes 0 x e) (hy : ReadStream.Reads 0 y e o o' a)
    {buffer : β} {bytes : Int} (h0 : 0 ≤ bytes) (h4 : bytes % 4 = 0)
    (hlen : 8 * bytes ≤ (Platform.bits buffer).length)
    (hsize : (Platform.bits buffer).length < 17179869184) :
    ∃ s, WriteStream.init buffer bytes = .ok s ∧
      (((e 0).length : Int) ≤ s.getBitsRemaining →
        ∃ s₁ s₂ r, x s = .ok (some (), s₁) ∧ WriteStream.flush s₁ = .ok (some (), s₂) ∧
          y (ReadStream.init s₂.getData s₂.getBytesProcessed, o) = .ok (some a, r, o') ∧
          r.getBitsProcessed = s₂.getBitsProcessed ∧ r.error = .none) := by
  obtain ⟨s, hinit, hroom, hwrite⟩ := WriteStream.writes_fresh hx h0 h4 hlen hsize
  refine ⟨s, hinit, fun hfit => ?_⟩
  obtain ⟨s₁, s₂, hrun, hflush, hbits, hlen₂, hbitsP, hbytesP, -⟩ := hwrite hfit
  have hslice := slice_of_flushed hbits
  obtain ⟨n, hn⟩ : ∃ n, n = (e 0).length := ⟨_, rfl⟩
  rw [← hn] at hbitsP hbytesP hfit
  -- the capacity is a whole number of words, so the byte count fits an `int` too
  have hsmall : (8 * ((n + 7) / 8) : Nat) ≤ 8 * bytes ∧ 8 * ((n + 7) / 8) < 2147483648 := by
    rw [hroom] at hfit
    unfold int32 at hfit
    omega
  have hat := @ReadStream.init_at β _ s₂.getData ((n + 7) / 8 : Nat) (by omega) (by omega) (by omega)
  have hN : int32 (((n + 7) / 8 : Nat) * 8) = 8 * ((n + 7) / 8 : Nat) := by
    rw [int32_eq ⟨by omega, by omega⟩]
    omega
  obtain ⟨r, hread, hatr, hsame⟩ := hy _ _ _ 0 rfl hat hslice (by rw [hN]; omega)
  refine ⟨s₁, s₂, r, hrun, hflush, ?_, ?_, hsame.error⟩
  · rw [hbytesP]
    exact hread
  · rw [hbitsP, ReadStream.getBitsProcessed, hatr.bitsRead]
    omega

/-- Sequences of typed fields survive the trip through a C++ buffer. -/
theorem readFields_writeFields {fields : List Field} {types : List FieldType}
    (hvalid : ∀ f ∈ fields, f.Valid) (hmatch : List.Forall₂ Field.Matches fields types)
    {buffer : Memory} (h4 : buffer.length % 4 = 0) (hint : buffer.length < 2147483648) :
    ∃ s, WriteStream.init buffer buffer.length = .ok s ∧
      ((wireBits fields : Int) ≤ s.getBitsRemaining →
        ∃ s₁ s₂ r, writeFields fields s = .ok (some (), s₁) ∧
          WriteStream.flush s₁ = .ok (some (), s₂) ∧
          readFields types (ReadStream.init s₂.getData s₂.getBytesProcessed, []) =
            .ok (some (), r, fields.flatMap Field.values) ∧
          r.getBitsProcessed = s₂.getBitsProcessed ∧ r.error = .none) := by
  have hlen : (Platform.bits buffer).length = 8 * buffer.length := Bits.length_ofList buffer
  have hreads := @reads_readFields Memory _ 0 fields types hvalid hmatch []
  rw [List.nil_append] at hreads
  exact reads_of_writes (writes_writeFields hvalid) hreads (by omega) (by omega) (by omega)
    (by omega)

/-- Fields with an alignment in between. -/
def sampleFields : List Field := [.int 3 (-10) 10, .string [65, 66] 16, .align, .bytes [1, 2]]

/-- Variables to read them into. -/
def sampleTypes : List FieldType :=
  [.int (-10) 10, .string (List.replicate 16 0), .align, .bytes [7, 7]]

/-- The fields of the example are in their ranges. -/
theorem valid_sampleFields : ∀ f ∈ sampleFields, f.Valid := by
  simp [sampleFields, Field.Valid, IsInt32]

/-- The types of the example are those of its fields. -/
theorem matches_sampleFields : List.Forall₂ Field.Matches sampleFields sampleTypes :=
  .cons (.int 3 (-10) 10) (.cons (.string [65, 66] 16 _ rfl) (.cons .align
    (.cons (.bytes [1, 2] [7, 7] rfl) .nil)))

/-- An integer, a string, an alignment and bytes, through a buffer of three words. -/
theorem readFields_writeFields_sample :
    ∃ s s₁ s₂ r, WriteStream.init (List.replicate 12 0 : Memory) 12 = .ok s ∧
      writeFields sampleFields s = .ok (some (), s₁) ∧
      WriteStream.flush s₁ = .ok (some (), s₂) ∧
      readFields sampleTypes (ReadStream.init s₂.getData s₂.getBytesProcessed, []) =
        .ok (some (), r, [.int 3, .string [65, 66], .bytes [1, 2]]) ∧
      r.getBitsProcessed = s₂.getBitsProcessed ∧ r.error = .none := by
  obtain ⟨s, hinit, hrun⟩ := @readFields_writeFields sampleFields sampleTypes valid_sampleFields
    matches_sampleFields (List.replicate 12 0) (by decide) (by decide)
  have hfit : (wireBits sampleFields : Int) ≤ s.getBitsRemaining := by
    rw [← Except.ok.inj hinit]
    decide +kernel
  obtain ⟨s₁, s₂, r, h⟩ := hrun hfit
  exact ⟨s, s₁, s₂, r, hinit, h⟩

end RudpNetwork
