import RudpNetwork.CSharp

/-!
# RudpNetwork.WireFormat

One wire format for both code bases.  `SharedField` lists the kinds of write
that C++ and C# both have.  Whatever sequence of them is written, the two
buffers start with the same bytes, and these are `referencePacking`: the bits of
the fields one after the other, eight to a byte from the least significant up.

## Main results

* `wireFormat_agrees` — both languages write the reference packing of the fields.
-/

namespace RudpNetwork

open MachineInt

/-- A write that both code bases know. -/
inductive SharedField
  | int (value min max : Int)
  | bits (value : U32) (width : Int)
  | bool (value : Bool)
  | float (pattern : U32)
  | double (pattern : U64)
  | uint64 (value : U64)
  | bytes (data : List U8)
  | align

/-- The field of the C++ writer. -/
def SharedField.field : SharedField → Field
  | int value min max => .int value min max
  | bits value width => .bits value width
  | bool value => .bool value
  | float pattern => .float pattern
  | double pattern => .double pattern
  | uint64 value => .uint64 value
  | bytes data => .bytes data
  | align => .align

/-- The extension method of the C# writer. -/
def CSharp.writeField : SharedField → Proc Fault (WriteStream UIntArray) Unit
  | .int value min max => serializeInt value min max
  | .bits value width => serializeBits value.toInt width
  | .bool value => serializeBool value
  | .float pattern => serializeFloat pattern
  | .double pattern => serializeDouble pattern
  | .uint64 value => serializeUInt64 value
  | .bytes data => serializeBytes data data.length
  | .align => serializeAlign

def CSharp.writeFields (fields : List SharedField) : Proc Fault (WriteStream UIntArray) Unit :=
  forM fields writeField

/-- The bits of the fields, one field after the other. -/
def referenceBits (fields : List SharedField) : List Bool :=
  Enc.concat (fields.map fun f => f.field.enc) 0

/-- Bit `i` of the fields is bit `i mod 8` of byte `i / 8`; the last byte is
filled with zeros. -/
def referencePacking (fields : List SharedField) : List U8 := Bits.pack (referenceBits fields)

/-- Bit `i` of the fields is bit `i % 8` of byte `i / 8`. -/
theorem getLsbD_referencePacking (fields : List SharedField) (i : Nat)
    (h : i / 8 < (referencePacking fields).length) :
    (referencePacking fields)[i / 8].getLsbD (i % 8) = (referenceBits fields).getD i false := by
  have hbit := Bits.getLsbD_pack (referenceBits fields) (i / 8) (i % 8) h (by omega)
  rwa [show 8 * (i / 8) + i % 8 = i by omega] at hbit

variable {c : Context}

/-- A field that both languages have is written as its encoding in C# too. -/
theorem CSharp.writes_writeField {f : SharedField} (h : f.field.Valid) :
    WriteStream.Writes c (CSharp.writeField f) f.field.enc := by
  cases f with
  | int value min max =>
      obtain ⟨hmin, hmax, hlt, hlo, hhi⟩ := h
      exact writes_serializeInt hmin hmax hlt hlo hhi
  | bits value width => exact writes_serializeBits value h.1 h.2
  | bool value => exact writes_serializeBool value
  | float pattern => exact writes_serializeFloat pattern
  | double pattern => exact writes_serializeDouble pattern
  | uint64 value => exact writes_serializeUInt64 value
  | bytes data => exact writes_serializeBytes data
  | align => exact writes_serializeAlign

/-- So is a list of such fields. -/
theorem CSharp.writes_writeFields {fields : List SharedField} (h : ∀ f ∈ fields, f.field.Valid) :
    WriteStream.Writes c (CSharp.writeFields fields)
      (.concat (fields.map fun f => f.field.enc)) :=
  WriteStream.Writes.forM fun f hf => CSharp.writes_writeField (h f hf)

/-- The first bytes of a buffer whose bits start with `l` and zeros behind it up
to a word boundary. -/
theorem take_eq_pack {data : List U8} {l : List Bool}
    (h : (Bits.ofList data).take (32 * ((l.length + 31) / 32)) =
      l ++ List.replicate (32 * ((l.length + 31) / 32) - l.length) false) :
    data.take ((l.length + 7) / 8) = Bits.pack l := by
  apply Bits.eq_pack
  have hall : l.take (8 * ((l.length + 7) / 8)) = l := List.take_of_length_le (by omega)
  have htake := congrArg (List.take (8 * ((l.length + 7) / 8))) h
  rw [List.take_take, Nat.min_eq_left (by omega), Bits.take_ofList, List.take_append, hall,
    List.take_replicate, Nat.min_eq_left (by omega)] at htake
  rw [htake, Bits.padding]
  congr 2
  omega

/-- Both writers fill the start of their buffers with the reference packing. -/
theorem wireFormat_agrees {fields : List SharedField} (hvalid : ∀ f ∈ fields, f.field.Valid)
    {cppBuffer csBuffer : List U8} {size : Nat} (hcpp : cppBuffer.length = size)
    (hcs : csBuffer.length = size) (h4 : size % 4 = 0) (hint : size < 2147483648) :
    ∃ s c, WriteStream.init (cppBuffer : Memory) size = .ok s ∧
      CSharp.newWriteStream csBuffer size = .ok c ∧ s.getBitsRemaining = c.getBitsRemaining ∧
      (((referenceBits fields).length : Int) ≤ s.getBitsRemaining →
        ∃ s₁ s₂ c₁ c₂, writeFields (fields.map SharedField.field) s = .ok (some (), s₁) ∧
          WriteStream.flush s₁ = .ok (some (), s₂) ∧
          CSharp.writeFields fields c = .ok (some (), c₁) ∧
          WriteStream.flush c₁ = .ok (some (), c₂) ∧
          s₂.getBitsProcessed = (referenceBits fields).length ∧
          c₂.getBitsProcessed = (referenceBits fields).length ∧
          s₂.getData.take (((referenceBits fields).length + 7) / 8) = referencePacking fields ∧
          (CSharp.getData c₂).take (((referenceBits fields).length + 7) / 8) =
            referencePacking fields) ∧
      ∀ i, (h : i / 8 < (referencePacking fields).length) →
        (referencePacking fields)[i / 8].getLsbD (i % 8) = (referenceBits fields).getD i false := by
  have hencs : (fields.map SharedField.field).map Field.enc =
      fields.map fun f => f.field.enc := by
    rw [List.map_map]
    rfl
  have hcppWrites : WriteStream.Writes 0
      (writeFields (fields.map SharedField.field) : Proc Fault (WriteStream Memory) Unit)
      (.concat (fields.map fun f => f.field.enc)) := by
    rw [← hencs]
    apply writes_writeFields
    intro f hf
    obtain ⟨g, hg, rfl⟩ := List.mem_map.mp hf
    exact hvalid g hg
  have hcppLen : (Platform.bits (cppBuffer : Memory)).length = 8 * size := by
    change (Bits.ofList cppBuffer).length = _
    rw [Bits.length_ofList, hcpp]
  have hcsLen : (Platform.bits (CSharp.byteArrayToUIntArray csBuffer)).length = 8 * size := by
    change (Bits.ofList (CSharp.byteArrayToUIntArray csBuffer)).length = _
    rw [CSharp.ofList_byteArrayToUIntArray (by omega), Bits.length_ofList, hcs]
  obtain ⟨s, hs, hsroom, hsrun⟩ := @WriteStream.writes_fresh Memory _ _ _ hcppWrites cppBuffer size
    (by omega) (by omega) (by omega) (by omega)
  obtain ⟨c, hc, hcroom, hcrun⟩ := @WriteStream.writes_fresh UIntArray _ _ _
    (CSharp.writes_writeFields hvalid) (CSharp.byteArrayToUIntArray csBuffer) size (by omega)
    (by omega) (by omega) (by omega)
  rw [← CSharp.newWriteStream_eq (by omega)] at hc
  refine ⟨s, c, hs, hc, hsroom.trans hcroom.symm, fun hfit => ?_, getLsbD_referencePacking fields⟩
  obtain ⟨s₁, s₂, hrun, hflush, hbits, -, hprocessed, -, -⟩ := hsrun hfit
  obtain ⟨c₁, c₂, hrun', hflush', hbits', -, hprocessed', -, -⟩ :=
    hcrun (by rw [hcroom, ← hsroom]; exact hfit)
  have hdata : Platform.bits c₂.getData = Bits.ofList (CSharp.getData c₂) :=
    (CSharp.ofList_uintArrayToByteArray c₂.getData).symm
  rw [hdata] at hbits'
  exact ⟨s₁, s₂, c₁, c₂, hrun, hflush, hrun', hflush', hprocessed, hprocessed',
    take_eq_pack hbits, take_eq_pack hbits'⟩

/-- Writes of several kinds. -/
def sampleWrites : List SharedField :=
  [.int 3 (-10) 10, .bytes [1, 2, 3, 4, 5], .bool true, .align, .uint64 6]

/-- A list of fields in a buffer of six words. -/
theorem wireFormat_agrees_sample :
    ∃ s s₁ s₂ c c₁ c₂, WriteStream.init (List.replicate 24 7 : Memory) 24 = .ok s ∧
      CSharp.newWriteStream (List.replicate 24 0) 24 = .ok c ∧
      writeFields (sampleWrites.map SharedField.field) s = .ok (some (), s₁) ∧
      WriteStream.flush s₁ = .ok (some (), s₂) ∧
      CSharp.writeFields sampleWrites c = .ok (some (), c₁) ∧
      WriteStream.flush c₁ = .ok (some (), c₂) ∧
      s₂.getData.take 15 = (CSharp.getData c₂).take 15 := by
  have hvalid : ∀ f ∈ sampleWrites, f.field.Valid := by
    simp [sampleWrites, SharedField.field, Field.Valid, MachineInt.IsInt32]
  obtain ⟨s, c, hs, hc, -, hrun, -⟩ := @wireFormat_agrees sampleWrites hvalid (List.replicate 24 7)
    (List.replicate 24 0) 24 (by decide) (by decide) (by decide) (by decide)
  have hfit : ((referenceBits sampleWrites).length : Int) ≤ s.getBitsRemaining := by
    rw [← Except.ok.inj hs]
    decide +kernel
  have hlen : ((referenceBits sampleWrites).length + 7) / 8 = 15 := by decide +kernel
  obtain ⟨s₁, s₂, c₁, c₂, h₁, h₂, h₃, h₄, -, -, hcpp, hcs⟩ := hrun hfit
  rw [hlen] at hcpp hcs
  exact ⟨s, s₁, s₂, c, c₁, c₂, hs, hc, h₁, h₂, h₃, h₄, hcpp.trans hcs.symm⟩

end RudpNetwork
