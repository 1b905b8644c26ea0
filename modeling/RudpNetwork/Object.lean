import RudpNetwork.Serialization

/-!
# RudpNetwork.Object

`class Object` and the `Serialize` templates behind `SERIALIZE_FUNCTIONS`.

A template is written once and instantiated for writing and for reading, so it
is one definition here too: a `Serialize σ` pairs the two instances for a class
with members `σ`, and a serialize function is put together from the macros it
lists.  `Serialize.Sound` says what the pair guarantees; it is established
macro by macro.

## Main results

* `sound_int`, `sound_bits`, `sound_uint64` — the macros.
* `Sound.seq`, `Sound.forEach` — templates that are put together of others.
-/

namespace RudpNetwork

open MachineInt
open WriteStream (Writes Appends)
open ReadStream (Reads Safe)

/-- A template `bool Serialize( Stream & stream )`, for the two streams. -/
structure Serialize (σ : Type) where
  write : σ → Proc Fault (WriteStream Memory) Unit
  read : ReadProc Memory σ Unit

namespace Serialize

variable {σ : Type}

/-- `serialize_int` of the member `get`; `cast` is the conversion to its type. -/
def int (get : σ → Int) (set : Int → σ → σ) (min max : Int) (cast : Int → Int) : Serialize σ where
  write o := Writing.serializeInt (get o) min max
  read := Reading.serializeInt cast set min max

/-- `serialize_bits` of a member that is `w` bits wide. -/
def bits {w : Nat} (get : σ → BitVec w) (set : BitVec w → σ → σ) (n : Int) : Serialize σ where
  write o := Writing.serializeBits ((get o).setWidth 32) n
  read := Reading.serializeBits (fun v => set (v.setWidth w)) n

/-- `serialize_uint64`. -/
def uint64 (get : σ → U64) (set : U64 → σ → σ) : Serialize σ where
  write o := Writing.serializeUint64 (get o)
  read := Reading.serializeUint64 set

/-- One serialize statement after the other. -/
def seq (S T : Serialize σ) : Serialize σ where
  write o := do S.write o; T.write o
  read := do S.read; T.read

instance : Append (Serialize σ) := ⟨seq⟩

/-- A loop over serialize statements. -/
def forEach {ι : Type} (l : List ι) (S : ι → Serialize σ) : Serialize σ where
  write o := forM l fun i => (S i).write o
  read := forM l fun i => (S i).read

/-! ## what a serialize function guarantees -/

/-- Objects that satisfy `Valid` are written as `enc`, and reading `enc` copies
the serialized members; whatever happens, writing only appends and reading ends
after at most `width` bits. -/
structure Sound (S : Serialize σ) (Valid : σ → Prop) (enc : σ → Enc) (copy : σ → σ → σ)
    (width : Nat) : Prop where
  writes : ∀ c o, Valid o → Writes c (S.write o) (enc o)
  reads : ∀ c o o', Valid o → Reads c S.read (enc o) o' (copy o o') ()
  appends : ∀ o, Appends (S.write o)
  safe : Safe S.read width

/-- A template is sound for fewer objects. -/
theorem Sound.restrict {S : Serialize σ} {V W : σ → Prop} {e : σ → Enc} {copy : σ → σ → σ}
    {k : Nat} (h : S.Sound V e copy k) (hW : ∀ o, W o → V o) : S.Sound W e copy k where
  writes c o hw := h.writes c o (hW o hw)
  reads c o o' hw := h.reads c o o' (hW o hw)
  appends := h.appends
  safe := h.safe

/-- `serialize_int` brings a value of its range across. -/
theorem sound_int {get : σ → Int} {set : Int → σ → σ} {min max : Int} {cast : Int → Int}
    (hmin : IsInt32 min) (hmax : IsInt32 max) (hlt : min < max)
    (hcast : ∀ v, min ≤ v → v ≤ max → cast v = v) :
    Sound (int get set min max cast) (fun o => min ≤ get o ∧ get o ≤ max)
      (fun o => Wire.int (get o) min max) (fun o => set (get o))
      (bitsRequired (toU32 min) (toU32 max)).toNat where
  writes _ _ h := Writing.writes_serializeInt hmin hmax hlt h.1 h.2
  reads _ o o' h :=
    Reading.reads_serializeInt hmin hmax hlt h.1 h.2 (hcast (get o) h.1 h.2) o'
  appends _ := Writing.appends_serializeInt _ _ _
  safe := Reading.safe_serializeInt hmin hmax hlt

/-- A member that is written with all its bits. -/
theorem sound_bits {w : Nat} {get : σ → BitVec w} {set : BitVec w → σ → σ} (h0 : 0 < w)
    (h32 : w ≤ 32) :
    Sound (bits get set w) (fun _ => True) (fun o => Wire.bits ((get o).setWidth 32) w)
      (fun o => set (get o)) w where
  writes _ _ _ := Writing.writes_serializeBits _ (by omega) (by omega)
  reads c o o' _ := by
    have hr := @Reading.reads_serializeBits_narrow Memory _ σ c w (fun v => set (v.setWidth w))
      (get o) h0 h32 o'
    rwa [BitVec.setWidth_setWidth_of_le _ h32, BitVec.setWidth_eq] at hr
  appends _ := Writing.appends_serializeBits _ _
  safe := (Reading.takes_serializeBits h0 h32).safe

/-- `serialize_uint64` brings any value across. -/
theorem sound_uint64 {get : σ → U64} {set : U64 → σ → σ} :
    Sound (uint64 get set) (fun _ => True) (fun o => Wire.uint64 (get o)) (fun o => set (get o))
      64 where
  writes _ o _ := Writing.writes_serializeUint64 (get o)
  reads _ o o' _ := Reading.reads_serializeUint64 (get o) o'
  appends o := Writing.appends_serializeUint64 (get o)
  safe := Reading.takes_serializeUint64.safe

/-- Two templates in a row. -/
theorem Sound.seq {S T : Serialize σ} {V W : σ → Prop} {e f : σ → Enc} {copy copy' : σ → σ → σ}
    {k m : Nat} (hS : S.Sound V e copy k) (hT : T.Sound W f copy' m) :
    (S ++ T).Sound (fun o => V o ∧ W o) (fun o => e o ++ f o) (fun o o' => copy' o (copy o o'))
      (k + m) where
  writes c o h := Writes.bind (hS.writes c o h.1) (hT.writes c o h.2)
  reads c o o' h := Reads.bind (hS.reads c o o' h.1) (hT.reads c o _ h.2)
  appends o := Appends.bind (hS.appends o) (hT.appends o)
  safe := Safe.bind hS.safe fun _ => hT.safe

/-- A loop over members. -/
theorem Sound.forEach {ι : Type} {l : List ι} {S : ι → Serialize σ} {V : ι → σ → Prop}
    {e : ι → σ → Enc} {copy : ι → σ → σ → σ} {k : Nat}
    (h : ∀ i ∈ l, (S i).Sound (V i) (e i) (copy i) k) :
    (Serialize.forEach l S).Sound (fun o => ∀ i ∈ l, V i o)
      (fun o => .concat (l.map fun i => e i o))
      (fun o o' => l.foldl (fun o' i => copy i o o') o') (l.length * k) where
  writes c o hv := Writes.forM fun i hi => (h i hi).writes c o (hv i hi)
  reads c o o' hv := by
    induction l generalizing o' with
    | nil => exact Reads.pure () o'
    | cons i l ih =>
        have hhead := (h i (by simp)).reads c o o' (hv i (by simp))
        have htail := ih (fun j hj => h j (List.mem_cons_of_mem i hj)) (copy i o o')
          fun j hj => hv j (List.mem_cons_of_mem i hj)
        exact Reads.bind hhead htail
  appends o := Appends.forM fun i hi => (h i hi).appends o
  safe := Safe.forM fun i hi => (h i hi).safe

end Serialize

/-! ## objects -/

/-- An object as `SerializeWrite` sees it: all it can do to the stream is to
append to it, and to return `false`. -/
structure Writable where
  serializeWrite : Proc Fault (WriteStream Memory) Unit
  appends : Appends serializeWrite

/-- A class derived from `Object`, with members `σ`. -/
structure ObjectClass (σ : Type) where
  serialize : Serialize σ
  appends : ∀ o, Appends (serialize.write o)

/-- The object with the members `o`. -/
def ObjectClass.object {σ : Type} (C : ObjectClass σ) (o : σ) : Writable where
  serializeWrite := C.serialize.write o
  appends := C.appends o

end RudpNetwork
