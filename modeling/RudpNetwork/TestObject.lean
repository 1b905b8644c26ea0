import RudpNetwork.Acceptance
import RudpNetwork.Object

/-!
# RudpNetwork.TestObject

`TestObject` of the test program, and its `test_stream`.

This is the object that uses all of `Serialization.h`: ranges that come from the
context of the stream, bit fields that are sent with fewer bits than they have,
and a loop over as many items as the message says.  A `TestMessage` is what
travels: `stores_serialize` says that any bytes are read as one or refused, and
that the loop then stays inside its array; what the object loses on the way is
the difference between it and its message (`testStream_equal_iff`).

## Main results

* `stores_serialize` — `Serialize` in read mode takes the encoding of a message, and
  nothing else.
* `serializeRead_accepts_iff` — the bytes that are read as an object, and what the object
  holds then.
-/

namespace RudpNetwork

open MachineInt
open ReadStream (onStream assign locals)

/-- An array member of `n` elements. -/
@[ext] structure CArray (α : Type) (n : Nat) where
  toList : List α
  length_toList : toList.length = n
  deriving DecidableEq

namespace CArray

variable {α : Type} {n : Nat}

/-- All elements are `a`. -/
def fill (n : Nat) (a : α) : CArray α n := ⟨List.replicate n a, List.length_replicate⟩

/-- The elements from `p` on become `xs`, where they are in the array. -/
def put (array : CArray α n) (p : Nat) (xs : List α) : CArray α n :=
  if h : p + xs.length ≤ n then
    ⟨Bits.splice array.toList p xs,
      (Bits.length_splice (h.trans_eq array.length_toList.symm)).trans array.length_toList⟩
  else array

/-- `array[i]`. -/
def load (array : CArray α n) (i : Nat) : Except Fault α :=
  match array.toList[i]? with
  | some a => .ok a
  | none => .error .outOfBounds

theorem load_eq_ok {array : CArray α n} {i : Nat} (h : i < n) (a : α) :
    array.load i = .ok (array.toList.getD i a) := by
  have hlen := array.length_toList
  rw [load, List.getD_eq_getElem?_getD, List.getElem?_eq_getElem (by omega)]
  rfl

/-- `array[i] = a`. -/
def store (array : CArray α n) (i : Nat) (a : α) : Except Fault (CArray α n) :=
  if i < n then .ok (array.put i [a]) else .error .outOfBounds

theorem toList_put {array : CArray α n} {p : Nat} {xs : List α} (h : p + xs.length ≤ n) :
    (array.put p xs).toList = Bits.splice array.toList p xs := by
  rw [put, dif_pos h]

@[simp] theorem put_nil (array : CArray α n) (p : Nat) : array.put p [] = array := by
  by_cases h : p ≤ n
  · exact CArray.ext ((toList_put h).trans (Bits.splice_nil _ _))
  · exact dif_neg h

/-- Two stores that touch are one. -/
theorem put_put {array : CArray α n} {p : Nat} {xs ys : List α}
    (h : p + xs.length + ys.length ≤ n) :
    (array.put p xs).put (p + xs.length) ys = array.put p (xs ++ ys) := by
  have hlen := array.length_toList
  apply CArray.ext
  rw [toList_put h, toList_put (by omega), toList_put (by rw [List.length_append]; omega)]
  exact Bits.splice_splice (by omega)

/-- A cleared array with elements at its start. -/
theorem toList_put_fill {a : α} {xs : List α} (h : xs.length ≤ n) :
    ((fill n a).put 0 xs).toList = xs ++ List.replicate (n - xs.length) a := by
  rw [toList_put (by omega), fill, Bits.splice, List.take_zero, List.nil_append, Nat.zero_add,
    List.drop_replicate]

/-- Putting the array with the new elements in it is putting the elements. -/
theorem put_splice {array : CArray α n} {xs : List α} (h : xs.length ≤ n) :
    array.put 0 (Bits.splice array.toList 0 xs) = array.put 0 xs := by
  have hlen := array.length_toList
  have hall : (Bits.splice array.toList 0 xs).length = n := by
    rw [Bits.length_splice (by omega), hlen]
  apply CArray.ext
  rw [toList_put (by omega), toList_put (by omega), Bits.splice, List.take_zero, List.nil_append,
    List.drop_of_length_le (by omega), List.append_nil]

end CArray

namespace Serialize

variable {σ ν μ : Type} {n : Nat}

/-! ## the other macros -/

/-- `serialize_align`. -/
def align : Serialize σ where
  write _ := Writing.serializeAlign
  read := Reading.serializeAlign

/-- `serialize_bool`. -/
def bool (get : σ → Bool) (set : Bool → σ → σ) : Serialize σ where
  write o := Writing.serializeBool (get o)
  read := Reading.serializeBool set

/-- `serialize_float`; `uninit` is what its local holds. -/
def float (uninit : U32) (get : σ → U32) (set : U32 → σ → σ) : Serialize σ where
  write o := Writing.serializeFloat (get o)
  read := Reading.serializeFloat uninit set

/-- `serialize_double`. -/
def double (get : σ → U64) (set : U64 → σ → σ) : Serialize σ where
  write o := Writing.serializeDouble (get o)
  read := Reading.serializeDouble set

/-- `serialize_bytes` of a whole array. -/
def bytes (get : σ → CArray U8 n) (set : CArray U8 n → σ → σ) : Serialize σ where
  write o := Writing.serializeBytes (get o).toList n
  read := Reading.serializeBytes (fun o => (get o).toList) (fun xs o => set ((get o).put 0 xs) o) n

/-- `serialize_string` of a whole array. -/
def string (get : σ → CArray U8 n) (set : CArray U8 n → σ → σ) : Serialize σ where
  write o := Writing.serializeString (get o).toList n
  read := Reading.serializeString (fun o => (get o).toList) (fun xs o => set ((get o).put 0 xs) o) n

section Stores

variable {S T : Serialize σ} {P : ν → Prop} {Q : μ → Prop} {enc : ν → Enc} {f : μ → Enc}
  {store : ν → σ → σ} {t : μ → σ → σ}

theorem stores_int {get : σ → Int} {set : Int → σ → σ} {min max : Int} (hmin : IsInt32 min)
    (hmax : IsInt32 max) (hlt : min < max) :
    Stores (int get set min max id).read (fun value => min ≤ value ∧ value ≤ max)
      (fun value => Wire.int value min max) set :=
  Reading.stores_serializeInt hmin hmax hlt

/-- A member that is read with some of its bits. -/
theorem stores_bits {w : Nat} {get : σ → BitVec w} {set : BitVec w → σ → σ} (h0 : 0 < n)
    (h32 : n ≤ 32) :
    Stores (bits get set n).read (fun _ : BitVec n => True)
      (fun value => Wire.bits (value.setWidth 32) n)
      (fun value => set ((value.setWidth 32).setWidth w)) :=
  Reading.stores_serializeBits h0 h32

theorem stores_align :
    Stores (align : Serialize σ).read (fun _ : Unit => True) (fun _ => .align) (fun _ o => o) :=
  Reading.stores_serializeAlign

theorem stores_bool {get : σ → Bool} {set : Bool → σ → σ} :
    Stores (bool get set).read (fun _ => True) Wire.bool set :=
  Reading.stores_serializeBool

theorem stores_float {uninit : U32} {get : σ → U32} {set : U32 → σ → σ} :
    Stores (float uninit get set).read (fun _ => True) (fun value => Wire.bits value 32) set :=
  Reading.stores_serializeFloat

theorem stores_double {get : σ → U64} {set : U64 → σ → σ} :
    Stores (double get set).read (fun _ => True) Wire.uint64 set :=
  Reading.stores_serializeUint64

theorem stores_uint64 {get : σ → U64} {set : U64 → σ → σ} :
    Stores (uint64 get set).read (fun _ => True) Wire.uint64 set :=
  Reading.stores_serializeUint64

/-- Bytes are stored in front of the array. -/
theorem stores_bytes {get : σ → CArray U8 n} {set : CArray U8 n → σ → σ} (hn : n < 134217728) :
    Stores (bytes get set).read (fun xs => xs.length = n) Wire.bytes
      (fun xs o => set ((get o).put 0 xs) o) := by
  refine (Reading.stores_serializeBytes (fun o => (get o).length_toList) hn).congr ?_ ?_
  · exact fun xs hxs => ⟨xs, hxs, rfl, funext fun o => by rw [CArray.put_splice (by omega)]⟩
  · exact fun xs hxs => ⟨xs, hxs, rfl, funext fun o => by rw [CArray.put_splice (by omega)]⟩

/-- A text is stored in front of the array, with its terminator. -/
theorem stores_string {get : σ → CArray U8 n} {set : CArray U8 n → σ → σ} (h2 : 2 ≤ n)
    (hn : n < 134217728) :
    Stores (string get set).read (fun chars => (chars.length : Int) ≤ n - 1)
      (fun chars => Wire.string chars n) (fun chars o => set ((get o).put 0 (chars ++ [0])) o) := by
  have hfits : ∀ chars : List U8, (chars.length : Int) ≤ n - 1 → (chars ++ [0]).length ≤ n := by
    intro chars hchars
    rw [List.length_append, List.length_singleton]
    omega
  refine (Reading.stores_serializeString (fun o => (get o).length_toList) h2 hn).congr ?_ ?_
  · exact fun chars hchars =>
      ⟨chars, hchars, rfl, funext fun o => by rw [CArray.put_splice (hfits chars hchars)]⟩
  · exact fun chars hchars =>
      ⟨chars, hchars, rfl, funext fun o => by rw [CArray.put_splice (hfits chars hchars)]⟩

/-- One serialize statement after the other; the value of the last one comes first. -/
theorem stores_append (hS : Stores S.read P enc store) (hT : Stores T.read Q f t) :
    Stores (S ++ T).read (fun p : μ × ν => Q p.1 ∧ P p.2) (fun p => enc p.2 ++ f p.1)
      (fun p o => t p.1 (store p.2 o)) := by
  refine (hS.seq hT).congr ?_ ?_
  · exact fun p hp => ⟨p.swap, hp.symm, rfl, rfl⟩
  · exact fun p hp => ⟨p.swap, hp.symm, rfl, rfl⟩

end Stores

end Serialize

/-- `MaxItems`. -/
def maxItems : Nat := 11

/-- `struct TestData`. Floating-point members stand as their bit patterns. -/
@[ext] structure TestData where
  a : Int
  b : Int
  c : Int
  d : U8
  e : U8
  f : U8
  g : Bool
  numItems : Int
  items : CArray Int maxItems
  floatValue : U32
  doubleValue : U64
  uint64Value : U64
  bytes : CArray U8 17
  string : CArray U8 64
  deriving DecidableEq

/-- `struct TestContext`. -/
structure TestContext where
  min : Int
  max : Int

namespace TestObject

/-! ## the serialize function -/

/-- `TestObject( )`. -/
def new : TestData where
  a := 0
  b := 0
  c := 0
  d := 0
  e := 0
  f := 0
  g := false
  numItems := 0
  items := .fill maxItems 0
  floatValue := 0
  doubleValue := 0
  uint64Value := 0
  bytes := .fill 17 0
  string := .fill 64 0

/-- `serialize_int( stream, data.numItems, 0, MaxItems - 1 )`. -/
def numItems : Serialize TestData :=
  .int (·.numItems) (fun numItems data => { data with numItems }) 0 (maxItems - 1) id

/-- `serialize_bits( stream, data.items[i], 8 )`. -/
def item (i : Nat) : Serialize TestData where
  write data := do
    let value ← data.items.load i
    Writing.serializeBits (toU32 value) 8
  read := do
    assert ((0 : Int) < 8)
    assert ((8 : Int) ≤ 32)
    let uint32Value ← onStream (ReadStream.serializeBits 8)
    let data ← locals
    let items ← data.items.store i uint32Value.toInt
    assign fun data => { data with items }

/-- The loop over the items; its body does not change `numItems`. -/
def items : Serialize TestData where
  write data := forM (List.range data.numItems.toNat) fun i => (item i).write data
  read := do
    let data ← locals
    forM (List.range data.numItems.toNat) fun i => (item i).read

/-- `Serialize`, with the limits of the context; `uninit` is the local of `serialize_float`.
The serialize checks are compiled as `return true`. -/
def serialize (context : TestContext) (uninit : U32) : Serialize TestData :=
  .int (·.a) (fun a data => { data with a }) context.min context.max id ++
  .int (·.b) (fun b data => { data with b }) context.min context.max id ++
  .int (·.c) (fun c data => { data with c }) (-100) 10000 id ++
  .bits (·.d) (fun d data => { data with d }) 6 ++
  .bits (·.e) (fun e data => { data with e }) 8 ++
  .bits (·.f) (fun f data => { data with f }) 7 ++
  .align ++
  .bool (·.g) (fun g data => { data with g }) ++
  (numItems ++ items) ++
  .float uninit (·.floatValue) (fun floatValue data => { data with floatValue }) ++
  .double (·.doubleValue) (fun doubleValue data => { data with doubleValue }) ++
  .uint64 (·.uint64Value) (fun uint64Value data => { data with uint64Value }) ++
  .bytes (·.bytes) (fun bytes data => { data with bytes }) ++
  .string (·.string) (fun string data => { data with string })

end TestObject

/-! ## what travels -/

/-- A `TestObject` on the wire. -/
structure TestMessage where
  a : Int
  b : Int
  c : Int
  d : BitVec 6
  e : BitVec 8
  f : BitVec 7
  g : Bool
  items : List U8
  floatValue : U32
  doubleValue : U64
  uint64Value : U64
  bytes : List U8
  chars : List U8

namespace TestMessage

/-- The messages there are for a context. -/
structure Valid (context : TestContext) (m : TestMessage) : Prop where
  a : context.min ≤ m.a ∧ m.a ≤ context.max
  b : context.min ≤ m.b ∧ m.b ≤ context.max
  c : -100 ≤ m.c ∧ m.c ≤ 10000
  items : m.items.length < maxItems
  bytes : m.bytes.length = 17
  chars : (m.chars.length : Int) ≤ 63

/-- The items, behind their number. -/
def encItems (items : List U8) : Enc :=
  Wire.int items.length 0 (maxItems - 1) ++
    .concat (items.map fun v => Wire.bits (v.setWidth 32) 8)

def enc (context : TestContext) (m : TestMessage) : Enc :=
  Wire.int m.a context.min context.max ++ Wire.int m.b context.min context.max ++
  Wire.int m.c (-100) 10000 ++ Wire.bits (m.d.setWidth 32) 6 ++ Wire.bits (m.e.setWidth 32) 8 ++
  Wire.bits (m.f.setWidth 32) 7 ++ .align ++ Wire.bool m.g ++ encItems m.items ++
  Wire.bits m.floatValue 32 ++ Wire.uint64 m.doubleValue ++ Wire.uint64 m.uint64Value ++
  Wire.bytes m.bytes ++ Wire.string m.chars 64

/-- An item of the message, in the `int` of the array. -/
def itemValue (v : U8) : Int := (v.setWidth 32 : U32).toInt

/-- The object after the message was read into it. -/
def store (m : TestMessage) (data : TestData) : TestData where
  a := m.a
  b := m.b
  c := m.c
  d := (m.d.setWidth 32).setWidth 8
  e := (m.e.setWidth 32).setWidth 8
  f := (m.f.setWidth 32).setWidth 8
  g := m.g
  numItems := m.items.length
  items := data.items.put 0 (m.items.map itemValue)
  floatValue := m.floatValue
  doubleValue := m.doubleValue
  uint64Value := m.uint64Value
  bytes := data.bytes.put 0 m.bytes
  string := data.string.put 0 (m.chars ++ [0])

end TestMessage

namespace TestObject

open TestMessage (encItems itemValue)

/-! ## reading -/

/-- Inside the array, an item is read like a member. -/
theorem read_item {i : Nat} (hi : i < maxItems) :
    (item i).read = Reading.serializeBits
      (fun v data => { data with items := data.items.put i [v.toInt] }) 8 := by
  have hstore : ∀ v : U32, (do
      let data ← locals
      let items ← data.items.store i v.toInt
      assign fun data => { data with items } : ReadProc Memory TestData Unit) =
      assign fun data => { data with items := data.items.put i [v.toInt] } := by
    intro v
    funext ⟨s, data⟩
    have hok : data.items.store i v.toInt = .ok (data.items.put i [v.toInt]) := if_pos hi
    have hlocals : (locals : ReadProc Memory TestData TestData) (s, data) =
        .ok (some data, s, data) := rfl
    exact (Proc.bind_run_some hlocals).trans (Proc.lift_bind_run hok)
  rw [item, Reading.serializeBits]
  simp only [hstore]

/-- An item is one byte, stored as an `int`. -/
theorem decides_item {i : Nat} (hi : i < maxItems) (data : TestData) :
    Decides (item i).read data fun e data' _ => ∃ v : U8, e = Wire.bits (v.setWidth 32) 8 ∧
      data' = { data with items := data.items.put i [itemValue v] } := by
  have hbits := @Reading.stores_serializeBits Memory TestData _ 8
    (fun v data => { data with items := data.items.put i [v.toInt] }) (by decide) (by decide)
  rw [read_item hi]
  refine (hbits data).congr fun e data' _ => ⟨?_, ?_⟩
  · rintro ⟨v, -, rfl, rfl⟩
    exact ⟨v, rfl, rfl⟩
  · rintro ⟨v, rfl, rfl⟩
    exact ⟨v, trivial, rfl, rfl⟩

/-- The loop from item `j` on. -/
theorem decides_itemsFrom (k : Nat) {j : Nat} (hjk : j + k ≤ maxItems) (data : TestData) :
    Decides (forM (List.range' j k) fun i => (item i).read) data fun e data' _ =>
      ∃ vs : List U8, vs.length = k ∧ e = .concat (vs.map fun v => Wire.bits (v.setWidth 32) 8) ∧
        data' = { data with items := data.items.put j (vs.map itemValue) } := by
  induction k generalizing j data with
  | zero =>
      refine (Decides.pure () data).congr fun e data' _ => ⟨?_, ?_⟩
      · rintro ⟨rfl, rfl, -⟩
        exact ⟨[], rfl, rfl, by rw [List.map_nil, CArray.put_nil]⟩
      · rintro ⟨vs, hvs, rfl, rfl⟩
        obtain rfl := List.length_eq_zero_iff.mp hvs
        exact ⟨rfl, by rw [List.map_nil, CArray.put_nil], rfl⟩
  | succ k ih =>
      rw [List.range'_succ, List.forM_cons]
      have hput : ∀ v (vs : List U8), vs.length = k →
          (data.items.put j [itemValue v]).put (j + 1) (vs.map itemValue) =
            data.items.put j ((v :: vs).map itemValue) := by
        intro v vs hvs
        refine @CArray.put_put _ _ data.items j [itemValue v] (vs.map itemValue) ?_
        rw [List.length_singleton, List.length_map, hvs]
        omega
      refine (Decides.bind (decides_item (by omega) data) fun _ data' _ _ =>
        ih (by omega) data').congr fun e data'' _ => ⟨?_, ?_⟩
      · rintro ⟨_, _, _, _, ⟨v, rfl, rfl⟩, ⟨vs, hvs, rfl, rfl⟩, rfl⟩
        exact ⟨v :: vs, congrArg (· + 1) hvs, rfl, by rw [← hput v vs hvs]⟩
      · rintro ⟨_ | ⟨v, vs⟩, hvs, rfl, rfl⟩
        · contradiction
        · have hvs := Nat.succ.inj hvs
          exact ⟨_, _, (), _, ⟨v, rfl, rfl⟩, ⟨vs, hvs, rfl, by rw [← hput v vs hvs]⟩, rfl⟩

/-- The number of items is checked before the loop, which stays inside the array. -/
theorem stores_items :
    Stores (numItems ++ items).read (fun vs : List U8 => vs.length < maxItems) encItems
      fun vs data => { data with
        numItems := vs.length
        items := data.items.put 0 (vs.map itemValue) } := by
  have hcount := @Reading.stores_serializeInt Memory TestData _
    (fun numItems data => { data with numItems }) 0 (maxItems - 1) (by decide) (by decide)
    (by decide)
  have hloop : ∀ data : TestData, 0 ≤ data.numItems ∧ data.numItems ≤ maxItems - 1 →
      Decides items.read data fun e data' _ => ∃ vs : List U8, vs.length = data.numItems.toNat ∧
        e = .concat (vs.map fun v => Wire.bits (v.setWidth 32) 8) ∧
        data' = { data with items := data.items.put 0 (vs.map itemValue) } := by
    intro data hrange
    refine Decides.of_run (decides_itemsFrom data.numItems.toNat (by omega) data) fun s => ?_
    rw [← List.range_eq_range']
    rfl
  intro data
  have hboth := Decides.bind (hcount data) (f := fun _ => items.read)
    (K := fun data' _ e data'' _ => ∃ vs : List U8, vs.length = data'.numItems.toNat ∧
      e = .concat (vs.map fun v => Wire.bits (v.setWidth 32) 8) ∧
      data'' = { data' with items := data'.items.put 0 (vs.map itemValue) })
    (by rintro _ _ _ ⟨count, hrange, rfl, rfl⟩; exact hloop _ hrange)
  refine hboth.congr fun e data'' _ => ⟨?_, ?_⟩
  · rintro ⟨_, _, _, _, ⟨count, ⟨h0, hmax⟩, rfl, rfl⟩, ⟨vs, hvs, rfl, rfl⟩, rfl⟩
    obtain rfl : count = vs.length := by
      change vs.length = count.toNat at hvs
      omega
    exact ⟨vs, by omega, rfl, rfl⟩
  · rintro ⟨vs, hvs, rfl, rfl⟩
    exact ⟨_, _, (), _, ⟨vs.length, ⟨by omega, by omega⟩, rfl, rfl⟩, ⟨vs, rfl, rfl, rfl⟩, rfl⟩

/-- Any bytes are read as a message or refused. -/
theorem stores_serialize {context : TestContext} (hmin : IsInt32 context.min)
    (hmax : IsInt32 context.max) (hlt : context.min < context.max) (uninit : U32) :
    Stores (serialize context uninit).read (fun m : TestMessage => m.Valid context)
      (fun m => m.enc context) TestMessage.store := by
  rw [serialize]
  open Serialize in
  refine Stores.congr
    (stores_append (stores_append (stores_append (stores_append (stores_append (stores_append
      (stores_append (stores_append (stores_append (stores_append (stores_append (stores_append
      (stores_append
        (stores_int hmin hmax hlt)
        (stores_int hmin hmax hlt))
        (stores_int ⟨by decide, by decide⟩ ⟨by decide, by decide⟩ (by decide)))
        (stores_bits (by decide) (by decide)))
        (stores_bits (by decide) (by decide)))
        (stores_bits (by decide) (by decide)))
        stores_align)
        stores_bool)
        stores_items)
        stores_float)
        stores_double)
        stores_uint64)
        (stores_bytes (by decide)))
        (stores_string (by decide) (by decide)))
    ?_ ?_
  · rintro ⟨chars, bytes, uint64Value, doubleValue, floatValue, items, g, u, f, e, d, c, b, a⟩
    rintro ⟨hchars, hbytes, -, -, -, hitems, -, -, -, -, -, hc, hb, ha⟩
    exact ⟨⟨a, b, c, d, e, f, g, items, floatValue, doubleValue, uint64Value, bytes, chars⟩,
      ⟨ha, hb, hc, hitems, hbytes, hchars⟩, rfl, rfl⟩
  · rintro ⟨a, b, c, d, e, f, g, items, floatValue, doubleValue, uint64Value, bytes, chars⟩
    rintro ⟨ha, hb, hc, hitems, hbytes, hchars⟩
    exact ⟨⟨chars, bytes, uint64Value, doubleValue, floatValue, items, g, (), f, e, d, c, b, a⟩,
      ⟨hchars, hbytes, trivial, trivial, trivial, hitems, trivial, trivial, trivial, trivial,
        trivial, hc, hb, ha⟩, rfl, rfl⟩

/-- Whatever stands in the buffer, reading an object ends, and the loop over the items stays
inside its array. It succeeds if and only if the bytes start with a message for the context,
and the object is then what this message makes of it. -/
theorem serializeRead_accepts_iff {context : TestContext} (hmin : IsInt32 context.min)
    (hmax : IsInt32 context.max) (hlt : context.min < context.max) (uninit : U32) {buffer : Memory}
    {n : Nat} (hn : 4 * ((n + 3) / 4) ≤ buffer.length) (hsmall : n < 134217728) (pointer : Context)
    (data : TestData) :
    ∃ result s data', (serialize context uninit).read
        ({ ReadStream.init buffer n with context := pointer }, data) = .ok (result, s, data') ∧
      (result = some () ↔
        ∃ m : TestMessage, m.Valid context ∧ StartsWith buffer n (m.enc context)) ∧
      ∀ m : TestMessage, m.Valid context → StartsWith buffer n (m.enc context) →
        data' = m.store data ∧ s.getBitsProcessed = (m.enc context 0).length :=
  (stores_serialize hmin hmax hlt uninit).accepts_iff hn hsmall pointer data

/-- A message with two items and a text. -/
def sampleMessage : TestMessage where
  a := 1
  b := -2
  c := 150
  d := 55
  e := 255
  f := 127
  g := true
  items := [10, 200]
  floatValue := 0x40490fdb
  doubleValue := 0x3fd5555555555555
  uint64Value := 0x1234567898765432
  bytes := List.replicate 17 7
  chars := [104, 105]

/-- Its bytes, and three that do not belong to it. -/
def sampleBuffer : Memory :=
  [11, 233, 3, 247, 255, 31, 69, 1, 121, 251, 33, 9, 168, 170, 170, 170, 170, 170, 170, 250, 71,
    134, 202, 14, 19, 207, 138, 70, 2] ++ List.replicate 17 7 ++ [2, 104, 105, 9, 9, 9]

/-- Bytes that hold a whole message with two items. -/
theorem serializeRead_accepts_iff_sample : ∃ s,
    (serialize ⟨-10, 10⟩ 0).read ({ ReadStream.init sampleBuffer 52 with context := 1 }, new) =
      .ok (some (), s, sampleMessage.store new) ∧ s.getBitsProcessed = 392 := by
  have hvalid : sampleMessage.Valid ⟨-10, 10⟩ := by
    constructor <;> decide
  have hstart : StartsWith sampleBuffer 52 (sampleMessage.enc ⟨-10, 10⟩) :=
    ⟨by decide +kernel, by decide +kernel⟩
  have hlen : (sampleMessage.enc ⟨-10, 10⟩ 0).length = 392 := by decide +kernel
  obtain ⟨result, s, data', hrun, hiff, hread⟩ := @serializeRead_accepts_iff ⟨-10, 10⟩ (by decide)
    (by decide) (by decide) 0 sampleBuffer 52 (by decide) (by decide) 1 new
  obtain rfl := hiff.mpr ⟨sampleMessage, hvalid, hstart⟩
  obtain ⟨rfl, hbits⟩ := hread sampleMessage hvalid hstart
  rw [hlen] at hbits
  exact ⟨s, hrun, hbits⟩

end TestObject

end RudpNetwork
