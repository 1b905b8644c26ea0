import Mathlib.Data.List.TakeWhile
import RudpNetwork.TestObject

/-!
# RudpNetwork.TestStream

`test_stream` of the test program, for any object instead of the one of `Init`.

The object is written to a buffer, the rest of the buffer is cleared, and a new
object is read from it.  The two are equal if and only if the object is one that
the wire can carry (`testStream_equal_iff`): bit fields no wider than what is sent
of them, items that are bytes, and nothing in the unused parts of the arrays.

## Main results

* `testStream_equal_iff` — the objects for which `test_stream` succeeds.
-/

namespace RudpNetwork

open MachineInt

namespace TestObject

open TestMessage (encItems itemValue)

/-! ## writing -/

/-- The assertions of the writing macros hold. -/
structure Sendable (context : TestContext) (data : TestData) : Prop where
  a : context.min ≤ data.a ∧ data.a ≤ context.max
  b : context.min ≤ data.b ∧ data.b ≤ context.max
  c : -100 ≤ data.c ∧ data.c ≤ 10000
  numItems : 0 ≤ data.numItems ∧ data.numItems < maxItems
  terminated : 0 ∈ data.string.toList
  short : (data.string.toList.takeWhile (· ≠ 0)).length < 63

/-- What is sent of an object. -/
def message (data : TestData) : TestMessage where
  a := data.a
  b := data.b
  c := data.c
  d := (data.d.setWidth 32).setWidth 6
  e := data.e
  f := (data.f.setWidth 32).setWidth 7
  g := data.g
  items := (data.items.toList.take data.numItems.toNat).map fun v => (toU32 v).setWidth 8
  floatValue := data.floatValue
  doubleValue := data.doubleValue
  uint64Value := data.uint64Value
  bytes := data.bytes.toList
  chars := data.string.toList.takeWhile (· ≠ 0)

/-- As many items as the object says. -/
theorem length_items {data : TestData} (h0 : 0 ≤ data.numItems) (hmax : data.numItems < maxItems) :
    ((message data).items.length : Int) = data.numItems := by
  have hlen := data.items.length_toList
  simp only [message, List.length_map, List.length_take]
  omega

/-- The message of a sendable object is valid. -/
theorem message_valid {context : TestContext} {data : TestData} (h : Sendable context data) :
    (message data).Valid context where
  a := h.a
  b := h.b
  c := h.c
  items := by
    have hlen := data.items.length_toList
    have hcount := h.numItems
    simp only [message, List.length_map, List.length_take]
    omega
  bytes := data.bytes.length_toList
  chars := by
    have hshort := h.short
    simp only [message]
    omega

section Writes

open WriteStream (Writes)

variable {c : Context}

theorem writes_append {σ : Type} {S T : Serialize σ} {o : σ} {e f : Enc}
    (hS : Writes c (S.write o) e) (hT : Writes c (T.write o) f) :
    Writes c ((S ++ T).write o) (e ++ f) :=
  Writes.bind hS hT

/-- Some of the bits of a value. -/
theorem writes_low (value : U32) {w : Nat} (h0 : 0 < w) (h32 : w ≤ 32) :
    Writes c (Writing.serializeBits value w : Proc Fault (WriteStream Memory) Unit)
      (Wire.bits ((value.setWidth w).setWidth 32) w) := by
  rw [Wire.bits_setWidth]
  exact Writing.writes_serializeBits value (by omega) (by omega)

/-- An item is sent as its low byte. -/
theorem writes_item {data : TestData} {i : Nat} (hi : i < maxItems) :
    Writes c ((item i).write data)
      (Wire.bits (((toU32 (data.items.toList.getD i 0)).setWidth 8).setWidth 32) 8) := by
  intro s l hc hs hfit
  obtain ⟨s', hrun, hrep⟩ := writes_low (w := 8) _ (by decide) (by decide) s l hc hs hfit
  exact ⟨s', (Proc.lift_bind_run (CArray.load_eq_ok hi 0)).trans hrun, hrep⟩

/-- The elements that a loop visits. -/
theorem map_range_getD {α γ : Type} (l : List α) (a : α) (g : α → γ) {n : Nat} (h : n ≤ l.length) :
    (List.range n).map (fun i => g (l.getD i a)) = (l.take n).map g := by
  apply List.ext_getElem
  · simp [h]
  · intro i hi _
    simp only [List.length_map, List.length_range] at hi
    simp [List.getElem?_eq_getElem (show i < l.length by omega)]

/-- The loop sends the items of the message. -/
theorem writes_items {data : TestData} (h : data.numItems.toNat ≤ maxItems) :
    Writes c (items.write data) (.concat ((message data).items.map fun v =>
      Wire.bits (v.setWidth 32) 8)) := by
  have hlen := data.items.length_toList
  have hloop := @Writes.forM Memory _ c Nat (fun i => (item i).write data) _
    (List.range data.numItems.toNat) fun i hi => writes_item (by
      have hmem := List.mem_range.mp hi
      omega)
  rw [message, List.map_map, ← map_range_getD data.items.toList 0 _ (by omega)]
  exact hloop

/-- Behind the characters of a terminated string stands the terminator. -/
theorem exists_dropWhile {l : List U8} (h : 0 ∈ l) : ∃ rest, l.dropWhile (· ≠ 0) = 0 :: rest := by
  induction l with
  | nil => contradiction
  | cons x l ih =>
      by_cases hx : x = 0
      · exact ⟨l, by rw [List.dropWhile_cons_of_neg (by simpa using hx), hx]⟩
      · obtain ⟨rest, hrest⟩ := ih ((List.mem_cons.mp h).resolve_left (Ne.symm hx))
        exact ⟨rest, by rw [List.dropWhile_cons_of_pos (by simpa using hx), hrest]⟩

/-- An object that meets the assertions is written as its message. -/
theorem writes_serialize {context : TestContext} (hmin : IsInt32 context.min)
    (hmax : IsInt32 context.max) (hlt : context.min < context.max) (uninit : U32) {data : TestData}
    (h : Sendable context data) :
    Writes c ((serialize context uninit).write data) ((message data).enc context) := by
  have hcount := h.numItems
  have hcounted : Writes c ((numItems ++ items).write data) (encItems (message data).items) := by
    have hle : data.numItems ≤ maxItems - 1 := by omega
    rw [encItems, length_items hcount.1 hcount.2]
    exact writes_append
      (Writing.writes_serializeInt (by decide) (by decide) (by decide) hcount.1 hle)
      (writes_items (by omega))
  have hbytes := @Writing.writes_serializeBytes Memory _ c data.bytes.toList
  rw [data.bytes.length_toList] at hbytes
  have hstring : Writes c
      (Writing.serializeString data.string.toList 64 : Proc Fault (WriteStream Memory) Unit)
      (Wire.string (message data).chars 64) := by
    obtain ⟨rest, hrest⟩ := exists_dropWhile h.terminated
    have hshort := h.short
    have hnul : 0 ∉ data.string.toList.takeWhile (· ≠ 0) := fun hmem => by
      simpa using List.mem_takeWhile_imp hmem
    have hwrite := @Writing.writes_serializeString_of Memory _ c _ 64 hnul (by decide) (by omega)
      rest
    rwa [← hrest, List.takeWhile_append_dropWhile] at hwrite
  rw [serialize, TestMessage.enc]
  open Writing in
  exact writes_append (writes_append (writes_append (writes_append (writes_append (writes_append
    (writes_append (writes_append (writes_append (writes_append (writes_append (writes_append
    (writes_append
      (writes_serializeInt hmin hmax hlt h.a.1 h.a.2)
      (writes_serializeInt hmin hmax hlt h.b.1 h.b.2))
      (writes_serializeInt ⟨by decide, by decide⟩ ⟨by decide, by decide⟩ (by decide) h.c.1 h.c.2))
      (writes_low _ (by decide) (by decide)))
      (writes_serializeBits _ (by decide) (by decide)))
      (writes_low _ (by decide) (by decide)))
      WriteStream.writes_serializeAlign)
      (writes_serializeBool _))
      hcounted)
      (WriteStream.writes_serializeBits _ (by decide) (by decide)))
      (writes_serializeUint64 _))
      (writes_serializeUint64 _))
      hbytes)
      hstring

end Writes

/-! ## how long a message gets -/

section Lengths

open Enc (Within)

theorem within_int (value min max : Int) : Within (Wire.int value min max) 32 := by
  refine (Enc.within_const _).mono ?_
  rw [Bits.length_ofNat]
  unfold bitsRequired
  omega

theorem within_bits (value : U32) (w : Nat) : Within (Wire.bits value w) w := by
  refine (Enc.within_const _).mono ?_
  rw [Bits.length_ofNat, Int.toNat_natCast]

theorem within_uint64 (value : U64) : Within (Wire.uint64 value) 64 := by
  refine (Enc.within_const _).mono ?_
  rw [Bits.length_ofVec]

/-- Bytes take seven bits more at most, for the alignment. -/
theorem within_bytes (xs : List U8) : Within (Wire.bytes xs) (7 + 8 * xs.length) := by
  refine Enc.within_align.append ((Enc.within_const _).mono ?_)
  rw [Bits.length_ofList]

/-- A message is far smaller than the buffer. -/
theorem within_enc {context : TestContext} {m : TestMessage} (h : m.Valid context) :
    Within (m.enc context) 1083 := by
  have hitems := h.items
  have hchars := h.chars
  rw [maxItems] at hitems
  have hconcat : Within (.concat (m.items.map fun v => Wire.bits (v.setWidth 32) 8))
      (m.items.length * 8) := by
    have hall := @Within.concat (m.items.map fun v : U8 => Wire.bits (v.setWidth 32) 8) 8 (by
      intro e he
      obtain ⟨v, -, rfl⟩ := List.mem_map.mp he
      exact within_bits _ 8)
    rwa [List.length_map] at hall
  have hall : Within (m.enc context) _ :=
    (((((((((((((within_int m.a context.min context.max).append
      (within_int m.b context.min context.max)).append
      (within_int m.c (-100) 10000)).append
      (within_bits (m.d.setWidth 32) 6)).append
      (within_bits (m.e.setWidth 32) 8)).append
      (within_bits (m.f.setWidth 32) 7)).append
      Enc.within_align).append
      (Enc.within_const [m.g])).append
      ((within_int m.items.length 0 (maxItems - 1)).append hconcat)).append
      (within_bits m.floatValue 32)).append
      (within_uint64 m.doubleValue)).append
      (within_uint64 m.uint64Value)).append
      (within_bytes m.bytes)).append
      ((within_int m.chars.length 0 (64 - 1)).append (within_bytes m.chars))
  refine hall.mono ?_
  rw [h.bytes, List.length_singleton]
  omega

end Lengths

/-! ## `test_stream` -/

/-- `test_stream`, with the object that `Init` fills as an argument, and the result of the
comparison as its value; `memory` is what the buffer holds before. -/
def testStream (memory : Nat → U8) (uninit : U32) (context : TestContext) (pointer : Context)
    (writeObject : TestData) : Except Fault Bool := do
  let writeStream ← WriteStream.init (uninitArray memory 1024 : Memory) 1024
  let (_, writeStream) ← WriteStream.setContext pointer writeStream
  let (_, writeStream) ← (serialize context uninit).write writeObject writeStream
  let (_, writeStream) ← WriteStream.flush writeStream
  let bytesWritten := writeStream.getBytesProcessed
  let buffer ← writeArray writeStream.getData bytesWritten
    (List.replicate (1024 - bytesWritten).toNat 0)
  let (_, readStream) ←
    ReadStream.setContext pointer (ReadStream.init (buffer : Memory) bytesWritten)
  let (_, _, readObject) ← (serialize context uninit).read (readStream, new)
  return readObject = writeObject

/-- What the wire can carry. -/
structure Faithful (data : TestData) : Prop where
  d : data.d.toNat < 64
  f : data.f.toNat < 128
  used : ∀ v ∈ data.items.toList.take data.numItems.toNat, 0 ≤ v ∧ v < 256
  unused : ∀ v ∈ data.items.toList.drop data.numItems.toNat, v = 0
  string : ∀ x ∈ data.string.toList.dropWhile (· ≠ 0), x = 0

/-- The written object, flushed: its message at the start of the buffer. -/
theorem exists_written {context : TestContext} (hmin : IsInt32 context.min)
    (hmax : IsInt32 context.max) (hlt : context.min < context.max) (memory : Nat → U8)
    (uninit : U32) (pointer : Context) {data : TestData} (h : Sendable context data) :
    ∃ (ws s₁ s₂ : WriteStream Memory) (n : Nat),
      WriteStream.init (uninitArray memory 1024 : Memory) 1024 = .ok ws ∧
      (serialize context uninit).write data { ws with context := pointer } = .ok (some (), s₁) ∧
      WriteStream.flush s₁ = .ok (some (), s₂) ∧ s₂.getBytesProcessed = n ∧ n ≤ 136 ∧
      (s₂.getData : List U8).length = 1024 ∧
      StartsWith s₂.getData n ((message data).enc context) := by
  have hwrites := @writes_serialize pointer context hmin hmax hlt uninit data h
  have hwithin := within_enc (message_valid h) 0
  obtain ⟨e, he⟩ : ∃ e, e = (message data).enc context := ⟨_, rfl⟩
  rw [← he] at hwrites hwithin ⊢
  have hbits : ∀ buffer : Memory, (Platform.bits buffer).length = 8 * List.length buffer :=
    fun buffer => Bits.length_ofList buffer
  have hsize := hbits (uninitArray memory 1024)
  rw [length_uninitArray] at hsize
  obtain ⟨ws, hinit, hrep, hnum, hdata, -⟩ := @WriteStream.init_ok Memory _
    (uninitArray memory 1024) 1024 (by decide) (by decide) (by omega) (by omega)
  have hroom : ws.writer.numBits = 8192 := by
    rw [hrep.numBits, hnum]
    rfl
  obtain ⟨s₁, s₂, hrun, hflush, hwritten, hsame, -, hbytes⟩ :=
    @WriteStream.writes_flush Memory _ pointer _ e hwrites { ws with context := pointer } rfl hrep
      (by rw [hroom]; omega)
  have hlen := hsame.buffer.length
  rw [hbits, hdata, hsize] at hlen
  exact ⟨ws, s₁, s₂, _, hinit, hrun, hflush, hbytes, by omega,
    Nat.eq_of_mul_eq_mul_left (by decide) hlen, slice_of_flushed hwritten, by push_cast; omega⟩

/-- The test writes, clears the rest, reads, and compares. -/
theorem testStream_eq {context : TestContext} (hmin : IsInt32 context.min)
    (hmax : IsInt32 context.max) (hlt : context.min < context.max) (memory : Nat → U8)
    (uninit : U32) (pointer : Context) {data : TestData} (h : Sendable context data) :
    testStream memory uninit context pointer data =
      .ok (decide ((message data).store new = data)) := by
  obtain ⟨ws, s₁, s₂, n, hinit, hwrite, hflush, hbytes, hn, hlen, hstart⟩ :=
    exists_written hmin hmax hlt memory uninit pointer h
  obtain ⟨zeros, hzeros⟩ : ∃ zeros : List U8, zeros = List.replicate (1024 - (n : Int)).toNat 0 :=
    ⟨_, rfl⟩
  have hcount : zeros.length = 1024 - n := by
    rw [hzeros, List.length_replicate]
    omega
  have hclear : writeArray s₂.getData s₂.getBytesProcessed
      (List.replicate (1024 - s₂.getBytesProcessed).toNat 0) =
        .ok (Bits.splice s₂.getData n zeros) := by
    rw [hbytes, ← hzeros, writeArray_eq_ok (by omega) (by omega), Int.toNat_natCast]
  have hcleared : (Bits.splice (s₂.getData : List U8) n zeros).length = 1024 := by
    rw [Bits.length_splice (by omega), hlen]
  have hreads := stores_serialize hmin hmax hlt uninit
  obtain ⟨result, rs, readObject, hread, -, hstored⟩ := @Stores.accepts_iff _ _ _ _ _ _ hreads
    (Bits.splice (s₂.getData : List U8) n zeros) n (by omega) (by omega) pointer new
  obtain ⟨rfl, -⟩ := hstored _ (message_valid h) (hstart.cleared (by omega))
  rw [← hbytes] at hread
  rw [testStream, hinit]
  exact Except.bind_eq_ok_iff.mpr ⟨_, rfl, Except.bind_eq_ok_iff.mpr ⟨_, rfl,
    Except.bind_eq_ok_iff.mpr ⟨_, hwrite, Except.bind_eq_ok_iff.mpr ⟨_, hflush,
    Except.bind_eq_ok_iff.mpr ⟨_, hclear, Except.bind_eq_ok_iff.mpr ⟨_, rfl,
    Except.bind_eq_ok_iff.mpr ⟨_, hread, rfl⟩⟩⟩⟩⟩⟩⟩

/-! ## what the trip preserves -/

/-- A member comes back when the bits that are sent are all that it has. -/
theorem setWidth_eq_iff {w n : Nat} (value : BitVec w) (hw : w ≤ 32) :
    (((value.setWidth 32).setWidth n).setWidth 32).setWidth w = value ↔ value.toNat < 2 ^ n := by
  have hwide : value.toNat < 2 ^ 32 :=
    lt_of_lt_of_le value.isLt (Nat.pow_le_pow_right (by decide) hw)
  rw [← BitVec.toNat_inj, BitVec.toNat_setWidth, BitVec.toNat_setWidth, BitVec.toNat_setWidth,
    BitVec.toNat_setWidth, Nat.mod_eq_of_lt hwide]
  constructor
  · intro h
    have hle := (Nat.mod_le (value.toNat % 2 ^ n % 2 ^ 32) (2 ^ w)).trans (Nat.mod_le _ (2 ^ 32))
    rw [h] at hle
    exact lt_of_le_of_lt hle (Nat.mod_lt _ (Nat.two_pow_pos n))
  · intro h
    rw [Nat.mod_eq_of_lt h, Nat.mod_eq_of_lt hwide, Nat.mod_eq_of_lt value.isLt]

/-- An item is what comes back of its low byte, when it is a byte. -/
theorem itemValue_eq_iff (v : Int) : itemValue ((toU32 v).setWidth 8) = v ↔ 0 ≤ v ∧ v < 256 := by
  rw [itemValue, toU32, BitVec.toInt_eq_toNat_cond, BitVec.toNat_setWidth, BitVec.toNat_setWidth,
    BitVec.toNat_ofInt]
  omega

/-- Two lists in a row, compared part by part. -/
theorem append_eq_iff {α : Type} {l₁ l₂ l : List α} {k : Nat} (h : l₁.length = k) :
    l₁ ++ l₂ = l ↔ l₁ = l.take k ∧ l₂ = l.drop k := by
  constructor
  · rintro rfl
    exact ⟨(List.take_left' h).symm, (List.drop_left' h).symm⟩
  · rintro ⟨h₁, h₂⟩
    rw [h₁, h₂, List.take_append_drop]

/-- The items come back if they are bytes and nothing lies behind them. -/
theorem items_preserved_iff {data : TestData} (h : data.numItems.toNat ≤ maxItems) :
    (CArray.fill maxItems 0).put 0 ((message data).items.map itemValue) = data.items ↔
      (∀ v ∈ data.items.toList.take data.numItems.toNat, 0 ≤ v ∧ v < 256) ∧
        ∀ v ∈ data.items.toList.drop data.numItems.toNat, v = 0 := by
  have hlen := data.items.length_toList
  obtain ⟨k, hk⟩ : ∃ k, k = data.numItems.toNat := ⟨_, rfl⟩
  have hsent : (message data).items.map itemValue =
      (data.items.toList.take k).map fun v => itemValue ((toU32 v).setWidth 8) := by
    rw [message, List.map_map, hk]
    rfl
  have hcount : ((data.items.toList.take k).map fun v => itemValue ((toU32 v).setWidth 8)).length =
      k := by
    rw [List.length_map, List.length_take]
    omega
  rw [← hk, hsent, CArray.ext_iff, CArray.toList_put_fill (by omega), hcount, append_eq_iff hcount,
    eq_comm (b := data.items.toList.drop k), List.eq_replicate_iff, List.length_drop, hlen]
  refine and_congr ?_ (and_iff_right rfl)
  constructor
  · intro hmap v hv
    exact (itemValue_eq_iff v).mp (List.map_inj_left.mp (hmap.trans (List.map_id _).symm) v hv)
  · intro hbytes
    exact (List.map_congr_left fun v hv => (itemValue_eq_iff v).mpr (hbytes v hv)).trans
      (List.map_id _)

/-- The text comes back if nothing lies behind its terminator. -/
theorem string_preserved_iff {data : TestData} (h : 0 ∈ data.string.toList) :
    (CArray.fill 64 0).put 0 ((message data).chars ++ [0]) = data.string ↔
      ∀ x ∈ data.string.toList.dropWhile (· ≠ 0), x = 0 := by
  have hlen := data.string.length_toList
  have hsplit :=
    @List.takeWhile_append_dropWhile _ (fun x : U8 => decide (x ≠ 0)) data.string.toList
  obtain ⟨chars, hchars⟩ : ∃ chars, (message data).chars = chars := ⟨_, rfl⟩
  obtain ⟨rest, hrest⟩ := exists_dropWhile h
  rw [hrest] at hsplit ⊢
  change (message data).chars ++ 0 :: rest = _ at hsplit
  rw [hchars] at hsplit ⊢
  rw [← hsplit, List.length_append, List.length_cons] at hlen
  have hterminated : (chars ++ [0]).length = chars.length + 1 := by
    rw [List.length_append, List.length_singleton]
  rw [CArray.ext_iff, CArray.toList_put_fill (by omega), ← hsplit, hterminated, List.append_assoc,
    List.append_cancel_left_eq, List.singleton_append, List.cons_inj_right, eq_comm,
    List.eq_replicate_iff]
  simp only [List.forall_mem_cons, true_and, and_iff_right_iff_imp]
  omega

/-- The object that is read is the one that was written when the wire can carry it. -/
theorem store_message_iff {context : TestContext} {data : TestData} (h : Sendable context data) :
    (message data).store new = data ↔ Faithful data := by
  obtain ⟨h0, hmax⟩ := h.numItems
  have hitems := @items_preserved_iff data (by omega)
  have hstring := string_preserved_iff h.terminated
  have hbytes : (CArray.fill 17 0).put 0 data.bytes.toList = data.bytes := by
    have hlen := data.bytes.length_toList
    apply CArray.ext
    rw [CArray.toList_put_fill (by omega), hlen, Nat.sub_self, List.replicate_zero, List.append_nil]
  constructor
  · intro hsame
    obtain ⟨hused, hunused⟩ := hitems.mp (congrArg TestData.items hsame)
    exact ⟨(setWidth_eq_iff data.d (by decide)).mp (congrArg TestData.d hsame),
      (setWidth_eq_iff data.f (by decide)).mp (congrArg TestData.f hsame), hused, hunused,
      hstring.mp (congrArg TestData.string hsame)⟩
  · rintro ⟨hd, hf, hused, hunused, hcleared⟩
    have he : (data.e.setWidth 32).setWidth 8 = data.e := by
      rw [BitVec.setWidth_setWidth_of_le _ (by decide), BitVec.setWidth_eq]
    exact TestData.ext rfl rfl rfl ((setWidth_eq_iff data.d (by decide)).mpr hd) he
      ((setWidth_eq_iff data.f (by decide)).mpr hf) rfl (length_items h0 hmax)
      (hitems.mpr ⟨hused, hunused⟩) rfl rfl rfl hbytes (hstring.mpr hcleared)

/-- For any object that meets the assertions, `test_stream` stops at none, and it finds the
object that was read equal to the one that was written if and only if the wire can carry it. -/
theorem testStream_equal_iff {context : TestContext} (hmin : IsInt32 context.min)
    (hmax : IsInt32 context.max) (hlt : context.min < context.max) (memory : Nat → U8)
    (uninit : U32) (pointer : Context) {data : TestData} (h : Sendable context data) :
    ∃ equal, testStream memory uninit context pointer data = .ok equal ∧
      (equal = true ↔ Faithful data) :=
  ⟨_, testStream_eq hmin hmax hlt memory uninit pointer h,
    decide_eq_true_iff.trans (store_message_iff h)⟩

/-- The object of `Init`, up to its random bytes. -/
def sampleData : TestData where
  a := 1
  b := -2
  c := 150
  d := 55
  e := 255
  f := 127
  g := true
  numItems := 5
  items := (CArray.fill maxItems 0).put 0 [10, 11, 12, 13, 14]
  floatValue := 0x40490FDA
  doubleValue := 0x3FD5555555555555
  uint64Value := 0x1234567898765432
  bytes := .fill 17 9
  string := (CArray.fill 64 0).put 0
    [104, 101, 108, 108, 111, 32, 119, 111, 114, 108, 100, 33]

/-- The object of `Init` passes its test. -/
theorem testStream_equal_iff_sample :
    testStream (fun _ => 7) 3 ⟨-10, 10⟩ 1 sampleData = .ok true := by
  have hsend : Sendable ⟨-10, 10⟩ sampleData :=
    ⟨by decide, by decide, by decide, by decide, by decide, by decide⟩
  obtain ⟨equal, hrun, hiff⟩ := @testStream_equal_iff ⟨-10, 10⟩ (by decide) (by decide) (by decide)
    (fun _ => 7) 3 1 sampleData hsend
  have hcarried : Faithful sampleData := ⟨by decide, by decide, by decide, by decide, by decide⟩
  rw [hrun, hiff.mpr hcarried]

end TestObject

end RudpNetwork
