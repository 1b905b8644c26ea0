import RudpNetwork.Network

/-!
# RudpNetwork.Corruption

What the packet checksum detects.

`writePacket_sealed` takes any packet that `WritePacket` produced and shows that
its slot holds the checksum of the rest.  A receiver with another protocol id,
and a receiver of a packet that was altered in its slot or in a window of four
bytes behind it, computes a checksum that is not the one in the slot.

## Main results

* `writePacket_sealed` — the slot of a written packet holds the checksum of the rest.
* `readPacket_corrupted` — a receiver with another protocol id, or of a packet that was
  altered in a window of four bytes, answers with a CRC32 error.
-/

namespace RudpNetwork

open MachineInt
open WriteStream (Appends Emits)
open ReadStream (Reads)

variable {σ : Type}

/-! ## what `WritePacket` produced -/

/-- The prefix is written as zero bytes. -/
theorem emits_writePrefix (info : PacketInfo) :
    Emits (writePrefix info) (.const (List.replicate (8 * info.prefixBytes.toNat) false)) := by
  have hall := Emits.times (Emits.ignore (@WriteStream.emits_serializeBits Memory _ 0 8))
    info.prefixBytes.toNat
  rw [concat_zeroBytes] at hall
  exact hall

/-- The slot of the checksum is written as a word of zeros. -/
theorem emits_writeCrc32 (info : PacketInfo) :
    Emits (writeCrc32 info) (.const (slotBits info 0)) := by
  unfold writeCrc32 slotBits
  split
  · exact Emits.pure
  · exact Emits.ignore (WriteStream.emits_serializeBits 0 32)

/-- The header only appends. -/
theorem appends_writeHeader (header : Option Writable) : Appends (writeHeader header) := by
  cases header with
  | none => exact Appends.pure
  | some header => exact header.appends

/-- The packet type only appends. -/
theorem appends_writeType (f : PacketFactory) (packetType : Int) :
    Appends (writeType f packetType) := by
  refine Appends.assert _ ?_
  split
  · exact Appends.ignore (WriteStream.appends_serializeInteger _ _ _)
  · exact Appends.pure

/-- Before the flush, a writer that came through holds an empty prefix, an empty
slot and what the header and the packet appended. -/
theorem writeStages_rep {f : PacketFactory} {info : PacketInfo} {packet : Packet}
    {header : Option Writable} {s s' : WriteStream Memory} (hrep : s.writer.Rep [])
    (h : writeStages f info packet header s = .ok (some (), s')) :
    ∃ t, s'.writer.Rep (List.replicate (8 * info.prefixBytes.toNat) false ++
      (slotBits info 0 ++ t)) ∧ s.Same s' := by
  have htail : Appends (do
      writeHeader header
      writeType f packet.getType
      packet.serializeWrite) :=
    Appends.bind (appends_writeHeader header) (Appends.bind (appends_writeType f _) packet.appends)
  have hhead := Emits.bind (emits_writePrefix info) (emits_writeCrc32 info)
  rw [Enc.const_append] at hhead
  have hsplit : writeStages f info packet header = (do
      (do writePrefix info; writeCrc32 info : Proc Fault (WriteStream Memory) Unit)
      writeHeader header
      writeType f packet.getType
      packet.serializeWrite) := (Proc.bind_assoc _ _ _).symm
  rw [hsplit] at h
  obtain ⟨_, s₁, h1, h2⟩ := Proc.bind_run_ok_some h
  obtain ⟨hrep₁, hsame₁⟩ := (hhead s _ s₁ h1).2 [] hrep
  obtain ⟨t, hrep', hsame'⟩ := htail s₁ _ s' h2 _ hrep₁
  rw [List.nil_append, Enc.const, List.append_assoc] at hrep'
  exact ⟨t, hrep', hsame₁.trans hsame'⟩

/-- The way of a completed `WritePacket` that did not report a failure. -/
theorem writePacket_inv {f : PacketFactory} {info : PacketInfo} {packet : Packet}
    {header : Option Writable} {buffer written : Memory} {bufferSize : Int} {n : Nat}
    (h : writePacket f info packet buffer bufferSize header = .ok (n, written)) (hn : 0 < n)
    (hraw : info.rawFormat = false) :
    0 < bufferSize ∧ info.protocolId ≠ 0 ∧ ∃ s s₁ s₂ o,
      WriteStream.init buffer bufferSize = .ok s ∧
      writeStages f info packet header { s with context := info.context } = .ok (some (), s₁) ∧
      WriteStream.flush s₁ = .ok (o, s₂) ∧ s₂.getBytesProcessed = n ∧
      storeCrc32 info s₂.getData n = .ok written := by
  simp only [writePacket, Except.bind_eq_ok_iff, require_eq_ok] at h
  obtain ⟨-, hpos, -, hid, s, hinit, ⟨result, s₁⟩, hstages, hfinish⟩ := h
  refine ⟨hpos, hid, s, s₁, ?_⟩
  cases result with
  | none =>
      obtain ⟨hzero, -⟩ : (0 : Int) = n ∧ _ := Prod.mk.inj (Except.pure_eq_ok_iff.mp hfinish)
      omega
  | some u =>
      simp only [finishPacket, hraw, Bool.false_eq_true, if_false, Except.bind_eq_ok_iff,
        Except.pure_eq_ok_iff] at hfinish
      obtain ⟨⟨o, s₂⟩, hflush, written', hstore, heq⟩ := hfinish
      obtain ⟨hbytes, rfl⟩ := Prod.mk.inj heq
      by_cases herror : s₂.error = .none
      · rw [if_pos herror] at hbytes
        exact ⟨s₂, o, hinit, hstages, hflush, hbytes, hbytes ▸ hstore⟩
      · rw [if_neg herror] at hbytes
        omega

/-- Whatever `WritePacket` produced is sealed, in a buffer whose bits an `int`
can count. -/
theorem writePacket_sealed {f : PacketFactory} {info : PacketInfo} {packet : Packet}
    {header : Option Writable} {buffer written : Memory} {bufferSize : Int} {n : Nat}
    (h : writePacket f info packet buffer bufferSize header = .ok (n, written)) (hn : 0 < n)
    (hraw : info.rawFormat = false) (hlen : bufferSize ≤ buffer.length)
    (hsize : 8 * buffer.length < 2147483648) :
    Sealed info written n ∧ written.length = buffer.length ∧ 4 * ((n + 3) / 4) ≤ buffer.length := by
  have hbits : ∀ m : Memory, (Platform.bits m).length = 8 * m.length := Bits.length_ofList
  obtain ⟨hpos, -, s, s₁, s₂, o, hinit, hstages, hflush, hbytes, hstore⟩ := writePacket_inv h hn hraw
  obtain ⟨w, hw, rfl⟩ : ∃ w, BitWriter.init buffer bufferSize = .ok w ∧
      s = { error := .none, context := 0, writer := w } := by
    obtain ⟨w, hw, heq⟩ := Except.bind_eq_ok_iff.mp hinit
    exact ⟨w, hw, (Except.pure_eq_ok_iff.mp heq).symm⟩
  obtain ⟨hrep, -, hdata⟩ := BitWriter.init_rep (by omega) (by rw [hbits]; push_cast; omega)
    (by rw [hbits]; omega) hw
  obtain ⟨t, hrep₁, hsame₁⟩ := writeStages_rep (s := ⟨.none, info.context, w⟩) hrep hstages
  obtain ⟨l, hl⟩ : ∃ l, l = List.replicate (8 * info.prefixBytes.toNat) false ++
      (slotBits info 0 ++ t) := ⟨_, rfl⟩
  rw [← hl] at hrep₁
  obtain ⟨hflushed, hsame₂, hcount⟩ := WriteStream.flush_data hrep₁ hflush
  obtain ⟨data, hd⟩ : ∃ data, data = s₂.getData := ⟨_, rfl⟩
  rw [← hd] at hflushed hstore
  -- the buffer keeps its size, and the packet lies in it
  have hdatalen : data.length = buffer.length := by
    have hlen₂ : (Platform.bits s₂.getData).length = (Platform.bits w.data).length :=
      (hsame₁.trans hsame₂).buffer.length
    rw [← hd, hdata, hbits, hbits] at hlen₂
    omega
  have hroom : 32 * ((l.length + 31) / 32) ≤ 8 * data.length := by
    have hlenl := congrArg List.length hflushed
    rw [List.length_take, List.length_append, List.length_replicate, hbits] at hlenl
    omega
  -- its slot is zero
  have hslice : Bits.slice (Bits.ofList data) 0 l.length = l := by
    have htake := congrArg (List.take l.length) hflushed
    rw [List.take_take, Nat.min_eq_left (by omega), List.take_left, Bits.take_eq_slice] at htake
    exact htake
  have hslotBits : slotBits info 0 = Bits.ofVec (0 : U32) := by
    rw [slotBits, hraw]
    rfl
  rw [hslotBits] at hl
  have hllen : l.length = 8 * info.prefixBytes.toNat + (32 + t.length) := by
    rw [hl, List.length_append, List.length_append, List.length_replicate, Bits.length_ofVec]
  rw [hl] at hslice
  have hslot : Bits.slice data info.prefixBytes.toNat 4 = bytesOf 0 :=
    slot_bytes (List.length_replicate ..) hslice
  -- so the patched buffer is sealed
  have hpre : 0 ≤ info.prefixBytes := storeCrc32_nonneg hstore
  have hle : info.prefixBytes + 4 ≤ n := by omega
  have hnle : n ≤ data.length := by omega
  rw [storeCrc32_ok hpre hle hnle (by omega) hslot] at hstore
  obtain rfl := Except.ok.inj hstore
  refine ⟨sealed_splice hpre hle hnle, ?_, by omega⟩
  rw [Bits.length_splice (by rw [length_bytesOf]; omega), hdatalen]

/-! ## the receiver -/

/-- `ReadPacket` gives up when the checksum is not the one in the slot. -/
theorem readPacket_mismatch {f : PacketFactory} {uninit : Uninit} {info : PacketInfo}
    {received : Memory} {n : Nat} {header : Option (ObjectClass σ)} {stored : U32}
    (hid : info.protocolId ≠ 0) (hraw : info.rawFormat = false) (hpre : 0 ≤ info.prefixBytes)
    (hle : info.prefixBytes + 4 ≤ n) (hint : 8 * n < 2147483648)
    (hwords : 4 * ((n + 3) / 4) ≤ received.length)
    (hslot : Bits.slice received info.prefixBytes.toNat 4 = bytesOf stored)
    (hne : packetCrc32 info.protocolId (behindSlot info received n) ≠ stored) (o : σ) :
    readPacket f uninit info received n header o =
      .ok (none, { header := o, errorCode := .crc32Mismatch }) := by
  obtain ⟨k, hk⟩ : ∃ k, k = info.prefixBytes.toNat := ⟨_, rfl⟩
  have hlen : (Platform.bits received).length = 8 * received.length := Bits.length_ofList received
  have hat := @ReadStream.init_at Memory _ received n (by omega) (by omega) (by omega)
  have hN : int32 ((n : Int) * 8) = 8 * n := by
    rw [int32_eq ⟨by omega, by omega⟩]
    omega
  rw [hN] at hat
  obtain ⟨s, hs⟩ : ∃ s, s = { ReadStream.init received n with context := info.context } := ⟨_, rfl⟩
  have hats : s.At (Platform.bits received) (8 * n) 0 := by
    rw [hs]
    exact ⟨hat.reader, hat.bitsRead⟩
  -- the prefix
  obtain ⟨l, hl⟩ : ∃ l, l = Bits.slice (Platform.bits received) 0 (8 * k) := ⟨_, rfl⟩
  have hllen : l.length = 8 * k := by
    rw [hl, Bits.length_slice]
    omega
  obtain ⟨s₁, hrun₁, hat₁, hsame₁⟩ := @reads_readPrefix info.context (ReadResult σ) info l
    (by rw [← hk]; exact hllen) { header := o } s _ _ 0 (by rw [hs]) hats
    (by rw [Enc.const, hllen, hl]) (by rw [Enc.const, hllen]; omega)
  rw [Enc.const, hllen, Nat.zero_add] at hat₁
  -- the slot
  have hbits : Bits.slice (Platform.bits received) (8 * k) 32 = Bits.ofVec stored := by
    rw [← ofList_bytesOf, ← hslot, ← Bits.slice_ofList, hk]
    rfl
  obtain ⟨s₂, hrun₂, -, -⟩ := @reads_readCrc32 s₁.context (ReadResult σ) stored { header := o } s₁ _
    _ _ rfl hat₁ (by rw [Enc.const, Bits.length_ofVec, hbits])
    (by rw [Enc.const, Bits.length_ofVec]; omega)
  -- the comparison
  have hexpected := @expectedCrc32_eq info received n hpre hle (by omega) (by omega)
  have hcheck : checkCrc32 info received n (s₁, ({ header := o } : ReadResult σ)) =
      .ok (none, s₂, { header := o, errorCode := .crc32Mismatch }) := by
    rw [checkCrc32, hraw, if_neg (by decide)]
    refine (Proc.bind_run_some hrun₂).trans ((Proc.lift_bind_run hexpected).trans ?_)
    have hreturn : (Proc.check (packetCrc32 info.protocolId (behindSlot info received n) = stored) :
        ReadProc Memory (ReadResult σ) Unit) (s₂, { header := o }) =
          .ok (none, s₂, { header := o }) := by
      rw [Proc.check, if_neg hne]
      rfl
    exact ReadStream.orReturn_run_none hreturn
  refine readPacket_eq_ok.mpr ⟨by omega, hid, s₂, ?_⟩
  rw [← hs]
  exact Proc.bind_run_none ((Proc.bind_run_some hrun₁).trans (Proc.bind_run_none hcheck))

/-! ## altered packets -/

/-- Four bytes are the bytes of a word. -/
theorem bytesOf_surj {w : List U8} (h : w.length = 4) : ∃ x, bytesOf x = w := by
  have hlen : (Bits.ofList w).length = 32 := by
    rw [Bits.length_ofList, h]
  exact ⟨Bits.toVec 32 (Bits.ofList w), by rw [bytesOf, Bits.ofVec_toVec _ hlen, Bits.pack_ofList]⟩

/-- What the checksum is computed of: the bytes behind the slot. -/
theorem behindSlot_eq_drop (info : PacketInfo) (buffer : Memory) (n : Nat) :
    behindSlot info buffer n = (buffer.take n).drop (info.prefixBytes.toNat + 4) :=
  List.drop_take.symm

/-- `received` is `written` with other bytes in the slot, or in a window of at
most four bytes behind it. -/
structure Altered (info : PacketInfo) (written received : Memory) (n pos : Nat) (w : List U8) :
    Prop where
  window : (pos = info.prefixBytes.toNat ∧ w.length = 4) ∨
    (info.prefixBytes.toNat + 4 ≤ pos ∧ w.length ≤ 4)
  inside : pos + w.length ≤ n
  eq_splice : received.take n = Bits.splice (written.take n) pos w
  ne : received.take n ≠ written.take n

/-- An altered packet is not sealed. -/
theorem Altered.mismatch {info : PacketInfo} {written received : Memory} {n pos : Nat}
    {w : List U8} (h : Altered info written received n pos w) (hs : Sealed info written n) :
    ∃ stored, Bits.slice received info.prefixBytes.toNat 4 = bytesOf stored ∧
      packetCrc32 info.protocolId (behindSlot info received n) ≠ stored := by
  obtain ⟨k, hk⟩ : ∃ k, k = info.prefixBytes.toNat := ⟨_, rfl⟩
  obtain ⟨m, hm⟩ : ∃ m, m = written.take n := ⟨_, rfl⟩
  obtain ⟨h0, hslotle, hlen, hslot⟩ := hs
  obtain ⟨hwindow, hinside, heq, hne⟩ := h
  have hmlen : m.length = n := by
    rw [hm, List.length_take]
    omega
  have hfit : pos + w.length ≤ m.length := by omega
  have hsame : ∀ v, v = w → v = Bits.slice m pos w.length → False := by
    intro v hvw hv
    rw [← hm] at heq hne
    refine hne (heq.trans ?_)
    rw [← hvw, hv]
    exact Bits.splice_slice_self m hfit
  have hwritten : ∀ p l, p + l ≤ n → Bits.slice written p l = Bits.slice m p l := by
    intro p l hle
    rw [hm, Bits.slice_take _ hle]
  have hreceived : ∀ p l, p + l ≤ n → Bits.slice received p l =
      Bits.slice (Bits.splice m pos w) p l := by
    intro p l hle
    rw [hm, ← heq, Bits.slice_take _ hle]
  rw [← hk] at hwindow hslot ⊢
  rw [behindSlot_eq_drop, ← hm, ← hk, hwritten k 4 (by omega)] at hslot
  rw [behindSlot_eq_drop, heq, ← hm, ← hk, hreceived k 4 (by omega)]
  rcases hwindow with ⟨rfl, hw4⟩ | ⟨hpos, hw4⟩
  · -- other bytes in the slot: the rest has the same checksum as before
    obtain ⟨stored, hstored⟩ := bytesOf_surj hw4
    have hself := Bits.slice_splice_self hfit
    rw [hw4] at hself
    have hdrop : (Bits.splice m pos w).drop (pos + 4) = m.drop (pos + 4) := by
      rw [← hw4]
      exact Bits.drop_splice hfit
    refine ⟨stored, by rw [hself, hstored], ?_⟩
    rw [hdrop]
    intro hcrc
    rw [hcrc, hstored] at hslot
    exact hsame w rfl (by rw [hw4, hslot])
  · -- other bytes behind the slot: the same slot, another checksum
    have hleft : Bits.slice (Bits.splice m pos w) k 4 = Bits.slice m k 4 :=
      Bits.slice_splice_left (by omega) (by omega)
    refine ⟨_, hleft.trans hslot, ?_⟩
    have hvlen : (Bits.slice m pos w.length).length = w.length := by
      rw [Bits.length_slice]
      omega
    have hold := Bits.drop_splice_of_le m (Bits.slice m pos w.length) hpos (by omega)
    rw [Bits.splice_slice_self m hfit, hvlen] at hold
    rw [Bits.drop_splice_of_le m w hpos (by omega), hold]
    intro hcrc
    exact hsame w rfl (crc32_short_inj hvlen.symm hw4 hcrc)

/-- A packet of another protocol has another checksum. -/
theorem packetCrc32_protocolId_inj {p q : U32} {rest : List U8}
    (h : packetCrc32 p rest = packetCrc32 q rest) : p = q := by
  have hbytes : crc32 (bytesOf p) 0 = crc32 (bytesOf q) 0 := crc32_seed_inj (crc32_seed_inj h)
  have hwindow : crc32 ([] ++ bytesOf p ++ []) 0 = crc32 ([] ++ bytesOf q ++ []) 0 := by
    simpa using hbytes
  exact bytesOf_inj (crc32_short_inj (by simp) (by simp) hwindow)

/-- What `WritePacket` wrote for one protocol is refused under every other, and
under its own once it was altered in its slot or in a window of four bytes
behind it. The receiver may have a factory, a header and a context of its own. -/
theorem readPacket_corrupted {f : PacketFactory} {info : PacketInfo} {packet : Packet}
    {header : Option Writable} {buffer written : Memory} {bufferSize : Int} {n : Nat}
    (h : writePacket f info packet buffer bufferSize header = .ok (n, written)) (hn : 0 < n)
    (hraw : info.rawFormat = false) (hlen : bufferSize ≤ buffer.length)
    (hsize : 8 * buffer.length < 2147483648) {σ : Type} (g : PacketFactory) (uninit : Uninit)
    (context : Context) (objectClass : Option (ObjectClass σ)) (o : σ) {received : Memory}
    (hwords : 4 * ((n + 3) / 4) ≤ received.length) :
    (∀ protocolId, protocolId ≠ 0 → protocolId ≠ info.protocolId →
      received.take n = written.take n →
      readPacket g uninit { info with protocolId, context } received n objectClass o =
        .ok (none, { header := o, errorCode := .crc32Mismatch })) ∧
    (∀ pos w, Altered info written received n pos w →
      readPacket g uninit { info with context } received n objectClass o =
        .ok (none, { header := o, errorCode := .crc32Mismatch })) := by
  obtain ⟨hsealed, hwlen, hroom⟩ := writePacket_sealed h hn hraw hlen (by omega)
  obtain ⟨-, hid, -⟩ := writePacket_inv h hn hraw
  have hle := hsealed.slot_le
  have hint : 8 * n < 2147483648 := by omega
  constructor
  · intro protocolId hid' hne hsame
    have hslot : Bits.slice received info.prefixBytes.toNat 4 =
        Bits.slice written info.prefixBytes.toNat 4 := by
      have h0 := hsealed.prefix_nonneg
      rw [← Bits.slice_take received (m := n) (by omega), hsame, Bits.slice_take _ (by omega)]
    have hbehind : behindSlot info received n = behindSlot info written n := by
      rw [behindSlot_eq_drop, hsame, behindSlot_eq_drop]
    refine @readPacket_mismatch σ g uninit { info with protocolId, context } received n objectClass _
      hid' hraw hsealed.prefix_nonneg hle hint hwords (hslot.trans hsealed.slot) ?_ o
    change packetCrc32 protocolId (behindSlot info received n) ≠ _
    rw [hbehind]
    exact fun hcrc => hne (packetCrc32_protocolId_inj hcrc)
  · intro pos w halt
    obtain ⟨stored, hslot, hcrc⟩ := halt.mismatch hsealed
    exact @readPacket_mismatch σ g uninit { info with context } received n objectClass _
      hid hraw hsealed.prefix_nonneg hle hint hwords hslot hcrc o

/-- A packet on the wire. -/
def samplePacket : Memory :=
  [0x00#8, 0xe1#8, 0x9d#8, 0x64#8, 0xce#8, 0x80#8, 0x65#8, 0x85#8, 0x00#8, 0x00#8, 0x00#8, 0x00#8]

/-- The same with one byte changed. -/
def alteredPacket : Memory :=
  [0x00#8, 0xe1#8, 0x9d#8, 0x64#8, 0xce#8, 0x80#8, 0x66#8, 0x85#8, 0x00#8, 0x00#8, 0x00#8, 0x00#8]

/-- A receiver with another protocol id refuses a packet of eight bytes. -/
theorem readPacket_corrupted_sample :
    readPacket ⟨106⟩ ⟨0, 0, 0, 0⟩ { protocolId := 2, prefixBytes := 1 } samplePacket 8 none () =
      .ok (none, { header := (), errorCode := .crc32Mismatch }) ∧
    readPacket ⟨106⟩ ⟨0, 0, 0, 0⟩ { protocolId := 1, prefixBytes := 1 } alteredPacket 8 none () =
      .ok (none, { header := (), errorCode := .crc32Mismatch }) := by
  have hwrite : writePacket ⟨106⟩ { protocolId := 1, prefixBytes := 1 }
      (FactoryPacket.testPacketA .new).toPacket (List.replicate 12 0) 12 none =
        .ok ((8 : Nat), samplePacket) := by decide +kernel
  have hreads := fun received => @readPacket_corrupted _ _ _ _ _ _ _ 8 hwrite (by decide) rfl
    (by decide) (by decide) Unit ⟨106⟩ ⟨0, 0, 0, 0⟩ 0 none () received
  refine ⟨(hreads samplePacket (by decide)).1 2 (by decide) (by decide) rfl,
    (hreads alteredPacket (by decide)).2 6 [0x66] ⟨?_, ?_, ?_, ?_⟩⟩ <;> decide

end RudpNetwork
