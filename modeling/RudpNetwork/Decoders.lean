import RudpNetwork.GameProtocol

/-!
# RudpNetwork.Decoders

The two decoders of one message: the C++ `Serialize` returns `false` at the
first field that is not there, the C# `SerializeRead` puts the default value in
its place and returns `true`.

`Decoders` collects what the two have in common, the encoding of the message,
and what they do at the end of the data.  `Decoders.reports_iff` then says for
which byte counts their results agree.

## Main results

* `Answers` — a C# read that cannot fail, and how many bits it takes.
* `Decoders.reports_iff` — the two decoders of a message agree exactly when all its bits
  are there.
* `decoders_report_iff` — the byte counts for the two messages of the handshake.
-/

namespace RudpNetwork

open MachineInt
open ReadStream (Reads Safe Takes assign)

/-! ## a call of a decoder -/

/-- `SerializeRead` of the object `o` from `new ReadStream( buffer, bytes )`: what
it returns, and the object. -/
def CSharp.readMessage {σ : Type} (serializeRead : ReadProc UIntArray σ Unit) (buffer : List U8)
    (bytes : Int) (o : σ) : Except Fault (Bool × σ) := do
  let stream ← newReadStream buffer bytes
  let (result, _, o) ← serializeRead (stream, o)
  return (result.isSome, o)

/-- `SerializeRead` of the object `o` from `ReadStream( buffer, bytes )`. -/
def readMessage {σ : Type} (S : Serialize σ) (buffer : Memory) (bytes : Int) (o : σ) :
    Except Fault (Bool × σ) := do
  let (result, _, o) ← S.read (ReadStream.init buffer bytes, o)
  return (result.isSome, o)

/-- Whatever the objects held, the C# decoder returns what the C++ decoder returns,
and the same members when that is `true`. -/
def CSharp.ReportsAs {σ : Type} (serializeRead : ReadProc UIntArray σ Unit) (S : Serialize σ)
    (buffer : List U8) (bytes : Int) : Prop :=
  ∀ o₁ o₂, ∃ result p₁ p₂, readMessage serializeRead buffer bytes o₁ = .ok (result, p₁) ∧
    RudpNetwork.readMessage S buffer bytes o₂ = .ok (result, p₂) ∧ (result = true → p₁ = p₂)

/-! ## reads whose result is not looked at -/

/-- Whatever stands in the buffer, `x` goes on with some value. -/
def Answers {β τ α : Type} [Platform β] (x : ReadProc β τ α) (k : Nat) : Prop :=
  ∀ s o B N pos, s.At B N pos → pos + k < 2147483648 →
    ∃ a s' o' pos', x (s, o) = .ok (some a, s', o') ∧ s'.At B N pos' ∧ pos' ≤ pos + k

section Answers

variable {β τ α γ : Type} [Platform β]

/-- Two reads in sequence need the bits of both. -/
theorem Answers.bind {x : ReadProc β τ α} {f : α → ReadProc β τ γ} {k m : Nat}
    (hx : Answers x k) (hf : ∀ a, Answers (f a) m) : Answers (x >>= f) (k + m) := by
  intro s o B N pos hs hsmall
  obtain ⟨a, s₁, o₁, pos₁, hrun, hat, hle⟩ := hx s o B N pos hs (by omega)
  obtain ⟨c, s', o', pos', hrun', hat', hle'⟩ := hf a s₁ o₁ B N pos₁ hat (by omega)
  exact ⟨c, s', o', pos', (Proc.bind_run_some hrun).trans hrun', hat', by omega⟩

theorem Answers.pure (a : α) : Answers (pure a : ReadProc β τ α) 0 := by
  intro s o B N pos hs _
  exact ⟨a, s, o, pos, rfl, hs, by omega⟩

theorem Answers.assign (f : τ → τ) : Answers (assign f : ReadProc β τ Unit) 0 := by
  intro s o B N pos hs _
  exact ⟨(), s, f o, pos, rfl, hs, by omega⟩

theorem Answers.attempt {x : ReadProc β τ α} {k : Nat} (hx : Safe x k) :
    Answers (Proc.attempt x) k := by
  intro s o B N pos hs hsmall
  obtain ⟨a, s', o', pos', hrun, hat⟩ := hx s o B N pos hs hsmall
  exact ⟨a, s', o', pos', Proc.attempt_run hrun, hat⟩

theorem Answers.assert {p : Prop} [Decidable p] {x : ReadProc β τ α} {k : Nat} (hp : p)
    (hx : Answers x k) : Answers (do assert p; x) k := by
  intro s o B N pos hs hsmall
  obtain ⟨a, s', o', pos', hrun, hat⟩ := hx s o B N pos hs hsmall
  exact ⟨a, s', o', pos', (Proc.require_bind_run hp).trans hrun, hat⟩

end Answers

namespace CSharp

variable {τ : Type}

/-- `DeserializeBits` gives the default value when the bits are not there. -/
theorem answers_deserializeBits {bits : Nat} (h0 : 0 < bits) (h32 : bits ≤ 32) :
    Answers (deserializeBits bits : ReadProc UIntArray τ U32) bits :=
  Answers.assert (by omega) (Answers.assert (by omega)
    (Answers.bind (Answers.attempt (ReadStream.takes_serializeBits h0 h32).safe) fun _ => .pure _))

/-- `DeserializeUInt64` reads two words of 32 bits. -/
theorem answers_deserializeUInt64 : Answers (deserializeUInt64 : ReadProc UIntArray τ U64) 64 :=
  Answers.bind (@answers_deserializeBits τ 32 (by decide) (by decide)) fun _ =>
    Answers.bind (@answers_deserializeBits τ 32 (by decide) (by decide)) fun _ => .pure _

/-- The start request takes a byte, a session id and a user id: 8 + 16 + 64 bits. -/
theorem ConnectionStartReq.answers_serializeRead : Answers serializeRead 88 :=
  Answers.bind (@answers_deserializeBits _ 8 (by decide) (by decide)) fun _ =>
    Answers.bind (.assign _) fun _ =>
      Answers.bind (@answers_deserializeBits _ 16 (by decide) (by decide)) fun _ =>
        Answers.bind (.assign _) fun _ => Answers.bind answers_deserializeUInt64 fun _ => .assign _

/-- The start response takes a byte and a session id: 8 + 16 bits. -/
theorem ConnectionStartRsp.answers_serializeRead : Answers serializeRead 24 :=
  Answers.bind (@answers_deserializeBits _ 8 (by decide) (by decide)) fun _ =>
    Answers.bind (.assign _) fun _ =>
      Answers.bind (@answers_deserializeBits _ 16 (by decide) (by decide)) fun _ => .assign _

end CSharp

/-! ## where the decoders agree -/

/-- Two decoders of one message.  Its encoding `enc` takes up `k` bits, and any `k`
bits encode a message. -/
structure Decoders {σ : Type} (serializeRead : ReadProc UIntArray σ Unit) (S : Serialize σ)
    (enc : σ → Enc) (k : Nat) : Prop where
  answers : Answers serializeRead k
  deserializes : ∀ p o, Reads 0 serializeRead (enc p) o p ()
  takes : Takes S.read k
  serializes : ∀ p o, Reads 0 S.read (enc p) o p ()
  length_enc : ∀ p pos, (enc p pos).length = k
  exists_enc : ∀ l : List Bool, l.length = k → ∃ p, ∀ pos, enc p pos = l

/-- The two decoders of the start request. -/
theorem Decoders.startReq :
    Decoders CSharp.ConnectionStartReq.serializeRead ConnectionStartReq.serialize
      ConnectionStartReq.enc 88 where
  answers := CSharp.ConnectionStartReq.answers_serializeRead
  deserializes := CSharp.ConnectionStartReq.reads_serializeRead
  takes := ConnectionStartReq.takes
  serializes p o := ConnectionStartReq.sound.reads 0 p o trivial
  length_enc := ConnectionStartReq.length_enc
  exists_enc _ := ConnectionStartReq.exists_enc

/-- The two decoders of the start response. -/
theorem Decoders.startRsp :
    Decoders CSharp.ConnectionStartRsp.serializeRead ConnectionStartRsp.serialize
      SessionMessage.enc 24 where
  answers := CSharp.ConnectionStartRsp.answers_serializeRead
  deserializes := CSharp.ConnectionStartRsp.reads_serializeRead
  takes := SessionMessage.takes
  serializes p o := SessionMessage.sound.reads 0 p o trivial
  length_enc := SessionMessage.length_enc
  exists_enc _ := SessionMessage.exists_enc

section Reports

variable {σ : Type} {serializeRead : ReadProc UIntArray σ Unit} {S : Serialize σ} {enc : σ → Enc}
  {k n : Nat} {buffer : List U8}

/-- What the C++ decoder returns is what `Serialize` returned. -/
theorem readMessage_eq {o o' : σ} {result : Option Unit} {s : ReadStream Memory}
    (h : S.read (ReadStream.init buffer n, o) = .ok (result, s, o')) :
    readMessage S buffer n o = .ok (result.isSome, o') := by
  rw [readMessage, h]
  rfl

/-- The C# decoder behind its constructor, on a buffer of whole words. -/
theorem CSharp.readMessage_eq (h4 : buffer.length % 4 = 0) {o o' : σ} {result : Option Unit}
    {s : ReadStream UIntArray}
    (h : serializeRead (ReadStream.init (byteArrayToUIntArray buffer) n, o) = .ok (result, s, o')) :
    readMessage serializeRead buffer n o = .ok (result.isSome, o') := by
  rw [readMessage, newReadStream_eq h4]
  exact Except.bind_eq_ok_iff.mpr ⟨_, rfl, Except.bind_eq_ok_iff.mpr ⟨_, h, rfl⟩⟩

/-- The C++ decoder begins at the first bit of the buffer. -/
theorem readMessage_at (h4 : buffer.length % 4 = 0) (hsize : buffer.length < 2147483648)
    (hn : n ≤ buffer.length) :
    (@ReadStream.init Memory buffer n).At (Bits.ofList buffer) (int32 (8 * n)) 0 := by
  have hlen : (Platform.bits (β := Memory) buffer).length = 8 * buffer.length :=
    Bits.length_ofList buffer
  rw [Int.mul_comm]
  exact @ReadStream.init_at Memory _ buffer n (by omega) (by omega) (by omega)

/-- So does the C# decoder, although it has copied the buffer into words. -/
theorem CSharp.readMessage_at (h4 : buffer.length % 4 = 0) (hsize : buffer.length < 2147483648)
    (hn : n ≤ buffer.length) :
    (ReadStream.init (byteArrayToUIntArray buffer) n).At (Bits.ofList buffer) (int32 (8 * n)) 0 := by
  have hbits : Platform.bits (byteArrayToUIntArray buffer) = Bits.ofList buffer :=
    ofList_byteArrayToUIntArray (Nat.dvd_of_mod_eq_zero h4)
  have hlen : (Platform.bits (byteArrayToUIntArray buffer)).length = 8 * buffer.length := by
    rw [hbits, Bits.length_ofList]
  rw [Int.mul_comm, ← hbits]
  exact ReadStream.init_at _ (by omega) (by omega) (by omega)

/-- A message that is there is decoded by both. -/
theorem Decoders.reports (h : Decoders serializeRead S enc k) (hk : 0 < k)
    (h4 : buffer.length % 4 = 0) (hsize : buffer.length < 2147483648) (hn : n ≤ buffer.length)
    (hfit : k ≤ int32 (8 * n)) : CSharp.ReportsAs serializeRead S buffer n := by
  have hat := CSharp.readMessage_at h4 hsize hn
  have hcover := hat.reader.cover (by omega)
  obtain ⟨p, hp⟩ := h.exists_enc (Bits.slice (Bits.ofList buffer) 0 k) (by
    rw [Bits.length_slice]
    omega)
  have hlen := h.length_enc p 0
  have hslice : Bits.slice (Bits.ofList buffer) 0 (enc p 0).length = enc p 0 := by rw [hlen, hp]
  intro o₁ o₂
  obtain ⟨s₁, hrun₁, -⟩ := h.deserializes p o₁ _ _ _ 0 rfl hat hslice (by omega)
  obtain ⟨s₂, hrun₂, -⟩ := h.serializes p o₂ _ _ _ 0 rfl (readMessage_at h4 hsize hn) hslice
    (by omega)
  exact ⟨true, p, p, CSharp.readMessage_eq h4 hrun₁, readMessage_eq hrun₂, fun _ => rfl⟩

/-- At the end of the data only the C++ decoder returns `false`. -/
theorem Decoders.not_reports (h : Decoders serializeRead S enc k) (hk : k < 2147483648)
    (h4 : buffer.length % 4 = 0) (hsize : buffer.length < 2147483648) (hn : n ≤ buffer.length)
    (hfull : int32 (8 * n) < k) : ¬CSharp.ReportsAs serializeRead S buffer n := by
  intro hreports
  obtain ⟨o, -⟩ := h.exists_enc (List.replicate k false) List.length_replicate
  obtain ⟨_, _, p₁, -, hrun₁, -⟩ := h.answers _ o _ _ 0 (CSharp.readMessage_at h4 hsize hn) (by omega)
  obtain ⟨_, p₂, -, hrun₂, -⟩ :=
    (h.takes _ o _ _ 0 (readMessage_at h4 hsize hn) (by omega)).2 (by omega)
  obtain ⟨result, _, _, h₁, h₂, -⟩ := hreports o o
  have htrue := (Prod.mk.inj (Except.ok.inj (h₁.symm.trans (CSharp.readMessage_eq h4 hrun₁)))).1
  have hfalse := (Prod.mk.inj (Except.ok.inj (h₂.symm.trans (readMessage_eq hrun₂)))).1
  rw [htrue] at hfalse
  exact Bool.noConfusion hfalse

/-- The two decoders report the same results exactly when the whole message is there; a message
cut short is refused by the C++ decoder and taken by the C# decoder. -/
theorem Decoders.reports_iff (h : Decoders serializeRead S enc k) (hk : 0 < k)
    (hk' : k < 2147483648) (h4 : buffer.length % 4 = 0) (hsize : buffer.length < 2147483648)
    (hn : n ≤ buffer.length) :
    CSharp.ReportsAs serializeRead S buffer n ↔ k ≤ int32 (8 * n) := by
  constructor
  · intro hreports
    by_contra hlt
    exact h.not_reports hk' h4 hsize hn (by omega) hreports
  · exact h.reports hk h4 hsize hn

end Reports

/-- The C# decoders agree with the C++ ones where the message is there: 11 bytes
for a `ConnectionStartReq` and 3 for a `ConnectionStartRsp`, in a stream whose
number of bits is an `int`. -/
theorem decoders_report_iff {buffer : List U8} (h4 : buffer.length % 4 = 0)
    (hsize : buffer.length < 2147483648) {n : Nat} (hn : n ≤ buffer.length) :
    (CSharp.ReportsAs CSharp.ConnectionStartReq.serializeRead ConnectionStartReq.serialize buffer n ↔
      88 ≤ int32 (8 * n)) ∧
    (CSharp.ReportsAs CSharp.ConnectionStartRsp.serializeRead ConnectionStartRsp.serialize buffer n ↔
      24 ≤ int32 (8 * n)) :=
  ⟨Decoders.startReq.reports_iff (by decide) (by decide) h4 hsize hn,
    Decoders.startRsp.reports_iff (by decide) (by decide) h4 hsize hn⟩

/-- Eleven bytes hold a start request, two do not hold a start response. -/
theorem decoders_report_iff_sample :
    CSharp.ReportsAs CSharp.ConnectionStartReq.serializeRead ConnectionStartReq.serialize
        (List.replicate 12 0) 11 ∧
      ¬CSharp.ReportsAs CSharp.ConnectionStartRsp.serializeRead ConnectionStartRsp.serialize
        (List.replicate 12 0) 2 :=
  ⟨(@decoders_report_iff (List.replicate 12 0) (by decide) (by decide) 11 (by decide)).1.mpr
      (by decide),
    fun h => absurd ((@decoders_report_iff (List.replicate 12 0) (by decide) (by decide) 2
      (by decide)).2.mp h) (by decide)⟩

/-- A request that was cut after four bytes. -/
theorem decoders_not_report :
    ¬∀ (buffer : List U8) (n : Nat), buffer.length % 4 = 0 → buffer.length < 2147483648 →
      n ≤ buffer.length →
      CSharp.ReportsAs CSharp.ConnectionStartReq.serializeRead ConnectionStartReq.serialize
        buffer n ∧
      CSharp.ReportsAs CSharp.ConnectionStartRsp.serializeRead ConnectionStartRsp.serialize
        buffer n := by
  intro hall
  have hreq := (hall [101, 1, 0, 7] 4 (by decide) (by decide) (by decide)).1
  exact Decoders.startReq.not_reports (by decide) (by decide) (by decide) (by decide) (by decide) hreq

end RudpNetwork
