import RudpNetwork.Lib.Enc
import RudpNetwork.BitWriter
import RudpNetwork.BitReader

/-!
# RudpNetwork.Stream

`WriteStream` and `ReadStream` of `Serialization.h` and of the C# client: the
bit packers behind an interface that returns `false` when there is nothing left
to read.

A method is a `Proc`: `pure` is `return true`, and a bind is the
`if ( !... ) return false` that the serialize functions put around every call.
The writing methods never return `false`; they stop at an assertion when the
buffer is full.

## Main results

* `WriteStream.Writes`, `ReadStream.Reads` — a procedure sends an encoding, or takes it
  back; `bind`, `forM` and `times` are the rules of sequence and of loops.
* `WriteStream.Appends`, `ReadStream.Safe` — what holds of a procedure on any stream, and
  over any bits.
* `ReadStream.Takes` — a read that takes any `k` bits and fails without them.
-/

namespace RudpNetwork

open MachineInt

/-- `YOJIMBO_PROTOCOL_ERROR_*`, `PROTOCOL2_ERROR_*`. -/
inductive ProtocolError
  | none
  | crc32Mismatch
  | invalidPacketType
  | packetTypeNotAllowed
  | createPacketFailed
  | serializeHeaderFailed
  | serializePacketFailed
  | serializeCheckFailed
  | streamOverflow
  | streamAborted
  deriving DecidableEq, Repr

/-- A `void *` that is carried along and never followed; `0` is `NULL`. -/
abbrev Context := Nat

/-- `class WriteStream`. -/
structure WriteStream (β : Type) where
  error : ProtocolError
  context : Context
  writer : BitWriter β

/-- `class ReadStream`. -/
structure ReadStream (β : Type) where
  context : Context
  error : ProtocolError
  bitsRead : Int
  reader : BitReader β
  deriving DecidableEq

variable {β : Type} [Platform β]

namespace WriteStream

/-! ## the methods of `WriteStream` -/

/-- `WriteStream( buffer, bytes )`. -/
def init (buffer : β) (bytes : Int) : Except Fault (WriteStream β) := do
  let writer ← BitWriter.init buffer bytes
  return { error := .none, context := 0, writer }

/-- A call of a method of `m_writer`. -/
def onWriter (f : BitWriter β → Except Fault (BitWriter β)) : Proc Fault (WriteStream β) Unit :=
  fun s => (f s.writer).map fun writer => (some (), { s with writer })

/-- `SerializeInteger`. -/
def serializeInteger (value min max : Int) : Proc Fault (WriteStream β) Unit := do
  assert (min < max)
  assert (min ≤ value)
  assert (value ≤ max)
  let bits := @Platform.bitsRequired β _ (toU32 min) (toU32 max)
  let unsignedValue := toU32 (value - min)
  onWriter (BitWriter.writeBits · unsignedValue bits)

/-- `SerializeBits`. -/
def serializeBits (value : U32) (bits : Int) : Proc Fault (WriteStream β) Unit := do
  assert (0 < bits)
  assert (bits ≤ 32)
  onWriter (BitWriter.writeBits · value bits)

/-- `SerializeAlign`. -/
def serializeAlign : Proc Fault (WriteStream β) Unit := onWriter BitWriter.writeAlign

/-- `SerializeBytes`. -/
def serializeBytes (data : List U8) (bytes : Int) : Proc Fault (WriteStream β) Unit := do
  assert (0 ≤ bytes)
  serializeAlign
  onWriter (BitWriter.writeBytes · data bytes)

/-- `Flush`. -/
def flush : Proc Fault (WriteStream β) Unit := onWriter BitWriter.flushBits

/-- `SetContext`. -/
def setContext (context : Context) : Proc Fault (WriteStream β) Unit :=
  Proc.modify ({ · with context })

/-- `GetData`. -/
def getData (s : WriteStream β) : β := s.writer.data

/-- `GetBytesProcessed`. -/
def getBytesProcessed (s : WriteStream β) : Int := s.writer.getBytesWritten

/-- `GetBitsProcessed`. -/
def getBitsProcessed (s : WriteStream β) : Int := s.writer.getBitsWritten

/-- `GetTotalBytes`. -/
def getTotalBytes (s : WriteStream β) : Int := s.writer.getTotalBytes

/-- `GetTotalBits`. -/
def getTotalBits (s : WriteStream β) : Int := int32 (s.getTotalBytes * 8)

/-- `GetBitsRemaining`. -/
def getBitsRemaining (s : WriteStream β) : Int := int32 (s.getTotalBits - s.getBitsProcessed)

end WriteStream

namespace ReadStream

/-! ## the methods of `ReadStream` -/

/-- `ReadStream( buffer, bytes )`. -/
def init (buffer : β) (bytes : Int) : ReadStream β :=
  { context := 0, error := .none, bitsRead := 0, reader := BitReader.init buffer bytes }

/-- A call of a method of `m_reader`. -/
def onReader {α : Type} (f : BitReader β → Except Fault (α × BitReader β)) :
    Proc Fault (ReadStream β) α :=
  fun s => (f s.reader).map fun (a, reader) => (some a, { s with reader })

/-- `if ( m_reader.WouldOverflow( bits ) )` set the error and return `false`. -/
def checkOverflow (bits : Int) : Proc Fault (ReadStream β) Unit := fun s =>
  if s.reader.wouldOverflow bits then .ok (none, { s with error := .streamOverflow })
  else .ok (some (), s)

/-- `m_bitsRead += bits`. -/
def countBits (bits : Int) : Proc Fault (ReadStream β) Unit :=
  Proc.modify fun s => { s with bitsRead := int32 (s.bitsRead + bits) }

/-- The end that `SerializeInteger` and `SerializeBits` share. -/
def takeBits (bits : Int) : Proc Fault (ReadStream β) U32 := do
  checkOverflow bits
  let value ← onReader (BitReader.readBits · bits)
  countBits bits
  return value

/-- `SerializeInteger`. -/
def serializeInteger (min max : Int) : Proc Fault (ReadStream β) Int := do
  assert (min < max)
  let bits := @Platform.bitsRequired β _ (toU32 min) (toU32 max)
  let unsignedValue ← takeBits bits
  return int32 (unsignedValue.toInt + min)

/-- `SerializeBits`. -/
def serializeBits (bits : Int) : Proc Fault (ReadStream β) U32 := do
  assert (0 < bits)
  assert (bits ≤ 32)
  takeBits bits

/-- `SerializeAlign`. -/
def serializeAlign : Proc Fault (ReadStream β) Unit := do
  let s ← Proc.get
  let alignBits := s.reader.getAlignBits
  checkOverflow alignBits
  let zeros ← onReader BitReader.readAlign
  if zeros then
    countBits alignBits
  else
    Proc.returnFalse

/-- `SerializeBytes`: `data` after the bytes were stored. -/
def serializeBytes (data : List U8) (bytes : Int) : Proc Fault (ReadStream β) (List U8) := do
  serializeAlign
  checkOverflow (int32 (bytes * 8))
  let data ← onReader (BitReader.readBytes · data bytes)
  countBits (int32 (bytes * 8))
  return data

/-- `SetContext`. -/
def setContext (context : Context) : Proc Fault (ReadStream β) Unit :=
  Proc.modify ({ · with context })

/-- `GetBitsProcessed`. -/
def getBitsProcessed (s : ReadStream β) : Int := s.bitsRead

/-- `GetBitsRemaining`. -/
def getBitsRemaining (s : ReadStream β) : Int := s.reader.getBitsRemaining

/-- `GetBytesProcessed`. -/
def getBytesProcessed (s : ReadStream β) : Int := (int32 (s.bitsRead + 7)).tdiv 8

end ReadStream

/-! ## what a writing procedure appends -/

namespace WriteStream

/-- `s'` has the buffer size, the error and the context of `s`. -/
structure Same (s s' : WriteStream β) : Prop where
  buffer : s.writer.SameBuffer s'.writer
  error : s'.error = s.error
  context : s'.context = s.context

theorem Same.refl (s : WriteStream β) : s.Same s := ⟨.refl s.writer, rfl, rfl⟩

theorem Same.trans {s s' s'' : WriteStream β} (h : s.Same s') (h' : s'.Same s'') : s.Same s'' :=
  ⟨h.buffer.trans h'.buffer, h'.error.trans h.error, h'.context.trans h.context⟩

/-- In a stream with the context `c` and enough room, `x` succeeds, appends `e`
and changes nothing else. -/
def Writes (c : Context) (x : Proc Fault (WriteStream β) Unit) (e : Enc) : Prop :=
  ∀ s l, s.context = c → s.writer.Rep l →
    ((l ++ e l.length).length : Int) ≤ s.writer.numBits →
    ∃ s', x s = .ok (some (), s') ∧ s'.writer.Rep (l ++ e l.length) ∧ s.Same s'

/-- Whatever `x` does, with or without room: if it ends, it has appended bits. -/
def Appends (x : Proc Fault (WriteStream β) Unit) : Prop :=
  Proc.Keeps (fun s s' => ∀ l, s.writer.Rep l → ∃ t, s'.writer.Rep (l ++ t) ∧ s.Same s') x

variable {c : Context}

theorem Writes.pure : Writes c (pure () : Proc Fault (WriteStream β) Unit) .empty := by
  intro s l _ hs _
  exact ⟨s, rfl, by rwa [Enc.empty, List.append_nil], Same.refl s⟩

/-- Two calls in a row write one encoding after the other. -/
theorem Writes.bind {x y : Proc Fault (WriteStream β) Unit} {e₁ e₂ : Enc} (hx : Writes c x e₁)
    (hy : Writes c y e₂) : Writes c (do x; y) (e₁ ++ e₂) := by
  intro s l hc hs hfit
  rw [Enc.append_apply, ← List.append_assoc] at hfit ⊢
  obtain ⟨s₁, hrun, hrep, hsame⟩ := hx s l hc hs (by rw [List.length_append] at hfit; omega)
  have hnum := hs.numBits_eq hrep hsame.buffer
  have hlen : l.length + (e₁ l.length).length = (l ++ e₁ l.length).length :=
    List.length_append.symm
  rw [hlen] at hfit ⊢
  obtain ⟨s', hrun', hrep', hsame'⟩ := hy s₁ _ (hsame.context.trans hc) hrep (by omega)
  exact ⟨s', (Proc.bind_run_some hrun).trans hrun', hrep', hsame.trans hsame'⟩

/-- An assertion that holds writes nothing. -/
theorem Writes.assert {p : Prop} [Decidable p] {x : Proc Fault (WriteStream β) Unit} {e : Enc}
    (hp : p) (hx : Writes c x e) : Writes c (do assert p; x) e := by
  intro s l hc hs hfit
  obtain ⟨s', hrun, hrep⟩ := hx s l hc hs hfit
  exact ⟨s', (Proc.require_bind_run hp).trans hrun, hrep⟩

/-- A call whose result is not looked at. -/
theorem Writes.ignore {x : Proc Fault (WriteStream β) Unit} {e : Enc} (hx : Writes c x e) :
    Writes c (Proc.ignore x) e := by
  intro s l hc hs hfit
  obtain ⟨s', hrun, hrep⟩ := hx s l hc hs hfit
  exact ⟨s', Proc.ignore_run hrun, hrep⟩

theorem Writes.forM {τ : Type} {f : τ → Proc Fault (WriteStream β) Unit} {e : τ → Enc}
    {l : List τ} (hf : ∀ a ∈ l, Writes c (f a) (e a)) : Writes c (forM l f) (.concat (l.map e)) := by
  induction l with
  | nil => exact Writes.pure
  | cons a l ih =>
      rw [List.forM_cons, List.map_cons]
      exact Writes.bind (hf a (by simp)) (ih fun b hb => hf b (List.mem_cons_of_mem a hb))

theorem Writes.times {x : Proc Fault (WriteStream β) Unit} {e : Enc} (hx : Writes c x e) (n : Nat) :
    Writes c (Proc.times n x) (.concat (List.replicate n e)) := by
  induction n with
  | zero => exact Writes.pure
  | succ n ih => exact Writes.bind hx ih

/-- The relation of `Appends`, composed. -/
theorem appends_trans (s₁ s₂ s₃ : WriteStream β)
    (h : ∀ l, s₁.writer.Rep l → ∃ t, s₂.writer.Rep (l ++ t) ∧ s₁.Same s₂)
    (h' : ∀ l, s₂.writer.Rep l → ∃ t, s₃.writer.Rep (l ++ t) ∧ s₂.Same s₃) (l : List Bool)
    (hl : s₁.writer.Rep l) : ∃ t, s₃.writer.Rep (l ++ t) ∧ s₁.Same s₃ := by
  obtain ⟨t, ht, hsame⟩ := h l hl
  obtain ⟨t', ht', hsame'⟩ := h' _ ht
  rw [List.append_assoc] at ht'
  exact ⟨t ++ t', ht', hsame.trans hsame'⟩

theorem appends_refl (s : WriteStream β) (l : List Bool) (hl : s.writer.Rep l) :
    ∃ t, s.writer.Rep (l ++ t) ∧ s.Same s :=
  ⟨[], by rwa [List.append_nil], .refl s⟩

theorem Appends.pure : Appends (pure () : Proc Fault (WriteStream β) Unit) :=
  Proc.Keeps.pure appends_refl ()

/-- Two calls in a row append. -/
theorem Appends.bind {x y : Proc Fault (WriteStream β) Unit} (hx : Appends x) (hy : Appends y) :
    Appends (do x; y) :=
  Proc.Keeps.bind appends_trans hx fun _ => hy

theorem Appends.assert (p : Prop) [Decidable p] {x : Proc Fault (WriteStream β) Unit}
    (hx : Appends x) : Appends (do assert p; x) :=
  Proc.Keeps.bind appends_trans (Proc.Keeps.lift appends_refl _) fun _ => hx

theorem Appends.ignore {x : Proc Fault (WriteStream β) Unit} (hx : Appends x) :
    Appends (Proc.ignore x) :=
  Proc.Keeps.ignore hx

theorem Appends.times {x : Proc Fault (WriteStream β) Unit} (hx : Appends x) (n : Nat) :
    Appends (Proc.times n x) :=
  Proc.Keeps.times appends_refl appends_trans hx n

theorem Appends.forM {τ : Type} {f : τ → Proc Fault (WriteStream β) Unit} {l : List τ}
    (hf : ∀ a ∈ l, Appends (f a)) : Appends (forM l f) :=
  Proc.Keeps.forM appends_refl appends_trans hf

/-! ## the writing methods -/

omit [Platform β] in
theorem onWriter_run {f : BitWriter β → Except Fault (BitWriter β)} {s : WriteStream β}
    {w : BitWriter β} (h : f s.writer = .ok w) :
    onWriter f s = .ok (some (), { s with writer := w }) := by
  rw [onWriter, h]
  rfl

omit [Platform β] in
/-- What a completed operation of the bit writer has done. -/
theorem onWriter_run_ok {f : BitWriter β → Except Fault (BitWriter β)} {s s' : WriteStream β}
    {o : Option Unit} (h : onWriter f s = .ok (o, s')) :
    ∃ w, f s.writer = .ok w ∧ o = some () ∧ s' = { s with writer := w } := by
  unfold onWriter at h
  cases hf : f s.writer with
  | error e => simp [hf, Except.map] at h
  | ok w =>
      simp only [hf, Except.map, Except.ok.injEq, Prod.mk.injEq] at h
      exact ⟨w, rfl, h.1.symm, h.2.symm⟩

/-- A method of the writer that appends the bits `e`. -/
theorem Writes.onWriter {f : BitWriter β → Except Fault (BitWriter β)} {e : Enc}
    (hf : ∀ w l, w.Rep l → ((l ++ e l.length).length : Int) ≤ w.numBits →
      ∃ w', f w = .ok w' ∧ w'.Rep (l ++ e l.length) ∧ w.SameBuffer w') :
    Writes c (onWriter f) e := by
  intro s l _ hs hfit
  obtain ⟨w', hrun, hrep, hsame⟩ := hf s.writer l hs hfit
  exact ⟨_, onWriter_run hrun, hrep, ⟨hsame, rfl, rfl⟩⟩

/-- An operation of the bit writer that appends. -/
theorem Appends.onWriter {f : BitWriter β → Except Fault (BitWriter β)}
    (hf : ∀ w w' l, w.Rep l → f w = .ok w' → ∃ t, w'.Rep (l ++ t) ∧ w.SameBuffer w') :
    Appends (onWriter f) := by
  intro s o s' h l hl
  obtain ⟨w', hrun, -, rfl⟩ := onWriter_run_ok h
  obtain ⟨t, hrep, hsame⟩ := hf s.writer w' l hl hrun
  exact ⟨t, hrep, ⟨hsame, rfl, rfl⟩⟩

/-- Every completed run of `x` returns `true` and has appended `e`. -/
def Emits (x : Proc Fault (WriteStream β) Unit) (e : Enc) : Prop :=
  ∀ s o s', x s = .ok (o, s') → o = some () ∧
    ∀ l, s.writer.Rep l → s'.writer.Rep (l ++ e l.length) ∧ s.Same s'

theorem Emits.pure : Emits (pure () : Proc Fault (WriteStream β) Unit) .empty := by
  intro s o s' h
  obtain ⟨rfl, rfl⟩ : some () = o ∧ s = s' := by simpa using h
  exact ⟨rfl, fun l hl => ⟨by rwa [Enc.empty, List.append_nil], .refl s⟩⟩

/-- Two calls in a row emit one encoding after the other. -/
theorem Emits.bind {x y : Proc Fault (WriteStream β) Unit} {e₁ e₂ : Enc} (hx : Emits x e₁)
    (hy : Emits y e₂) : Emits (do x; y) (e₁ ++ e₂) := by
  intro s o s'' h
  rcases Proc.bind_run_ok h with ⟨h1, -⟩ | ⟨_, s', h1, h2⟩
  · exact absurd (hx s _ s'' h1).1 (by simp)
  · obtain ⟨rfl, hrep'⟩ := hy s' o s'' h2
    refine ⟨rfl, fun l hl => ?_⟩
    obtain ⟨hrep, hsame⟩ := (hx s _ s' h1).2 l hl
    obtain ⟨hrep'', hsame'⟩ := hrep' _ hrep
    rw [List.length_append, List.append_assoc] at hrep''
    exact ⟨hrep'', hsame.trans hsame'⟩

theorem Emits.assert (p : Prop) [Decidable p] {x : Proc Fault (WriteStream β) Unit} {e : Enc}
    (hx : Emits x e) : Emits (do assert p; x) e := by
  intro s o s' h
  obtain ⟨_, -, hrest⟩ := Proc.lift_bind_run_ok h
  exact hx s o s' hrest

theorem Emits.ignore {x : Proc Fault (WriteStream β) Unit} {e : Enc} (hx : Emits x e) :
    Emits (Proc.ignore x) e := by
  intro s o s' h
  obtain ⟨rfl, o', hrun⟩ := Proc.ignore_run_ok h
  exact ⟨rfl, (hx s o' s' hrun).2⟩

theorem Emits.times {x : Proc Fault (WriteStream β) Unit} {e : Enc} (hx : Emits x e) (n : Nat) :
    Emits (Proc.times n x) (.concat (List.replicate n e)) := by
  induction n with
  | zero => exact Emits.pure
  | succ n ih => exact Emits.bind hx ih

/-- A completed `SerializeBits` has written its bits. -/
theorem emits_serializeBits (value : U32) (bits : Int) :
    Emits (serializeBits value bits : Proc Fault (WriteStream β) Unit)
      (.const (Bits.ofNat bits.toNat value.toNat)) := by
  refine Emits.assert _ (Emits.assert _ ?_)
  intro s o s' h
  obtain ⟨w', hrun, rfl, rfl⟩ := onWriter_run_ok h
  refine ⟨rfl, fun l hl => ?_⟩
  obtain ⟨-, hrep, hsame⟩ := BitWriter.writeBits_rep hl hrun
  exact ⟨hrep, ⟨hsame, rfl, rfl⟩⟩

/-- `WriteBits` of the bit writer, on the stream. -/
theorem writes_writeBits (value : U32) {bits : Int} (h0 : 0 < bits) (h32 : bits ≤ 32) :
    Writes c (onWriter (BitWriter.writeBits · value bits) : Proc Fault (WriteStream β) Unit)
      (.const (Bits.ofNat bits.toNat value.toNat)) := by
  apply Writes.onWriter
  intro w l hw hfit
  rw [Enc.const, List.length_append, Bits.length_ofNat] at hfit
  obtain ⟨w', hrun⟩ := BitWriter.writeBits_ok hw value h0 h32 (by omega)
  obtain ⟨-, hrep, hnum⟩ := BitWriter.writeBits_rep hw hrun
  exact ⟨w', hrun, hrep, hnum⟩

/-- A completed `WriteBits` has only appended. -/
theorem appends_writeBits (value : U32) (bits : Int) :
    Appends (onWriter (BitWriter.writeBits · value bits) : Proc Fault (WriteStream β) Unit) := by
  apply Appends.onWriter
  intro w w' l hw h
  obtain ⟨-, hrep, hnum⟩ := BitWriter.writeBits_rep hw h
  exact ⟨_, hrep, hnum⟩

/-- `SerializeBits` writes the low bits of its value. -/
theorem writes_serializeBits (value : U32) {bits : Int} (h0 : 0 < bits) (h32 : bits ≤ 32) :
    Writes c (serializeBits value bits : Proc Fault (WriteStream β) Unit)
      (.const (Bits.ofNat bits.toNat value.toNat)) :=
  Writes.assert h0 (Writes.assert h32 (writes_writeBits value h0 h32))

/-- A completed `SerializeBits` has only appended. -/
theorem appends_serializeBits (value : U32) (bits : Int) :
    Appends (serializeBits value bits : Proc Fault (WriteStream β) Unit) :=
  Appends.assert _ (Appends.assert _ (appends_writeBits value bits))

/-- An integer goes out as its offset from `min`, in as many bits as the range
needs. -/
theorem writes_serializeInteger {value min max : Int} (hmin : IsInt32 min) (hmax : IsInt32 max)
    (hlt : min < max) (hlo : min ≤ value) (hhi : value ≤ max) :
    Writes c (serializeInteger value min max : Proc Fault (WriteStream β) Unit)
      (.const (Bits.ofNat (bitsRequired (toU32 min) (toU32 max)).toNat (value - min).toNat)) := by
  obtain ⟨b, hb, hb1, hb32, hrange, -⟩ := bitsRequired_bounds hmin hmax hlt
  have hbits := @Platform.bitsRequired_eq β _ (toU32 min) (toU32 max) (toU32_ne hmin hmax hlt)
  have hoffset : (toU32 (value - min)).toNat = (value - min).toNat := by
    obtain ⟨hmin1, hmin2⟩ := hmin
    obtain ⟨hmax1, hmax2⟩ := hmax
    rw [BitVec.toNat_ofInt]
    omega
  have hw := @writes_writeBits β _ c (toU32 (value - min)) b (by omega) (by omega)
  rw [hoffset] at hw
  rw [hb]
  refine Writes.assert hlt (Writes.assert hlo (Writes.assert hhi ?_))
  rw [hbits, hb]
  exact hw

/-- A completed `SerializeInteger` has only appended. -/
theorem appends_serializeInteger (value min max : Int) :
    Appends (serializeInteger value min max : Proc Fault (WriteStream β) Unit) :=
  Appends.assert _ (Appends.assert _ (Appends.assert _ (appends_writeBits _ _)))

/-- `SerializeAlign` writes zeros up to the next byte. -/
theorem writes_serializeAlign :
    Writes c (serializeAlign : Proc Fault (WriteStream β) Unit) .align := by
  apply Writes.onWriter
  intro w l hw hfit
  exact BitWriter.writeAlign_ok hw hfit

/-- Bytes start at a byte boundary. -/
theorem writes_serializeBytes {data : List U8} {bytes : Int} (h : bytes ≤ data.length)
    (h0 : 0 ≤ bytes) :
    Writes c (serializeBytes data bytes : Proc Fault (WriteStream β) Unit)
      (.align ++ .const (Bits.ofList (data.take bytes.toNat))) := by
  refine Writes.assert h0 ?_
  intro s l hc hs hfit
  have hlen8 : (l ++ Bits.padding l.length).length % 8 = 0 := by
    rw [List.length_append, Bits.length_padding]
    omega
  have hbytes : (data.take bytes.toNat).length = bytes.toNat := by
    rw [List.length_take]
    omega
  rw [Enc.append_apply, ← List.append_assoc] at hfit ⊢
  rw [Enc.const, Enc.align, List.length_append, Bits.length_ofList, hbytes] at hfit
  obtain ⟨s₁, hrun, hrep, hsame⟩ := writes_serializeAlign s l hc hs (by rw [Enc.align]; omega)
  have hnum := hs.numBits_eq hrep hsame.buffer
  obtain ⟨w', hwrite⟩ := @BitWriter.writeBytes_ok β _ s₁.writer _ data bytes hrep hlen8 h0 h
    (by rw [Enc.align]; omega)
  obtain ⟨hrep', hnum'⟩ := BitWriter.writeBytes_rep hrep hwrite
  exact ⟨_, (Proc.bind_run_some hrun).trans (onWriter_run hwrite), hrep',
    ⟨hsame.buffer.trans hnum', hsame.error, hsame.context⟩⟩

/-! ## from a fresh stream to the finished buffer -/

/-- A stream over a multiple of four bytes of a buffer; what remains is the
capacity that the writer enforces. -/
theorem init_ok {buffer : β} {bytes : Int} (h0 : 0 ≤ bytes) (h4 : bytes % 4 = 0)
    (hlen : 8 * bytes ≤ (Platform.bits buffer).length)
    (hsize : (Platform.bits buffer).length < 17179869184) :
    ∃ s, init buffer bytes = .ok s ∧ s.writer.Rep [] ∧ s.writer.numWords = bytes / 4 ∧
      s.writer.data = buffer ∧ s.error = .none ∧ s.context = 0 ∧
      s.getBitsRemaining = s.writer.numBits := by
  obtain ⟨w, hw⟩ := BitWriter.init_ok buffer h0 h4
  obtain ⟨hrep, hnum, hdata⟩ := BitWriter.init_rep h0 hlen hsize hw
  refine ⟨{ error := .none, context := 0, writer := w }, ?_, hrep, hnum, hdata, rfl, rfl, ?_⟩
  · rw [init, hw]
    rfl
  · have hwritten : w.bitsWritten = 0 := hrep.bitsWritten
    have hcap := hrep.numBits
    have hbytes : int32 (w.numWords * 4) = w.numWords * 4 := by
      rw [hnum]
      exact int32_eq ⟨by omega, by omega⟩
    change int32 (int32 (int32 (w.numWords * 4) * 8) - w.bitsWritten) = w.numBits
    rw [hwritten, hcap, hbytes, Int.sub_zero, Int.mul_assoc]
    exact int32_eq (isInt32_int32 _)

/-- After a flush the buffer starts with the written bits, followed by zeros up to
a word boundary. -/
theorem flush_data {s s' : WriteStream β} {o : Option Unit} {l : List Bool} (hrep : s.writer.Rep l)
    (h : flush s = .ok (o, s')) :
    (Platform.bits s'.getData).take (32 * ((l.length + 31) / 32)) =
        l ++ List.replicate (32 * ((l.length + 31) / 32) - l.length) false ∧
      s.Same s' ∧ (l.length < 2147483641 → s'.getBitsProcessed = l.length ∧
        s'.getBytesProcessed = ((l.length + 7) / 8 : Nat)) := by
  obtain ⟨w', hflush, -, rfl⟩ := onWriter_run_ok h
  obtain ⟨hbits, hwritten, hsame⟩ := BitWriter.flushBits_data hrep hflush
  refine ⟨hbits, ⟨hsame, rfl, rfl⟩, fun hsmall => ?_⟩
  have hexact : w'.bitsWritten = l.length := by
    rw [hwritten, hrep.bitsWritten, int32_eq ⟨by omega, by omega⟩]
  refine ⟨hexact, ?_⟩
  change (int32 (w'.bitsWritten + 7)).tdiv 8 = _
  rw [hexact, int32_eq ⟨by omega, by omega⟩, tdiv_eq _ (by omega)]
  omega

/-- What a writing procedure leaves in the buffer of an empty stream: its
encoding, and zeros up to a word boundary. -/
theorem writes_flush {x : Proc Fault (WriteStream β) Unit} {e : Enc} (hx : Writes c x e)
    {s : WriteStream β} (hctx : s.context = c) (hrep : s.writer.Rep [])
    (hfit : ((e 0).length : Int) ≤ s.writer.numBits) :
    ∃ s₁ s₂, x s = .ok (some (), s₁) ∧ flush s₁ = .ok (some (), s₂) ∧
      (Platform.bits s₂.getData).take (32 * (((e 0).length + 31) / 32)) =
        e 0 ++ List.replicate (32 * (((e 0).length + 31) / 32) - (e 0).length) false ∧
      s.Same s₂ ∧ s₂.getBitsProcessed = (e 0).length ∧
      s₂.getBytesProcessed = (((e 0).length + 7) / 8 : Nat) := by
  obtain ⟨s₁, hrun, hrep₁, hsame⟩ := hx s [] hctx hrep hfit
  rw [List.nil_append, List.length_nil] at hrep₁
  have hnum := hrep.numBits_eq hrep₁ hsame.buffer
  have hint := hrep.numBits_le.2.2
  have hround := hrep.numBits_emod
  obtain ⟨w', hflush⟩ := BitWriter.flushBits_ok hrep₁ (by omega)
  obtain ⟨hbits, hsame', hcount⟩ := flush_data hrep₁ (onWriter_run hflush)
  obtain ⟨hbitsP, hbytesP⟩ := hcount (by omega)
  exact ⟨s₁, _, hrun, onWriter_run hflush, hbits, hsame.trans hsame', hbitsP, hbytesP⟩

/-- The same for a stream over a buffer. -/
theorem writes_fresh {x : Proc Fault (WriteStream β) Unit} {e : Enc} (hx : Writes 0 x e)
    {buffer : β} {bytes : Int} (h0 : 0 ≤ bytes) (h4 : bytes % 4 = 0)
    (hlen : 8 * bytes ≤ (Platform.bits buffer).length)
    (hsize : (Platform.bits buffer).length < 17179869184) :
    ∃ s, init buffer bytes = .ok s ∧ s.getBitsRemaining = int32 (8 * bytes) ∧
      (((e 0).length : Int) ≤ s.getBitsRemaining →
        ∃ s₁ s₂, x s = .ok (some (), s₁) ∧ flush s₁ = .ok (some (), s₂) ∧
          (Platform.bits s₂.getData).take (32 * (((e 0).length + 31) / 32)) =
            e 0 ++ List.replicate (32 * (((e 0).length + 31) / 32) - (e 0).length) false ∧
          (Platform.bits s₂.getData).length = (Platform.bits buffer).length ∧
          s₂.getBitsProcessed = (e 0).length ∧
          s₂.getBytesProcessed = (((e 0).length + 7) / 8 : Nat) ∧ s₂.error = .none) := by
  obtain ⟨s, hinit, hrep, hnum, hdata, herr, hctx, hroom⟩ := init_ok h0 h4 hlen hsize
  have hcap := hrep.numBits
  rw [hnum, show bytes / 4 * 32 = 8 * bytes by omega] at hcap
  refine ⟨s, hinit, hroom.trans hcap, fun hfit => ?_⟩
  obtain ⟨s₁, s₂, hrun, hflush, hbits, hsame, hbitsP, hbytesP⟩ :=
    writes_flush hx hctx hrep (by rwa [← hroom])
  refine ⟨s₁, s₂, hrun, hflush, hbits, ?_, hbitsP, hbytesP, hsame.error.trans herr⟩
  rw [← hdata]
  exact hsame.buffer.length

end WriteStream

/-! ## what a reading procedure takes -/

/-- A procedure that reads from a stream into the variables `τ` of its caller. -/
abbrev ReadProc (β τ α : Type) : Type := Proc Fault (ReadStream β × τ) α

namespace ReadStream

/-- A call of a method of the stream. -/
def onStream {τ α : Type} (x : Proc Fault (ReadStream β) α) : ReadProc β τ α :=
  fun (s, o) => (x s).map fun (a, s') => (a, s', o)

/-- An assignment to the caller's variables. -/
def assign {τ : Type} (f : τ → τ) : ReadProc β τ Unit := Proc.modify fun (s, o) => (s, f o)

/-- The caller's variables. -/
def locals {τ : Type} : ReadProc β τ τ := fun (s, o) => .ok (some o, s, o)

/-- `if ( !... )` change the caller's variables by `f` and return `false`. -/
def orReturn {τ α : Type} (f : τ → τ) (x : ReadProc β τ α) : ReadProc β τ α := fun s =>
  match x s with
  | .error e => .error e
  | .ok (some a, s') => .ok (some a, s')
  | .ok (none, s', o) => .ok (none, s', f o)

/-- `s'` has the error and the context of `s`. -/
structure Same (s s' : ReadStream β) : Prop where
  error : s'.error = s.error
  context : s'.context = s.context

omit [Platform β] in
theorem Same.refl (s : ReadStream β) : s.Same s := ⟨rfl, rfl⟩

omit [Platform β] in
theorem Same.trans {s s' s'' : ReadStream β} (h : s.Same s') (h' : s'.Same s'') : s.Same s'' :=
  ⟨h'.error.trans h.error, h'.context.trans h.context⟩

/-- The stream `s` stands at bit `pos` of `B` and may read up to bit `N`. -/
structure At (s : ReadStream β) (B : List Bool) (N : Int) (pos : Nat) : Prop where
  reader : s.reader.At B N pos
  bitsRead : s.bitsRead = pos

/-- In a stream with the context `c` and the bits `e` at its position, `x`
succeeds with the value `a`, takes them and turns the variables from `o` to `o'`. -/
def Reads {τ α : Type} (c : Context) (x : ReadProc β τ α) (e : Enc) (o o' : τ) (a : α) : Prop :=
  ∀ s B N pos, s.context = c → s.At B N pos → Bits.slice B pos (e pos).length = e pos →
    (pos + (e pos).length : Int) ≤ N →
    ∃ s', x (s, o) = .ok (some a, s', o') ∧ s'.At B N (pos + (e pos).length) ∧ s.Same s'

/-- Whatever stands in the buffer, `x` ends, with or without a value, and takes
at most `k` bits. -/
def Safe {τ α : Type} (x : ReadProc β τ α) (k : Nat) : Prop :=
  ∀ s o B N pos, s.At B N pos → pos + k < 2147483648 →
    ∃ a s' o' pos', x (s, o) = .ok (a, s', o') ∧ s'.At B N pos' ∧ pos' ≤ pos + k

/-- `x` takes `k` bits whatever they are, or returns `false` at the end of the data. -/
def Takes {τ α : Type} (x : ReadProc β τ α) (k : Nat) : Prop :=
  ∀ s o B (N : Int) (pos : Nat), s.At B N pos → pos + k < 2147483648 →
    (pos + k ≤ N → ∃ a s' o', x (s, o) = .ok (some a, s', o') ∧ s'.At B N (pos + k)) ∧
    (N < pos + k → ∃ s' o' pos', x (s, o) = .ok (none, s', o') ∧ s'.At B N pos' ∧ pos' ≤ pos + k)

section Contracts

variable {τ α γ : Type} {c : Context}

theorem Reads.pure (a : α) (o : τ) : Reads c (pure a : ReadProc β τ α) .empty o o a := by
  intro s B N pos _ hs _ _
  exact ⟨s, rfl, hs, Same.refl s⟩

/-- Two reads in a row, the second where the first has ended. -/
theorem Reads.bind {x : ReadProc β τ α} {f : α → ReadProc β τ γ} {e₁ e₂ : Enc} {o o' o'' : τ}
    {a : α} {d : γ} (hx : Reads c x e₁ o o' a) (hf : Reads c (f a) e₂ o' o'' d) :
    Reads c (x >>= f) (e₁ ++ e₂) o o'' d := by
  intro s B N pos hc hs hslice hfit
  rw [Enc.append_apply] at hslice
  rw [Enc.length_append] at hfit ⊢
  obtain ⟨h1, h2⟩ := Bits.slice_eq_append hslice
  obtain ⟨s₁, hrun, hat, herr⟩ := hx s B N pos hc hs h1 (by omega)
  obtain ⟨s', hrun', hat', herr'⟩ := hf s₁ B N _ (herr.context.trans hc) hat h2 (by omega)
  refine ⟨s', (Proc.bind_run_some hrun).trans hrun', ?_, herr.trans herr'⟩
  rwa [← Nat.add_assoc]

theorem Reads.assert {p : Prop} [Decidable p] {x : ReadProc β τ α} {e : Enc} {o o' : τ} {a : α}
    (hp : p) (hx : Reads c x e o o' a) : Reads c (do assert p; x) e o o' a := by
  intro s B N pos hc hs hslice hfit
  obtain ⟨s', hrun, hrep⟩ := hx s B N pos hc hs hslice hfit
  exact ⟨s', (Proc.require_bind_run hp).trans hrun, hrep⟩

theorem Reads.lift {x : Except Fault α} {a : α} (h : x = .ok a) (o : τ) :
    Reads c (Proc.lift x : ReadProc β τ α) .empty o o a := by
  intro s B N pos _ hs _ _
  exact ⟨s, Proc.lift_run_ok.mpr ⟨a, h, rfl, rfl⟩, hs, Same.refl s⟩

theorem Reads.locals (o : τ) : Reads c (locals : ReadProc β τ τ) .empty o o o := by
  intro s B N pos _ hs _ _
  exact ⟨s, rfl, hs, Same.refl s⟩

/-- A call whose result is looked at later. -/
theorem Reads.attempt {x : ReadProc β τ α} {e : Enc} {o o' : τ} {a : α} (hx : Reads c x e o o' a) :
    Reads c (Proc.attempt x) e o o' (some a) := by
  intro s B N pos hc hs hslice hfit
  obtain ⟨s', hrun, hat⟩ := hx s B N pos hc hs hslice hfit
  exact ⟨s', Proc.attempt_run hrun, hat⟩

theorem Reads.ignore {x : ReadProc β τ α} {e : Enc} {o o' : τ} {a : α} (hx : Reads c x e o o' a) :
    Reads c (Proc.ignore x) e o o' () := by
  intro s B N pos hc hs hslice hfit
  obtain ⟨s', hrun, hat⟩ := hx s B N pos hc hs hslice hfit
  exact ⟨s', Proc.ignore_run hrun, hat⟩

omit [Platform β] in
theorem orReturn_run_some {f : τ → τ} {x : ReadProc β τ α} {s s' : ReadStream β × τ} {a : α}
    (h : x s = .ok (some a, s')) : orReturn f x s = .ok (some a, s') := by
  simp [orReturn, h]

omit [Platform β] in
theorem orReturn_run_none {f : τ → τ} {x : ReadProc β τ α} {s : ReadStream β × τ}
    {s' : ReadStream β} {o : τ} (h : x s = .ok (none, s', o)) :
    orReturn f x s = .ok (none, s', f o) := by
  simp [orReturn, h]

omit [Platform β] in
theorem orReturn_run_ok {f : τ → τ} {x : ReadProc β τ α} {s s' : ReadStream β × τ} {a : α}
    (h : orReturn f x s = .ok (some a, s')) : x s = .ok (some a, s') := by
  unfold orReturn at h
  split at h
  · contradiction
  · next a' s₁ hx =>
      obtain ⟨rfl, rfl⟩ : a' = a ∧ s₁ = s' := by simpa using h
      exact hx
  · simp at h

/-- A handler does not matter to a read that succeeds. -/
theorem Reads.orReturn {x : ReadProc β τ α} {e : Enc} {o o' : τ} {a : α} (f : τ → τ)
    (hx : Reads c x e o o' a) : Reads c (orReturn f x) e o o' a := by
  intro s B N pos hc hs hslice hfit
  obtain ⟨s', hrun, hat⟩ := hx s B N pos hc hs hslice hfit
  exact ⟨s', orReturn_run_some hrun, hat⟩

theorem Reads.assign (f : τ → τ) (o : τ) :
    Reads c (assign f : ReadProc β τ Unit) .empty o (f o) () := by
  intro s B N pos _ hs _ _
  exact ⟨s, rfl, hs, Same.refl s⟩

omit [Platform β] in
/-- A read of the stream, beside an object. -/
theorem onStream_run {x : Proc Fault (ReadStream β) α} {s s' : ReadStream β} {a : Option α} {o : τ}
    (h : x s = .ok (a, s')) : (onStream x : ReadProc β τ α) (s, o) = .ok (a, s', o) := by
  rw [ReadStream.onStream, h]
  rfl

/-- A contract of the stream is one beside an object. -/
theorem Reads.onStream {x : Proc Fault (ReadStream β) α} {e : Enc} {a : α} (o : τ)
    (hx : ∀ s B N pos, s.At B N pos → Bits.slice B pos (e pos).length = e pos →
      (pos + (e pos).length : Int) ≤ N →
      ∃ s', x s = .ok (some a, s') ∧ s'.At B N (pos + (e pos).length) ∧ s.Same s') :
    Reads c (onStream x : ReadProc β τ α) e o o a := by
  intro s B N pos _ hs hslice hfit
  obtain ⟨s', hrun, hat⟩ := hx s B N pos hs hslice hfit
  exact ⟨s', onStream_run hrun, hat⟩

omit [Platform β] in
/-- What a completed read of the stream has done. -/
theorem onStream_run_ok {x : Proc Fault (ReadStream β) α} {s : ReadStream β}
    {s' : ReadStream β × τ} {a : Option α} {o : τ}
    (h : (onStream x : ReadProc β τ α) (s, o) = .ok (a, s')) : x s = .ok (a, s'.1) ∧ s'.2 = o := by
  change (x s).map (fun (a, s') => (a, s', o)) = .ok (a, s') at h
  cases hx : x s with
  | error e =>
      rw [hx] at h
      contradiction
  | ok result =>
      rw [hx] at h
      obtain ⟨rfl, rfl⟩ := Prod.mk.inj (Except.ok.inj h)
      exact ⟨rfl, rfl⟩

theorem Safe.pure (a : α) : Safe (pure a : ReadProc β τ α) 0 := by
  intro s o B N pos hs _
  exact ⟨_, s, o, pos, rfl, hs, by omega⟩

theorem Safe.returnFalse : Safe (Proc.returnFalse : ReadProc β τ α) 0 := by
  intro s o B N pos hs _
  exact ⟨_, s, o, pos, rfl, hs, by omega⟩

theorem Safe.assign (f : τ → τ) : Safe (assign f : ReadProc β τ Unit) 0 := by
  intro s o B N pos hs _
  exact ⟨_, s, f o, pos, rfl, hs, by omega⟩

/-- What follows may rely on what is known of the value. -/
theorem Safe.bind_of {x : ReadProc β τ α} {f : α → ReadProc β τ γ} {k m : Nat} {P : α → Prop}
    (hx : Safe x k) (hP : ∀ s o B N pos a s', s.At B N pos → pos + k < 2147483648 →
      x (s, o) = .ok (some a, s') → P a)
    (hf : ∀ a, P a → Safe (f a) m) : Safe (x >>= f) (k + m) := by
  intro s o B N pos hs hsmall
  obtain ⟨a, s₁, o₁, pos₁, hrun, hat, hle⟩ := hx s o B N pos hs (by omega)
  cases a with
  | none => exact ⟨_, s₁, o₁, pos₁, Proc.bind_run_none hrun, hat, by omega⟩
  | some a =>
      have ha := hP s o B N pos a _ hs (by omega) hrun
      obtain ⟨c, s', o', pos', hrun', hat', hle'⟩ := hf a ha s₁ o₁ B N pos₁ hat (by omega)
      exact ⟨c, s', o', pos', (Proc.bind_run_some hrun).trans hrun', hat', by omega⟩

/-- Two reads in a row take the bits of both at most. -/
theorem Safe.bind {x : ReadProc β τ α} {f : α → ReadProc β τ γ} {k m : Nat} (hx : Safe x k)
    (hf : ∀ a, Safe (f a) m) : Safe (x >>= f) (k + m) :=
  Safe.bind_of (P := fun _ => True) hx (fun _ _ _ _ _ _ _ _ _ _ => trivial) fun a _ => hf a

theorem Safe.assert {p : Prop} [Decidable p] {x : ReadProc β τ α} {k : Nat} (hp : p)
    (hx : Safe x k) : Safe (do assert p; x) k := by
  intro s o B N pos hs hsmall
  obtain ⟨a, s', o', pos', hrun, hat⟩ := hx s o B N pos hs hsmall
  exact ⟨a, s', o', pos', (Proc.require_bind_run hp).trans hrun, hat⟩

theorem Safe.mono {x : ReadProc β τ α} {k m : Nat} (hx : Safe x k) (h : k ≤ m) : Safe x m := by
  intro s o B N pos hs hsmall
  obtain ⟨a, s', o', pos', hrun, hat, hle⟩ := hx s o B N pos hs (by omega)
  exact ⟨a, s', o', pos', hrun, hat, by omega⟩

theorem Safe.attempt {x : ReadProc β τ α} {k : Nat} (hx : Safe x k) : Safe (Proc.attempt x) k := by
  intro s o B N pos hs hsmall
  obtain ⟨a, s', o', pos', hrun, hat⟩ := hx s o B N pos hs hsmall
  exact ⟨some a, s', o', pos', Proc.attempt_run hrun, hat⟩

theorem Safe.ignore {x : ReadProc β τ α} {k : Nat} (hx : Safe x k) : Safe (Proc.ignore x) k := by
  intro s o B N pos hs hsmall
  obtain ⟨a, s', o', pos', hrun, hat⟩ := hx s o B N pos hs hsmall
  exact ⟨some (), s', o', pos', Proc.ignore_run hrun, hat⟩

/-- A read whose failure leaves the function. -/
theorem Safe.orReturn {x : ReadProc β τ α} {k : Nat} (f : τ → τ) (hx : Safe x k) :
    Safe (orReturn f x) k := by
  intro s o B N pos hs hsmall
  obtain ⟨a, s', o', pos', hrun, hat⟩ := hx s o B N pos hs hsmall
  cases a with
  | none => exact ⟨none, s', f o', pos', orReturn_run_none hrun, hat⟩
  | some a => exact ⟨some a, s', o', pos', orReturn_run_some hrun, hat⟩

theorem Safe.lift {x : Except Fault α} {a : α} (h : x = .ok a) :
    Safe (Proc.lift x : ReadProc β τ α) 0 := by
  intro s o B N pos hs _
  exact ⟨_, s, o, pos, Proc.lift_run_ok.mpr ⟨a, h, rfl, rfl⟩, hs, by omega⟩

theorem Safe.times {x : ReadProc β τ Unit} {k : Nat} (hx : Safe x k) (n : Nat) :
    Safe (Proc.times n x) (n * k) := by
  induction n with
  | zero => exact (Safe.pure ()).mono (Nat.zero_le _)
  | succ n ih =>
      have hsum : k + n * k = (n + 1) * k := by rw [Nat.succ_mul, Nat.add_comm]
      exact hsum ▸ Safe.bind hx fun _ => ih

theorem Safe.forM {ι : Type} {f : ι → ReadProc β τ Unit} {k : Nat} {l : List ι}
    (hf : ∀ a ∈ l, Safe (f a) k) : Safe (forM l f) (l.length * k) := by
  induction l with
  | nil => exact Nat.zero_mul k ▸ Safe.pure _
  | cons a l ih =>
      rw [List.forM_cons, List.length_cons, Nat.succ_mul, Nat.add_comm]
      exact Safe.bind (hf a (by simp)) fun _ => ih fun b hb => hf b (List.mem_cons_of_mem a hb)

/-- Two reads in a row take the bits of both. -/
theorem Takes.bind {x : ReadProc β τ α} {f : α → ReadProc β τ γ} {k m : Nat} (hx : Takes x k)
    (hf : ∀ a, Takes (f a) m) : Takes (x >>= f) (k + m) := by
  intro s o B N pos hs hsmall
  obtain ⟨hok, hfull⟩ := hx s o B N pos hs (by omega)
  by_cases hk : (pos + k : Int) ≤ N
  · obtain ⟨a, s₁, o₁, hrun, hat⟩ := hok hk
    obtain ⟨hok', hfull'⟩ := hf a s₁ o₁ B N (pos + k) hat (by omega)
    constructor
    · intro hfit
      obtain ⟨c, s', o', hrun', hat'⟩ := hok' (by push_cast; omega)
      exact ⟨c, s', o', (Proc.bind_run_some hrun).trans hrun', by rwa [← Nat.add_assoc]⟩
    · intro hlt
      obtain ⟨s', o', pos', hrun', hat', hle⟩ := hfull' (by push_cast; omega)
      exact ⟨s', o', pos', (Proc.bind_run_some hrun).trans hrun', hat', by omega⟩
  · obtain ⟨s', o', pos', hrun, hat, hle⟩ := hfull (by omega)
    refine ⟨fun hfit => absurd hfit (by push_cast; omega), fun _ => ?_⟩
    exact ⟨s', o', pos', Proc.bind_run_none hrun, hat, by omega⟩

/-- What follows only works on the caller's variables. -/
theorem Takes.after {x : ReadProc β τ α} {f : α → ReadProc β τ γ} {k : Nat} (hx : Takes x k)
    (hf : ∀ a s o, ∃ c o', f a (s, o) = .ok (some c, s, o')) : Takes (x >>= f) k := by
  intro s o B N pos hs hsmall
  obtain ⟨hok, hfull⟩ := hx s o B N pos hs hsmall
  constructor
  · intro hfit
    obtain ⟨a, s', o', hrun, hat⟩ := hok hfit
    obtain ⟨c, o'', hrun'⟩ := hf a s' o'
    exact ⟨c, s', o'', (Proc.bind_run_some hrun).trans hrun', hat⟩
  · intro hlt
    obtain ⟨s', o', pos', hrun, hat⟩ := hfull hlt
    exact ⟨s', o', pos', Proc.bind_run_none hrun, hat⟩

theorem Takes.assert {p : Prop} [Decidable p] {x : ReadProc β τ α} {k : Nat} (hp : p)
    (hx : Takes x k) : Takes (do assert p; x) k := by
  intro s o B N pos hs hsmall
  have hrun : (do RudpNetwork.assert p; x : ReadProc β τ α) (s, o) = x (s, o) :=
    Proc.require_bind_run hp
  rw [hrun]
  exact hx s o B N pos hs hsmall

/-- What takes any bits is safe. -/
theorem Takes.safe {x : ReadProc β τ α} {k : Nat} (hx : Takes x k) : Safe x k := by
  intro s o B N pos hs hsmall
  obtain ⟨hok, hfull⟩ := hx s o B N pos hs hsmall
  by_cases hk : (pos + k : Int) ≤ N
  · obtain ⟨a, s', o', hrun, hat⟩ := hok hk
    exact ⟨_, s', o', pos + k, hrun, hat, le_refl _⟩
  · obtain ⟨s', o', pos', hrun, hat, hle⟩ := hfull (by omega)
    exact ⟨_, s', o', pos', hrun, hat, hle⟩

end Contracts

/-! ## the reading methods -/

/-- Bits that are there pass the check. -/
theorem checkOverflow_ok {s : ReadStream β} {B : List Bool} {N : Int} {pos : Nat}
    (hs : s.reader.At B N pos) {bits : Int} (h0 : 0 ≤ bits) (hfit : pos + bits ≤ N) :
    checkOverflow bits s = .ok (some (), s) := by
  have hint := hs.isInt32.2
  have hover := hs.wouldOverflow_eq h0 (by omega)
  rw [checkOverflow, hover, decide_eq_false (by omega)]
  rfl

/-- Bits that are not there set the error. -/
theorem checkOverflow_full {s : ReadStream β} {B : List Bool} {N : Int} {pos : Nat}
    (hs : s.reader.At B N pos) {bits : Int} (h0 : 0 ≤ bits) (hsmall : pos + bits < 2147483648)
    (hfull : N < pos + bits) :
    checkOverflow bits s = .ok (none, { s with error := .streamOverflow }) := by
  have hover := hs.wouldOverflow_eq h0 hsmall
  rw [checkOverflow, hover, decide_eq_true hfull]
  rfl

omit [Platform β] in
/-- What a check has done. -/
theorem checkOverflow_run_ok {s s' : ReadStream β} {bits : Int} {o : Option Unit}
    (h : checkOverflow bits s = .ok (o, s')) :
    (o = some () ∧ s' = s) ∨ (o = none ∧ s' = { s with error := .streamOverflow }) := by
  unfold checkOverflow at h
  split at h
  · obtain ⟨ho, hs⟩ := Prod.mk.inj (Except.ok.inj h)
    exact .inr ⟨ho.symm, hs.symm⟩
  · obtain ⟨ho, hs⟩ := Prod.mk.inj (Except.ok.inj h)
    exact .inl ⟨ho.symm, hs.symm⟩

omit [Platform β] in
theorem onReader_run {α : Type} {f : BitReader β → Except Fault (α × BitReader β)}
    {s : ReadStream β} {a : α} {r : BitReader β} (h : f s.reader = .ok (a, r)) :
    onReader f s = .ok (some a, { s with reader := r }) := by
  rw [onReader, h]
  rfl

omit [Platform β] in
/-- What a completed operation of the bit reader has done. -/
theorem onReader_run_ok {α : Type} {f : BitReader β → Except Fault (α × BitReader β)}
    {s s' : ReadStream β} {o : Option α} (h : onReader f s = .ok (o, s')) :
    ∃ a r, f s.reader = .ok (a, r) ∧ o = some a ∧ s' = { s with reader := r } := by
  cases hf : f s.reader with
  | error e => simp [onReader, hf, Except.map] at h
  | ok result =>
      obtain ⟨a, r⟩ := result
      obtain ⟨ho, hs⟩ := Prod.mk.inj (Except.ok.inj ((onReader_run hf).symm.trans h))
      exact ⟨a, r, rfl, ho.symm, hs.symm⟩

/-- The stream counts the bits that its reader has passed. -/
theorem At.counted {s : ReadStream β} {B : List Bool} {N : Int} {pos k : Nat} {r : BitReader β}
    (hs : s.At B N pos) (hr : r.At B N (pos + k)) (hfit : (pos + k : Int) ≤ N) :
    ({ s with reader := r, bitsRead := int32 (s.bitsRead + k) } : ReadStream β).At B N (pos + k) := by
  have hint := hs.reader.isInt32.2
  refine ⟨hr, ?_⟩
  change int32 (s.bitsRead + k) = _
  rw [hs.bitsRead, int32_eq ⟨by omega, by omega⟩]
  omega

/-- Bits that fit are read, also where the stream has lost count. -/
theorem takeBits_eq {s : ReadStream β} {B : List Bool} {N : Int} {pos : Nat}
    (hs : s.reader.At B N pos) {bits : Int} (h0 : 0 < bits) (h32 : bits ≤ 32)
    (hfit : pos + bits ≤ N) :
    ∃ value r, takeBits bits s =
        .ok (some value, { s with reader := r, bitsRead := int32 (s.bitsRead + bits) }) ∧
      value.toNat = Bits.toNat (Bits.slice B pos bits.toNat) ∧ r.At B N (pos + bits.toNat) := by
  obtain ⟨value, r, hread, hvalue, hr⟩ := BitReader.readBits_ok hs h0 h32 hfit
  refine ⟨value, r, ?_, hvalue, hr⟩
  have hrun := @onReader_run β _ (BitReader.readBits · bits) s value r hread
  calc takeBits bits s
      = (onReader (BitReader.readBits · bits) >>= fun value => do countBits bits; pure value) s :=
        Proc.bind_run_some (checkOverflow_ok hs (by omega) hfit)
    _ = (countBits bits >>= fun _ => pure value) { s with reader := r } :=
        Proc.bind_run_some hrun
    _ = .ok (some value, { s with reader := r, bitsRead := int32 (s.bitsRead + bits) }) := rfl

/-- Bits that are there are taken and counted. -/
theorem takeBits_ok {s : ReadStream β} {B : List Bool} {N : Int} {pos : Nat} (hs : s.At B N pos)
    {bits : Int} (h0 : 0 < bits) (h32 : bits ≤ 32) (hfit : pos + bits ≤ N) :
    ∃ value s', takeBits bits s = .ok (some value, s') ∧
      value.toNat = Bits.toNat (Bits.slice B pos bits.toNat) ∧
      s'.At B N (pos + bits.toNat) ∧ s.Same s' := by
  obtain ⟨value, r, hrun, hvalue, hr⟩ := takeBits_eq hs.reader h0 h32 hfit
  obtain ⟨k, rfl⟩ := Int.eq_ofNat_of_zero_le (show 0 ≤ bits by omega)
  exact ⟨value, _, hrun, hvalue, hs.counted hr (by omega), ⟨rfl, rfl⟩⟩

/-- Bits that are not there set the error, and nothing moves. -/
theorem takeBits_full {s : ReadStream β} {B : List Bool} {N : Int} {pos : Nat}
    (hs : s.reader.At B N pos) {bits : Int} (h0 : 0 < bits) (hsmall : pos + bits < 2147483648)
    (hfull : N < pos + bits) :
    takeBits bits s = .ok (none, { s with error := .streamOverflow }) :=
  Proc.bind_run_none (checkOverflow_full hs (by omega) hsmall hfull)

/-- What is taken has no more bits than were asked for. -/
theorem takeBits_lt {s s' : ReadStream β} {bits : Int} {value : U32}
    (h : takeBits bits s = .ok (some value, s')) : value.toNat < 2 ^ bits.toNat := by
  obtain ⟨_, s₁, -, h₁⟩ := Proc.bind_run_ok_some h
  obtain ⟨read, s₂, hread, h₂⟩ := Proc.bind_run_ok_some h₁
  obtain ⟨taken, r, hbits, hsame, -⟩ := onReader_run_ok hread
  obtain rfl := Option.some.inj hsame
  obtain rfl := Option.some.inj (Prod.mk.inj (Except.ok.inj h₂)).1
  exact BitReader.readBits_lt hbits

/-- `SerializeBits` of a width that it accepts. -/
theorem serializeBits_run {s : ReadStream β} {bits : Int} (h0 : 0 < bits) (h32 : bits ≤ 32) :
    serializeBits bits s = takeBits bits s :=
  (Proc.require_bind_run h0).trans (Proc.require_bind_run h32)

/-- `SerializeInteger` of a range, by what `takeBits` does. -/
theorem serializeInteger_run {s : ReadStream β} {min max : Int} (hmin : IsInt32 min)
    (hmax : IsInt32 max) (hlt : min < max) {b : Nat}
    (hb : bitsRequired (toU32 min) (toU32 max) = b) :
    serializeInteger min max s =
      (takeBits b >>= fun unsignedValue => pure (int32 (unsignedValue.toInt + min))) s := by
  have hbits := @Platform.bitsRequired_eq β _ (toU32 min) (toU32 max) (toU32_ne hmin hmax hlt)
  rw [serializeInteger, hbits, hb]
  exact Proc.require_bind_run hlt

theorem serializeBits_ok {s : ReadStream β} {B : List Bool} {N : Int} {pos : Nat}
    (hs : s.At B N pos) {bits : Int} (h0 : 0 < bits) (h32 : bits ≤ 32) (hfit : pos + bits ≤ N) :
    ∃ value s', serializeBits bits s = .ok (some value, s') ∧
      value.toNat = Bits.toNat (Bits.slice B pos bits.toNat) ∧
      s'.At B N (pos + bits.toNat) ∧ s.Same s' := by
  obtain ⟨value, s', hrun, hat⟩ := takeBits_ok hs h0 h32 hfit
  exact ⟨value, s', (serializeBits_run h0 h32).trans hrun, hat⟩

theorem serializeBits_full {s : ReadStream β} {B : List Bool} {N : Int} {pos : Nat}
    (hs : s.reader.At B N pos) {bits : Int} (h0 : 0 < bits) (h32 : bits ≤ 32)
    (hsmall : pos + bits < 2147483648) (hfull : N < pos + bits) :
    serializeBits bits s = .ok (none, { s with error := .streamOverflow }) :=
  (serializeBits_run h0 h32).trans (takeBits_full hs h0 hsmall hfull)

theorem serializeInteger_ok {s : ReadStream β} {B : List Bool} {N : Int} {pos : Nat}
    (hs : s.At B N pos) {min max : Int} (hmin : IsInt32 min) (hmax : IsInt32 max) (hlt : min < max)
    {b : Nat} (hb : bitsRequired (toU32 min) (toU32 max) = b) (hfit : pos + b ≤ N) :
    ∃ (unsignedValue : U32) (s' : ReadStream β), serializeInteger min max s =
        .ok (some (int32 (unsignedValue.toInt + min)), s') ∧
      unsignedValue.toNat = Bits.toNat (Bits.slice B pos b) ∧ s'.At B N (pos + b) ∧
      s.Same s' := by
  obtain ⟨b', hb', hb1, hb32, -, -⟩ := bitsRequired_bounds hmin hmax hlt
  obtain ⟨read, s', hrun, hvalue, hat, herr⟩ := @takeBits_ok β _ s B N pos hs b (by omega) (by omega)
    hfit
  refine ⟨read, s', ?_, hvalue, hat, herr⟩
  exact (serializeInteger_run hmin hmax hlt hb).trans (Proc.bind_run_some hrun)

theorem serializeInteger_full {s : ReadStream β} {B : List Bool} {N : Int} {pos : Nat}
    (hs : s.reader.At B N pos) {min max : Int} (hmin : IsInt32 min) (hmax : IsInt32 max)
    (hlt : min < max)
    {b : Nat} (hb : bitsRequired (toU32 min) (toU32 max) = b) (hsmall : pos + b < 2147483648)
    (hfull : N < pos + b) :
    serializeInteger min max s = .ok (none, { s with error := .streamOverflow }) := by
  obtain ⟨b', hb', hb1, hb32, -, -⟩ := bitsRequired_bounds hmin hmax hlt
  have hrun := @takeBits_full β _ s B N pos hs b (by omega) (by omega) hfull
  exact (serializeInteger_run hmin hmax hlt hb).trans (Proc.bind_run_none hrun)

/-- Any bits are read as the number they denote. -/
theorem reads_bits {τ : Type} {t : List Bool} (h0 : 0 < t.length) (h32 : t.length ≤ 32) (o : τ) :
    Reads c (onStream (serializeBits t.length) : ReadProc β τ U32) (.const t) o o
      (BitVec.ofNat 32 (Bits.toNat t)) := by
  apply Reads.onStream
  intro s B N pos hs hslice hfit
  obtain ⟨read, s', hrun, hvalue, hat, herr⟩ := @serializeBits_ok β _ s B N pos hs t.length
    (by omega) (by omega) hfit
  rw [Int.toNat_natCast, show Bits.slice B pos t.length = t from hslice] at hvalue
  have hread : read = BitVec.ofNat 32 (Bits.toNat t) := by
    rw [← hvalue, BitVec.ofNat_toNat, BitVec.setWidth_eq]
  exact ⟨s', by rw [hrun, hread], hat, herr⟩

/-- Bits come back reduced to the width they were written with. -/
theorem reads_serializeBits {τ : Type} (value : U32) {bits : Int} (h0 : 0 < bits) (h32 : bits ≤ 32)
    (o : τ) :
    Reads c (onStream (serializeBits bits) : ReadProc β τ U32)
      (.const (Bits.ofNat bits.toNat value.toNat)) o o
      (BitVec.ofNat 32 (value.toNat % 2 ^ bits.toNat)) := by
  have hr := @reads_bits β _ c τ (Bits.ofNat bits.toNat value.toNat)
    (by rw [Bits.length_ofNat]; omega) (by rw [Bits.length_ofNat]; omega) o
  rwa [Bits.length_ofNat, Bits.toNat_ofNat, Int.toNat_of_nonneg (by omega)] at hr

/-- `SerializeBits` takes any bits. -/
theorem takes_serializeBits {τ : Type} {bits : Nat} (h0 : 0 < bits) (h32 : bits ≤ 32) :
    Takes (onStream (serializeBits bits) : ReadProc β τ U32) bits := by
  intro s o B N pos hs hsmall
  constructor
  · intro hfit
    obtain ⟨value, s', hrun, -, hat, -⟩ := @serializeBits_ok β _ s B N pos hs bits (by omega)
      (by omega) hfit
    exact ⟨value, s', o, onStream_run hrun, hat⟩
  · intro hfull
    have hrun := @serializeBits_full β _ s B N pos hs.reader bits
      (by omega) (by omega) (by omega) hfull
    exact ⟨_, o, pos, onStream_run hrun, ⟨hs.reader, hs.bitsRead⟩, by omega⟩

/-- The bits of an offset are turned back into the integer, in the range or above
it; where the sum leaves the range of `int` on the way, the wrap undoes itself. -/
theorem reads_serializeInteger_bits {τ : Type} {value min max : Int} (hmin : IsInt32 min)
    (hmax : IsInt32 max) (hlt : min < max) (hint : IsInt32 value) (hlo : min ≤ value)
    (hbits : (value - min).toNat < 2 ^ (bitsRequired (toU32 min) (toU32 max)).toNat) (o : τ) :
    Reads c (onStream (serializeInteger min max) : ReadProc β τ Int)
      (.const (Bits.ofNat (bitsRequired (toU32 min) (toU32 max)).toNat (value - min).toNat))
      o o value := by
  apply Reads.onStream
  intro s B N pos hs hslice hfit
  obtain ⟨b, hb, -, -, -, -⟩ := bitsRequired_bounds hmin hmax hlt
  rw [hb, Int.toNat_natCast] at hbits
  rw [hb, Int.toNat_natCast, Enc.const, Bits.length_ofNat] at hslice hfit
  rw [hb, Int.toNat_natCast, Enc.const, Bits.length_ofNat]
  obtain ⟨read, s', hrun, hvalue, hat, herr⟩ := serializeInteger_ok hs hmin hmax hlt hb hfit
  rw [hslice, Bits.toNat_ofNat, Nat.mod_eq_of_lt hbits] at hvalue
  have hback : int32 (read.toInt + min) = value := by
    obtain ⟨hmin1, hmin2⟩ := hmin
    obtain ⟨hint1, hint2⟩ := hint
    rw [BitVec.toInt_eq_toNat_cond, hvalue]
    unfold int32
    split <;> omega
  exact ⟨s', by rw [hrun, hback], hat, herr⟩

/-- What was written is read back. -/
theorem reads_serializeInteger {τ : Type} {value min max : Int} (hmin : IsInt32 min)
    (hmax : IsInt32 max) (hlt : min < max) (hlo : min ≤ value) (hhi : value ≤ max) (o : τ) :
    Reads c (onStream (serializeInteger min max) : ReadProc β τ Int)
      (.const (Bits.ofNat (bitsRequired (toU32 min) (toU32 max)).toNat (value - min).toNat))
      o o value := by
  obtain ⟨b, hb, -, -, hrange, -⟩ := bitsRequired_bounds hmin hmax hlt
  have hoffset : (value - min).toNat < 2 ^ b := by
    have hcast : ((value - min).toNat : Int) < ((2 ^ b : Nat) : Int) := by
      push_cast
      omega
    exact Int.ofNat_lt.mp hcast
  have hint : IsInt32 value := ⟨le_trans hmin.1 hlo, le_trans hhi hmax.2⟩
  exact reads_serializeInteger_bits hmin hmax hlt hint hlo (by rwa [hb, Int.toNat_natCast]) o

/-- `SerializeInteger` takes any bits. -/
theorem takes_serializeInteger {τ : Type} {min max : Int} (hmin : IsInt32 min)
    (hmax : IsInt32 max) (hlt : min < max) :
    Takes (onStream (serializeInteger min max) : ReadProc β τ Int)
      (bitsRequired (toU32 min) (toU32 max)).toNat := by
  intro s o B N pos hs hsmall
  obtain ⟨b, hb, -, -, -, -⟩ := bitsRequired_bounds hmin hmax hlt
  rw [hb, Int.toNat_natCast] at hsmall ⊢
  constructor
  · intro hfit
    obtain ⟨_, s', hrun, -, hat, -⟩ := serializeInteger_ok hs hmin hmax hlt hb hfit
    exact ⟨_, s', o, onStream_run hrun, hat⟩
  · intro hfull
    have hrun := serializeInteger_full hs.reader hmin hmax hlt hb (by omega) hfull
    exact ⟨_, o, pos, onStream_run hrun, ⟨hs.reader, hs.bitsRead⟩, by omega⟩

/-- Whatever the stream makes of its position, an integer in a range from zero up
comes out non-negative and no wider than its field. -/
theorem serializeInteger_bounds {s s' : ReadStream β} {max : Int} (hmax : IsInt32 max)
    (hpos : 0 < max) {b : Nat} (hb : bitsRequired (toU32 0) (toU32 max) = b) {value : Int}
    (h : serializeInteger 0 max s = .ok (some value, s')) : 0 ≤ value ∧ value < 2 ^ b := by
  have hmin : IsInt32 0 := ⟨by decide, by decide⟩
  obtain ⟨b', hb', -, hb32, -, hlow⟩ := bitsRequired_bounds hmin hmax hpos
  obtain rfl : b' = b := Int.ofNat_inj.mp (hb'.symm.trans hb)
  have hrun := (serializeInteger_run hmin hmax hpos hb').symm.trans h
  obtain ⟨read, s₁, hread, hvalue⟩ := Proc.bind_run_ok_some hrun
  have hlt := takeBits_lt hread
  rw [Int.toNat_natCast] at hlt
  have hb31 : b' ≤ 31 := by
    by_contra hgt
    obtain rfl : b' = 32 := by omega
    obtain ⟨-, hmax2⟩ := hmax
    norm_num at hlow
    omega
  have hpow : 2 ^ b' ≤ 2 ^ 31 := Nat.pow_le_pow_right (by decide) hb31
  have hcast : (read.toNat : Int) < ((2 ^ b' : Nat) : Int) := Int.ofNat_lt.mpr hlt
  push_cast at hcast
  obtain rfl := Option.some.inj (Prod.mk.inj (Except.ok.inj hvalue)).1
  rw [BitVec.toInt_eq_toNat_cond, if_pos (by omega), int32_eq ⟨by omega, by omega⟩]
  omega

/-- A `SerializeAlign` that fits takes the padding, and counts it when it is zero. -/
theorem serializeAlign_eq {s : ReadStream β} {B : List Bool} {N : Int} {pos : Nat}
    (hs : s.reader.At B N pos) (hfit : (pos + ((8 - pos % 8) % 8 : Nat) : Int) ≤ N) :
    ∃ r, r.At B N (pos + (8 - pos % 8) % 8) ∧
      serializeAlign s = .ok (if Bits.toNat (Bits.slice B pos ((8 - pos % 8) % 8)) = 0 then
        (some (), { s with reader := r, bitsRead := int32 (s.bitsRead + ((8 - pos % 8) % 8 : Nat)) })
        else (none, { s with reader := r })) := by
  obtain ⟨r, hread, hr⟩ := BitReader.readAlign_ok hs (by push_cast; omega)
  have halign := hs.getAlignBits_eq
  have hget : (Proc.get : Proc Fault (ReadStream β) (ReadStream β)) s = .ok (some s, s) := rfl
  refine ⟨r, hr, ?_⟩
  rw [serializeAlign]
  refine (Proc.bind_run_some hget).trans ?_
  rw [halign]
  refine (Proc.bind_run_some (checkOverflow_ok hs (by omega) hfit)).trans ?_
  refine (Proc.bind_run_some (onReader_run hread)).trans ?_
  by_cases hzero : Bits.toNat (Bits.slice B pos ((8 - pos % 8) % 8)) = 0
  · simp only [hzero, beq_self_eq_true, if_true]
    rfl
  · simp only [hzero, beq_eq_false_iff_ne.mpr hzero, if_false, Bool.false_eq_true]
    rfl

theorem serializeAlign_full {s : ReadStream β} {B : List Bool} {N : Int} {pos : Nat}
    (hs : s.reader.At B N pos) (hsmall : (pos + ((8 - pos % 8) % 8 : Nat) : Int) < 2147483648)
    (hfull : N < (pos + ((8 - pos % 8) % 8 : Nat) : Int)) :
    serializeAlign s = .ok (none, { s with error := .streamOverflow }) := by
  have hget : (Proc.get : Proc Fault (ReadStream β) (ReadStream β)) s = .ok (some s, s) := rfl
  rw [serializeAlign]
  refine (Proc.bind_run_some hget).trans ?_
  rw [hs.getAlignBits_eq]
  exact Proc.bind_run_none (checkOverflow_full hs (by omega) hsmall hfull)

/-- A `SerializeAlign` that finds the zeros it expects. -/
theorem serializeAlign_ok {s : ReadStream β} {B : List Bool} {N : Int} {pos : Nat}
    (hs : s.At B N pos)
    (hslice : Bits.slice B pos ((8 - pos % 8) % 8) = Bits.padding pos)
    (hfit : (pos + ((8 - pos % 8) % 8 : Nat) : Int) ≤ N) :
    ∃ s', serializeAlign s = .ok (some (), s') ∧ s'.At B N (pos + (8 - pos % 8) % 8) ∧
      s.Same s' := by
  obtain ⟨r, hr, hrun⟩ := serializeAlign_eq hs.reader hfit
  have hzero : Bits.toNat (Bits.slice B pos ((8 - pos % 8) % 8)) = 0 := by
    rw [hslice, Bits.padding, Bits.toNat_replicate_false]
  rw [if_pos hzero] at hrun
  exact ⟨_, hrun, hs.counted hr (by push_cast; exact hfit), ⟨rfl, rfl⟩⟩

/-- `SerializeAlign` passes over zeros up to the next byte. -/
theorem reads_serializeAlign {τ : Type} (o : τ) :
    Reads c (onStream serializeAlign : ReadProc β τ Unit) .align o o () := by
  apply Reads.onStream
  intro s B N pos hs hslice hfit
  rw [Enc.align, Bits.length_padding] at hslice hfit ⊢
  exact serializeAlign_ok hs hslice hfit

/-- After the alignment, bytes that fit are stored at the start of `data`. -/
theorem serializeBytes_ok {s s₁ : ReadStream β} {B : List Bool} {N : Int} {pos : Nat}
    {data : List U8} {bytes : Int} (halign : serializeAlign s = .ok (some (), s₁))
    (hs : s₁.reader.At B N pos) (h8 : pos % 8 = 0) (h0 : 0 ≤ bytes) (hfit : pos + 8 * bytes ≤ N)
    (hdata : bytes ≤ data.length) :
    ∃ xs r, serializeBytes data bytes s = .ok (some (Bits.splice data 0 xs),
        { s₁ with reader := r, bitsRead := int32 (s₁.bitsRead + 8 * bytes) }) ∧
      Bits.ofList xs = Bits.slice B pos (8 * bytes.toNat) ∧ xs.length = bytes.toNat ∧
      r.At B N (pos + 8 * bytes.toNat) := by
  have hint := hs.isInt32.2
  have hbits : int32 (bytes * 8) = 8 * bytes := by
    rw [int32_eq ⟨by omega, by omega⟩, Int.mul_comm]
  obtain ⟨xs, r, hread, hxs, hlen, hr⟩ := BitReader.readBytes_ok hs h8 h0 hfit hdata
  refine ⟨xs, r, ?_, hxs, hlen, hr⟩
  rw [serializeBytes, hbits]
  refine (Proc.bind_run_some halign).trans ?_
  refine (Proc.bind_run_some (checkOverflow_ok hs (by omega) hfit)).trans ?_
  exact Proc.bind_run_some (@onReader_run β _ (BitReader.readBytes · data bytes) s₁ _ r hread)

theorem serializeBytes_full {s s₁ : ReadStream β} {B : List Bool} {N : Int} {pos : Nat}
    {data : List U8} {bytes : Int} (halign : serializeAlign s = .ok (some (), s₁))
    (hs : s₁.reader.At B N pos) (h0 : 0 ≤ bytes) (hsmall : pos + 8 * bytes < 2147483648)
    (hfull : N < pos + 8 * bytes) :
    serializeBytes data bytes s = .ok (none, { s₁ with error := .streamOverflow }) := by
  have hbits : int32 (bytes * 8) = 8 * bytes := by
    rw [int32_eq ⟨by omega, by omega⟩, Int.mul_comm]
  rw [serializeBytes, hbits]
  refine (Proc.bind_run_some halign).trans ?_
  exact Proc.bind_run_none (checkOverflow_full hs (by omega) hsmall hfull)

/-- The bytes are stored at the start of `data`. -/
theorem reads_serializeBytes {τ : Type} {data xs : List U8} (o : τ) (hlen : xs.length ≤ data.length) :
    Reads c (onStream (serializeBytes data xs.length) : ReadProc β τ (List U8))
      (.align ++ .const (Bits.ofList xs)) o o (Bits.splice data 0 xs) := by
  apply Reads.onStream
  intro s B N pos hs hslice hfit
  rw [Enc.length_append, Enc.align, Enc.const, Bits.length_padding, Bits.length_ofList] at hfit ⊢
  obtain ⟨hzeros, hbytes⟩ := Bits.slice_eq_append hslice
  rw [Enc.align, Bits.length_padding] at hzeros
  rw [Enc.align, Enc.const, Bits.length_padding, Bits.length_ofList] at hbytes
  -- the alignment
  obtain ⟨s₁, halign, hat, hsame⟩ := serializeAlign_ok hs hzeros (by push_cast at hfit ⊢; omega)
  -- the bytes
  obtain ⟨ys, r, hrun, hys, -, hr⟩ := @serializeBytes_ok β _ s s₁ B N _ data xs.length halign
    hat.reader (by omega) (by omega) (by omega) (by omega)
  rw [Int.toNat_natCast, hbytes] at hys
  obtain rfl : ys = xs := Bits.ofList_inj (by decide) hys
  rw [Int.toNat_natCast] at hr
  refine ⟨_, hrun, ?_, hsame.trans ⟨rfl, rfl⟩⟩
  rw [← Nat.add_assoc]
  exact hat.counted hr (by push_cast; omega)

/-- A stream over the first `bytes` bytes of a buffer that is rounded up to
words. -/
theorem init_at (buffer : β) {bytes : Int} (h0 : 0 ≤ bytes) (hint : bytes < 2147483648)
    (hcover : 32 * ((bytes + 3) / 4) ≤ (Platform.bits buffer).length) :
    (init buffer bytes).At (Platform.bits buffer) (int32 (bytes * 8)) 0 :=
  ⟨BitReader.init_at buffer h0 hint hcover, rfl⟩

end ReadStream

end RudpNetwork
