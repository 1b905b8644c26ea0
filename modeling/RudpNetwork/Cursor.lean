import RudpNetwork.Lib.Run
import RudpNetwork.Stream

/-!
# RudpNetwork.Cursor

What a `ReadStream` is for: a cursor over the bits of a datagram.

A `Cursor` knows the bits that may be read, and nothing of the words around them
or of a scratch register.  `perform_follows` says that every operation of the
stream does what the same operation of the cursor does, from any state that the
stream can be left in, also after an operation has failed.  Two things follow at
once where no position leaves the range of `int` (`Fits`): what stands behind the data
cannot be seen, and a run does not leave the buffer or the invariant of the reader.

## Main results

* `perform_follows` — the stream does what the cursor does.
* `staleBytesUnseen` — buffers that agree on the data give every caller the same.
* `run_sound` — a run stops at no assertion and keeps the invariant of the reader.
* `not_staleBytesUnseen`, `not_run_sound` — both fail at the end of the range of `int`.
-/

namespace RudpNetwork

open MachineInt

/-- A call of a method of `ReadStream`. -/
inductive ReadOp
  | serializeInteger (min max : Int)
  | serializeBits (bits : Int)
  | serializeBytes (data : List U8) (bytes : Int)
  | serializeAlign

/-- What a call that returns `true` stores. -/
inductive Output
  | integer (value : Int)
  | bits (value : U32)
  | bytes (data : List U8)
  | align
  deriving DecidableEq

/-- What a caller can see after a call. -/
structure Observation where
  output : Option Output
  error : ProtocolError
  bitsProcessed : Int
  bitsRemaining : Int
  bytesProcessed : Int
  alignBits : Int
  deriving DecidableEq

namespace ReadOp

/-- The arguments that a caller may pass: a range, a width, an array with room for
the bytes. -/
def Valid : ReadOp → Prop
  | serializeInteger min max => IsInt32 min ∧ IsInt32 max ∧ min < max
  | serializeBits bits => 0 < bits ∧ bits ≤ 32
  | serializeBytes data bytes => 0 ≤ bytes ∧ bytes ≤ data.length
  | serializeAlign => True

end ReadOp

/-! ## the cursor -/

/-- A position in the bits that may be read. `limit` is their number, where it is
not negative, and a whole number of bytes; `counted` is what the stream reports of
the position. -/
structure Cursor where
  bits : List Bool
  limit : Int
  pos : Nat
  counted : Int
  error : ProtocolError
  limit_emod : limit % 8 = 0
  pos_le : pos ≤ limit.toNat

namespace Cursor

/-- The start of a string of bits, of which `limit` may be read. -/
def start (bits : List Bool) (limit : Int) (h : limit % 8 = 0) : Cursor where
  bits := bits.take limit.toNat
  limit := limit
  pos := 0
  counted := 0
  error := .none
  limit_emod := h
  pos_le := Nat.zero_le _

def pass (c : Cursor) (k : Nat) (h : ¬c.limit < c.pos + k) : Cursor :=
  { c with pos := c.pos + k, pos_le := by omega }

def count (c : Cursor) (k : Nat) : Cursor := { c with counted := int32 (c.counted + k) }

def overflow (c : Cursor) : Cursor := { c with error := .streamOverflow }

/-- The next `k` bits. -/
def next (c : Cursor) (k : Nat) : List Bool := Bits.slice c.bits c.pos k

/-- The bits up to the next byte. -/
def alignBits (c : Cursor) : Nat := (8 - c.pos % 8) % 8

def takeBits (c : Cursor) (k : Nat) : Option U32 × Cursor :=
  if h : c.limit < c.pos + k then (none, c.overflow)
  else (some (BitVec.ofNat 32 (Bits.toNat (c.next k))), (c.pass k h).count k)

/-- Padding that is not zero is passed, but not counted. -/
def takeAlign (c : Cursor) : Option Unit × Cursor :=
  if h : c.limit < c.pos + c.alignBits then (none, c.overflow)
  else if Bits.toNat (c.next c.alignBits) = 0 then
    (some (), (c.pass c.alignBits h).count c.alignBits)
  else (none, c.pass c.alignBits h)

def takeBytes (c : Cursor) (data : List U8) (bytes : Nat) : Option (List U8) × Cursor :=
  if h : c.limit < c.pos + (8 * bytes : Nat) then (none, c.overflow)
  else (some (Bits.splice data 0 (Bits.pack (c.next (8 * bytes)))),
    (c.pass (8 * bytes) h).count (8 * bytes))

def perform (c : Cursor) : ReadOp → Option Output × Cursor
  | .serializeInteger min max =>
      let (value, c') := c.takeBits (bitsRequired (toU32 min) (toU32 max)).toNat
      (value.map fun unsignedValue => .integer (int32 (unsignedValue.toInt + min)), c')
  | .serializeBits bits =>
      let (value, c') := c.takeBits bits.toNat
      (value.map .bits, c')
  | .serializeBytes data bytes =>
      match c.takeAlign with
      | (none, c') => (none, c')
      | (some (), c') =>
          let (data, c'') := c'.takeBytes data bytes.toNat
          (data.map .bytes, c'')
  | .serializeAlign =>
      let (zeros, c') := c.takeAlign
      (zeros.map fun _ => .align, c')

/-- Where the call looks for the end of what it reads, the position is an `int`. -/
def Fits (c : Cursor) : ReadOp → Prop
  | .serializeInteger min max => c.pos + bitsRequired (toU32 min) (toU32 max) < 2147483648
  | .serializeBits bits => c.pos + bits < 2147483648
  | .serializeBytes _ bytes =>
      c.takeAlign.1 = some () → c.takeAlign.2.pos + 8 * bytes < 2147483648
  | .serializeAlign => True

/-- An alignment that succeeds ends at a byte. -/
theorem takeAlign_aligned {c : Cursor} (h : c.takeAlign.1 = some ()) :
    c.takeAlign.2.pos % 8 = 0 := by
  have hend : (c.pos + c.alignBits) % 8 = 0 := by
    rw [alignBits]
    omega
  unfold takeAlign at h ⊢
  split at h
  · contradiction
  · split at h
    · next hfit hzero =>
        rw [dif_neg hfit, if_pos hzero]
        exact hend
    · contradiction

/-- The limit does not move. -/
theorem limit_takeBits (c : Cursor) (k : Nat) : (c.takeBits k).2.limit = c.limit := by
  unfold takeBits
  split <;> rfl

theorem limit_takeAlign (c : Cursor) : c.takeAlign.2.limit = c.limit := by
  unfold takeAlign
  split
  · rfl
  · split <;> rfl

theorem limit_takeBytes (c : Cursor) (data : List U8) (bytes : Nat) :
    (c.takeBytes data bytes).2.limit = c.limit := by
  unfold takeBytes
  split <;> rfl

/-- Every operation keeps the limit. -/
theorem limit_perform (c : Cursor) (op : ReadOp) : (c.perform op).2.limit = c.limit := by
  cases op with
  | serializeInteger min max => exact limit_takeBits c _
  | serializeBits bits => exact limit_takeBits c _
  | serializeBytes data bytes =>
      have halign := limit_takeAlign c
      simp only [perform]
      split
      · next htake => rwa [htake] at halign
      · next htake =>
          rw [htake] at halign
          exact (limit_takeBytes _ data _).trans halign
  | serializeAlign => exact limit_takeAlign c

end Cursor

namespace ReadStream

variable {β : Type} [Platform β]

/-! ## a stream and a cursor -/

/-- The call, with what it stores. -/
def perform : ReadOp → Proc Fault (ReadStream β) Output
  | .serializeInteger min max => do
      let value ← serializeInteger min max
      return .integer value
  | .serializeBits bits => do
      let value ← serializeBits bits
      return .bits value
  | .serializeBytes data bytes => do
      let data ← serializeBytes data bytes
      return .bytes data
  | .serializeAlign => do
      serializeAlign
      return .align

/-- Where the call looks for the end of what it reads, the position is an `int`:
of bytes, behind an alignment that succeeds. -/
def Fits (s : ReadStream β) : ReadOp → Prop
  | .serializeInteger min max =>
      s.reader.bitsRead + bitsRequired (toU32 min) (toU32 max) < 2147483648
  | .serializeBits bits => s.reader.bitsRead + bits < 2147483648
  | .serializeBytes _ bytes =>
      ∀ s', serializeAlign s = .ok (some (), s') → s'.reader.bitsRead + 8 * bytes < 2147483648
  | .serializeAlign => True

/-- The stream `s` stands where the cursor `c` does. -/
structure Follows (s : ReadStream β) (c : Cursor) : Prop where
  reader : ∃ B, s.reader.At B c.limit c.pos ∧ B.take c.limit.toNat = c.bits
  bitsRead : s.bitsRead = c.counted
  error : s.error = c.error

/-- What the cursor has next are the bits at the position of the reader. -/
theorem next_eq {c : Cursor} {B : List Bool} (hbits : B.take c.limit.toNat = c.bits) {k : Nat}
    (hfit : (c.pos + k : Int) ≤ c.limit) : c.next k = Bits.slice B c.pos k := by
  rw [Cursor.next, ← hbits, Bits.slice_take _ (by omega)]

/-- The error code is not part of the position. -/
theorem Follows.overflow {s : ReadStream β} {c : Cursor} (h : s.Follows c) :
    Follows { s with error := .streamOverflow } c.overflow :=
  ⟨h.reader, h.bitsRead, rfl⟩

/-- Neither is the count of the stream. -/
theorem Follows.count {s : ReadStream β} {c : Cursor} (h : s.Follows c) (k : Nat) :
    Follows { s with bitsRead := int32 (s.bitsRead + k) } (c.count k) := by
  refine ⟨h.reader, ?_, h.error⟩
  change int32 (s.bitsRead + k) = int32 (c.counted + k)
  rw [h.bitsRead]

/-- Bits are read in both or in neither. -/
theorem Follows.takeBits {s : ReadStream β} {c : Cursor} (h : s.Follows c) {bits : Nat}
    (h0 : 0 < bits) (h32 : bits ≤ 32) (hsmall : c.pos + bits < 2147483648) :
    ∃ s', takeBits bits s = .ok ((c.takeBits bits).1, s') ∧ s'.Follows (c.takeBits bits).2 := by
  obtain ⟨B, hat, hbits⟩ := h.reader
  by_cases hfull : c.limit < c.pos + bits
  · rw [Cursor.takeBits, dif_pos hfull]
    exact ⟨_, takeBits_full hat (by omega) (by omega) hfull, h.overflow⟩
  · obtain ⟨value, r, hrun, hvalue, hr⟩ := @takeBits_eq β _ s B c.limit c.pos hat bits (by omega)
      (by omega) (by omega)
    rw [Int.toNat_natCast] at hvalue hr
    have hread : value = BitVec.ofNat 32 (Bits.toNat (c.next bits)) := by
      rw [next_eq hbits (by omega), ← hvalue, BitVec.ofNat_toNat, BitVec.setWidth_eq]
    have hpass : Follows { s with reader := r } (c.pass bits hfull) :=
      ⟨⟨B, hr, hbits⟩, h.bitsRead, h.error⟩
    rw [Cursor.takeBits, dif_neg hfull, ← hread]
    exact ⟨_, hrun, hpass.count bits⟩

/-- `SerializeAlign` on the stream and on the cursor. -/
theorem Follows.serializeAlign {s : ReadStream β} {c : Cursor} (h : s.Follows c) :
    ∃ s', serializeAlign s = .ok (c.takeAlign.1, s') ∧ s'.Follows c.takeAlign.2 := by
  obtain ⟨B, hat, hbits⟩ := h.reader
  have hpos := c.pos_le
  have hlimit := c.limit_emod
  have hint := hat.isInt32.2
  have hsmall : (c.pos + c.alignBits : Int) < 2147483648 := by
    rw [Cursor.alignBits]
    omega
  by_cases hfull : c.limit < c.pos + c.alignBits
  · rw [Cursor.takeAlign, dif_pos hfull]
    exact ⟨_, serializeAlign_full hat hsmall hfull, h.overflow⟩
  · have hfit : (c.pos + c.alignBits : Int) ≤ c.limit := by omega
    obtain ⟨r, hr, hrun⟩ := serializeAlign_eq hat hfit
    have hpass : Follows { s with reader := r } (c.pass c.alignBits hfull) :=
      ⟨⟨B, hr, hbits⟩, h.bitsRead, h.error⟩
    rw [Cursor.takeAlign, dif_neg hfull, next_eq hbits hfit, hrun]
    by_cases hzero : Bits.toNat (Bits.slice B c.pos c.alignBits) = 0
    · have hzero' : Bits.toNat (Bits.slice B c.pos ((8 - c.pos % 8) % 8)) = 0 := hzero
      rw [if_pos hzero, if_pos hzero']
      exact ⟨_, rfl, hpass.count c.alignBits⟩
    · have hzero' : ¬Bits.toNat (Bits.slice B c.pos ((8 - c.pos % 8) % 8)) = 0 := hzero
      rw [if_neg hzero, if_neg hzero']
      exact ⟨_, rfl, hpass⟩

/-- Whether an operation fits can be read off the cursor. -/
theorem Follows.fits_iff {s : ReadStream β} {c : Cursor} (h : s.Follows c) (op : ReadOp) :
    s.Fits op ↔ c.Fits op := by
  obtain ⟨B, hat, -⟩ := h.reader
  cases op with
  | serializeInteger min max => rw [Fits, Cursor.Fits, hat.bitsRead]
  | serializeBits bits => rw [Fits, Cursor.Fits, hat.bitsRead]
  | serializeBytes data bytes =>
      obtain ⟨s₁, halign, h₁⟩ := h.serializeAlign
      obtain ⟨B₁, hat₁, -⟩ := h₁.reader
      constructor
      · intro hfits hzero
        rw [hzero] at halign
        rw [← hat₁.bitsRead]
        exact hfits s₁ halign
      · intro hfits s' hs'
        obtain ⟨hzero, rfl⟩ := Prod.mk.inj (Except.ok.inj (halign.symm.trans hs'))
        rw [hat₁.bitsRead]
        exact hfits hzero
  | serializeAlign => rfl

/-- `SerializeBytes` is an alignment and, behind it, the bytes. -/
theorem Follows.serializeBytes {s : ReadStream β} {c : Cursor} (h : s.Follows c) {data : List U8}
    {bytes : Int} (h0 : 0 ≤ bytes) (hdata : bytes ≤ data.length)
    (hfits : c.Fits (.serializeBytes data bytes)) :
    ∃ s', perform (.serializeBytes data bytes) s =
        .ok ((c.perform (.serializeBytes data bytes)).1, s') ∧
      s'.Follows (c.perform (.serializeBytes data bytes)).2 := by
  obtain ⟨s₁, halign, h₁⟩ := h.serializeAlign
  have hsmall : c.takeAlign.1 = some () → c.takeAlign.2.pos + 8 * bytes < 2147483648 := hfits
  have h8 := @Cursor.takeAlign_aligned c
  rcases htake : c.takeAlign with ⟨_ | _, c₁⟩
  · rw [htake] at halign h₁
    simp only [perform, Cursor.perform, htake]
    exact ⟨s₁, Proc.bind_run_none (Proc.bind_run_none halign), h₁⟩
  · rw [htake] at halign h₁ hsmall h8
    replace h₁ : s₁.Follows c₁ := h₁
    obtain ⟨B, hat, hbits⟩ := h₁.reader
    obtain ⟨n, rfl⟩ := Int.eq_ofNat_of_zero_le h0
    have hend : c₁.pos + 8 * (n : Int) < 2147483648 := hsmall rfl
    simp only [perform, Cursor.perform, htake, Int.toNat_natCast]
    by_cases hfull : c₁.limit < c₁.pos + (8 * n : Nat)
    · rw [Cursor.takeBytes, dif_pos hfull]
      have hrun := @serializeBytes_full β _ s s₁ B c₁.limit c₁.pos data n halign hat h0 hend
        (by omega)
      exact ⟨_, Proc.bind_run_none hrun, h₁.overflow⟩
    · obtain ⟨xs, r, hrun, hxs, -, hr⟩ := @serializeBytes_ok β _ s s₁ B c₁.limit c₁.pos data n
        halign hat (h8 rfl) h0 (by omega) hdata
      rw [Int.toNat_natCast] at hxs hr
      have hpack : Bits.pack (c₁.next (8 * n)) = xs := by
        rw [next_eq hbits (by omega), ← hxs, Bits.pack_ofList]
      have hpass : Follows { s₁ with reader := r } (c₁.pass (8 * n) hfull) :=
        ⟨⟨B, hr, hbits⟩, h₁.bitsRead, h₁.error⟩
      rw [Cursor.takeBytes, dif_neg hfull, hpack]
      exact ⟨_, Proc.bind_run_some hrun, hpass.count (8 * n)⟩

/-- Every operation does to the stream what it does to the cursor. -/
theorem perform_follows {s : ReadStream β} {c : Cursor} (h : s.Follows c) {op : ReadOp}
    (hvalid : op.Valid) (hfits : c.Fits op) :
    ∃ s', perform op s = .ok ((c.perform op).1, s') ∧ s'.Follows (c.perform op).2 := by
  cases op with
  | serializeInteger min max =>
      obtain ⟨hmin, hmax, hlt⟩ := hvalid
      obtain ⟨b, hb, hb1, hb32, -, -⟩ := bitsRequired_bounds hmin hmax hlt
      rw [Cursor.Fits, hb] at hfits
      obtain ⟨s', hrun, h'⟩ := h.takeBits hb1 hb32 (by omega)
      have hint : serializeInteger min max s =
          .ok ((c.takeBits b).1.map fun value => int32 (value.toInt + min), s') :=
        (serializeInteger_run hmin hmax hlt hb).trans
          (Proc.bind_pure_run (fun value : U32 => int32 (value.toInt + min)) hrun)
      have hmap := Proc.bind_pure_run Output.integer hint
      rw [Option.map_map] at hmap
      simp only [Cursor.perform, hb, Int.toNat_natCast]
      exact ⟨s', hmap, h'⟩
  | serializeBits bits =>
      obtain ⟨h0, h32⟩ := hvalid
      obtain ⟨b, rfl⟩ := Int.eq_ofNat_of_zero_le (show 0 ≤ bits by omega)
      rw [Cursor.Fits] at hfits
      obtain ⟨s', hrun, h'⟩ := @Follows.takeBits β _ s c h b (by omega) (by omega) (by omega)
      have hread : serializeBits b s = .ok ((c.takeBits b).1, s') :=
        (serializeBits_run h0 h32).trans hrun
      simp only [Cursor.perform, Int.toNat_natCast]
      exact ⟨s', Proc.bind_pure_run Output.bits hread, h'⟩
  | serializeBytes data bytes => exact h.serializeBytes hvalid.1 hvalid.2 hfits
  | serializeAlign =>
      obtain ⟨s', hrun, h'⟩ := h.serializeAlign
      exact ⟨s', Proc.bind_pure_run (fun _ => Output.align) hrun, h'⟩

/-! ## runs -/

/-- A caller that goes on after failures, and what it has seen. -/
structure Client (β : Type) where
  stream : ReadStream β
  log : List Observation

def observe (output : Option Output) (s : ReadStream β) : Observation where
  output := output
  error := s.error
  bitsProcessed := s.getBitsProcessed
  bitsRemaining := s.getBitsRemaining
  bytesProcessed := s.getBytesProcessed
  alignBits := s.reader.getAlignBits

def step (client : Client β) (op : ReadOp) : Except Fault (Client β) := do
  let (output, stream) ← perform op client.stream
  return { stream, log := client.log ++ [observe output stream] }

/-- A caller with a new stream. -/
def start (buffer : β) (bytes : Int) : Client β := { stream := init buffer bytes, log := [] }

/-- Valid arguments, and no overflow of a number of bits. -/
def Allowed (client : Client β) (op : ReadOp) : Prop := op.Valid ∧ client.stream.Fits op

/-- The limit of a new stream is a whole number of bytes, wrapped or not. -/
theorem int32_bytes_emod (bytes : Int) : int32 (bytes * 8) % 8 = 0 := by
  unfold int32
  omega

/-- A new stream stands at the start of its data. -/
theorem init_follows (buffer : β) {bytes : Int} (h0 : 0 ≤ bytes) (hint : bytes < 2147483648)
    (hcover : 32 * ((bytes + 3) / 4) ≤ (Platform.bits buffer).length) :
    (init buffer bytes).Follows
      (.start (Platform.bits buffer) (int32 (bytes * 8)) (int32_bytes_emod bytes)) :=
  ⟨⟨_, (init_at buffer h0 hint hcover).reader, rfl⟩, rfl, rfl⟩

/-- Bytes that end far below the range of `int`, wherever in the first `n` bytes
they start. -/
def Modest (n : Nat) : ReadOp → Prop
  | .serializeBytes _ bytes => n + bytes < 268435456
  | _ => True

/-- In all but the largest buffers only the length of bytes can overflow. -/
theorem Modest.fits {c : Cursor} {n : Nat} (hn : n + 4 < 268435456) (hlimit : c.limit ≤ 8 * n)
    {op : ReadOp} (hvalid : op.Valid) (hop : Modest n op) : c.Fits op := by
  have hpos := c.pos_le
  cases op with
  | serializeInteger min max =>
      obtain ⟨b, hb, -, hb32, -, -⟩ := bitsRequired_bounds hvalid.1 hvalid.2.1 hvalid.2.2
      rw [Cursor.Fits, hb]
      omega
  | serializeBits bits =>
      obtain ⟨-, h32⟩ := hvalid
      rw [Cursor.Fits]
      omega
  | serializeBytes data bytes =>
      intro _
      have hend := c.takeAlign.2.pos_le
      rw [Cursor.limit_takeAlign] at hend
      have hsum : (n : Int) + bytes < 268435456 := hop
      omega
  | serializeAlign => trivial

/-- Requests that are small beside an `int` fit wherever the stream stands. -/
theorem Follows.fits_of_modest {s : ReadStream β} {c : Cursor} (h : s.Follows c) {n : Nat}
    (hn : n + 4 < 268435456) (hlimit : c.limit ≤ 8 * n) {op : ReadOp} (hvalid : op.Valid)
    (hop : Modest n op) : s.Fits op :=
  (h.fits_iff op).mpr (hop.fits hn hlimit hvalid)

/-- A caller sees of a stream what the cursor knows. -/
theorem observe_eq {s : ReadStream β} {c : Cursor} (h : s.Follows c) (output : Option Output) :
    observe output s =
      { output, error := c.error, bitsProcessed := c.counted, bitsRemaining := int32 (c.limit - c.pos),
        bytesProcessed := (int32 (c.counted + 7)).tdiv 8, alignBits := c.alignBits } := by
  obtain ⟨B, hat, -⟩ := h.reader
  have halign : s.reader.getAlignBits = (c.alignBits : Int) := hat.getAlignBits_eq
  simp only [observe, getBitsProcessed, getBitsRemaining, getBytesProcessed,
    BitReader.getBitsRemaining, h.bitsRead, h.error, hat.bitsRead, hat.numBits, halign]

/-- The step lemma: an allowed operation completes, and its observation is that of the cursor. -/
theorem step_follows {client : Client β} {c : Cursor} (h : client.stream.Follows c) {op : ReadOp}
    (hop : Allowed client op) :
    ∃ client', step client op = .ok client' ∧ client'.stream.Follows (c.perform op).2 ∧
      client'.log = client.log ++ [observe (c.perform op).1 client'.stream] := by
  obtain ⟨s', hrun, h'⟩ := perform_follows h hop.1 ((h.fits_iff op).mp hop.2)
  refine ⟨{ stream := s', log := client.log ++ [observe (c.perform op).1 s'] }, ?_, h', rfl⟩
  rw [step, hrun]
  rfl

/-- What is kept along a run over the first `n` bytes. -/
def Within (n : Nat) (client : Client β) : Prop := ∃ c, client.stream.Follows c ∧ c.limit ≤ 8 * n

/-- A new client is within its buffer. -/
theorem start_within (buffer : β) {n : Nat} (hn : n < 2147483648)
    (hcover : 32 * ((n + 3) / 4) ≤ (Platform.bits buffer).length) : Within n (start buffer n) := by
  refine ⟨_, init_follows buffer (by omega) (by omega) (by omega), ?_⟩
  have hle : int32 ((n : Int) * 8) ≤ n * 8 := int32_le (by omega)
  simp only [Cursor.start]
  omega

/-- The step lemma of `run_sound`. -/
theorem step_within {n : Nat} {client : Client β} (h : Within n client) {op : ReadOp}
    (hop : Allowed client op) : ∃ client', step client op = .ok client' ∧ Within n client' := by
  obtain ⟨c, hc, hlimit⟩ := h
  obtain ⟨client', hrun, hc', -⟩ := step_follows hc hop
  exact ⟨client', hrun, _, hc', by rwa [Cursor.limit_perform]⟩

/-- Modest requests are allowed in every state of a run. -/
theorem along_of_modest {buffer : Memory} {n : Nat} (hn : n + 4 < 268435456)
    (hpad : 4 * ((n + 3) / 4) ≤ buffer.length) {ops : List ReadOp}
    (hops : ∀ op ∈ ops, op.Valid ∧ Modest n op) :
    Run.Along step Allowed ops (start buffer n) := by
  have hlen : (Platform.bits buffer).length = 8 * buffer.length := Bits.length_ofList buffer
  have hfits : ∀ (client : Client Memory) (op : ReadOp), Within n client →
      op.Valid ∧ Modest n op → Allowed client op := by
    rintro client op ⟨c, hc, hlimit⟩ ⟨hvalid, hop⟩
    exact ⟨hvalid, hc.fits_of_modest hn hlimit hvalid hop⟩
  have hstep : ∀ (client : Client Memory) (op : ReadOp) (client' : Client Memory),
      Within n client → op.Valid ∧ Modest n op → Allowed client op →
      step client op = .ok client' → Within n client' := by
    intro client op client' h _ hop hrun
    obtain ⟨_, hrun', h'⟩ := step_within h hop
    rwa [Except.ok.inj (hrun.symm.trans hrun')]
  exact Run.along_of_inv hfits hstep hops (start_within buffer (by omega) (by omega))

/-- Two callers stand where one cursor does, and have seen the same. -/
def Alike (client client' : Client β) : Prop :=
  (∃ c, client.stream.Follows c ∧ client'.stream.Follows c) ∧ client.log = client'.log

/-- The step lemma of `staleBytesUnseen`: two clients over the same cursor observe the same. -/
theorem step_alike {client client' : Client β} (h : Alike client client') {op : ReadOp}
    (hop : Allowed client op) :
    ∃ next next', step client op = .ok next ∧ step client' op = .ok next' ∧ Alike next next' := by
  obtain ⟨⟨c, hc, hc'⟩, hlog⟩ := h
  have hop' : Allowed client' op :=
    ⟨hop.1, (hc'.fits_iff op).mpr ((hc.fits_iff op).mp hop.2)⟩
  obtain ⟨next, hrun, hnext, hsees⟩ := step_follows hc hop
  obtain ⟨next', hrun', hnext', hsees'⟩ := step_follows hc' hop'
  refine ⟨next, next', hrun, hrun', ⟨_, hnext, hnext'⟩, ?_⟩
  rw [hsees, hsees', hlog, observe_eq hnext, observe_eq hnext']

/-- The bytes behind the data cannot be seen: two buffers that agree on their
first `n` bytes give every caller the same results, values, errors and positions. -/
theorem staleBytesUnseen {buffer buffer' : Memory} {n : Nat} (hn : n < 2147483648)
    (hpad : 4 * ((n + 3) / 4) ≤ buffer.length) (hpad' : 4 * ((n + 3) / 4) ≤ buffer'.length)
    (hagree : buffer.take n = buffer'.take n) {ops : List ReadOp}
    (h : Run.Along step Allowed ops (start buffer n)) :
    ∃ client client', Run.run step ops (start buffer n) = .ok client ∧
      Run.run step ops (start buffer' n) = .ok client' ∧ client.log = client'.log := by
  have hlen : (Platform.bits buffer).length = 8 * buffer.length := Bits.length_ofList buffer
  have hlen' : (Platform.bits buffer').length = 8 * buffer'.length := Bits.length_ofList buffer'
  have hle : int32 ((n : Int) * 8) ≤ n * 8 := int32_le (by omega)
  have hbits : (Platform.bits buffer).take (8 * n) = (Platform.bits buffer').take (8 * n) := by
    change (Bits.ofList buffer).take (8 * n) = (Bits.ofList buffer').take (8 * n)
    rw [Bits.take_ofList, Bits.take_ofList, hagree]
  have hcursor : Cursor.start (Platform.bits buffer) (int32 (n * 8)) (int32_bytes_emod n) =
      Cursor.start (Platform.bits buffer') (int32 (n * 8)) (int32_bytes_emod n) := by
    have htake := congrArg (List.take (int32 ((n : Int) * 8)).toNat) hbits
    rw [List.take_take, List.take_take, Nat.min_eq_left (by omega)] at htake
    simp only [Cursor.start, htake]
  have hstart : Alike (start buffer n) (start buffer' n) := by
    refine ⟨⟨_, init_follows buffer (by omega) (by omega) (by omega), ?_⟩, rfl⟩
    rw [hcursor]
    exact init_follows buffer' (by omega) (by omega) (by omega)
  have hstep : ∀ (client client' : Client Memory) (op : ReadOp), Alike client client' →
      Allowed client op →
      ∃ next next', step client op = .ok next ∧ step client' op = .ok next' ∧ Alike next next' :=
    fun _ _ _ halike hop => step_alike halike hop
  obtain ⟨client, client', hrun, hrun', -, hlog⟩ := Run.run_related_along hstep hstart h
  exact ⟨client, client', hrun, hrun', hlog⟩

/-- A caller that reads an integer, bytes, and beyond the end. -/
def sampleOps : List ReadOp :=
  [.serializeInteger 0 10, .serializeBytes [0, 0, 0] 3, .serializeBits 32, .serializeBits 8]

/-- Five bytes of data in two buffers that differ behind them. -/
theorem staleBytesUnseen_sample :
    ∃ client client', Run.run step sampleOps (start ([3, 1, 2, 3, 4, 0, 0, 0] : Memory) 5) =
        .ok client ∧
      Run.run step sampleOps (start ([3, 1, 2, 3, 4, 7, 8, 9] : Memory) 5) = .ok client' ∧
      client.log = client'.log := by
  apply staleBytesUnseen (by decide) (by decide) (by decide) (by decide)
  exact along_of_modest (by decide) (by decide) (by simp [sampleOps, ReadOp.Valid, Modest, IsInt32])

/-! ## the invariant of the reader -/

/-- The scratch register holds the rest of the last word that was loaded, and no
word behind the first `n` bytes has been loaded. -/
structure Sound (r : BitReader β) (n : Nat) : Prop where
  scratchBits_nonneg : 0 ≤ r.scratchBits
  scratchBits_lt : r.scratchBits < 32
  wordIndex_eq : 32 * r.wordIndex = r.bitsRead + r.scratchBits
  scratch_lt : r.scratch.toNat < 2 ^ r.scratchBits.toNat
  wordIndex_le : r.wordIndex ≤ ((n + 3) / 4 : Nat)

/-- A reader that follows a cursor stays in the words of its data. -/
theorem Follows.sound {s : ReadStream β} {c : Cursor} (h : s.Follows c) {n : Nat}
    (hlimit : c.limit ≤ 8 * n) : Sound s.reader n := by
  obtain ⟨B, hat, -⟩ := h.reader
  have hpos := c.pos_le
  have hbits := hat.scratchBits
  have hindex := hat.wordIndex
  have hread := hat.bitsRead
  refine ⟨by omega, by omega, by omega, ?_, by omega⟩
  rw [hat.scratch, hbits, Int.toNat_natCast]
  refine Nat.lt_of_lt_of_le (Bits.toNat_lt _) (Nat.pow_le_pow_right (by decide) ?_)
  rw [Bits.length_slice]
  omega

/-- A run stops at no assertion and leaves the reader in order. Nothing is read
outside the words that the first `n` bytes reach into: the buffer has no others,
and a load from elsewhere would be a fault. -/
theorem run_sound {buffer : Memory} {n : Nat} (hn : 8 * n < 2147483648)
    (hpad : buffer.length = 4 * ((n + 3) / 4)) {ops : List ReadOp}
    (h : Run.Along step Allowed ops (start buffer n)) :
    ∃ client, Run.run step ops (start buffer n) = .ok client ∧ Sound client.stream.reader n := by
  have hlen : (Platform.bits buffer).length = 8 * buffer.length := Bits.length_ofList buffer
  have hstart := start_within buffer (show n < 2147483648 by omega) (by omega)
  obtain ⟨client, hrun, c, hc, hlimit⟩ := Run.run_keeps_along (C := Allowed)
    (fun _ _ h hop => step_within h hop) hstart h
  exact ⟨client, hrun, hc.sound hlimit⟩

/-- The same run leaves the reader within its two words. -/
theorem run_sound_sample :
    ∃ client, Run.run step sampleOps (start ([3, 1, 2, 3, 4, 0, 0, 0] : Memory) 5) = .ok client ∧
      Sound client.stream.reader 5 := by
  apply run_sound (by decide) (by decide)
  exact along_of_modest (by decide) (by decide) (by simp [sampleOps, ReadOp.Valid, Modest, IsInt32])

/-! ## where the number of bits leaves the range of `int` -/

/-- Valid arguments; the bytes that are asked for end at a position that an `int`
can hold. -/
def Described (client : Client β) (op : ReadOp) : Prop :=
  op.Valid ∧ match op with
    | .serializeBytes _ bytes => client.stream.reader.bitsRead + 8 * bytes < 2147483648
    | _ => True

/-- A read that ends where `int` does is not seen to overflow. -/
theorem takeBits_wraps {s : ReadStream β} {B : List Bool} {N : Int} {pos : Nat}
    (hs : s.reader.At B N pos) (hN : N = pos) (hB : B.length = pos) (hend : pos + 32 = 2147483648) :
    takeBits 32 s = .error .assertion := by
  obtain ⟨hcover, hnum⟩ := hs.cover (by omega)
  have hread : int32 (s.reader.bitsRead + 32) = -2147483648 := by
    rw [hs.bitsRead, show (pos : Int) + 32 = 2147483648 by omega]
    rfl
  have hover : s.reader.wouldOverflow 32 = false := by
    rw [BitReader.wouldOverflow, hread, hs.numBits]
    exact decide_eq_false (by omega)
  have hrun : s.reader.readBits 32 = .error .assertion :=
    BitReader.readBits_outside (hs.loaded (by omega) (by omega)) (by omega) (by decide) (by decide)
      (by rw [hread, hs.numBits]; omega) (by omega)
  have hcheck : checkOverflow 32 s = .ok (some (), s) := by
    rw [checkOverflow, hover]
    rfl
  have hread : onReader (BitReader.readBits · 32) s = .error .assertion := by
    rw [onReader, hrun]
    rfl
  exact (Proc.bind_run_some hcheck).trans (Proc.bind_run_error hread)

/-- A read over the end of the data that ends where `int` does takes what stands there. -/
theorem takeBits_past {s : ReadStream β} {B : List Bool} {N : Int} {pos : Nat}
    (hs : s.reader.At B N pos) (hN : pos < N) (hend : pos + 32 = 2147483648) :
    ∃ value s', takeBits 32 s = .ok (some value, s') ∧
      value.toNat = Bits.toNat (Bits.slice B pos 32) := by
  have hread : int32 (s.reader.bitsRead + 32) = -2147483648 := by
    rw [hs.bitsRead, show (pos : Int) + 32 = 2147483648 by omega]
    rfl
  have hover : s.reader.wouldOverflow 32 = false := by
    rw [BitReader.wouldOverflow, hread, hs.numBits]
    exact decide_eq_false (by omega)
  obtain ⟨value, scratch, scratchBits, wordIndex, hrun, hvalue, -⟩ :=
    BitReader.readBits_inside (hs.loaded (by omega) (by omega)) (show (0 : Int) < 32 by decide)
      (by decide) (by rw [hread, hs.numBits]; omega) (by omega)
  have hcheck : checkOverflow 32 s = .ok (some (), s) := by
    rw [checkOverflow, hover]
    rfl
  exact ⟨value, _, (Proc.bind_run_some hcheck).trans
    (Proc.bind_run_some (@onReader_run β _ (BitReader.readBits · 32) s value _ hrun)), hvalue⟩

/-- Bytes that are read from the start on. -/
theorem step_bytes {buffer : Memory} {data : List U8} {n k : Nat} (hk : k ≤ n)
    (hn : 8 * n < 2147483648) (hpad : 4 * ((n + 3) / 4) ≤ buffer.length) (hdata : k ≤ data.length) :
    ∃ stream observation, step (start buffer n) (.serializeBytes data k) =
        .ok { stream, log := [observation] } ∧
      stream.reader.At (Platform.bits buffer) (8 * n : Nat) (8 * k) := by
  have hlen : (Platform.bits buffer).length = 8 * buffer.length := Bits.length_ofList buffer
  have hstart := @init_at Memory _ buffer n (by omega) (by omega) (by omega)
  have hlimit : int32 ((n : Int) * 8) = (8 * n : Nat) := by
    rw [int32_eq ⟨by omega, by omega⟩]
    omega
  rw [hlimit] at hstart
  obtain ⟨s₁, halign, hat₁, -⟩ := serializeAlign_ok hstart (by simp [Bits.slice, Bits.padding])
    (by omega)
  obtain ⟨xs, r, hbytes, -, -, hr⟩ := @serializeBytes_ok Memory _ _ s₁ _ _ _ data k halign
    hat₁.reader (by decide) (by omega) (by omega) (by omega)
  have hperform := Proc.bind_pure_run Output.bytes hbytes
  rw [Int.toNat_natCast, show 0 + (8 - 0 % 8) % 8 + 8 * k = 8 * k by omega] at hr
  obtain ⟨s₂, hs₂⟩ : ∃ s₂ : ReadStream Memory, s₂ =
      { s₁ with reader := r, bitsRead := int32 (s₁.bitsRead + 8 * (k : Int)) } := ⟨_, rfl⟩
  rw [← hs₂] at hperform
  refine ⟨s₂, observe (some (.bytes (Bits.splice data 0 xs))) s₂, ?_, by rwa [hs₂]⟩
  rw [step]
  change (perform (.serializeBytes data k) (init buffer n) >>= _) = _
  rw [perform, hperform]
  rfl

/-- After 2^28 - 4 bytes, 32 bits are read although none are left. -/
theorem not_run_sound :
    ¬∀ (buffer : Memory) (n : Nat) (ops : List ReadOp), 8 * n < 2147483648 →
      buffer.length = 4 * ((n + 3) / 4) → Run.Along step Described ops (start buffer n) →
      ∃ client, Run.run step ops (start buffer n) = .ok client ∧
        Sound client.stream.reader n := by
  intro h
  obtain ⟨data, hdata⟩ : ∃ data : List U8, data.length = 268435452 :=
    ⟨uninitArray (fun _ => 0) 268435452, length_uninitArray _ _⟩
  have hlen : (Platform.bits data).length = 8 * data.length := Bits.length_ofList data
  -- the bytes, all of them
  obtain ⟨s₂, first, hfirst, hat⟩ := @step_bytes data data 268435452 268435452 le_rfl (by decide)
    (by omega) (by omega)
  -- and then 32 bits
  have hwraps := takeBits_wraps hat (by decide) (by omega) (by decide)
  have hsecond : ∀ log, step { stream := s₂, log } (.serializeBits 32) = .error .assertion := by
    intro log
    have hperform : perform (.serializeBits 32) s₂ = .error .assertion :=
      Proc.bind_run_error hwraps
    rw [step, hperform]
    rfl
  have hops : Run.Along step Described [.serializeBytes data 268435452, .serializeBits 32]
      (start data 268435452) := by
    refine ⟨⟨⟨by decide, by omega⟩, ?_⟩, fun _ _ => ⟨⟨by simp [ReadOp.Valid], trivial⟩, fun _ _ =>
      trivial⟩⟩
    change (0 : Int) + 8 * 268435452 < 2147483648
    decide
  obtain ⟨client, hrun, -⟩ := h data 268435452 _ (by decide) (by omega) hops
  obtain ⟨c₁, hstep₁, hrest⟩ := Run.run_cons_eq_ok.mp hrun
  obtain ⟨c₂, hstep₂, -⟩ := Run.run_cons_eq_ok.mp hrest
  obtain rfl := Except.ok.inj (hfirst.symm.trans hstep₁)
  rw [hsecond] at hstep₂
  contradiction

/-- After 2^28 - 4 of 2^28 - 1 bytes, 32 bits are read although 24 are left: the last ones
are those of the byte behind the data. -/
theorem run_past (data : List U8) (hdata : data.length = 268435452) (last : U8) :
    ∃ client first second value,
      Run.run step [.serializeBytes data 268435452, .serializeBits 32]
        (start (data ++ [0, 0, 0, last] : Memory) 268435455) = .ok client ∧
      client.log = [first, second] ∧ second.output = some (.bits value) ∧
      value.toNat = Bits.toNat (Bits.ofList [0, 0, 0, last]) := by
  obtain ⟨buffer, hbuffer⟩ : ∃ buffer : Memory, buffer = data ++ [0, 0, 0, last] := ⟨_, rfl⟩
  have hlen : buffer.length = 268435456 := by
    rw [hbuffer, List.length_append, hdata]
    rfl
  obtain ⟨s₁, first, hfirst, hat⟩ := @step_bytes buffer data 268435455 268435452 (by decide)
    (by decide) (by omega) (by omega)
  obtain ⟨value, s₂, htake, hvalue⟩ := takeBits_past hat (by decide) (by decide)
  have hbits : serializeBits 32 s₁ = .ok (some value, s₂) :=
    (serializeBits_run (by decide) (by decide)).trans htake
  have hsecond : step { stream := s₁, log := [first] } (.serializeBits 32) =
      .ok { stream := s₂, log := [first, observe (some (.bits value)) s₂] } := by
    rw [step, perform, Proc.bind_pure_run Output.bits hbits]
    rfl
  have hslice : Bits.slice (Platform.bits buffer) (8 * 268435452) 32 =
      Bits.ofList [0, 0, 0, last] := by
    have hword := Bits.slice_ofList buffer 268435452 4
    rw [hbuffer, ← hdata, Bits.slice_append_right, hdata, ← hbuffer] at hword
    exact hword
  rw [hslice] at hvalue
  rw [← hbuffer]
  exact ⟨_, first, _, value, Run.run_cons_eq_ok.mpr ⟨_, hfirst,
    Run.run_cons_eq_ok.mpr ⟨_, hsecond, rfl⟩⟩, rfl, rfl, hvalue⟩

/-- Two buffers that differ in the byte behind the data, and a caller who sees it. -/
theorem not_staleBytesUnseen :
    ¬∀ (buffer buffer' : Memory) (n : Nat) (ops : List ReadOp), n < 2147483648 →
      4 * ((n + 3) / 4) ≤ buffer.length → 4 * ((n + 3) / 4) ≤ buffer'.length →
      buffer.take n = buffer'.take n → Run.Along step Described ops (start buffer n) →
      Run.Along step Described ops (start buffer' n) →
      ∃ client client', Run.run step ops (start buffer n) = .ok client ∧
        Run.run step ops (start buffer' n) = .ok client' ∧ client.log = client'.log := by
  intro h
  obtain ⟨data, hdata⟩ : ∃ data : List U8, data.length = 268435452 :=
    ⟨uninitArray (fun _ => 0) 268435452, length_uninitArray _ _⟩
  have hlen : ∀ last : U8, (data ++ [0, 0, 0, last]).length = 268435456 := by
    intro last
    rw [List.length_append, hdata]
    rfl
  have htake : ∀ last : U8, (data ++ [0, 0, 0, last]).take 268435455 = data ++ [0, 0, 0] := by
    intro last
    rw [show 268435455 = data.length + 3 by omega, List.take_length_add_append]
    rfl
  have hops : ∀ last : U8, Run.Along step Described
      [.serializeBytes data 268435452, .serializeBits 32]
      (start (data ++ [0, 0, 0, last] : Memory) 268435455) := by
    refine fun last => ⟨⟨⟨by decide, by omega⟩, ?_⟩, fun _ _ => ⟨⟨by simp [ReadOp.Valid], trivial⟩,
      fun _ _ => trivial⟩⟩
    change (0 : Int) + 8 * 268435452 < 2147483648
    decide
  obtain ⟨client, first, second, value, hrun, hlog, hvalue, hbits⟩ := run_past data hdata 0
  obtain ⟨client', first', second', value', hrun', hlog', hvalue', hbits'⟩ := run_past data hdata 1
  obtain ⟨c, c', hc, hc', hsame⟩ := h _ _ 268435455 _ (by decide) (by rw [hlen 0])
    (by rw [hlen 1]) ((htake 0).trans (htake 1).symm) (hops 0) (hops 1)
  obtain rfl := Except.ok.inj (hrun.symm.trans hc)
  obtain rfl := Except.ok.inj (hrun'.symm.trans hc')
  rw [hlog, hlog'] at hsame
  obtain ⟨-, hsecond⟩ := List.cons.inj hsame
  obtain ⟨rfl, -⟩ := List.cons.inj hsecond
  obtain rfl := Output.bits.inj (Option.some.inj (hvalue.symm.trans hvalue'))
  rw [hbits] at hbits'
  exact absurd hbits' (by decide)

end ReadStream

end RudpNetwork
