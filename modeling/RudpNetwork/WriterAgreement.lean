import RudpNetwork.WireFormat
import RudpNetwork.WriterRuns

/-!
# RudpNetwork.WriterAgreement

The `WriteStream` of the C++ server and that of the C# client are the same machine, as
`RudpNetwork.ReaderAgreement` says of the other direction.

The reference is a `Strip`: the bits written so far, room for a fixed number of them, and
what the buffer held before.  A call stops at an assertion exactly where its arguments are
no valid ones or its bits do not fit; otherwise its bits are appended, and nothing behind
them is touched (`writers_agree`).

## Main results

* `step_alike`, `run_follows` — the calls of the stream do what those of the strip do.
* `writers_agree` — the C++ stream, the C# stream and the strip, over any run of calls.
-/

namespace RudpNetwork

open MachineInt

/-- A call of a writing method of a stream. -/
inductive WriteOp
  | serializeInteger (value min max : Int)
  | serializeBits (value : U32) (bits : Int)
  | serializeBytes (data : List U8) (bytes : Int)
  | serializeAlign

/-- What a caller can see of a writing stream after a call. -/
structure WriteObservation where
  returned : Bool
  error : ProtocolError
  bitsProcessed : Int
  bitsRemaining : Int
  bytesProcessed : Int
  alignBits : Int

namespace WriteOp

/-- The assertions about the arguments. -/
def Meets : WriteOp → Prop
  | serializeInteger value min max => min < max ∧ min ≤ value ∧ value ≤ max
  | serializeBits _ bits => 0 < bits ∧ bits ≤ 32
  | serializeBytes _ bytes => 0 ≤ bytes
  | serializeAlign => True

instance (op : WriteOp) : Decidable op.Meets :=
  match op with
  | serializeInteger _ _ _ => inferInstanceAs (Decidable (_ ∧ _ ∧ _))
  | serializeBits _ _ => inferInstanceAs (Decidable (_ ∧ _))
  | serializeBytes _ _ => inferInstanceAs (Decidable (_ ≤ _))
  | serializeAlign => inferInstanceAs (Decidable True)

/-- The arguments are values of their types, and the bytes are there; their number of
bits, behind those that fit `room`, is an `int`. -/
def Sane (room : Nat) : WriteOp → Prop
  | serializeInteger _ min max => IsInt32 min ∧ IsInt32 max
  | serializeBytes data bytes => bytes ≤ data.length ∧ room + 8 * bytes < 2147483648
  | _ => True

/-- What the call writes. -/
def enc : WriteOp → Enc
  | serializeInteger value min max => Wire.int value min max
  | serializeBits value bits => Wire.bits value bits
  | serializeBytes data bytes => Wire.bytes (data.take bytes.toNat)
  | serializeAlign => .align

end WriteOp

/-! ## the strip -/

/-- The reference for the writers. `log` is what a caller saw. -/
structure Strip where
  memory : List Bool
  room : Nat
  bits : List Bool
  log : List WriteObservation

namespace Strip

/-- Nothing is written, and there is room for `bytes` bytes. -/
def start (buffer : List U8) (bytes : Nat) : Strip where
  memory := Bits.ofList buffer
  room := 8 * bytes
  bits := []
  log := []

/-- What a caller sees of a strip. -/
def observe (t : Strip) : WriteObservation where
  returned := true
  error := .none
  bitsProcessed := t.bits.length
  bitsRemaining := t.room - t.bits.length
  bytesProcessed := ((t.bits.length + 7) / 8 : Nat)
  alignBits := (8 - t.bits.length % 8) % 8

def step (t : Strip) (op : WriteOp) : Except Fault Strip := do
  assert op.Meets
  let t' := { t with bits := t.bits ++ op.enc t.bits.length }
  assert (t'.bits.length ≤ t'.room)
  return { t' with log := t.log ++ [t'.observe] }

/-- A valid call that fits is appended. -/
theorem step_ok (t : Strip) {op : WriteOp} (hm : op.Meets)
    (hfit : (t.bits ++ op.enc t.bits.length).length ≤ t.room) :
    t.step op = .ok { t with
      bits := t.bits ++ op.enc t.bits.length
      log := t.log ++ [{ t with bits := t.bits ++ op.enc t.bits.length }.observe] } :=
  Except.bind_eq_ok_iff.mpr ⟨(), require_eq_ok.mpr hm,
    Except.bind_eq_ok_iff.mpr ⟨(), require_eq_ok.mpr hfit, rfl⟩⟩

/-- A call with arguments that are not valid stops. -/
theorem step_invalid (t : Strip) {op : WriteOp} (hm : ¬op.Meets) :
    t.step op = .error .assertion := by
  rw [step, assert, require, if_neg hm]
  rfl

/-- A call that does not fit stops. -/
theorem step_full (t : Strip) {op : WriteOp}
    (hfull : ¬(t.bits ++ op.enc t.bits.length).length ≤ t.room) :
    t.step op = .error .assertion := by
  by_cases hm : op.Meets
  · have hmeets : assert op.Meets = .ok () := require_eq_ok.mpr hm
    rw [step, hmeets]
    simp only [require, if_neg hfull]
    rfl
  · exact t.step_invalid hm

/-- The buffer after a flush: the bits, zeros up to a word boundary, and what was there
before. -/
def flushed (t : Strip) : List Bool :=
  let words := (t.bits.length + 31) / 32
  t.bits ++ List.replicate (32 * words - t.bits.length) false ++ t.memory.drop (32 * words)

end Strip

/-! ## what a call leaves behind its bits -/

namespace BitWriter

variable {β : Type} [Platform β]

/-- `WriteAlign` stores no word behind the padding. -/
theorem writeAlign_behind {w w' : BitWriter β} {l : List Bool} (hw : w.Rep l)
    (hle : (l.length : Int) ≤ w.numBits) (h : w.writeAlign = .ok w') :
    w'.Rep (l ++ Bits.padding l.length) ∧
      w.Behind w' ((l ++ Bits.padding l.length).length / 32) := by
  have hmod := hw.numBits_emod
  have hroom : ((l ++ Bits.padding l.length).length : Int) ≤ w.numBits := by
    rw [List.length_append, Bits.length_padding]
    omega
  obtain ⟨w₁, hrun, hrep, -⟩ := writeAlign_ok hw hroom
  obtain rfl := Except.ok.inj (hrun.symm.trans h)
  refine ⟨hrep, ?_⟩
  have hrem : w.bitsWritten.tmod 8 = (l.length % 8 : Nat) := by
    rw [hw.bitsWritten_eq hle, tmod_eq _ (by omega)]
    omega
  simp only [writeAlign] at h
  split at h
  · obtain ⟨w₂, hwrite, hrest⟩ := Except.bind_eq_ok_iff.mp h
    obtain ⟨-, -, hpure⟩ := Except.bind_eq_ok_iff.mp hrest
    obtain rfl := Except.pure_eq_ok_iff.mp hpure
    have hbehind := writeBits_behind hw hwrite
    rw [List.length_append, Bits.length_ofNat] at hbehind
    rw [List.length_append, Bits.length_padding]
    rwa [show (8 - w.bitsWritten.tmod 8).toNat = (8 - l.length % 8) % 8 by omega] at hbehind
  · obtain rfl := Except.pure_eq_ok_iff.mp h
    exact .refl w _

/-- `FlushBits` stores no word behind the last one that holds bits. -/
theorem flushBits_behind {w w' : BitWriter β} {l : List Bool} (hw : w.Rep l)
    (h : w.flushBits = .ok w') : w.Behind w' ((l.length + 31) / 32) := by
  unfold flushBits at h
  split at h
  · next hne =>
      have hmod : l.length % 32 ≠ 0 := by
        rw [hw.scratchBits] at hne
        omega
      obtain ⟨w₁, hput, hpure⟩ := Except.bind_eq_ok_iff.mp h
      obtain rfl := Except.pure_eq_ok_iff.mp hpure
      obtain ⟨-, -, hdrop, -⟩ := putScratch_data hw.capacity hw.wordIndex hput
      rw [show (l.length + 31) / 32 = l.length / 32 + 1 by omega]
      exact hdrop
  · obtain rfl := Except.pure_eq_ok_iff.mp h
    exact .refl w _

end BitWriter

/-! ## the streams -/

namespace WriteStream

variable {β : Type} [Platform β]

/-- `GetAlignBits`. -/
def getAlignBits (s : WriteStream β) : Int := s.writer.getAlignBits

def perform : WriteOp → Proc Fault (WriteStream β) Unit
  | .serializeInteger value min max => serializeInteger value min max
  | .serializeBits value bits => serializeBits value bits
  | .serializeBytes data bytes => serializeBytes data bytes
  | .serializeAlign => serializeAlign

/-- A caller of a writing stream, and what it saw. -/
structure Caller (β : Type) where
  stream : WriteStream β
  log : List WriteObservation

def observe (returned : Bool) (s : WriteStream β) : WriteObservation where
  returned := returned
  error := s.error
  bitsProcessed := s.getBitsProcessed
  bitsRemaining := s.getBitsRemaining
  bytesProcessed := s.getBytesProcessed
  alignBits := s.getAlignBits

def step (caller : Caller β) (op : WriteOp) : Except Fault (Caller β) := do
  let (returned, stream) ← perform op caller.stream
  return { stream, log := caller.log ++ [observe returned.isSome stream] }

/-- The stream holds what stands on the strip. -/
structure Follows (s : WriteStream β) (t : Strip) : Prop where
  rep : s.writer.Rep t.bits
  fits : t.bits.length ≤ t.room
  numBits : s.writer.numBits = t.room
  numWords : 32 * s.writer.numWords = t.room
  behind : (Platform.bits s.writer.data).drop (32 * (t.bits.length / 32)) =
    t.memory.drop (32 * (t.bits.length / 32))
  error : s.error = .none
  small : t.room + 32 < 2147483648

structure Caller.Follows (caller : Caller β) (t : Strip) : Prop where
  stream : caller.stream.Follows t
  log : caller.log = t.log

variable {s s' : WriteStream β} {t : Strip} {op : WriteOp}

/-- What was seen does not matter. -/
theorem Follows.relog (h : s.Follows t) {log : List WriteObservation} :
    s.Follows { t with log } :=
  ⟨h.rep, h.fits, h.numBits, h.numWords, h.behind, h.error, h.small⟩

/-- Nothing behind the current word is touched. -/
theorem Follows.behind_from (h : s.Follows t) {k : Nat} (hk : t.bits.length / 32 ≤ k) :
    (Platform.bits s.writer.data).drop (32 * k) = t.memory.drop (32 * k) := by
  have hbefore := congrArg (List.drop (32 * (k - t.bits.length / 32))) h.behind
  rwa [List.drop_drop, List.drop_drop, ← Nat.mul_add, Nat.add_sub_cancel' hk] at hbefore

/-- After more bits of which no word lies behind them. -/
theorem Follows.append (h : s.Follows t) {l : List Bool} (hrep : s'.writer.Rep (t.bits ++ l))
    (hsame : s.Same s') (hbehind : s.writer.Behind s'.writer ((t.bits ++ l).length / 32))
    (hfit : (t.bits ++ l).length ≤ t.room) : s'.Follows { t with bits := t.bits ++ l } where
  rep := hrep
  fits := hfit
  numBits := by rw [h.rep.numBits_eq hrep hsame.buffer, h.numBits]
  numWords := by rw [hsame.buffer.numWords, h.numWords]
  behind := Eq.trans hbehind (h.behind_from (Nat.div_le_div_right (by simp)))
  error := by rw [hsame.error, h.error]
  small := h.small

/-- Stream and strip look the same. -/
theorem Follows.observe_eq (h : s.Follows t) : observe true s = t.observe := by
  have hfits := h.fits
  have hsmall := h.small
  have hwords := h.numWords
  have hwritten : s.writer.bitsWritten = t.bits.length :=
    h.rep.bitsWritten_eq (by rw [h.numBits]; exact_mod_cast hfits)
  have hremaining : s.getBitsRemaining = t.room - t.bits.length := by
    change int32 (int32 (int32 (s.writer.numWords * 4) * 8) - s.writer.bitsWritten) = _
    rw [hwritten, int32_eq (show IsInt32 (s.writer.numWords * 4) from ⟨by omega, by omega⟩),
      int32_eq (show IsInt32 (s.writer.numWords * 4 * 8) from ⟨by omega, by omega⟩),
      int32_eq ⟨by omega, by omega⟩]
    omega
  have hbytes : s.getBytesProcessed = ((t.bits.length + 7) / 8 : Nat) := by
    change (int32 (s.writer.bitsWritten + 7)).tdiv 8 = _
    rw [hwritten, int32_eq ⟨by omega, by omega⟩, tdiv_eq _ (by omega)]
    omega
  have halign : s.getAlignBits = (8 - t.bits.length % 8) % 8 := by
    have hmod : (t.bits.length : Int).tmod 8 = t.bits.length % 8 := tmod_eq _ (by omega)
    rw [getAlignBits, BitWriter.getAlignBits, hwritten, hmod, tmod_eq _ (by omega)]
  rw [observe, Strip.observe, h.error, hremaining, hbytes, halign]
  congr 1

/-! ## one call -/

/-- A valid call of the stream writes its encoding. -/
theorem writes_perform {room : Nat} (hop : op.Sane room) (hm : op.Meets) (c : Context) :
    Writes c (perform op : Proc Fault (WriteStream β) Unit) op.enc := by
  cases op with
  | serializeInteger value min max =>
      exact writes_serializeInteger hop.1 hop.2 hm.1 hm.2.1 hm.2.2
  | serializeBits value bits => exact writes_serializeBits value hm.1 hm.2
  | serializeBytes data bytes => exact writes_serializeBytes hop.1 hm
  | serializeAlign => exact writes_serializeAlign

/-- A call stores no word behind its bits. -/
theorem perform_behind {room : Nat} (hop : op.Sane room) (hm : op.Meets) {l : List Bool}
    (hs : s.writer.Rep l) (hle : (l.length : Int) ≤ s.writer.numBits)
    (h : perform op s = .ok (some (), s')) :
    s.writer.Behind s'.writer ((l ++ op.enc l.length).length / 32) := by
  cases op with
  | serializeInteger value min max =>
      obtain ⟨_, -, h⟩ := Proc.lift_bind_run_ok h
      obtain ⟨_, -, h⟩ := Proc.lift_bind_run_ok h
      obtain ⟨_, -, h⟩ := Proc.lift_bind_run_ok h
      obtain ⟨w, hwrite, -, rfl⟩ := onWriter_run_ok h
      have hbehind := BitWriter.writeBits_behind hs hwrite
      rw [Platform.bitsRequired_eq _ _ (toU32_ne hop.1 hop.2 hm.1), List.length_append,
        Bits.length_ofNat] at hbehind
      rwa [WriteOp.enc, Wire.int, Enc.const, List.length_append, Bits.length_ofNat]
  | serializeBits value bits =>
      obtain ⟨_, -, h⟩ := Proc.lift_bind_run_ok h
      obtain ⟨_, -, h⟩ := Proc.lift_bind_run_ok h
      obtain ⟨w, hwrite, -, rfl⟩ := onWriter_run_ok h
      exact BitWriter.writeBits_behind hs hwrite
  | serializeBytes data bytes =>
      obtain ⟨_, -, h⟩ := Proc.lift_bind_run_ok h
      obtain ⟨_, s₁, hfirst, h⟩ := Proc.bind_run_ok_some h
      obtain ⟨w₁, halign, -, rfl⟩ := onWriter_run_ok hfirst
      obtain ⟨w, hwrite, -, rfl⟩ := onWriter_run_ok h
      obtain ⟨hw₁, hbehind⟩ := BitWriter.writeAlign_behind hs hle halign
      have hlater := BitWriter.writeBytes_behind hw₁ hwrite
      rw [WriteOp.enc, Wire.bytes, Enc.append_apply, ← List.append_assoc]
      exact hbehind.append hlater
  | serializeAlign =>
      obtain ⟨w, halign, -, rfl⟩ := onWriter_run_ok h
      exact (BitWriter.writeAlign_behind hs hle halign).2

/-- Arguments that are no valid ones stop at an assertion. -/
theorem perform_invalid (hm : ¬op.Meets) (s : WriteStream β) :
    perform op s = .error .assertion := by
  cases op with
  | serializeInteger value min max =>
      exact Proc.require_bind_error fun h₁ => Proc.require_bind_error fun h₂ =>
        Proc.require_bind_error fun h₃ => absurd ⟨h₁, h₂, h₃⟩ hm
  | serializeBits value bits =>
      exact Proc.require_bind_error fun h₁ => Proc.require_bind_error fun h₂ =>
        absurd ⟨h₁, h₂⟩ hm
  | serializeBytes data bytes => exact Proc.require_bind_error fun h₁ => absurd h₁ hm
  | serializeAlign => exact absurd trivial hm

omit [Platform β] in
/-- A fault of the bit writer is one of the stream. -/
theorem onWriter_run_error {f : BitWriter β → Except Fault (BitWriter β)} {s : WriteStream β}
    {e : Fault} (h : f s.writer = .error e) : onWriter f s = .error e := by
  rw [onWriter, h]
  rfl

/-- So do bits that do not fit. -/
theorem perform_full (h : s.Follows t) (hop : op.Sane t.room) (hm : op.Meets)
    (hfull : t.room < (t.bits ++ op.enc t.bits.length).length) :
    perform op s = .error .assertion := by
  have hfits := h.fits
  have hsmall := h.small
  have hnum := h.numBits
  cases op with
  | serializeInteger value min max =>
      obtain ⟨b, hb, hb1, hb32, -⟩ := bitsRequired_bounds hop.1 hop.2 hm.1
      rw [WriteOp.enc, Wire.int, Enc.const, List.length_append, Bits.length_ofNat, hb] at hfull
      refine Proc.require_bind_error fun _ => Proc.require_bind_error fun _ =>
        Proc.require_bind_error fun _ => onWriter_run_error ?_
      have hbits := @Platform.bitsRequired_eq β _ _ _ (toU32_ne hop.1 hop.2 hm.1)
      rw [hbits, hb]
      exact BitWriter.writeBits_full h.rep _ (by omega) (by omega) (by omega) (by omega)
  | serializeBits value bits =>
      obtain ⟨h0, h32⟩ := hm
      rw [WriteOp.enc, Wire.bits, Enc.const, List.length_append, Bits.length_ofNat] at hfull
      exact Proc.require_bind_error fun _ => Proc.require_bind_error fun _ => onWriter_run_error
        (BitWriter.writeBits_full h.rep _ h0 h32 (by omega) (by omega))
  | serializeBytes data bytes =>
      obtain ⟨hdata, hroom⟩ := hop
      have h0 : 0 ≤ bytes := hm
      have hmod := h.rep.numBits_emod
      have hlen : (data.take bytes.toNat).length = bytes.toNat := List.length_take_of_le (by omega)
      have hpad : (t.bits ++ Bits.padding t.bits.length).length =
          t.bits.length + (8 - t.bits.length % 8) % 8 := by
        rw [List.length_append, Bits.length_padding]
      rw [WriteOp.enc, Wire.bytes, Enc.append_apply, ← List.append_assoc, List.length_append,
        Enc.const, Bits.length_ofList, hlen, Enc.align, hpad] at hfull
      -- there is always room for the padding, so it is the bytes that do not fit
      obtain ⟨w, halign, hrep, hsame⟩ := BitWriter.writeAlign_ok h.rep (by rw [hpad]; omega)
      have hnum₁ := h.rep.numBits_eq hrep hsame
      have hstop : w.writeBytes data bytes = .error .assertion :=
        BitWriter.writeBytes_full hrep (by rw [hpad]; omega) h0 (by rw [hpad]; omega)
          (by rw [hpad]; omega) (by rw [hpad]; omega)
      exact Proc.require_bind_error fun _ =>
        (Proc.bind_run_some (onWriter_run halign)).trans (onWriter_run_error hstop)
  | serializeAlign =>
      have hmod := h.rep.numBits_emod
      rw [WriteOp.enc, Enc.align, List.length_append, Bits.length_padding] at hfull
      omega

/-- A call of the stream ends like one of the strip. -/
theorem step_alike {caller : Caller β} (h : caller.Follows t) (hop : op.Sane t.room) :
    Run.Alike (fun caller t' => caller.Follows t' ∧ t'.room = t.room) (step caller op)
      (t.step op) := by
  obtain ⟨hs, hlog⟩ := h
  have hle := hs.fits
  have hnum := hs.numBits
  by_cases hm : op.Meets
  · by_cases hfit : (t.bits ++ op.enc t.bits.length).length ≤ t.room
    · obtain ⟨s', hrun, hrep, hsame⟩ :=
        writes_perform hop hm _ caller.stream t.bits rfl hs.rep (by rw [hnum]; omega)
      have hs' := hs.append hrep hsame (perform_behind hop hm hs.rep (by omega) hrun) hfit
      rw [step, hrun, t.step_ok hm hfit]
      refine .ok ⟨⟨hs'.relog, ?_⟩, rfl⟩
      rw [hlog, ← hs'.observe_eq]
      rfl
    · rw [step, perform_full hs hop hm (by omega), t.step_full hfit]
      exact .error _
  · rw [step, perform_invalid hm, t.step_invalid hm]
    exact .error _

/-! ## all calls -/

/-- Every list of calls ends on the stream as on the strip. -/
theorem run_follows {room : Nat} {ops : List WriteOp} (hops : ∀ op ∈ ops, op.Sane room)
    {caller : Caller β} (h : caller.Follows t) (hroom : t.room = room) :
    Run.Alike Caller.Follows (Run.run step ops caller) (Run.run Strip.step ops t) :=
  have hstep : ∀ (caller : Caller β) (t : Strip) (op : WriteOp),
      caller.Follows t ∧ t.room = room → op.Sane room →
      Run.Alike (fun caller t => caller.Follows t ∧ t.room = room) (step caller op)
        (t.step op) := by
    rintro caller t op ⟨h, rfl⟩ hop
    exact step_alike h hop
  (Run.run_alike hstep hops ⟨h, hroom⟩).mono fun _ _ h' => h'.1

/-- After a flush the buffer is that of the strip. -/
theorem Follows.flush (h : s.Follows t) :
    ∃ s', flush s = .ok (some (), s') ∧ Platform.bits s'.getData = t.flushed := by
  have hfits := h.fits
  have hnum := h.numBits
  obtain ⟨w, hflush⟩ := BitWriter.flushBits_ok h.rep (by omega)
  obtain ⟨htake, -⟩ := BitWriter.flushBits_data h.rep hflush
  have hdrop := Eq.trans (BitWriter.flushBits_behind h.rep hflush)
    (h.behind_from (Nat.div_le_div_right (Nat.le_add_right t.bits.length 31)))
  refine ⟨_, onWriter_run hflush, ?_⟩
  change Platform.bits w.data = _
  rw [← List.take_append_drop (32 * ((t.bits.length + 31) / 32)) (Platform.bits w.data), htake,
    hdrop]
  rfl

/-- The caller has seen what the strip shows, and after a flush finds the bytes of the strip
in its buffer. -/
structure Caller.Finished (bytes : β → List U8) (caller : Caller β) (t : Strip) : Prop where
  log : caller.log = t.log
  flushed : ∃ s, WriteStream.flush caller.stream = .ok (some (), s) ∧
    Bits.ofList (bytes s.getData) = t.flushed

/-- A new stream over a buffer begins an empty strip. -/
theorem exists_follows {data : β} {buffer : List U8} {size : Nat} (h4 : size % 4 = 0)
    (hbits : Platform.bits data = Bits.ofList buffer) (hle : size ≤ buffer.length)
    (hbuffer : buffer.length < 2147483648) (hsize : 8 * size + 32 < 2147483648) :
    ∃ s, init data size = .ok s ∧ Caller.Follows ⟨s, []⟩ (.start buffer size) := by
  have hlen := congrArg List.length hbits
  rw [Bits.length_ofList] at hlen
  obtain ⟨s, hinit, hrep, hwords, hdata, herror, -, -⟩ :=
    @init_ok β _ data size (by omega) (by omega) (by omega) (by omega)
  have hnum : s.writer.numBits = (8 * size : Nat) := by
    rw [hrep.numBits, hwords, int32_eq ⟨by omega, by omega⟩]
    omega
  refine ⟨s, hinit, ⟨hrep, Nat.zero_le _, hnum, ?_, ?_, herror, hsize⟩, rfl⟩
  · change 32 * s.writer.numWords = (8 * size : Nat)
    omega
  · rw [hdata, hbits]
    rfl

/-- Whatever is called, the C++ stream and the C# stream over equal buffers stop at an
assertion together, where the arguments of a call are no valid ones or its bits do not fit;
or they end together, have shown the same after each call, and after a flush their buffers are
equal: the bits of the calls, zeros up to the next word, and what was there before. -/
theorem writers_agree {buffer : List U8} (h4 : buffer.length % 4 = 0) {size : Nat}
    (hsize4 : size % 4 = 0) (hle : size ≤ buffer.length) (hbuffer : buffer.length < 2147483648)
    (hsize : 8 * size + 32 < 2147483648) {ops : List WriteOp}
    (hops : ∀ op ∈ ops, op.Sane (8 * size)) :
    ∃ s c, init (buffer : Memory) size = .ok s ∧ CSharp.newWriteStream buffer size = .ok c ∧
      Run.Alike (Caller.Finished id) (Run.run step ops ⟨s, []⟩)
        (Run.run Strip.step ops (.start buffer size)) ∧
      Run.Alike (Caller.Finished CSharp.uintArrayToByteArray) (Run.run step ops ⟨c, []⟩)
        (Run.run Strip.step ops (.start buffer size)) := by
  have hbits : Platform.bits (CSharp.byteArrayToUIntArray buffer) = Bits.ofList buffer :=
    CSharp.ofList_byteArrayToUIntArray (by omega)
  obtain ⟨s, hs, hfollows⟩ :=
    @exists_follows Memory _ buffer buffer size hsize4 rfl hle hbuffer hsize
  obtain ⟨c, hc, hfollows'⟩ := exists_follows hsize4 hbits hle hbuffer hsize
  refine ⟨s, c, hs, (CSharp.newWriteStream_eq h4 size).trans hc, ?_, ?_⟩
  · refine (run_follows hops hfollows rfl).mono fun caller t h => ⟨h.log, ?_⟩
    obtain ⟨s', hflush, hdata⟩ := h.stream.flush
    exact ⟨s', hflush, hdata⟩
  · refine (run_follows hops hfollows' rfl).mono fun caller t h => ⟨h.log, ?_⟩
    obtain ⟨s', hflush, hdata⟩ := h.stream.flush
    exact ⟨s', hflush, (CSharp.ofList_uintArrayToByteArray _).trans hdata⟩

/-- A caller that writes an integer and bytes, and then more than there is room for. -/
def sampleCalls : List WriteOp :=
  [.serializeInteger 3 (-10) 10, .serializeBytes [1, 2, 3] 3, .serializeAlign,
    .serializeBits 7 32, .serializeBits 1 1]

/-- Five calls, the last of which does not fit. -/
theorem writers_agree_sample :
    ∃ s c, init (List.replicate 12 9 : Memory) 8 = .ok s ∧
      CSharp.newWriteStream (List.replicate 12 9) 8 = .ok c ∧
      Run.Alike (Caller.Finished id) (Run.run step sampleCalls ⟨s, []⟩)
        (Run.run Strip.step sampleCalls (.start (List.replicate 12 9) 8)) ∧
      Run.Alike (Caller.Finished CSharp.uintArrayToByteArray) (Run.run step sampleCalls ⟨c, []⟩)
        (Run.run Strip.step sampleCalls (.start (List.replicate 12 9) 8)) := by
  have hsane : ∀ op ∈ sampleCalls, op.Sane (8 * 8) := by
    simp [sampleCalls, WriteOp.Sane, IsInt32]
  exact writers_agree (by decide) (by decide) (by decide) (by decide) (by decide) hsane

end WriteStream

end RudpNetwork
