import RudpNetwork.CSharp
import RudpNetwork.IntegerRange
import RudpNetwork.Positions

/-!
# RudpNetwork.RangeCheck

The range check of the two integer decoders.  The C++ macro compares what it read
with the limits; `DeserializeInt` of the C# client leaves that out, and the result
of `SerializeInteger` as well.

Both streams stand on one `Tape`, so that one bit width, one raw value and one
answer of `WouldOverflow` decide what each of them does.

## Main results

* `checksRange_iff` — where both decoders let through values of the range only.
-/

namespace RudpNetwork

open MachineInt
open ReadStream (onStream takeBits)

section Integer

variable {β τ : Type} [Platform β] {min max : Int} {b : Nat} {s s' : ReadStream β}

/-! ## the callers of `SerializeInteger`, by what it does -/

omit [Platform β] in
/-- A fault of the stream is one of the caller. -/
theorem ReadStream.onStream_run_error {α : Type} {x : Proc Fault (ReadStream β) α} {e : Fault}
    {o : τ} (h : x s = .error e) : (onStream x : ReadProc β τ α) (s, o) = .error e := by
  rw [onStream, h]
  rfl

/-- The macro returns `false` where the stream does. -/
theorem Reading.serializeInt_none {cast : Int → Int} {store : Int → τ → τ} (hlt : min < max) (o : τ)
    (hread : ReadStream.serializeInteger min max s = .ok (none, s')) :
    (serializeInt cast store min max : ReadProc β τ Unit) (s, o) = .ok (none, s', o) := by
  exact (Proc.require_bind_run hlt).trans (Proc.bind_run_none (ReadStream.onStream_run hread))

/-- The macro stops where the stream does. -/
theorem Reading.serializeInt_error {cast : Int → Int} {store : Int → τ → τ} (hlt : min < max)
    (o : τ) {e : Fault} (hread : ReadStream.serializeInteger min max s = .error e) :
    (serializeInt cast store min max : ReadProc β τ Unit) (s, o) = .error e := by
  exact (Proc.require_bind_run hlt).trans
    (Proc.bind_run_error (ReadStream.onStream_run_error hread))

end Integer

namespace CSharp

section Deserialize

variable {τ : Type} {min max : Int} {s s' : ReadStream UIntArray}

/-- Whether `SerializeInteger` returned `true` or `false`. -/
theorem deserializeInt_run (hlt : min < max) (o : τ) {value : Option Int}
    (hread : ReadStream.serializeInteger min max s = .ok (value, s')) :
    (deserializeInt min max : ReadProc UIntArray τ Int) (s, o) =
      .ok (some (value.getD 0), s', o) := by
  exact (Proc.require_bind_run hlt).trans
    (Proc.bind_run_some (Proc.attempt_run (ReadStream.onStream_run hread)))

/-- `DeserializeInt` stops where the stream does. -/
theorem deserializeInt_error (hlt : min < max) (o : τ) {e : Fault}
    (hread : ReadStream.serializeInteger min max s = .error e) :
    (deserializeInt min max : ReadProc UIntArray τ Int) (s, o) = .error e := by
  have hattempt : Proc.attempt (onStream (ReadStream.serializeInteger min max)) (s, o) =
      .error e := by
    rw [Proc.attempt, ReadStream.onStream_run_error hread]
  exact (Proc.require_bind_run hlt).trans (Proc.bind_run_error hattempt)

end Deserialize

end CSharp

/-! ## what the decoder promises -/

/-- `DeserializeInt` on the stream `s₁` returns values of the range only, and the error
of the stream is set after it if and only if `serialize_int` returns `false` on `s₂`. -/
structure ChecksRange (min max : Int) (s₁ : ReadStream UIntArray) (s₂ : ReadStream Memory) :
    Prop where
  inRange : ∀ value s', (CSharp.deserializeInt min max : ReadProc UIntArray Unit Int) (s₁, ()) =
    .ok (some value, s') → min ≤ value ∧ value ≤ max
  signals : ∀ uninit : Int,
    (∃ value s', (CSharp.deserializeInt min max : ReadProc UIntArray Unit Int) (s₁, ()) =
      .ok (some value, s', ()) ∧ s'.error ≠ .none) ↔
    ∃ s', (Reading.serializeInt IntType.int32.convert (fun value _ => value) min max :
      ReadProc Memory Int Unit) (s₂, uninit) = .ok (none, s')

variable {t : Tape} {pos b : Nat} {min max : Int} {s₁ : ReadStream UIntArray} {s₂ : ReadStream Memory}

section Outcomes

variable (hmin : IsInt32 min) (hmax : IsInt32 max) (hlt : min < max)
  (hb : bitsRequired (toU32 min) (toU32 max) = b) (h₁ : s₁.Stands t pos) (h₂ : s₂.Stands t pos)

include hmin hmax hlt hb h₁ h₂

/-- At the end of the data the decoder returns 0, and both report it. -/
theorem checksRange_refused (hrefuse : t.Refuses pos b) :
    ChecksRange min max s₁ s₂ ↔ min ≤ 0 ∧ 0 ≤ max := by
  have hread₁ := (ReadStream.serializeInteger_run (s := s₁) hmin hmax hlt hb).trans
    (Proc.bind_run_none (h₁.takeBits_refused hrefuse))
  have hread₂ := (ReadStream.serializeInteger_run (s := s₂) hmin hmax hlt hb).trans
    (Proc.bind_run_none (h₂.takeBits_refused hrefuse))
  have hrun₁ := CSharp.deserializeInt_run hlt () hread₁
  constructor
  · intro h
    exact h.inRange _ _ hrun₁
  · intro h0
    refine ⟨fun value s' hrun => ?_, fun o => ?_⟩
    · have hvalue := (Prod.mk.inj (Except.ok.inj (hrun₁.symm.trans hrun))).1
      rw [← Option.some.inj hvalue]
      exact h0
    · exact ⟨fun _ => ⟨_, Reading.serializeInt_none hlt o hread₂⟩, fun _ => ⟨_, _, hrun₁, by simp⟩⟩

/-- A surplus code is returned as it is, and only the macro reports it. -/
theorem checksRange_inside (h1 : 1 ≤ b) (h32 : b ≤ 32) (hlow : 2 ^ (b - 1) ≤ max - min)
    (hpass : ¬t.Refuses pos b) (hfit : pos + b ≤ t.room) :
    ChecksRange min max s₁ s₂ ↔ t.value pos b ≤ max - min ∧ s₁.error = .none := by
  obtain ⟨u₁, s₁', htake₁, hvalue₁, -, hsame⟩ := h₁.takeBits_inside h1 h32 hpass hfit
  obtain ⟨u₂, s₂', htake₂, hvalue₂, -, -⟩ := h₂.takeBits_inside h1 h32 hpass hfit
  have hread₁ := (ReadStream.serializeInteger_run (s := s₁) hmin hmax hlt hb).trans
    (Proc.bind_run_some htake₁)
  have hread₂ := (ReadStream.serializeInteger_run (s := s₂) hmin hmax hlt hb).trans
    (Proc.bind_run_some htake₂)
  have hrun₁ := CSharp.deserializeInt_run hlt () hread₁
  have hrun₂ := fun o : Int =>
    Reading.serializeInt_run IntType.int32.convert (fun value _ => value) hlt o hread₂
  have hmem := @IntType.convert_mem_iff .int32 min max hlt hmin.1 hmax.2 b hlow _
    (Tape.value_lt (t := t) pos b)
  have hint := isInt32_int32 (u₁.toInt + min)
  have hvalue : int32 (u₁.toInt + min) = IntType.int32.convert (min + t.value pos b) := by
    rw [← hvalue₁, ← IntType.convert_int32, IntType.convert_eq hint.1 hint.2]
  rw [IntType.convert_int32, hvalue₂] at hrun₂
  simp only [hmem] at hrun₂
  rw [Option.getD_some, hvalue] at hrun₁
  constructor
  · intro h
    have hr := hmem.mp (h.inRange _ _ hrun₁)
    refine ⟨hr, ?_⟩
    by_contra herror
    obtain ⟨s', hfalse⟩ := (h.signals 0).mp ⟨_, _, hrun₁, by rw [hsame.error]; exact herror⟩
    rw [hrun₂, if_pos hr] at hfalse
    simp at hfalse
  · rintro ⟨hr, herror⟩
    refine ⟨fun value s' hrun => ?_, fun o => ⟨?_, ?_⟩⟩
    · have hreturned := (Prod.mk.inj (Except.ok.inj (hrun₁.symm.trans hrun))).1
      rw [← Option.some.inj hreturned]
      exact hmem.mpr hr
    · rintro ⟨value, s', hrun, hset⟩
      obtain ⟨-, hstate⟩ := Prod.mk.inj (Except.ok.inj (hrun₁.symm.trans hrun))
      obtain rfl := (Prod.mk.inj hstate).1
      exact absurd (hsame.error.trans herror) hset
    · rintro ⟨s', hfalse⟩
      rw [hrun₂, if_pos hr] at hfalse
      simp at hfalse

/-- Behind the last word neither decoder returns. -/
theorem checksRange_outside (h1 : 1 ≤ b) (h32 : b ≤ 32) (hpass : ¬t.Refuses pos b)
    (hout : t.room < pos + b) : ChecksRange min max s₁ s₂ := by
  have hread₁ := (ReadStream.serializeInteger_run (s := s₁) hmin hmax hlt hb).trans
    (Proc.bind_run_error (h₁.takeBits_outside h1 h32 hpass hout))
  have hread₂ := (ReadStream.serializeInteger_run (s := s₂) hmin hmax hlt hb).trans
    (Proc.bind_run_error (h₂.takeBits_outside h1 h32 hpass hout))
  have hrun₁ := CSharp.deserializeInt_error hlt () hread₁
  refine ⟨fun value s' hrun => ?_, fun o => ⟨?_, ?_⟩⟩
  · exact absurd (hrun₁.symm.trans hrun) (by simp)
  · rintro ⟨value, s', hrun, -⟩
    exact absurd (hrun₁.symm.trans hrun) (by simp)
  · rintro ⟨s', hrun⟩
    exact absurd ((Reading.serializeInt_error hlt o hread₂).symm.trans hrun) (by simp)

end Outcomes

/-- The C# decoder keeps its promise where the field is missing and 0 is a value of
the range, and where the field is there, holds no surplus code and nothing went wrong
before. -/
theorem checksRange_iff (hmin : IsInt32 min) (hmax : IsInt32 max) (hlt : min < max)
    (h₁ : s₁.Stands t pos) (h₂ : s₂.Stands t pos) :
    ∃ b : Nat, bitsRequired (toU32 min) (toU32 max) = b ∧
      (ChecksRange min max s₁ s₂ ↔
        (t.Refuses pos b → min ≤ 0 ∧ 0 ≤ max) ∧
        (¬t.Refuses pos b → pos + b ≤ t.room →
          t.value pos b ≤ max - min ∧ s₁.error = .none)) := by
  obtain ⟨b, hb, h1, h32, -, hlow⟩ := bitsRequired_bounds hmin hmax hlt
  refine ⟨b, hb, ?_⟩
  by_cases hrefuse : t.Refuses pos b
  · rw [checksRange_refused hmin hmax hlt hb h₁ h₂ hrefuse]
    exact ⟨fun h0 => ⟨fun _ => h0, fun hpass => absurd hrefuse hpass⟩, fun h => h.1 hrefuse⟩
  · by_cases hfit : pos + b ≤ t.room
    · rw [checksRange_inside hmin hmax hlt hb h₁ h₂ h1 h32 hlow hrefuse hfit]
      exact ⟨fun h => ⟨fun hr => absurd hr hrefuse, fun _ _ => h⟩, fun h => h.2 hrefuse hfit⟩
    · have hout := checksRange_outside hmin hmax hlt hb h₁ h₂ h1 h32 hrefuse (by omega)
      exact ⟨fun _ => ⟨fun hr => absurd hr hrefuse, fun _ hin => absurd hin hfit⟩, fun _ => hout⟩

/-- Both streams over the first `n` bytes of a buffer. -/
theorem stands_init {buffer : List U8} (h4 : buffer.length % 4 = 0) {n : Nat} (hn : n < 2147483648)
    (hsize : n ≤ buffer.length) :
    (ReadStream.init (CSharp.byteArrayToUIntArray buffer) n).Stands (.of buffer n) 0 ∧
      (@ReadStream.init Memory buffer n).Stands (.of buffer n) 0 := by
  have hbits : Platform.bits (CSharp.byteArrayToUIntArray buffer) = Bits.ofList buffer :=
    CSharp.ofList_byteArrayToUIntArray (Nat.dvd_of_mod_eq_zero h4)
  have hlen := Bits.length_ofList buffer
  constructor
  · exact ReadStream.init_stands hn (by rw [hbits]; omega) hbits.symm rfl rfl
  · exact ReadStream.init_stands hn (by change _ ≤ (Bits.ofList buffer).length; omega) rfl rfl rfl

/-- The raw value 5 of the range `[0, 5]` passes, behind the end of the buffer 0 does. -/
theorem checksRange_iff_sample :
    ∃ b : Nat, bitsRequired (toU32 0) (toU32 5) = b ∧
      (ChecksRange 0 5 (ReadStream.init (CSharp.byteArrayToUIntArray [5, 0, 0, 0]) (4 : Nat))
          (@ReadStream.init Memory [5, 0, 0, 0] (4 : Nat)) ↔
        ((Tape.of [5, 0, 0, 0] (4 : Nat)).Refuses 0 b → (0 : Int) ≤ 0 ∧ (0 : Int) ≤ 5) ∧
        (¬(Tape.of [5, 0, 0, 0] (4 : Nat)).Refuses 0 b → 0 + b ≤ (Tape.of [5, 0, 0, 0] (4 : Nat)).room →
          ((Tape.of [5, 0, 0, 0] (4 : Nat)).value 0 b : Int) ≤ 5 - 0 ∧ ProtocolError.none = .none)) := by
  obtain ⟨h₁, h₂⟩ := @stands_init [5, 0, 0, 0] (by decide) 4 (by decide) (by decide)
  exact checksRange_iff (by decide) (by decide) (by decide) h₁ h₂

/-- The surplus code 7 of the range `[0, 5]`. -/
theorem not_checksRange :
    ¬∀ (min max : Int) (buffer : List U8) (n : Nat), IsInt32 min → IsInt32 max → min < max →
      buffer.length % 4 = 0 → n ≤ buffer.length →
      ChecksRange min max (ReadStream.init (CSharp.byteArrayToUIntArray buffer) n)
        (@ReadStream.init Memory buffer n) := by
  intro hall
  have hchecks := hall 0 5 [7, 0, 0, 0] 4 (by decide) (by decide) (by decide) (by decide) (by decide)
  obtain ⟨h₁, h₂⟩ := @stands_init [7, 0, 0, 0] (by decide) 4 (by decide) (by decide)
  have hb : bitsRequired (toU32 0) (toU32 5) = (3 : Nat) := by decide
  obtain ⟨hvalue, -⟩ := (checksRange_inside (by decide) (by decide) (by decide) hb h₁ h₂ (by decide)
    (by decide) (by decide) (by decide) (by decide)).mp hchecks
  revert hvalue
  decide

end RudpNetwork
