import RudpNetwork.Lib.Bits

/-!
# RudpNetwork.Lib.Enc

Encodings that know where they start.  An `Enc` gives, for each bit position,
the bits that a field appends there; only alignment depends on the position.
Encodings are composed in sequence, the second starting where the first ends.

## Main results

* `append_assoc`, `length_append` — encodings in a row, each at the position where the one
  before has ended.
* `Within.append`, `Within.concat` — bounds on their lengths.
-/

/-- The bits a field takes when it starts at a position. -/
def Enc : Type := Nat → List Bool

namespace Enc

/-- Nothing. -/
def empty : Enc := fun _ => []

/-- The same bits everywhere. -/
def const (l : List Bool) : Enc := fun _ => l

/-- Zeros up to the next byte. -/
def align : Enc := fun pos => Bits.padding pos

/-- `e₁`, then `e₂` where `e₁` ends. -/
def append (e₁ e₂ : Enc) : Enc := fun pos => e₁ pos ++ e₂ (pos + (e₁ pos).length)

instance : Append Enc := ⟨append⟩

/-- The encodings of a list, one after the other. -/
def concat : List Enc → Enc
  | [] => empty
  | e :: es => e ++ concat es

/-- The second encoding begins where the first has ended. -/
theorem append_apply (e₁ e₂ : Enc) (pos : Nat) :
    (e₁ ++ e₂) pos = e₁ pos ++ e₂ (pos + (e₁ pos).length) := rfl

/-- The lengths add up, each at its own position. -/
theorem length_append (e₁ e₂ : Enc) (pos : Nat) :
    ((e₁ ++ e₂) pos).length = (e₁ pos).length + (e₂ (pos + (e₁ pos).length)).length := by
  rw [append_apply, List.length_append]

@[simp] theorem empty_append (e : Enc) : empty ++ e = e := rfl

/-- Nothing after an encoding. -/
@[simp] theorem append_empty (e : Enc) : e ++ empty = e := by
  funext pos
  rw [append_apply, empty, List.append_nil]

/-- Encodings in a row may be grouped in any way. -/
theorem append_assoc (e₁ e₂ e₃ : Enc) : e₁ ++ e₂ ++ e₃ = e₁ ++ (e₂ ++ e₃) := by
  funext pos
  simp only [append_apply, List.append_assoc, List.length_append, Nat.add_assoc]

/-- Bits that do not depend on the position. -/
theorem const_append (l r : List Bool) : const l ++ const r = const (l ++ r) := rfl

/-- The encoding takes at most `k` bits, wherever it starts. -/
def Within (e : Enc) (k : Nat) : Prop := ∀ pos, (e pos).length ≤ k

/-- The bounds of two encodings add up. -/
theorem Within.append {e₁ e₂ : Enc} {k m : Nat} (h₁ : Within e₁ k) (h₂ : Within e₂ m) :
    Within (e₁ ++ e₂) (k + m) := by
  intro pos
  rw [length_append]
  exact Nat.add_le_add (h₁ pos) (h₂ _)

/-- A bound for each encoding of a list is one for the whole. -/
theorem Within.concat {es : List Enc} {k : Nat} (h : ∀ e ∈ es, Within e k) :
    Within (concat es) (es.length * k) := by
  induction es with
  | nil => exact fun pos => Nat.zero_le _
  | cons e es ih =>
      rw [List.length_cons, Nat.succ_mul, Nat.add_comm]
      exact Within.append (h e List.mem_cons_self) (ih fun e' he' => h e' (List.mem_cons_of_mem e he'))

theorem Within.mono {e : Enc} {k m : Nat} (h : Within e k) (hle : k ≤ m) : Within e m :=
  fun pos => (h pos).trans hle

theorem within_const (l : List Bool) : Within (const l) l.length := fun _ => Nat.le_refl _

/-- An alignment has seven bits at most. -/
theorem within_align : Within align 7 := by
  intro pos
  rw [align, Bits.length_padding]
  omega

/-- The same bits several times. -/
theorem concat_replicate_const (n : Nat) (l : List Bool) :
    concat (List.replicate n (const l)) = const (List.replicate n l).flatten := by
  induction n with
  | zero => rfl
  | succ n ih => rw [List.replicate_succ, concat, ih, const_append, List.replicate_succ,
      List.flatten_cons]

end Enc
