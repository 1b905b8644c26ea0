import RudpNetwork.Lib.Proc

/-!
# RudpNetwork.Lib.Triple

Pre- and postconditions of procedures.

A procedure that returns has two ways to do it, so a `Proc.Triple` has two
postconditions: `Q` for the value and the state with which the caller goes on,
and `E` for the state in which `return false` leaves it.  A run that stops with
a fault satisfies every triple.
-/

namespace Proc

variable {ε σ α β : Type}

/-- From a state with `P`, `x` goes on with `Q` or returns `false` with `E`. -/
structure Triple (P : σ → Prop) (x : Proc ε σ α) (Q : α → σ → Prop) (E : σ → Prop) : Prop where
  value : ∀ s a s', P s → x s = .ok (some a, s') → Q a s'
  exit : ∀ s s', P s → x s = .ok (none, s') → E s'

namespace Triple

variable {P P' E E' : σ → Prop} {Q Q' : α → σ → Prop} {R : β → σ → Prop}

theorem pure {a : α} (h : ∀ s, P s → Q a s) : Triple P (pure a : Proc ε σ α) Q E where
  value s b s' hs hrun := by
    obtain ⟨rfl, rfl⟩ : a = b ∧ s = s' := by simpa using hrun
    exact h s hs
  exit s s' _ hrun := by simp at hrun

theorem returnFalse (h : ∀ s, P s → E s) : Triple P (returnFalse : Proc ε σ α) Q E where
  value s a s' _ hrun := by simp at hrun
  exit s s' hs hrun := by
    obtain rfl : s = s' := by simpa using hrun
    exact h s hs

theorem modify {f : σ → σ} {Q : Unit → σ → Prop} (h : ∀ s, P s → Q () (f s)) :
    Triple P (modify f : Proc ε σ Unit) Q E where
  value s _ s' hs hrun := by
    obtain rfl : f s = s' := by simpa using hrun
    exact h s hs
  exit s s' _ hrun := by simp at hrun

theorem lift {x : Except ε α} (h : ∀ a s, x = .ok a → P s → Q a s) :
    Triple P (lift x : Proc ε σ α) Q E where
  value s a s' hs hrun := by
    obtain ⟨b, hx, heq, rfl⟩ := lift_run_ok.mp hrun
    obtain rfl := Option.some.inj heq
    exact h a s' hx hs
  exit s s' _ hrun := by
    obtain ⟨b, -, heq, -⟩ := lift_run_ok.mp hrun
    contradiction

/-- A check goes on where it holds and returns `false` where it does not. -/
theorem check {p : Prop} [Decidable p] {Q : Unit → σ → Prop} (h : ∀ s, P s → p → Q () s)
    (hE : ∀ s, P s → ¬p → E s) : Triple P (check p : Proc ε σ Unit) Q E := by
  unfold Proc.check
  split
  · next hp => exact pure fun s hs => h s hs hp
  · next hp => exact returnFalse fun s hs => hE s hs hp

/-- The rule of consequence. -/
theorem weaken {x : Proc ε σ α} (hx : Triple P x Q E) (hQ : ∀ a s, Q a s → Q' a s)
    (hE : ∀ s, E s → E' s) : Triple P x Q' E' where
  value s a s' hs hrun := hQ a s' (hx.value s a s' hs hrun)
  exit s s' hs hrun := hE s' (hx.exit s s' hs hrun)

/-- The rule of sequence. -/
theorem bind {x : Proc ε σ α} {f : α → Proc ε σ β} (hx : Triple P x Q E)
    (hf : ∀ a, Triple (Q a) (f a) R E) : Triple P (x >>= f) R E where
  value s b s'' hs hrun := by
    obtain ⟨a, s', h1, h2⟩ := bind_run_ok_some hrun
    exact (hf a).value s' b s'' (hx.value s a s' hs h1) h2
  exit s s'' hs hrun := by
    rcases bind_run_ok hrun with ⟨h1, -⟩ | ⟨a, s', h1, h2⟩
    · exact hx.exit s s'' hs h1
    · exact (hf a).exit s' s'' (hx.value s a s' hs h1) h2

/-- A call whose result is not looked at goes on in both cases. -/
theorem ignore {x : Proc ε σ α} {Q : Unit → σ → Prop}
    (hx : Triple P x (fun _ => Q ()) (Q ())) : Triple P (ignore x) Q E where
  value s u s' hs hrun := by
    unfold Proc.ignore at hrun
    split at hrun
    · contradiction
    · next o s₁ h =>
        obtain rfl : s₁ = s' := by simpa using hrun
        cases o with
        | none => exact hx.exit s s₁ hs h
        | some a => exact hx.value s a s₁ hs h
  exit s s' _ hrun := by
    unfold Proc.ignore at hrun
    split at hrun <;> simp at hrun

theorem attempt {x : Proc ε σ α} {Q : Option α → σ → Prop}
    (hx : Triple P x (fun a => Q (some a)) (Q none)) : Triple P (attempt x) Q E where
  value s o s' hs hrun := by
    unfold Proc.attempt at hrun
    split at hrun
    · contradiction
    · next o' s₁ h =>
        obtain ⟨rfl, rfl⟩ : o' = o ∧ s₁ = s' := by simpa using hrun
        cases o' with
        | none => exact hx.exit s s₁ hs h
        | some a => exact hx.value s a s₁ hs h
  exit s s' _ hrun := by
    unfold Proc.attempt at hrun
    split at hrun <;> simp at hrun

/-- An invariant of a loop. -/
theorem times {x : Proc ε σ Unit} (hx : Triple P x (fun _ => P) E) (n : Nat) :
    Triple P (times n x) (fun _ => P) E := by
  induction n with
  | zero => exact pure fun _ hs => hs
  | succ n ih => exact bind hx fun _ => ih

end Triple

end Proc
