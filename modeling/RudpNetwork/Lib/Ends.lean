import Mathlib.Logic.Function.Iterate
import RudpNetwork.Lib.Proc

/-!
# RudpNetwork.Lib.Ends

When a procedure ends without a fault.

A `Proc.Triple` says nothing of a run that stops with a fault.  `Proc.Ends`
decides the question: from the states with `P`, `x` ends if and only if `S`
holds, and then with one and the same outcome.  The outcome of a step decides
what is run next, so the conditions of the steps of a sequence add up to a
condition of the sequence.  `Proc.Completes` is what is left of it at the end,
where the outcome does not matter.

## Main results

* `Ends.bind` — two calls in sequence end as the second does after the first.
* `Completes.bind` — they complete exactly when both do.
-/

namespace Proc

variable {ε σ α β : Type}

/-- From every state with `P`, `x` ends with the outcome `out` in a state with `Q`
if `S` holds, and stops with a fault if `S` does not. -/
structure Ends (P : σ → Prop) (x : Proc ε σ α) (S : Prop) (out : Option α) (Q : σ → Prop) :
    Prop where
  run : ∀ s, P s → S → ∃ s', x s = .ok (out, s') ∧ Q s'
  fault : ∀ s, P s → ¬S → ∃ e, x s = .error e

/-- From every state with `P`, `x` ends without a fault if and only if `S` holds. -/
def Completes (P : σ → Prop) (x : Proc ε σ α) (S : Prop) : Prop :=
  ∀ s, P s → ((∃ r, x s = .ok r) ↔ S)

namespace Ends

variable {P Q R : σ → Prop} {S T : Prop} {a : α} {out : Option α} {out' : Option β}

theorem pure (a : α) : Ends P (pure a : Proc ε σ α) True (some a) P where
  run s hs _ := ⟨s, rfl, hs⟩
  fault _ _ h := absurd trivial h

theorem returnFalse : Ends P (returnFalse : Proc ε σ α) True none P where
  run s hs _ := ⟨s, rfl, hs⟩
  fault _ _ h := absurd trivial h

theorem modify {f : σ → σ} (h : ∀ s, P s → Q (f s)) :
    Ends P (modify f : Proc ε σ Unit) True (some ()) Q where
  run s hs _ := ⟨f s, rfl, h s hs⟩
  fault _ _ h := absurd trivial h

theorem check (p : Prop) [Decidable p] :
    Ends P (check p : Proc ε σ Unit) True (if p then some () else none) P := by
  unfold Proc.check
  split
  · exact pure ()
  · exact returnFalse

/-- A lifted step that succeeds. -/
theorem lift_bind {x : Except ε α} {f : α → Proc ε σ β} (hx : x = .ok a)
    (hf : Ends P (f a) S out' Q) : Ends P (Proc.lift x >>= f) S out' Q where
  run s hs hS := by
    obtain ⟨s', hrun, hs'⟩ := hf.run s hs hS
    exact ⟨s', (lift_bind_run hx).trans hrun, hs'⟩
  fault s hs hS := by
    obtain ⟨e, hrun⟩ := hf.fault s hs hS
    exact ⟨e, (lift_bind_run hx).trans hrun⟩

/-- A lifted step that faults. -/
theorem lift_fault {x : Except ε α} {f : α → Proc ε σ β} {e : ε} (hx : x = .error e) :
    Ends P (Proc.lift x >>= f) False out' Q where
  run _ _ h := h.elim
  fault s _ _ := ⟨e, bind_run_error (by rw [hx]; rfl)⟩

/-- An assertion that holds. -/
theorem require {e : ε} {p : Prop} [Decidable p] {f : Unit → Proc ε σ β} (hp : p)
    (hf : Ends P (f ()) S out' Q) : Ends P (Proc.lift (require e p) >>= f) S out' Q :=
  lift_bind (require_eq_ok.mpr hp) hf

theorem attempt {x : Proc ε σ α} (hx : Ends P x S out Q) :
    Ends P (Proc.attempt x) S (some out) Q where
  run s hs hS := by
    obtain ⟨s', hrun, hs'⟩ := hx.run s hs hS
    exact ⟨s', attempt_run hrun, hs'⟩
  fault s hs hS := by
    obtain ⟨e, hrun⟩ := hx.fault s hs hS
    exact ⟨e, by rw [Proc.attempt, hrun]⟩

theorem ignore {x : Proc ε σ α} (hx : Ends P x S out Q) : Ends P (Proc.ignore x) S (some ()) Q where
  run s hs hS := by
    obtain ⟨s', hrun, hs'⟩ := hx.run s hs hS
    exact ⟨s', ignore_run hrun, hs'⟩
  fault s hs hS := by
    obtain ⟨e, hrun⟩ := hx.fault s hs hS
    exact ⟨e, by rw [Proc.ignore, hrun]⟩

/-- A step whose value goes through a function. -/
theorem map {x : Proc ε σ α} (f : α → β) (hx : Ends P x S out Q) :
    Ends P (x >>= fun a => Pure.pure (f a)) S (out.map f) Q where
  run s hs hS := by
    obtain ⟨s', hrun, hs'⟩ := hx.run s hs hS
    exact ⟨s', bind_pure_run f hrun, hs'⟩
  fault s hs hS := by
    obtain ⟨e, hrun⟩ := hx.fault s hs hS
    exact ⟨e, bind_run_error hrun⟩

/-- A step that never returns `false`, and what follows. -/
theorem bind {x : Proc ε σ α} {f : α → Proc ε σ β} (hx : Ends P x S (some a) Q)
    (hf : Ends Q (f a) T out' R) : Ends P (x >>= f) (S ∧ T) out' R where
  run s hs hST := by
    obtain ⟨s₁, hrun, hs₁⟩ := hx.run s hs hST.1
    obtain ⟨s', hrun', hs'⟩ := hf.run s₁ hs₁ hST.2
    exact ⟨s', (bind_run_some hrun).trans hrun', hs'⟩
  fault s hs hST := by
    by_cases hS : S
    · obtain ⟨s₁, hrun, hs₁⟩ := hx.run s hs hS
      obtain ⟨e, hrun'⟩ := hf.fault s₁ hs₁ fun hT => hST ⟨hS, hT⟩
      exact ⟨e, (bind_run_some hrun).trans hrun'⟩
    · obtain ⟨e, hrun⟩ := hx.fault s hs hS
      exact ⟨e, bind_run_error hrun⟩

/-- A loop that goes from `P i` to `P (next i)` every time. -/
theorem times {ι : Type} {P : ι → σ → Prop} {S : ι → Prop} {next : ι → ι} {x : Proc ε σ Unit}
    (hx : ∀ i, Ends (P i) x (S i) (some ()) (P (next i))) (n : Nat) (i : ι) :
    Ends (P i) (Proc.times n x) (∀ k < n, S (next^[k] i)) (some ()) (P (next^[n] i)) := by
  induction n generalizing i with
  | zero => exact ⟨fun s hs _ => ⟨s, rfl, hs⟩, fun _ _ h => absurd (fun _ hk => nomatch hk) h⟩
  | succ n ih =>
      have hboth := bind (hx i) (f := fun _ => Proc.times n x) (ih (next i))
      have hcond : (S i ∧ ∀ k < n, S (next^[k] (next i))) ↔ ∀ k < n + 1, S (next^[k] i) := by
        constructor
        · rintro ⟨h0, hrest⟩ k hk
          cases k with
          | zero => exact h0
          | succ k => exact hrest k (by omega)
        · exact fun h => ⟨h 0 (by omega), fun k hk => h (k + 1) (by omega)⟩
      rwa [hcond] at hboth

theorem completes {x : Proc ε σ α} (hx : Ends P x S out Q) : Completes P x S := by
  intro s hs
  constructor
  · rintro ⟨r, hrun⟩
    by_contra hS
    obtain ⟨e, herror⟩ := hx.fault s hs hS
    rw [hrun] at herror
    contradiction
  · intro hS
    obtain ⟨s', hrun, -⟩ := hx.run s hs hS
    exact ⟨_, hrun⟩

end Ends

namespace Completes

variable {P Q : σ → Prop} {S S' : Prop} {T : α → Prop} {out : Option α}

theorem congr {x : Proc ε σ α} (hx : Completes P x S) (h : S ↔ S') : Completes P x S' := by
  rwa [← propext h]

theorem lift_bind {x : Except ε α} {f : α → Proc ε σ β} {a : α} (hx : x = .ok a)
    (hf : Completes P (f a) S) : Completes P (Proc.lift x >>= f) S := by
  intro s hs
  rw [lift_bind_run hx]
  exact hf s hs

theorem require {e : ε} {p : Prop} [Decidable p] {f : Unit → Proc ε σ β} (hp : p)
    (hf : Completes P (f ()) S) : Completes P (Proc.lift (require e p) >>= f) S :=
  lift_bind (require_eq_ok.mpr hp) hf

/-- A sequence completes if its first part does, and the second after each value
that the first part may hand on. -/
theorem bind {x : Proc ε σ α} {f : α → Proc ε σ β} (hx : Ends P x S out Q)
    (hf : ∀ a, out = some a → Completes Q (f a) (T a)) :
    Completes P (x >>= f) (S ∧ ∀ a, out = some a → T a) := by
  intro s hs
  by_cases hS : S
  · obtain ⟨s₁, hrun, hs₁⟩ := hx.run s hs hS
    cases out with
    | none =>
        rw [bind_run_none hrun]
        simp [hS]
    | some a =>
        rw [bind_run_some hrun, hf a rfl s₁ hs₁]
        simp [hS]
  · obtain ⟨e, hrun⟩ := hx.fault s hs hS
    rw [bind_run_error hrun]
    simp [hS]

/-- A first part that never returns `false`. -/
theorem bind_some {x : Proc ε σ α} {f : α → Proc ε σ β} {a : α} (hx : Ends P x S (some a) Q)
    (hf : Completes Q (f a) S') : Completes P (x >>= f) (S ∧ S') := by
  refine (bind (T := fun _ => S') hx fun b hb => ?_).congr (by simp)
  obtain rfl := Option.some.inj hb
  exact hf

/-- What follows and never faults does not matter. -/
theorem before {x : Proc ε σ α} {f : α → Proc ε σ β} (hx : Completes P x S)
    (hf : ∀ a s, ∃ r, f a s = .ok r) : Completes P (x >>= f) S := by
  intro s hs
  rw [← hx s hs]
  cases hrun : x s with
  | error e => simp [bind_run_error hrun]
  | ok r =>
      obtain ⟨o, s'⟩ := r
      cases o with
      | none => simp [bind_run_none hrun]
      | some a => simp [bind_run_some hrun, hf a s']

end Completes

end Proc
