/-!
# RudpNetwork.Lib.Proc

Imperative procedures.  A `Proc ε σ α` reads and writes a state `σ`; it stops
with a fault `ε` (an assertion that fails, an access outside a buffer), or it
ends and leaves a state, with a value (`some a`) or without one (`none`).
Ending without a value is C's `return false`: what follows is skipped and the
state reached so far is kept.

The rules come in two kinds: equations that run a procedure step by step, and
`Keeps R`, for a relation `R` between the states before and after that every
completed step respects.

## Main results

* `bind_run_some`, `bind_run_none`, `bind_run_error`, `bind_run_ok` — a sequence, step by
  step and from its end.
* `Keeps.bind`, `Leaves.bind`, `NeverFalse.bind`, `Avoids.bind` — the rules of sequence.
-/

/-- Stop with the fault `e` unless `p` holds. -/
def require {ε : Type} (e : ε) (p : Prop) [Decidable p] : Except ε Unit :=
  if p then .ok () else .error e

@[simp] theorem require_eq_ok {ε : Type} {e : ε} {p : Prop} [Decidable p] {u : Unit} :
    require e p = .ok u ↔ p := by
  by_cases h : p <;> simp [require, h]

instance decidableEqExcept {ε α : Type} [DecidableEq ε] [DecidableEq α] :
    DecidableEq (Except ε α)
  | .ok a, .ok b => decidable_of_iff (a = b) ⟨congrArg _, Except.ok.inj⟩
  | .error e, .error e' => decidable_of_iff (e = e') ⟨congrArg _, Except.error.inj⟩
  | .ok _, .error _ => .isFalse (by simp)
  | .error _, .ok _ => .isFalse (by simp)

namespace Except

/-- A completed sequence completed its two parts. -/
theorem bind_eq_ok_iff {ε α β : Type} {x : Except ε α} {f : α → Except ε β} {b : β} :
    (x >>= f) = .ok b ↔ ∃ a, x = .ok a ∧ f a = .ok b := by
  cases x <;> simp [bind, Except.bind]

theorem pure_eq_ok_iff {ε α : Type} {a b : α} :
    (pure a : Except ε α) = .ok b ↔ a = b := by
  simp [pure, Except.pure]

/-- `x` does not fail with `e`, and its result satisfies `P`. -/
structure Avoids {ε α : Type} (e : ε) (x : Except ε α) (P : α → Prop) : Prop where
  ne : x ≠ .error e
  post : ∀ a, x = .ok a → P a

section Avoids

variable {ε α β : Type} {e e' : ε} {P : α → Prop} {Q : β → Prop}

theorem Avoids.ok {a : α} (h : P a) : Avoids e (.ok a) P := by
  refine ⟨nofun, fun b hb => ?_⟩
  obtain rfl := Except.ok.inj hb
  exact h

theorem Avoids.bind {x : Except ε α} {f : α → Except ε β} (hx : Avoids e x P)
    (hf : ∀ a, P a → Avoids e (f a) Q) : Avoids e (x >>= f) Q := by
  cases x with
  | error e' => exact ⟨fun h => hx.ne (congrArg Except.error (Except.error.inj h)), nofun⟩
  | ok a => exact hf a (hx.post a rfl)

theorem Avoids.bind_ok {x : Except ε α} {f : α → Except ε β} {a : α} (hx : x = .ok a)
    (hf : Avoids e (f a) Q) : Avoids e (x >>= f) Q :=
  hx ▸ hf

/-- What follows may rely on what was required. -/
theorem Avoids.bind_require {p : Prop} [Decidable p] {f : Unit → Except ε β} (hne : e' ≠ e)
    (hf : p → Avoids e (f ()) Q) : Avoids e (require e' p >>= f) Q := by
  refine Avoids.bind (P := fun _ => p) ⟨?_, fun _ h => require_eq_ok.mp h⟩ fun _ hp => hf hp
  by_cases h : p <;> simp [require, h, hne]

end Avoids

end Except

/-- A procedure over the state `σ`. -/
def Proc (ε σ α : Type) : Type := σ → Except ε (Option α × σ)

namespace Proc

variable {ε σ τ α β : Type}

/-- Run `x`, then `f` on its value; an early return of `x` skips `f`. -/
def andThen (x : Proc ε σ α) (f : α → Proc ε σ β) : Proc ε σ β := fun s =>
  match x s with
  | .error e => .error e
  | .ok (none, s') => .ok (none, s')
  | .ok (some a, s') => f a s'

instance : Monad (Proc ε σ) where
  pure a := fun s => .ok (some a, s)
  bind := andThen

/-- `return false`. -/
def returnFalse : Proc ε σ α := fun s => .ok (none, s)

/-- The current state. -/
def get : Proc ε σ σ := fun s => .ok (some s, s)

/-- Change the state by `f`. -/
def modify (f : σ → σ) : Proc ε σ Unit := fun s => .ok (some (), f s)

/-- A step that may fault and leaves the state alone. -/
def lift (x : Except ε α) : Proc ε σ α := fun s => x.map fun a => (some a, s)

instance : MonadLift (Except ε) (Proc ε σ) := ⟨lift⟩

/-- Return `false` unless `p` holds. -/
def check (p : Prop) [Decidable p] : Proc ε σ Unit := if p then pure () else returnFalse

/-- Call `x` and look at its result later: the caller goes on whatever it returned. -/
def attempt (x : Proc ε σ α) : Proc ε σ (Option α) := fun s =>
  match x s with
  | .error e => .error e
  | .ok (o, s') => .ok (some o, s')

/-- Call `x` as a statement, without looking at its result. -/
def ignore (x : Proc ε σ α) : Proc ε σ Unit := fun s =>
  match x s with
  | .error e => .error e
  | .ok (_, s') => .ok (some (), s')

/-- Repeat `x` for `i = 0 .. n - 1`. -/
def times (n : Nat) (x : Proc ε σ Unit) : Proc ε σ Unit :=
  match n with
  | 0 => pure ()
  | n + 1 => do x; times n x

/-! ## running a procedure -/

@[simp] theorem pure_run (a : α) (s : σ) : (pure a : Proc ε σ α) s = .ok (some a, s) := rfl

@[simp] theorem returnFalse_run (s : σ) : (returnFalse : Proc ε σ α) s = .ok (none, s) := rfl

@[simp] theorem get_run (s : σ) : (get : Proc ε σ σ) s = .ok (some s, s) := rfl

@[simp] theorem modify_run (f : σ → σ) (s : σ) :
    (modify f : Proc ε σ Unit) s = .ok (some (), f s) := rfl

/-- A call that returns a value is followed by the rest. -/
theorem bind_run_some {x : Proc ε σ α} {f : α → Proc ε σ β} {s s' : σ} {a : α}
    (h : x s = .ok (some a, s')) : (x >>= f) s = f a s' := by
  change andThen x f s = f a s'
  simp [andThen, h]

/-- After a call that returns `false` nothing is run. -/
theorem bind_run_none {x : Proc ε σ α} {f : α → Proc ε σ β} {s s' : σ}
    (h : x s = .ok (none, s')) : (x >>= f) s = .ok (none, s') := by
  change andThen x f s = .ok (none, s')
  simp [andThen, h]

/-- After a fault nothing is run. -/
theorem bind_run_error {x : Proc ε σ α} {f : α → Proc ε σ β} {s : σ} {e : ε}
    (h : x s = .error e) : (x >>= f) s = .error e := by
  change andThen x f s = .error e
  simp [andThen, h]

/-- A sequence that ends with a function of the value. -/
theorem bind_pure_run {x : Proc ε σ α} (f : α → β) {s s' : σ} {o : Option α}
    (h : x s = .ok (o, s')) : (x >>= fun a => pure (f a)) s = .ok (o.map f, s') := by
  cases o with
  | none => exact bind_run_none h
  | some a => exact bind_run_some h

/-- Calls in sequence may be grouped in any way. -/
theorem bind_assoc {γ : Type} (x : Proc ε σ α) (f : α → Proc ε σ β) (g : β → Proc ε σ γ) :
    x >>= f >>= g = x >>= fun a => f a >>= g := by
  funext s
  change andThen (andThen x f) g s = andThen x (fun a => andThen (f a) g) s
  unfold andThen
  cases x s with
  | error e => rfl
  | ok r => rcases r with ⟨_ | a, s'⟩ <;> rfl

/-- Inversion of a completed sequence: the first part returned early, or both
parts completed. -/
theorem bind_run_ok {x : Proc ε σ α} {f : α → Proc ε σ β} {s s'' : σ} {o : Option β}
    (h : (x >>= f) s = .ok (o, s'')) :
    (x s = .ok (none, s'') ∧ o = none) ∨
      ∃ a s', x s = .ok (some a, s') ∧ f a s' = .ok (o, s'') := by
  change andThen x f s = .ok (o, s'') at h
  unfold andThen at h
  split at h
  · contradiction
  · next s' hx =>
      obtain ⟨rfl, rfl⟩ : none = o ∧ s' = s'' := by simpa using h
      exact .inl ⟨hx, rfl⟩
  · next a s' hx => exact .inr ⟨a, s', hx, h⟩

/-- A sequence with a value is made of two parts with values. -/
theorem bind_run_ok_some {x : Proc ε σ α} {f : α → Proc ε σ β} {s s'' : σ} {b : β}
    (h : (x >>= f) s = .ok (some b, s'')) :
    ∃ a s', x s = .ok (some a, s') ∧ f a s' = .ok (some b, s'') := by
  rcases bind_run_ok h with ⟨-, hnone⟩ | hsome
  · contradiction
  · exact hsome

/-- A computation without state leaves the state alone. -/
theorem lift_run_ok {x : Except ε α} {s s' : σ} {o : Option α} :
    (lift x : Proc ε σ α) s = .ok (o, s') ↔ ∃ a, x = .ok a ∧ o = some a ∧ s' = s := by
  cases x with
  | error e => simp [lift, Except.map]
  | ok a =>
      simp only [lift, Except.map, Except.ok.injEq, Prod.mk.injEq]
      constructor
      · rintro ⟨rfl, rfl⟩
        exact ⟨a, rfl, rfl, rfl⟩
      · rintro ⟨_, rfl, rfl, rfl⟩
        exact ⟨rfl, rfl⟩

/-- A lifted step that succeeds hands its value on. -/
theorem lift_bind_run {x : Except ε α} {f : α → Proc ε σ β} {s : σ} {a : α} (h : x = .ok a) :
    ((lift x : Proc ε σ α) >>= f) s = f a s :=
  bind_run_some (lift_run_ok.mpr ⟨a, h, rfl, rfl⟩)

/-- A requirement that is met is skipped. -/
theorem require_bind_run {p : Prop} [Decidable p] {e : ε} {f : Unit → Proc ε σ β} {s : σ} (hp : p) :
    ((lift (require e p) : Proc ε σ Unit) >>= f) s = f () s :=
  lift_bind_run (require_eq_ok.mpr hp)

/-- A requirement that is not met, or in front of the same fault. -/
theorem require_bind_error {p : Prop} [Decidable p] {e : ε} {f : Unit → Proc ε σ β} {s : σ}
    (h : p → f () s = .error e) :
    ((lift (require e p) : Proc ε σ Unit) >>= f) s = .error e := by
  by_cases hp : p
  · rw [require_bind_run hp, h hp]
  · exact bind_run_error (by rw [lift, require, if_neg hp]; rfl)

/-- A lifted step in front of a completed run succeeded, and left the state alone. -/
theorem lift_bind_run_ok {x : Except ε α} {f : α → Proc ε σ β} {s s' : σ} {o : Option β}
    (h : ((lift x : Proc ε σ α) >>= f) s = .ok (o, s')) :
    ∃ a, x = .ok a ∧ f a s = .ok (o, s') := by
  rcases bind_run_ok h with ⟨hexit, -⟩ | ⟨a, s₁, hlift, hrest⟩
  · obtain ⟨_, -, hnone, -⟩ := lift_run_ok.mp hexit
    contradiction
  · obtain ⟨b, hx, heq, rfl⟩ := lift_run_ok.mp hlift
    obtain rfl := Option.some.inj heq
    exact ⟨a, hx, hrest⟩

/-- `attempt` hands the result to the caller. -/
theorem attempt_run {x : Proc ε σ α} {s s' : σ} {o : Option α} (h : x s = .ok (o, s')) :
    attempt x s = .ok (some o, s') := by
  simp [attempt, h]

/-- `ignore` forgets the result. -/
theorem ignore_run {x : Proc ε σ α} {s s' : σ} {o : Option α} (h : x s = .ok (o, s')) :
    ignore x s = .ok (some (), s') := by
  simp [ignore, h]

/-- What a call did whose result was forgotten. -/
theorem ignore_run_ok {x : Proc ε σ α} {s s' : σ} {o : Option Unit}
    (h : ignore x s = .ok (o, s')) : o = some () ∧ ∃ o', x s = .ok (o', s') := by
  unfold ignore at h
  split at h
  · contradiction
  · next o' s₁ hx =>
      obtain ⟨rfl, rfl⟩ : some () = o ∧ s₁ = s' := by simpa using h
      exact ⟨rfl, o', hx⟩

/-! ## relations every completed run respects -/

/-- Every completed run of `x` relates the states before and after it by `R`. -/
def Keeps (R : σ → σ → Prop) (x : Proc ε σ α) : Prop :=
  ∀ s o s', x s = .ok (o, s') → R s s'

section Keeps

variable {R : σ → σ → Prop}

theorem Keeps.pure (hrefl : ∀ s, R s s) (a : α) : Keeps R (pure a : Proc ε σ α) := by
  intro s o s' h
  obtain ⟨-, rfl⟩ : some a = o ∧ s = s' := by simpa using h
  exact hrefl s

theorem Keeps.returnFalse (hrefl : ∀ s, R s s) : Keeps R (returnFalse : Proc ε σ α) := by
  intro s o s' h
  obtain ⟨-, rfl⟩ : none = o ∧ s = s' := by simpa using h
  exact hrefl s

theorem Keeps.lift (hrefl : ∀ s, R s s) (x : Except ε α) : Keeps R (lift x : Proc ε σ α) := by
  intro s o s' h
  obtain ⟨_, -, -, rfl⟩ := lift_run_ok.mp h
  exact hrefl s'

/-- A transitive relation is kept by a sequence whose parts keep it. -/
theorem Keeps.bind (htrans : ∀ a b c, R a b → R b c → R a c) {x : Proc ε σ α}
    {f : α → Proc ε σ β} (hx : Keeps R x) (hf : ∀ a, Keeps R (f a)) : Keeps R (x >>= f) := by
  intro s o s'' h
  rcases bind_run_ok h with ⟨h1, -⟩ | ⟨a, s', h1, h2⟩
  · exact hx s _ s'' h1
  · exact htrans s s' s'' (hx s _ s' h1) (hf a s' _ s'' h2)

theorem Keeps.ignore {x : Proc ε σ α} (hx : Keeps R x) : Keeps R (ignore x) := by
  intro s o s' h
  obtain ⟨-, o', hrun⟩ := ignore_run_ok h
  exact hx s o' s' hrun

theorem Keeps.times (hrefl : ∀ s, R s s) (htrans : ∀ a b c, R a b → R b c → R a c)
    {x : Proc ε σ Unit} (hx : Keeps R x) (n : Nat) : Keeps R (times n x) := by
  induction n with
  | zero => exact Keeps.pure hrefl _
  | succ n ih => exact Keeps.bind htrans hx fun _ => ih

theorem Keeps.forM (hrefl : ∀ s, R s s) (htrans : ∀ a b c, R a b → R b c → R a c)
    {f : τ → Proc ε σ PUnit} {l : List τ} (hf : ∀ a ∈ l, Keeps R (f a)) : Keeps R (forM l f) := by
  induction l with
  | nil => exact Keeps.pure hrefl _
  | cons a l ih =>
      rw [List.forM_cons]
      exact Keeps.bind htrans (hf a (by simp)) fun _ =>
        ih fun b hb => hf b (List.mem_cons_of_mem a hb)

end Keeps

/-- Every completed run of `x` leaves the part `view` of the state alone. -/
def Leaves {γ : Type} (view : σ → γ) (x : Proc ε σ α) : Prop := Keeps (fun s s' => view s' = view s) x

section Leaves

variable {γ : Type} {view : σ → γ}

theorem Leaves.pure (a : α) : Leaves view (pure a : Proc ε σ α) :=
  Keeps.pure (R := fun s s' => view s' = view s) (fun _ => rfl) a

theorem Leaves.returnFalse : Leaves view (returnFalse : Proc ε σ α) :=
  Keeps.returnFalse (R := fun s s' => view s' = view s) fun _ => rfl

theorem Leaves.lift (x : Except ε α) : Leaves view (lift x : Proc ε σ α) :=
  Keeps.lift (R := fun s s' => view s' = view s) (fun _ => rfl) x

/-- A change of the state that the view does not see. -/
theorem Leaves.modify {f : σ → σ} (h : ∀ s, view (f s) = view s) :
    Leaves view (modify f : Proc ε σ Unit) := by
  intro s o s' hrun
  obtain ⟨-, rfl⟩ : some () = o ∧ f s = s' := by simpa [Proc.modify] using hrun
  exact h s

/-- A sequence leaves alone what both of its parts leave alone. -/
theorem Leaves.bind {x : Proc ε σ α} {f : α → Proc ε σ β} (hx : Leaves view x)
    (hf : ∀ a, Leaves view (f a)) : Leaves view (x >>= f) :=
  Keeps.bind (R := fun s s' => view s' = view s) (fun _ _ _ h h' => h'.trans h) hx hf

theorem Leaves.check (p : Prop) [Decidable p] : Leaves view (check p : Proc ε σ Unit) := by
  unfold Proc.check
  split
  · exact Leaves.pure ()
  · exact Leaves.returnFalse

theorem Leaves.attempt {x : Proc ε σ α} (hx : Leaves view x) : Leaves view (attempt x) := by
  intro s o s' hrun
  unfold Proc.attempt at hrun
  split at hrun
  · contradiction
  · next o' s₁ h =>
      obtain ⟨-, rfl⟩ := Prod.mk.inj (Except.ok.inj hrun)
      exact hx s o' s₁ h

theorem Leaves.ignore {x : Proc ε σ α} (hx : Leaves view x) : Leaves view (ignore x) :=
  Keeps.ignore hx

theorem Leaves.times {x : Proc ε σ Unit} (hx : Leaves view x) (n : Nat) : Leaves view (times n x) :=
  Keeps.times (R := fun s s' => view s' = view s) (fun _ => rfl) (fun _ _ _ h h' => h'.trans h) hx n

end Leaves

/-- No completed run of `x` returns `false`. -/
def NeverFalse (x : Proc ε σ α) : Prop := ∀ s s', x s ≠ .ok (none, s')

theorem NeverFalse.pure (a : α) : NeverFalse (pure a : Proc ε σ α) := by
  intro s s' h
  simp at h

theorem NeverFalse.lift (x : Except ε α) : NeverFalse (lift x : Proc ε σ α) := by
  intro s s' h
  obtain ⟨_, -, hnone, -⟩ := lift_run_ok.mp h
  contradiction

theorem NeverFalse.ignore (x : Proc ε σ Unit) : NeverFalse (ignore x) := by
  intro s s' h
  exact absurd (ignore_run_ok h).1 (by simp)

/-- A sequence of calls that never return `false`. -/
theorem NeverFalse.bind {x : Proc ε σ α} {f : α → Proc ε σ β} (hx : NeverFalse x)
    (hf : ∀ a, NeverFalse (f a)) : NeverFalse (x >>= f) := by
  intro s s'' h
  rcases bind_run_ok h with ⟨h1, -⟩ | ⟨a, s', -, h2⟩
  · exact hx s s'' h1
  · exact hf a s' s'' h2

theorem NeverFalse.times {x : Proc ε σ Unit} (hx : NeverFalse x) (n : Nat) :
    NeverFalse (times n x) := by
  induction n with
  | zero => exact NeverFalse.pure ()
  | succ n ih => exact NeverFalse.bind hx fun _ => ih

end Proc
