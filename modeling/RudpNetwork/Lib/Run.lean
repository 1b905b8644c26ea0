import RudpNetwork.Lib.Proc

/-!
# RudpNetwork.Lib.Run

Runs of a state machine.  `step s a` performs the operation `a` in the state `s`
and may fault; a run performs a list of operations.  The rules turn a fact about
one step into a fact about every run: `run_keeps` for an invariant that every
step preserves, `run_keeps_along` for one that only some steps preserve,
`run_related_along` for two machines in step, `run_always` for what holds in every state
that a run reaches, whether it completes or not.

## Main results

* `run_keeps`, `run_keeps_along` — an invariant of the steps is one of the runs.
* `run_alike`, `run_related_along` — two machines in step.
* `run_always`, `run_inv` — what holds of every state that a run reaches.
-/

namespace Run

variable {ε σ α : Type}

/-- Perform the operations one after the other. -/
def run (step : σ → α → Except ε σ) : List α → σ → Except ε σ
  | [], s => .ok s
  | a :: as, s => do
      let s' ← step s a
      run step as s'

/-- Every operation of the run meets the condition `C` in the state it is
performed in. -/
def Along (step : σ → α → Except ε σ) (C : σ → α → Prop) : List α → σ → Prop
  | [], _ => True
  | a :: as, s => C s a ∧ ∀ s', step s a = .ok s' → Along step C as s'

/-- Every state that the run reaches meets `P`. -/
def Always (step : σ → α → Except ε σ) (P : σ → Prop) : List α → σ → Prop
  | [], s => P s
  | a :: as, s => P s ∧ ∀ s', step s a = .ok s' → Always step P as s'

variable {step : σ → α → Except ε σ}

/-- A run is its first step and the rest. -/
theorem run_cons_eq_ok {a : α} {as : List α} {s s'' : σ} :
    run step (a :: as) s = .ok s'' ↔ ∃ s', step s a = .ok s' ∧ run step as s' = .ok s'' :=
  Except.bind_eq_ok_iff

/-- A run of two lists is two runs. -/
theorem run_append_eq_ok {as bs : List α} {s s'' : σ} :
    run step (as ++ bs) s = .ok s'' ↔ ∃ s', run step as s = .ok s' ∧ run step bs s' = .ok s'' := by
  induction as generalizing s with
  | nil => simp [run]
  | cons a as ih =>
      simp only [List.cons_append, run_cons_eq_ok, ih]
      constructor
      · rintro ⟨s₁, h1, s', h2, h3⟩
        exact ⟨s', ⟨s₁, h1, h2⟩, h3⟩
      · rintro ⟨s', ⟨s₁, h1, h2⟩, h3⟩
        exact ⟨s₁, h1, s', h2, h3⟩

/-- A condition along a run of two lists holds along both parts. -/
theorem along_append {C : σ → α → Prop} {as bs : List α} {s s' : σ}
    (h : Along step C (as ++ bs) s) (hrun : run step as s = .ok s') :
    Along step C as s ∧ Along step C bs s' := by
  induction as generalizing s with
  | nil =>
      obtain rfl : s = s' := by simpa [run] using hrun
      exact ⟨trivial, h⟩
  | cons a as ih =>
      obtain ⟨s₁, hstep, hrest⟩ := run_cons_eq_ok.mp hrun
      obtain ⟨hhead, htail⟩ := ih (h.2 s₁ hstep) hrest
      refine ⟨⟨h.1, fun s₂ h2 => ?_⟩, htail⟩
      obtain rfl : s₁ = s₂ := Except.ok.inj (hstep.symm.trans h2)
      exact hhead

/-- A run that goes on where another one ended. -/
theorem Along.append {C : σ → α → Prop} {as bs : List α} {s : σ} (has : Along step C as s)
    (hbs : ∀ s', run step as s = .ok s' → Along step C bs s') : Along step C (as ++ bs) s := by
  induction as generalizing s with
  | nil => exact hbs s rfl
  | cons a as ih =>
      refine ⟨has.1, fun s' hstep => ih (has.2 s' hstep) fun s'' hrun => ?_⟩
      exact hbs s'' (run_cons_eq_ok.mpr ⟨s', hstep, hrun⟩)

theorem Along.mono {C D : σ → α → Prop} {as : List α} {s : σ} (h : Along step C as s)
    (hCD : ∀ s a, C s a → D s a) : Along step D as s := by
  induction as generalizing s with
  | nil => trivial
  | cons a as ih => exact ⟨hCD s a h.1, fun s' hstep => ih (h.2 s' hstep)⟩

theorem Along.and {C D : σ → α → Prop} {as : List α} {s : σ} (hC : Along step C as s)
    (hD : Along step D as s) : Along step (fun s a => C s a ∧ D s a) as s := by
  induction as generalizing s with
  | nil => trivial
  | cons a as ih => exact ⟨⟨hC.1, hD.1⟩, fun s' hstep => ih (hC.2 s' hstep) (hD.2 s' hstep)⟩

/-- The operations of a run that completes all complete. -/
theorem along_of_run {C : σ → α → Prop} (hC : ∀ s a s', step s a = .ok s' → C s a) {as : List α}
    {s s' : σ} (h : run step as s = .ok s') : Along step C as s := by
  induction as generalizing s with
  | nil => trivial
  | cons a as ih =>
      obtain ⟨s₁, hstep, hrest⟩ := run_cons_eq_ok.mp h
      refine ⟨hC s a s₁ hstep, fun s₂ hstep' => ?_⟩
      obtain rfl := Except.ok.inj (hstep.symm.trans hstep')
      exact ih hrest

/-- The state at the end of a run is one that it reaches. -/
theorem Always.end {P : σ → Prop} {as : List α} {s s' : σ} (h : Always step P as s)
    (hrun : run step as s = .ok s') : P s' := by
  induction as generalizing s with
  | nil =>
      obtain rfl : s = s' := by simpa [run] using hrun
      exact h
  | cons a as ih =>
      obtain ⟨s₁, hstep, hrest⟩ := run_cons_eq_ok.mp hrun
      exact ih (h.2 s₁ hstep) hrest

/-- What an invariant gives holds in every state of a run that keeps the invariant. -/
theorem run_always {C : σ → α → Prop} {Inv P : σ → Prop} (hP : ∀ s, Inv s → P s)
    (hstep : ∀ s a s', Inv s → C s a → step s a = .ok s' → Inv s') {as : List α} {s : σ}
    (hC : Along step C as s) (hs : Inv s) : Always step P as s := by
  induction as generalizing s with
  | nil => exact hP s hs
  | cons a as ih => exact ⟨hP s hs, fun s' h => ih (hC.2 s' h) (hstep s a s' hs hC.1 h)⟩

/-- A condition that does not look at the states. -/
theorem along_of_forall {D : α → Prop} {as : List α} (has : ∀ a ∈ as, D a) (s : σ) :
    Along step (fun _ a => D a) as s := by
  induction as generalizing s with
  | nil => trivial
  | cons a as ih =>
      exact ⟨has a List.mem_cons_self,
        fun s' _ => ih (fun b hb => has b (List.mem_cons_of_mem a hb)) s'⟩

/-- Where an invariant gives the condition of every operation that is performed. -/
theorem along_of_inv {C : σ → α → Prop} {D : α → Prop} {Inv : σ → Prop}
    (hC : ∀ s a, Inv s → D a → C s a)
    (hstep : ∀ s a s', Inv s → D a → C s a → step s a = .ok s' → Inv s') {as : List α} {s : σ}
    (has : ∀ a ∈ as, D a) (hs : Inv s) : Along step C as s := by
  induction as generalizing s with
  | nil => trivial
  | cons a as ih =>
      have ha := has a List.mem_cons_self
      have hc := hC s a hs ha
      exact ⟨hc, fun s' h =>
        ih (fun b hb => has b (List.mem_cons_of_mem a hb)) (hstep s a s' hs ha hc h)⟩

/-- Two machines that perform the same operations: where those that meet `C`
complete in both and preserve a relation between the states, runs of them do. -/
theorem run_related_along {τ : Type} {step' : τ → α → Except ε τ} {C : σ → α → Prop}
    {R : σ → τ → Prop}
    (hstep : ∀ s t a, R s t → C s a →
      ∃ s' t', step s a = .ok s' ∧ step' t a = .ok t' ∧ R s' t') {as : List α} {s : σ} {t : τ}
    (hR : R s t) (h : Along step C as s) :
    ∃ s' t', run step as s = .ok s' ∧ run step' as t = .ok t' ∧ R s' t' := by
  induction as generalizing s t with
  | nil => exact ⟨s, t, rfl, rfl, hR⟩
  | cons a as ih =>
      obtain ⟨s₁, t₁, h1, h1', hR₁⟩ := hstep s t a hR h.1
      obtain ⟨s', t', h2, h2', hR'⟩ := ih hR₁ (h.2 s₁ h1)
      exact ⟨s', t', run_cons_eq_ok.mpr ⟨s₁, h1, h2⟩, run_cons_eq_ok.mpr ⟨t₁, h1', h2'⟩, hR'⟩

/-- Two machines end alike: with the same fault, or in states that are related. -/
inductive Alike {τ : Type} (R : σ → τ → Prop) : Except ε σ → Except ε τ → Prop
  | ok {s : σ} {t : τ} (h : R s t) : Alike R (.ok s) (.ok t)
  | error (e : ε) : Alike R (.error e) (.error e)

theorem Alike.mono {τ : Type} {R S : σ → τ → Prop} {x : Except ε σ} {y : Except ε τ}
    (h : Alike R x y) (hRS : ∀ s t, R s t → S s t) : Alike S x y := by
  cases h with
  | ok h => exact .ok (hRS _ _ h)
  | error e => exact .error e

/-- Where every operation ends alike, runs do. -/
theorem run_alike {τ : Type} {step' : τ → α → Except ε τ} {D : α → Prop} {R : σ → τ → Prop}
    (hstep : ∀ s t a, R s t → D a → Alike R (step s a) (step' t a)) {as : List α}
    (has : ∀ a ∈ as, D a) {s : σ} {t : τ} (hR : R s t) :
    Alike R (run step as s) (run step' as t) := by
  induction as generalizing s t with
  | nil => exact .ok hR
  | cons a as ih =>
      have hhead := hstep s t a hR (has a List.mem_cons_self)
      change Alike R (step s a >>= run step as) (step' t a >>= run step' as)
      revert hhead
      generalize step s a = x
      generalize step' t a = y
      intro hhead
      cases hhead with
      | ok h => exact ih (fun b hb => has b (List.mem_cons_of_mem a hb)) h
      | error e => exact .error e

/-- Operations that meet `C` complete and preserve the invariant, so runs of
them do. -/
theorem run_keeps_along {C : σ → α → Prop} {Inv : σ → Prop}
    (hstep : ∀ s a, Inv s → C s a → ∃ s', step s a = .ok s' ∧ Inv s') {as : List α} {s : σ}
    (hs : Inv s) (h : Along step C as s) : ∃ s', run step as s = .ok s' ∧ Inv s' := by
  have hpair : ∀ s t a, Inv s ∧ s = t → C s a →
      ∃ s' t', step s a = .ok s' ∧ step t a = .ok t' ∧ Inv s' ∧ s' = t' := by
    rintro s _ a ⟨hs, rfl⟩ hC
    obtain ⟨s', hrun, hs'⟩ := hstep s a hs hC
    exact ⟨s', s', hrun, hrun, hs', rfl⟩
  obtain ⟨s', _, hrun, -, hs', -⟩ := run_related_along hpair ⟨hs, rfl⟩ h
  exact ⟨s', hrun, hs'⟩

/-- An invariant that every operation preserves. -/
theorem run_keeps {Inv : σ → Prop} (hstep : ∀ s a, Inv s → ∃ s', step s a = .ok s' ∧ Inv s')
    (as : List α) {s : σ} (hs : Inv s) : ∃ s', run step as s = .ok s' ∧ Inv s' := by
  exact run_keeps_along (fun s a hs _ => hstep s a hs) hs
    (along_of_forall (D := fun _ => True) (fun _ _ => trivial) s)

/-- An invariant that the operations of a run preserve where they meet `C`, for runs
that are known to complete. -/
theorem run_inv_along {C : σ → α → Prop} {Inv : σ → Prop}
    (hstep : ∀ s a s', Inv s → C s a → step s a = .ok s' → Inv s') {as : List α} {s s' : σ}
    (hC : Along step C as s) (hs : Inv s) (h : run step as s = .ok s') : Inv s' := by
  induction as generalizing s with
  | nil =>
      obtain rfl : s = s' := by simpa [run] using h
      exact hs
  | cons a as ih =>
      obtain ⟨s₁, h1, h2⟩ := run_cons_eq_ok.mp h
      exact ih (hC.2 s₁ h1) (hstep s a s₁ hs hC.1 h1) h2

/-- An invariant that operations with `C` preserve, for runs that are known to
complete. -/
theorem run_inv {C : α → Prop} {Inv : σ → Prop}
    (hstep : ∀ s a s', Inv s → C a → step s a = .ok s' → Inv s') {as : List α}
    (has : ∀ a ∈ as, C a) {s s' : σ} (hs : Inv s) (h : run step as s = .ok s') : Inv s' :=
  run_inv_along hstep (along_of_forall has s) hs h

end Run
