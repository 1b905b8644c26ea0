import RudpNetwork.Lib.Proc

/-!
# RudpNetwork.Lib.Loop

`while (true)` loops.  The body says whether to go round again; a bound on the
number of rounds makes the loop a function.  An invariant of the rounds is one of
the loop (`loop_inv`, `loop_keeps`).  Where every round that goes on lowers a
measure, the bound is not what ends the loop (`loop_ends_inv`, `loop_ends`);
`loop_drains` is the rule of a loop that empties a list.

## Main results

* `loop_inv` — an invariant of the round is one of the loop.
* `loop_keeps` — where every round from the invariant completes, so does the loop.
* `loop_ends`, `loop_drains` — the loop ends because of a round, not because of its bound.
-/

namespace Loop

variable {ε σ : Type}

/-- At most `n` rounds of `body`, until it answers `false`. -/
def loop (body : σ → Except ε (Bool × σ)) : Nat → σ → Except ε σ
  | 0, s => .ok s
  | n + 1, s => do
      let (again, s) ← body s
      if again then loop body n s else return s

variable {body : σ → Except ε (Bool × σ)}

/-- A round that goes on. -/
theorem loop_again {n : Nat} {s s' : σ} (h : body s = .ok (true, s')) :
    loop body (n + 1) s = loop body n s' := by
  rw [loop, h]
  rfl

/-- The round that ends the loop. -/
theorem loop_break {n : Nat} {s s' : σ} (h : body s = .ok (false, s')) :
    loop body (n + 1) s = .ok s' := by
  rw [loop, h]
  rfl

/-- Inversion of a completed loop. -/
theorem loop_succ_ok {n : Nat} {s s'' : σ} (h : loop body (n + 1) s = .ok s'') :
    body s = .ok (false, s'') ∨ ∃ s', body s = .ok (true, s') ∧ loop body n s' = .ok s'' := by
  obtain ⟨⟨again, s'⟩, hbody, hrest⟩ := Except.bind_eq_ok_iff.mp h
  cases again with
  | true => exact .inr ⟨s', hbody, hrest⟩
  | false =>
      obtain rfl : s' = s'' := Except.pure_eq_ok_iff.mp hrest
      exact .inl hbody

/-- The states of a loop from `s` on: those that rounds which go on lead to. -/
inductive Rounds (body : σ → Except ε (Bool × σ)) : σ → σ → Prop
  | start (s : σ) : Rounds body s s
  | next {s s₁ s' : σ} (h : body s = .ok (true, s₁)) (hrest : Rounds body s₁ s') : Rounds body s s'

/-- The state after `n` rounds that go on. -/
def after (body : σ → Except ε (Bool × σ)) : Nat → σ → Option σ
  | 0, s => some s
  | n + 1, s => match body s with
    | .ok (true, s') => after body n s'
    | _ => none

/-- A loop that goes on for `n` rounds has done them. -/
theorem rounds_of_after {n : Nat} {s s' : σ} (h : after body n s = some s') : Rounds body s s' := by
  induction n generalizing s with
  | zero =>
      obtain rfl := Option.some.inj h
      exact .start s
  | succ n ih =>
      rw [after] at h
      split at h
      · next s₁ hround => exact .next hround (ih h)
      · contradiction

/-- An invariant that the rounds of this loop preserve. -/
theorem loop_inv_rounds {I : σ → Prop} {n : Nat} {s s' : σ}
    (hbody : ∀ s₁ again s₂, Rounds body s s₁ → I s₁ → body s₁ = .ok (again, s₂) → I s₂)
    (hs : I s) (h : loop body n s = .ok s') : I s' := by
  induction n generalizing s with
  | zero =>
      obtain rfl : s = s' := Except.ok.inj h
      exact hs
  | succ n ih =>
      rcases loop_succ_ok h with hend | ⟨s₁, hagain, hrest⟩
      · exact hbody s false s' (.start s) hs hend
      · exact ih (fun s₂ again s₃ hr => hbody s₂ again s₃ (.next hagain hr))
          (hbody s true s₁ (.start s) hs hagain) hrest

/-- An invariant that every round preserves. -/
theorem loop_inv {I : σ → Prop}
    (hbody : ∀ s again s', I s → body s = .ok (again, s') → I s') {n : Nat} {s s' : σ}
    (hs : I s) (h : loop body n s = .ok s') : I s' :=
  loop_inv_rounds (fun s₁ again s₂ _ => hbody s₁ again s₂) hs h

/-- Rounds that complete and preserve an invariant make a loop that does. -/
theorem loop_keeps {I : σ → Prop}
    (hbody : ∀ s, I s → ∃ again s', body s = .ok (again, s') ∧ I s') (n : Nat) {s : σ} (hs : I s) :
    ∃ s', loop body n s = .ok s' ∧ I s' := by
  induction n generalizing s with
  | zero => exact ⟨s, rfl, hs⟩
  | succ n ih =>
      obtain ⟨again, s₁, hround, h1⟩ := hbody s hs
      cases again with
      | false => exact ⟨s₁, loop_break hround, h1⟩
      | true =>
          obtain ⟨s', hrest, hs'⟩ := ih h1
          exact ⟨s', (loop_again hround).trans hrest, hs'⟩

/-- Where every round that goes on lowers the measure, a loop with a larger bound ends
with a round that does not go on, in a state with the invariant of the rounds. -/
theorem loop_ends_inv {I : σ → Prop} {measure : σ → Nat}
    (hI : ∀ s again s', I s → body s = .ok (again, s') → I s')
    (hbody : ∀ s s', body s = .ok (true, s') → measure s' < measure s) {n : Nat} {s s' : σ}
    (hs : I s) (hn : measure s < n) (h : loop body n s = .ok s') :
    ∃ s₀, I s₀ ∧ body s₀ = .ok (false, s') := by
  induction n generalizing s with
  | zero => omega
  | succ n ih =>
      cases loop_succ_ok h with
      | inl hend => exact ⟨s, hs, hend⟩
      | inr hagain =>
          obtain ⟨s₁, hround, hrest⟩ := hagain
          have hlt := hbody s s₁ hround
          exact ih (hI s true s₁ hs hround) (by omega) hrest

/-- A loop that returns has ended with a round that did not go on. -/
theorem loop_ends {measure : σ → Nat}
    (hbody : ∀ s s', body s = .ok (true, s') → measure s' < measure s) {n : Nat} {s s' : σ}
    (hn : measure s < n) (h : loop body n s = .ok s') : ∃ s₀, body s₀ = .ok (false, s') := by
  obtain ⟨s₀, -, hend⟩ :=
    loop_ends_inv (I := fun _ => True) (fun _ _ _ _ _ => trivial) hbody trivial hn h
  exact ⟨s₀, hend⟩

/-- A loop that goes on as long as there is something left, and moves the first of what is left
behind what it has done. -/
theorem loop_drains {α : Type} {I : σ → Prop} {left done : σ → List α}
    (hnone : ∀ s, I s → left s = [] → body s = .ok (false, s))
    (hsome : ∀ s a as, I s → left s = a :: as →
      ∃ s', body s = .ok (true, s') ∧ I s' ∧ left s' = as ∧ done s' = done s ++ [a])
    {s : σ} (hs : I s) :
    ∃ s', loop body ((left s).length + 1) s = .ok s' ∧ I s' ∧ left s' = [] ∧
      done s' = done s ++ left s := by
  obtain ⟨l, hl⟩ : ∃ l, left s = l := ⟨_, rfl⟩
  rw [hl]
  induction l generalizing s with
  | nil => exact ⟨s, loop_break (hnone s hs hl), hs, hl, (List.append_nil _).symm⟩
  | cons a as ih =>
      obtain ⟨s₁, hround, h1, hleft, hdone⟩ := hsome s a as hs hl
      obtain ⟨s', hrun, h', hempty, hall⟩ := ih h1 hleft
      refine ⟨s', (loop_again hround).trans hrun, h', hempty, ?_⟩
      rw [hall, hdone, List.append_assoc]
      rfl

end Loop
