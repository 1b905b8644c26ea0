import Mathlib.Logic.Function.Basic
import RudpNetwork.Lib.Run

/-!
# RudpNetwork.Lib.Net

Networks of machines.  Every node runs a machine of its own, and one operation
of one node is a step of the network.  That something arrives at a node is an
operation of that node: whatever a network does to what is under way -- lose it,
double it, delay it, let it be overtaken -- is a choice of operations, and what it
cannot do is a condition on them, which may look at every node.

`run_keeps_along` carries an invariant of the nodes along the runs of a network.
The invariant of a node may speak of what all nodes have put on the wire, which
only grows.
-/

namespace Net

variable {ι σ α ε δ : Type} [DecidableEq ι]

/-- Node `m.1` performs the operation `m.2`. -/
def step (node : ι → σ → α → Except ε σ) (c : ι → σ) (m : ι × α) : Except ε (ι → σ) := do
  let s ← node m.1 (c m.1) m.2
  return Function.update c m.1 s

variable {node : ι → σ → α → Except ε σ}

/-- A step changes the state of one node. -/
theorem step_eq_ok {c c' : ι → σ} {i : ι} {a : α} :
    step node c (i, a) = .ok c' ↔ ∃ s, node i (c i) a = .ok s ∧ c' = Function.update c i s := by
  rw [step, Except.bind_eq_ok_iff]
  constructor
  · rintro ⟨s, hrun, h⟩
    exact ⟨s, hrun, (Except.pure_eq_ok_iff.mp h).symm⟩
  · rintro ⟨s, hrun, rfl⟩
    exact ⟨s, hrun, rfl⟩

/-- What the nodes have put on the wire only grows, if that of the acting node
does. -/
theorem traffic_update {traffic : σ → Set δ} {c : ι → σ} {i : ι} {s : σ}
    (h : traffic (c i) ⊆ traffic s) (j : ι) :
    traffic (c j) ⊆ traffic (Function.update c i s j) :=
  (Function.forall_update_iff c (p := fun j s => traffic (c j) ⊆ traffic s)).mpr
    ⟨h, fun _ _ _ hd => hd⟩ j

/-- An invariant `J` of every node, that may refer to what is on the wire, is kept
by the runs whose operations meet `C`; these runs complete. -/
theorem run_keeps_along {traffic : σ → Set δ} {J : (ι → Set δ) → ι → σ → Prop}
    {C : (ι → σ) → ι × α → Prop}
    (hmono : ∀ W W' i s, (∀ j, W j ⊆ W' j) → J W i s → J W' i s)
    (hstep : ∀ c i a, (∀ j, J (traffic ∘ c) j (c j)) → C c (i, a) →
      ∃ s, node i (c i) a = .ok s ∧ traffic (c i) ⊆ traffic s ∧ J (traffic ∘ c) i s)
    {ms : List (ι × α)} {c : ι → σ} (hc : ∀ j, J (traffic ∘ c) j (c j))
    (h : Run.Along (step node) C ms c) :
    ∃ c', Run.run (step node) ms c = .ok c' ∧ ∀ j, J (traffic ∘ c') j (c' j) := by
  have hkept : ∀ (c : ι → σ) (m : ι × α), (∀ j, J (traffic ∘ c) j (c j)) → C c m →
      ∃ c', step node c m = .ok c' ∧ ∀ j, J (traffic ∘ c') j (c' j) := by
    rintro c ⟨i, a⟩ hc hC
    obtain ⟨s, hrun, hgrows, hs⟩ := hstep c i a hc hC
    refine ⟨_, step_eq_ok.mpr ⟨s, hrun, rfl⟩, fun j => ?_⟩
    refine hmono _ _ j _ (traffic_update hgrows) ?_
    exact (Function.forall_update_iff c (p := J (traffic ∘ c))).mpr ⟨hs, fun j _ => hc j⟩ j
  exact Run.run_keeps_along hkept hc h

end Net
