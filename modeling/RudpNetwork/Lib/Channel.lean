import Mathlib.Data.List.Basic

/-!
# RudpNetwork.Lib.Channel

Channels that keep the order.  `Channel lossy junk sent arrived` says that what
arrived is what was sent, in the order it was sent in and once each, with things
among it that were never sent: these are `junk`.  A lossy channel may lose what was
sent.

`filterMap_sublist` and `filterMap_eq` say what a receiver makes of it: if it drops
the junk and understands the rest, it has a part of what the sender meant, or all of
it, in order.  `sublist_of_fails` and `length_le_of_fails` say by how much a receiver
falls behind that fails at some of what arrived.
-/

/-- What arrived over a channel that keeps the order of what was sent. -/
inductive Channel {β : Type} (lossy : Prop) (junk : β → Prop) : List β → List β → Prop
  | nil : Channel lossy junk [] []
  | arrives {b : β} {sent arrived : List β} (h : Channel lossy junk sent arrived) :
      Channel lossy junk (b :: sent) (b :: arrived)
  | lost {b : β} {sent arrived : List β} (hlossy : lossy) (h : Channel lossy junk sent arrived) :
      Channel lossy junk (b :: sent) arrived
  | junk {b : β} {sent arrived : List β} (hjunk : junk b) (h : Channel lossy junk sent arrived) :
      Channel lossy junk sent (b :: arrived)

namespace Channel

variable {α β γ δ : Type} {lossy : Prop} {junk : β → Prop} {sent arrived : List β}

/-- Everything may be lost. -/
theorem nil_right (hlossy : lossy) : ∀ sent, Channel lossy junk sent []
  | [] => .nil
  | _ :: sent => .lost hlossy (nil_right hlossy sent)

/-- What arrived so far. -/
theorem prefix_right (hlossy : lossy) (h : Channel lossy junk sent arrived) {first : List β}
    (hfirst : first <+: arrived) : Channel lossy junk sent first := by
  induction h generalizing first with
  | nil =>
      obtain rfl := List.prefix_nil.mp hfirst
      exact .nil
  | @arrives b sent arrived _ ih =>
      rcases List.prefix_cons_iff.mp hfirst with rfl | ⟨rest, rfl, hrest⟩
      · exact nil_right hlossy _
      · exact .arrives (ih hrest)
  | lost _ _ ih => exact .lost hlossy (ih hfirst)
  | @junk b sent arrived hjunk _ ih =>
      rcases List.prefix_cons_iff.mp hfirst with rfl | ⟨rest, rfl, hrest⟩
      · exact nil_right hlossy _
      · exact .junk hjunk (ih hrest)

/-! ## what a receiver understands -/

section

variable {bytes : α → β} {read : γ → β} {meaning : α → δ} {understood : γ → Option δ}

/-- A receiver that drops the junk, and understands of the rest nothing but what was
meant, understands a part of what was meant, in order. -/
theorem filterMap_sublist {xs : List α} {ys : List γ}
    (h : Channel lossy junk (xs.map bytes) (ys.map read))
    (hjunk : ∀ y ∈ ys, junk (read y) → understood y = none)
    (hmeaning : ∀ x ∈ xs, ∀ y ∈ ys, read y = bytes x →
      ∀ d, understood y = some d → d = meaning x) :
    (ys.filterMap understood).Sublist (xs.map meaning) := by
  generalize hsent : xs.map bytes = sent at h
  generalize harrived : ys.map read = arrived at h
  induction h generalizing xs ys with
  | nil =>
      obtain rfl := List.map_eq_nil_iff.mp hsent
      obtain rfl := List.map_eq_nil_iff.mp harrived
      exact .slnil
  | arrives _ ih =>
      obtain ⟨x, xs, rfl, rfl, rfl⟩ := List.map_eq_cons_iff.mp hsent
      obtain ⟨y, ys, rfl, hy, rfl⟩ := List.map_eq_cons_iff.mp harrived
      have hrest := ih (fun y hmem => hjunk y (List.mem_cons_of_mem _ hmem))
        (fun x hx y hmem => hmeaning x (List.mem_cons_of_mem _ hx) y (List.mem_cons_of_mem _ hmem))
        rfl rfl
      have hfirst := hmeaning x List.mem_cons_self y List.mem_cons_self hy
      rw [List.map_cons]
      cases hunderstood : understood y with
      | none =>
          rw [List.filterMap_cons_none hunderstood]
          exact hrest.cons _
      | some d =>
          rw [List.filterMap_cons_some hunderstood, hfirst d hunderstood]
          exact hrest.cons_cons _
  | lost _ _ ih =>
      obtain ⟨x, xs, rfl, rfl, rfl⟩ := List.map_eq_cons_iff.mp hsent
      exact (ih hjunk (fun x hx => hmeaning x (List.mem_cons_of_mem _ hx)) rfl harrived).cons _
  | junk hbad _ ih =>
      obtain ⟨y, ys, rfl, rfl, rfl⟩ := List.map_eq_cons_iff.mp harrived
      rw [List.filterMap_cons_none (hjunk y List.mem_cons_self hbad)]
      exact ih (fun y hmem => hjunk y (List.mem_cons_of_mem _ hmem))
        (fun x hx y hmem => hmeaning x hx y (List.mem_cons_of_mem _ hmem)) hsent rfl

/-- Over a channel that loses nothing, a receiver that understands all that was meant
has it exactly once, in order. -/
theorem filterMap_eq {xs : List α} {ys : List γ}
    (h : Channel False junk (xs.map bytes) (ys.map read))
    (hjunk : ∀ y ∈ ys, junk (read y) → understood y = none)
    (hmeaning : ∀ x ∈ xs, ∀ y ∈ ys, read y = bytes x → understood y = some (meaning x)) :
    ys.filterMap understood = xs.map meaning := by
  generalize hsent : xs.map bytes = sent at h
  generalize harrived : ys.map read = arrived at h
  induction h generalizing xs ys with
  | nil =>
      obtain rfl := List.map_eq_nil_iff.mp hsent
      obtain rfl := List.map_eq_nil_iff.mp harrived
      rfl
  | arrives _ ih =>
      obtain ⟨x, xs, rfl, rfl, rfl⟩ := List.map_eq_cons_iff.mp hsent
      obtain ⟨y, ys, rfl, hy, rfl⟩ := List.map_eq_cons_iff.mp harrived
      have hrest := ih (fun y hmem => hjunk y (List.mem_cons_of_mem _ hmem))
        (fun x hx y hmem => hmeaning x (List.mem_cons_of_mem _ hx) y (List.mem_cons_of_mem _ hmem))
        rfl rfl
      rw [List.filterMap_cons_some (hmeaning x List.mem_cons_self y List.mem_cons_self hy), hrest,
        List.map_cons]
  | lost hlossy => exact hlossy.elim
  | junk hbad _ ih =>
      obtain ⟨y, ys, rfl, rfl, rfl⟩ := List.map_eq_cons_iff.mp harrived
      rw [List.filterMap_cons_none (hjunk y List.mem_cons_self hbad)]
      exact ih (fun y hmem => hjunk y (List.mem_cons_of_mem _ hmem))
        (fun x hx y hmem => hmeaning x hx y (List.mem_cons_of_mem _ hmem)) hsent rfl

end

/-! ## a receiver that fails at times -/

section

variable {meaning understood : γ → Option δ} {ys : List γ}

/-- A receiver that either fails or understands what was meant has a part of it, in order. -/
theorem sublist_of_fails (h : ∀ y ∈ ys, understood y = none ∨ understood y = meaning y) :
    (ys.filterMap understood).Sublist (ys.filterMap meaning) := by
  induction ys with
  | nil => exact .slnil
  | cons y ys ih =>
      have hrest := ih fun y hmem => h y (List.mem_cons_of_mem _ hmem)
      rcases h y List.mem_cons_self with hnone | hsame
      · rw [List.filterMap_cons_none hnone]
        exact hrest.trans ((List.sublist_cons_self y ys).filterMap meaning)
      · cases hmeaning : meaning y with
        | none =>
            rwa [List.filterMap_cons_none (hsame.trans hmeaning),
              List.filterMap_cons_none hmeaning]
        | some d =>
            rw [List.filterMap_cons_some (hsame.trans hmeaning),
              List.filterMap_cons_some hmeaning]
            exact hrest.cons_cons d

/-- It misses no more than it fails at. -/
theorem length_le_of_fails {fails : γ → Bool}
    (h : ∀ y ∈ ys, fails y = false → understood y = meaning y) :
    (ys.filterMap meaning).length ≤ (ys.filterMap understood).length + ys.countP fails := by
  induction ys with
  | nil => exact Nat.zero_le _
  | cons y ys ih =>
      have hrest := ih fun y hmem => h y (List.mem_cons_of_mem _ hmem)
      rw [List.filterMap_cons, List.filterMap_cons, List.countP_cons]
      cases hfails : fails y with
      | false =>
          rw [h y List.mem_cons_self hfails]
          cases meaning y <;> simp <;> omega
      | true => cases meaning y <;> cases understood y <;> simp <;> omega

end

end Channel
