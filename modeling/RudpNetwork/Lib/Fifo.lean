/-!
# RudpNetwork.Lib.Fifo

First-in first-out queues that remember their traffic.  Besides its items a
`Fifo` holds everything that was ever pushed and everything that was ever
popped, and a proof that the first is the second followed by the items: whatever
is done to it, nothing is lost, doubled or overtaken.

## Main results

* `pop_eq_some` — what `pop` does to the items and to the history.
* `numbers_pop` — the elements leave in the order of their numbers.
-/

/-- A queue with its history. -/
structure Fifo (α : Type) where
  /-- What was pushed, in order. -/
  accepted : List α
  /-- What was popped, in order. -/
  delivered : List α
  /-- What is in the queue, the front first. -/
  items : List α
  inOrder : accepted = delivered ++ items

namespace Fifo

variable {α : Type}

/-- A queue that was never used. -/
def empty : Fifo α where
  accepted := []
  delivered := []
  items := []
  inOrder := rfl

/-- Add an element at the back. -/
def push (q : Fifo α) (a : α) : Fifo α where
  accepted := q.accepted ++ [a]
  delivered := q.delivered
  items := q.items ++ [a]
  inOrder := by rw [q.inOrder, List.append_assoc]

/-- The front element, and the queue without it. -/
def pop (q : Fifo α) : Option (α × Fifo α) :=
  match h : q.items with
  | [] => none
  | a :: rest => some (a, {
      accepted := q.accepted
      delivered := q.delivered ++ [a]
      items := rest
      inOrder := by rw [q.inOrder, h, List.append_assoc, List.singleton_append] })

/-- The number of elements in the queue. -/
def size (q : Fifo α) : Nat := q.items.length

/-- The numbers of the elements in the queue, counted from the first that was ever pushed. -/
def numbers (q : Fifo α) : List Nat := List.range' q.delivered.length q.size

@[simp] theorem items_empty : (empty : Fifo α).items = [] := rfl
@[simp] theorem accepted_empty : (empty : Fifo α).accepted = [] := rfl
@[simp] theorem delivered_empty : (empty : Fifo α).delivered = [] := rfl

@[simp] theorem items_push (q : Fifo α) (a : α) : (q.push a).items = q.items ++ [a] := rfl
@[simp] theorem accepted_push (q : Fifo α) (a : α) :
    (q.push a).accepted = q.accepted ++ [a] := rfl
@[simp] theorem delivered_push (q : Fifo α) (a : α) : (q.push a).delivered = q.delivered := rfl

@[simp] theorem size_push (q : Fifo α) (a : α) : (q.push a).size = q.size + 1 := by
  simp [size]

/-- Nothing can be popped of an empty queue only. -/
theorem pop_eq_none {q : Fifo α} : q.pop = none ↔ q.items = [] := by
  unfold pop
  split <;> simp_all

/-- What is popped was the front, and is counted as delivered. -/
theorem pop_eq_some {q q' : Fifo α} {a : α} (h : q.pop = some (a, q')) :
    q.items = a :: q'.items ∧ q'.accepted = q.accepted ∧ q'.delivered = q.delivered ++ [a] := by
  unfold pop at h
  split at h
  · contradiction
  · next b rest hitems =>
      obtain ⟨rfl, rfl⟩ := Prod.mk.inj (Option.some.inj h)
      exact ⟨hitems, rfl, rfl⟩

/-- What was taken off is gone. -/
theorem size_pop {q q' : Fifo α} {a : α} (h : q.pop = some (a, q')) : q.size = q'.size + 1 := by
  obtain ⟨hitems, -, -⟩ := pop_eq_some h
  rw [size, hitems, List.length_cons]
  rfl

/-- The front element is the one whose number is that of the elements popped before. -/
theorem numbers_pop {q q' : Fifo α} {a : α} (h : q.pop = some (a, q')) :
    q.numbers = q.delivered.length :: q'.numbers := by
  obtain ⟨-, -, hdelivered⟩ := pop_eq_some h
  rw [numbers, numbers, size_pop h, hdelivered, List.length_append, List.length_singleton,
    List.range'_succ]

/-- A queue with a front can be popped. -/
theorem pop_of_items {q : Fifo α} {a : α} {rest : List α} (h : q.items = a :: rest) :
    ∃ q', q.pop = some (a, q') ∧ q'.items = rest := by
  cases hpop : q.pop with
  | none => simp [pop_eq_none.mp hpop] at h
  | some r =>
      obtain ⟨b, q'⟩ := r
      obtain ⟨hitems, -, -⟩ := pop_eq_some hpop
      obtain ⟨rfl, rfl⟩ := List.cons.inj (h.symm.trans hitems)
      exact ⟨q', rfl, rfl⟩

/-- What was delivered is what came first. -/
theorem delivered_isPrefix (q : Fifo α) : q.delivered <+: q.accepted :=
  ⟨q.items, q.inOrder.symm⟩

/-- Everything accepted is delivered or waits. -/
theorem length_accepted (q : Fifo α) : q.accepted.length = q.delivered.length + q.size := by
  rw [q.inOrder, List.length_append, size]

end Fifo
