import Mathlib.Data.List.Basic
import Mathlib.Logic.Function.Basic

/-!
Singly linked lists threaded through cells. A link is read from a cell or, at
`none`, from the variable that points to the first cell; a chain from a link
runs through the cells of a list to the null node, so it is acyclic and
terminated.
-/

namespace NetworkProgramming

variable {Node : Type*}

def Chain (link : Option Node → Node) (null : Node) : Option Node → List Node → Prop
  | p, [] => link p = null
  | p, x :: rest => link p = x ∧ x ≠ null ∧ Chain link null (some x) rest

namespace Chain

variable {link next : Option Node → Node} {null : Node}

@[simp] theorem nil_iff (p : Option Node) : Chain link null p [] ↔ link p = null := Iff.rfl

@[simp] theorem cons_iff (p : Option Node) (x : Node) (rest : List Node) :
    Chain link null p (x :: rest) ↔
      link p = x ∧ x ≠ null ∧ Chain link null (some x) rest := Iff.rfl

/-- The frame rule: a chain reads the links of its start and of its cells. -/
theorem frame (p : Option Node) (cells : List Node) (start : next p = link p)
    (kept : ∀ x ∈ cells, next (some x) = link (some x)) (chain : Chain link null p cells) :
    Chain next null p cells := by
  induction cells generalizing p with
  | nil => exact start.trans chain
  | cons x rest ih =>
      obtain ⟨first, proper, more⟩ := chain
      refine ⟨start.trans first, proper, ih (some x) (kept x (by simp)) ?_ more⟩
      intro y member
      exact kept y (List.mem_cons_of_mem x member)

theorem restart (p q : Option Node) (cells : List Node) (same : next q = link p)
    (kept : ∀ x ∈ cells, next (some x) = link (some x)) (chain : Chain link null p cells) :
    Chain next null q cells := by
  cases cells with
  | nil => exact same.trans chain
  | cons x rest =>
      obtain ⟨first, proper, more⟩ := chain
      refine ⟨same.trans first, proper, frame (some x) rest (kept x (by simp)) ?_ more⟩
      intro y member
      exact kept y (List.mem_cons_of_mem x member)

theorem push (p : Option Node) (x : Node) (cells : List Node) (proper : x ≠ null)
    (first : next p = x) (second : next (some x) = link p)
    (kept : ∀ y ∈ cells, next (some y) = link (some y)) (chain : Chain link null p cells) :
    Chain next null p (x :: cells) :=
  ⟨first, proper, restart p (some x) cells second kept chain⟩

end Chain

end NetworkProgramming
