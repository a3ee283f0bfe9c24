import SelfCapture.Tree.Basic

/-! # Walks over a syntax tree

  `Tree.fold` visits nodes in source order, each node before its children,
  and threads a value through the visits.  The pending nodes are kept in a
  list, so a deep tree needs no deep recursion.

  The walk ends because a child has a smaller number than its parent:
  `Tree.weight` counts the visits that a pending node can still cause.
-/

namespace SelfCapture

/-- What to do after a node has been visited. -/
inductive Visit where
  /-- Visit the children next. -/
  | descend
  /-- Leave the children out. -/
  | skip
  /-- End the walk. -/
  | stop
  deriving DecidableEq, Repr

namespace Tree

/-- The sum of some numbers. -/
def total : List Nat → Nat
  | [] => 0
  | n :: rest => n + total rest

/-- The sum of two lists of numbers is the sum of their sums. -/
theorem total_append (a b : List Nat) : total (a ++ b) = total a + total b := by
  induction a with
  | nil => simp [total]
  | cons n a ih => simp only [List.cons_append, total, ih]; omega

/-- Number of visits that a walk from a node makes when it leaves nothing out. -/
def weight (t : Tree) (id : Nat) : Nat :=
  1 + total ((t.earlierChildren id).attach.map fun child => t.weight child.1)
termination_by id
decreasing_by
  have h := child.2
  simp only [earlierChildren, List.mem_filter, decide_eq_true_eq] at h
  exact h.2

/-- Number of visits that the pending nodes can cause. -/
def pendingWeight (t : Tree) (pending : List Nat) : Nat := total (pending.map t.weight)

/-- A node outweighs its children together. -/
theorem pendingWeight_earlierChildren_lt (t : Tree) (id : Nat) :
    t.pendingWeight (t.earlierChildren id) < t.weight id := by
  rw [pendingWeight, weight, List.attach_map_val (f := t.weight)]
  omega

/-- Walks over the pending nodes and their descendants, in source order. -/
def foldPending {β : Type} (t : Tree) (visit : β → Nat → Node → β × Visit) :
    (pending : List Nat) → β → β
  | [], acc => acc
  | id :: pending, acc =>
    match t.get? id with
    | none => t.foldPending visit pending acc
    | some node =>
      match visit acc id node with
      | (acc, .descend) => t.foldPending visit (t.earlierChildren id ++ pending) acc
      | (acc, .skip) => t.foldPending visit pending acc
      | (acc, .stop) => acc
termination_by pending => t.pendingWeight pending
decreasing_by
  · simp only [pendingWeight, List.map_cons, total]
    have : 0 < t.weight id := by rw [weight]; omega
    omega
  · have := t.pendingWeight_earlierChildren_lt id
    simp only [pendingWeight, List.map_cons, total, List.map_append, total_append] at this ⊢
    omega
  · simp only [pendingWeight, List.map_cons, total]
    have : 0 < t.weight id := by rw [weight]; omega
    omega

/-- Walks over a node and its descendants in source order, each node before
    its children, and threads `acc` through the visits. -/
def fold {β : Type} (t : Tree) (root : Nat) (acc : β)
    (visit : β → Nat → Node → β × Visit) : β :=
  t.foldPending visit [root] acc

/-- The nodes that a walk over `root` visits, in order, when it leaves none out. -/
def walk (t : Tree) (root : Nat) : List (Nat × Node) :=
  (t.fold root #[] fun seen id node => (seen.push (id, node), .descend)).toList

/-- The first node of a walk over `root` that passes the test. -/
def find? (t : Tree) (root : Nat) (test : Node → Bool) : Option Nat :=
  t.fold root none fun found id node =>
    if test node then (some id, .stop) else (found, .descend)

end Tree
end SelfCapture
