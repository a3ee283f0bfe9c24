import SelfCapture.Tree.Query

/-! # Uses of the enclosing instance

  What the text of a closure says about the instance it is written in:
  whether the body uses it, whether it is captured weakly, and whether a
  parameter takes its name.
-/

namespace SelfCapture.Tree

/-- Whether the node is an access to a member of the enclosing instance. -/
def isSelfMember (t : Tree) (node : Node) : Bool :=
  match node.form with
  | .memberAccess (some base) _ => (t.unwrapped base).any t.isSelfReference
  | _ => false

/-- Whether a member of the enclosing instance is accessed under a node. -/
def accessesSelf (t : Tree) (root : Nat) : Bool :=
  t.fold root false fun found _ node =>
    if t.isSelfMember node then (true, .stop) else (found, .descend)

/-- Whether a member of the enclosing instance is accessed in one of the statements. -/
def usesSelf (t : Tree) (statements : List Nat) : Bool := statements.any t.accessesSelf

/-- Whether the enclosing instance is captured `weak` or `unowned`.  The
    captured value counts, not the name that it gets. -/
def capturesSelfWeakly (t : Tree) (captures : List Nat) : Bool :=
  captures.any fun capture =>
    match t.form? capture with
    | some (.captureItem ownership _ (some expression)) =>
      ownership != .strong && t.isSelfReference expression
    | _ => false

/-- The name that a parameter has inside its function. -/
def bindingName? (t : Tree) (parameter : Nat) : Option Nat :=
  match t.form? parameter with
  | some (.parameter first second _ _) => some (second.getD first)
  | _ => none

/-- Whether a parameter of a closure takes the name of the enclosing instance. -/
def shadowsSelf (t : Tree) (parameters : ClosureParameters) : Bool :=
  match parameters with
  | .absent => false
  | .shorthand names => names.any t.isSelfReference
  | .clause parameters =>
    parameters.any fun parameter => (t.bindingName? parameter).any t.isSelfReference

end SelfCapture.Tree
