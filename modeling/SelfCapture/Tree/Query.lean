import SelfCapture.Token.Kind
import SelfCapture.Tree.Walk

/-! # Questions about nodes

  Small questions that several checks ask of a syntax tree.
-/

namespace SelfCapture.Tree

/-- Whether the node names the enclosing instance, plainly or escaped. -/
def isSelfReference (t : Tree) (id : Nat) : Bool :=
  match t.form? id with
  | some (.identifier token) => token == .selfKeyword || Token.isSelfName (t.text id)
  | _ => false

/-- Whether the node is a closure. -/
def isClosure (t : Tree) (id : Nat) : Bool :=
  match t.form? id with
  | some (.closure ..) => true
  | _ => false

/-- What remains of an expression when the unwrapping marks `!` and `?`
    after it are taken away. -/
def unwrapped (t : Tree) (id : Nat) : Option Nat :=
  match t.form? id with
  | some (.postfixOp operand token) =>
    if token = .exclamation ∨ token = .question then
      match operand with
      | some inner => if inner < id then t.unwrapped inner else some inner
      | none => none
    else some id
  | _ => some id
termination_by id

/-- The first function declared under a node. -/
def firstFunction? (t : Tree) (root : Nat) : Option Nat :=
  t.find? root fun node =>
    match node.form with
    | .functionDecl .. => true
    | _ => false

end SelfCapture.Tree
