import SelfCapture.Text.CharClass
import SelfCapture.Tree.Basic

/-! # Called expressions

  What a rule sees of the expression that is called: a bare name, or the
  names of a chain of member accesses.  Calls inside a chain count for
  their callee, so arguments never show.
-/

namespace SelfCapture

/-- The called expression, as far as rules care. -/
inductive Callee where
  /-- A bare name. -/
  | bare (text : String)
  /-- `DispatchQueue.global().async` is `["DispatchQueue", "global", "async"]`. -/
  | chain (names : List String)
  /-- Anything else. -/
  | other
  deriving DecidableEq, Repr

namespace Callee

/-- Whether the node is a member access. -/
def isMemberAccess (t : Tree) (id : Nat) : Bool :=
  match t.form? id with
  | some (.memberAccess ..) => true
  | _ => false

/-- The callee of a call whose callee is a member access, else the node itself. -/
def throughCall (t : Tree) (id : Nat) : Nat :=
  match t.form? id with
  | some (.call (some callee) ..) => if isMemberAccess t callee then callee else id
  | _ => id

/-- The names of a chain, the last one first, as far as `count` member
    accesses go. -/
def chainUpTo (t : Tree) : (count id : Nat) → List String
  | 0, _ => []
  | count + 1, id =>
    match t.form? id with
    | some (.memberAccess base name) =>
      t.text name ::
        match base with
        | none => []
        | some base =>
          let inner := throughCall t base
          if isMemberAccess t inner then
            chainUpTo t count inner
          else if (t.get? inner).isSome then
            [Text.trim (t.text inner)]
          else
            []
    | _ => []

/-- The names of a chain of member accesses, the last one first.  A chain
    has no more member accesses than the tree has nodes. -/
def reversedChain (t : Tree) (id : Nat) : List String := chainUpTo t t.nodes.size id

/-- The called expression at a node. -/
def ofNode (t : Tree) (id : Option Nat) : Callee :=
  match id with
  | none => other
  | some id =>
    match t.form? id with
    | some (.identifier _) => bare (t.text id)
    | some (.memberAccess ..) => chain (reversedChain t id).reverse
    | _ => other

end Callee
end SelfCapture
