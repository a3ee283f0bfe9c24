import SelfCapture.Index.Store
import SelfCapture.Text.LineMap
import SelfCapture.Tree.Basic

/-! # What a check can consult

  A question that the text alone may not settle has three answers; only a
  definite "no" clears a closure.
-/

namespace SelfCapture

/-- The answer to a question that may stay open. -/
inductive Answer where
  | definitely | definitelyNot | indeterminate
  deriving DecidableEq, Repr

/-- Name of an answer. -/
def Answer.name : Answer → String
  | .definitely => "definitely"
  | .definitelyNot => "definitely-not"
  | .indeterminate => "indeterminate"

/-- The file being checked and the symbol index. -/
structure Setting where
  /-- Name of the file, as reported and as looked up in the index. -/
  file : String
  tree : Tree
  lines : LineMap
  index : Index.Lookup

/-- The place where a node starts. -/
def Setting.location? (s : Setting) (id : Nat) : Option Location :=
  (s.tree.pos? id).map s.lines.location

end SelfCapture
