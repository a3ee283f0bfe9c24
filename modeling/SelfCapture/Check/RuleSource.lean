import SelfCapture.Check.Rule
import SelfCapture.Pattern.Reader

/-! # Rules as they are written

  A rule is written as one or two regular expressions.
-/

namespace SelfCapture

/-- A rule as it is written. -/
structure RuleSource where
  parent : Option String
  function : String
  deriving DecidableEq, Repr

/-- The test that a pattern stands for, or the pattern if it is invalid. -/
def compilePattern (pattern : String) : Except String (String → Bool) :=
  match Pattern.test? pattern with
  | some test => .ok test
  | none => .error pattern

/-- The rule that is written, or the first invalid pattern. -/
def RuleSource.compile (source : RuleSource) : Except String Rule := do
  let parent ← source.parent.mapM compilePattern
  let function ← compilePattern source.function
  return { parent, function }

/-- The rules that are written, or the first invalid pattern. -/
def compileRules (sources : List RuleSource) : Except String (List Rule) :=
  sources.mapM RuleSource.compile

end SelfCapture
