import SelfCapture.Check.Callee

/-! # Rules for calls that are left alone

  A rule without a parent test applies to bare calls; a rule with one
  applies to member calls, where the parent test looks at the chain before
  the method name, joined by dots.
-/

namespace SelfCapture

/-- A rule for calls whose closures are not looked at. -/
structure Rule where
  /-- Test of the chain before the method name. -/
  parent : Option (String → Bool)
  /-- Test of the function or method name. -/
  function : String → Bool

/-- Whether the rule applies to a called expression. -/
def Rule.applies (rule : Rule) (callee : Callee) : Bool :=
  match callee, rule.parent with
  | .bare name, none => rule.function name
  | .chain names, some parent =>
    match names.getLast? with
    | some name => parent (".".intercalate names.dropLast) && rule.function name
    | none => false
  | _, _ => false

/-- Whether one of the rules applies to the call at a node. -/
def isExempt (t : Tree) (rules : List Rule) (call : Nat) : Bool :=
  match t.form? call with
  | some (.call callee ..) => rules.any (·.applies (Callee.ofNode t callee))
  | _ => false

end SelfCapture
