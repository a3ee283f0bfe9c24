import SelfCapture.Check.Escaping

/-! # Verdicts

  Each closure that is passed to a call goes through a row of tests; the
  first one that clears it decides.  A closure that none of them clears is
  reported.
-/

namespace SelfCapture

/-- Why a closure is or is not reported. -/
inductive Verdict where
  /-- The body does not access a member of the enclosing instance. -/
  | noSelfUse
  /-- The instance is captured `weak` or `unowned`. -/
  | capturedWeakly
  /-- A parameter takes the name of the instance. -/
  | shadowed
  /-- The enclosing type is a value type. -/
  | valueType
  /-- The closure does not outlive the call. -/
  | notEscaping
  /-- None of the above. -/
  | report
  deriving DecidableEq, Repr

/-- Name of a verdict. -/
def Verdict.name : Verdict → String
  | .noSelfUse => "NoSelfUsage"
  | .capturedWeakly => "CapturedWeakly"
  | .shadowed => "SelfShadowed"
  | .valueType => "ValueType"
  | .notEscaping => "NonEscaping"
  | .report => "Report"

/-- The verdict on a closure passed to a call under a label. -/
def Setting.verdict (s : Setting) (closure call : Nat) (label : Option String) : Verdict :=
  match s.tree.form? closure with
  | some (.closure captures parameters _ statements) =>
    if !s.tree.usesSelf statements then .noSelfUse
    else if s.tree.capturesSelfWeakly captures then .capturedWeakly
    else if s.tree.shadowsSelf parameters then .shadowed
    else if s.inReferenceType closure == .definitelyNot then .valueType
    else if s.escapes call label == .definitelyNot then .notEscaping
    else .report
  | _ => .noSelfUse

/-! ## Closures passed to calls -/

/-- How a closure is passed: to which call, and under which label. -/
structure ClosureSite where
  call : Nat
  /-- The node of the label, if there is one. -/
  label : Option Nat
  deriving DecidableEq, Repr

namespace Tree

/-- The closure that an argument consists of. -/
def argumentClosure? (t : Tree) (call argument : Nat) : Option (Nat × ClosureSite) :=
  match t.form? argument with
  | some (.argument label (some expression)) =>
    if t.isClosure expression then some (expression, ⟨call, label⟩) else none
  | _ => none

/-- The closures passed to a call: between the parentheses, trailing, and
    trailing with labels. -/
def closureArguments (t : Tree) (call : Nat) : List (Nat × ClosureSite) :=
  match t.form? call with
  | some (.call _ arguments trailing additional) =>
    arguments.filterMap (t.argumentClosure? call) ++
      trailing.toList.map (fun closure => (closure, ⟨call, none⟩)) ++
      additional.filterMap (t.argumentClosure? call)
  | _ => []

/-- The text of the label of a closure. -/
def labelText (t : Tree) (site : ClosureSite) : Option String := site.label.map t.text

end Tree
end SelfCapture
