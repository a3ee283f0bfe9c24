import SelfCapture.Check.Rule
import SelfCapture.Check.Verdict
import SelfCapture.Report

/-! # Checking a file

  One walk over the tree of a file: a call that no rule exempts puts the
  closures passed to it on the waiting list, and a closure on the waiting
  list is judged when the walk reaches it.  So reports come in the order of
  the text.
-/

namespace SelfCapture

/-- What a check counts. -/
structure Statistics where
  calls : Nat := 0
  exemptCalls : Nat := 0
  closures : Nat := 0
  reports : Nat := 0
  diagnostics : Nat := 0
  deriving DecidableEq, Repr

/-- The state of a check in the middle of its walk. -/
structure Progress where
  /-- Closures that were passed to a call and not yet reached. -/
  waiting : List (Nat × ClosureSite) := []
  statistics : Statistics := {}
  reports : Array Report := #[]

/-- What the whole run has settled before any file is checked. -/
structure Policy where
  severity : Severity := .error
  rules : List Rule := []

namespace Progress

/-- Passes a call. -/
def passCall (p : Progress) (t : Tree) (rules : List Rule) (call : Nat) : Progress :=
  let statistics := { p.statistics with calls := p.statistics.calls + 1 }
  if isExempt t rules call then
    { p with
      statistics := { statistics with exemptCalls := statistics.exemptCalls + 1 } }
  else
    { p with
      statistics
      waiting := t.closureArguments call ++ p.waiting }

/-- Judges a closure that was waiting. -/
def judge (p : Progress) (s : Setting) (severity : Severity) (closure : Nat)
    (site : ClosureSite) : Progress :=
  let statistics := { p.statistics with closures := p.statistics.closures + 1 }
  match s.verdict closure site.call (s.tree.labelText site), s.location? closure with
  | .report, some place =>
    { p with
      statistics := { statistics with reports := statistics.reports + 1 }
      reports := p.reports.push (Report.capture s.file place.line place.column severity) }
  | _, _ => { p with statistics }

/-- Passes a closure. -/
def passClosure (p : Progress) (s : Setting) (severity : Severity) (closure : Nat) : Progress :=
  match p.waiting.lookup closure with
  | some site =>
    judge { p with waiting := p.waiting.filter (·.1 != closure) } s severity closure site
  | none => p

/-- Passes a node. -/
def pass (s : Setting) (policy : Policy) (p : Progress) (id : Nat) (node : Node) : Progress :=
  match node.form with
  | .call .. => p.passCall s.tree policy.rules id
  | .closure .. => p.passClosure s policy.severity id
  | _ => p

end Progress

/-- What a check of a file finds. -/
structure Findings where
  reports : List Report
  statistics : Statistics
  deriving DecidableEq, Repr

/-- Checks the text of a file. -/
def inspect (policy : Policy) (index : Index.Lookup) (file text : String) : Findings :=
  let source := SourceFile.parse text
  let setting : Setting :=
    { file, tree := source.tree, lines := LineMap.ofText text, index }
  let final := source.tree.fold source.root ({} : Progress) fun p id node =>
    (p.pass setting policy id node, .descend)
  { reports := final.reports.toList
    statistics := { final.statistics with diagnostics := source.diagnostics.length } }

end SelfCapture
