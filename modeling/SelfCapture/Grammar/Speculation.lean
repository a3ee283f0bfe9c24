import SelfCapture.Grammar.State

/-! # Looking ahead

  `lookAhead` reads on and comes back; `attempt` reads on and comes back if
  what it read does not fit.  Coming back restores a `Checkpoint`, which
  holds counts rather than copies: nodes and diagnostics made since are
  dropped.  The nesting depth is not part of a checkpoint, because every
  construct closes what it opens.
-/

namespace SelfCapture.Grammar

/-- What is saved of the state. -/
structure Checkpoint where
  scanner : Scanner.Checkpoint
  previousStop : Nat
  /-- Number of nodes at the time. -/
  nodeCount : Nat
  /-- Number of diagnostics at the time. -/
  diagnosticCount : Nat
  lastIssueAt : Option Nat
  context : Context

/-- Saves the position. -/
def State.save (s : State) : Checkpoint :=
  { scanner := s.scanner.save
    previousStop := s.previousStop
    nodeCount := s.tree.nodes.size
    diagnosticCount := s.diagnostics.size
    lastIssueAt := s.lastIssueAt
    context := s.context }

/-- Goes back to a saved position. -/
def State.rewind (s : State) (saved : Checkpoint) : State :=
  { s with
    scanner := s.scanner.restore saved.scanner
    previousStop := saved.previousStop
    tree := s.tree.truncate saved.nodeCount
    diagnostics := s.diagnostics.shrink saved.diagnosticCount
    lastIssueAt := saved.lastIssueAt
    context := saved.context }

/-- Reads on for the answer only. -/
def lookAhead {α : Type} (body : Parse α) : Parse α := do
  let saved := (← get).save
  let result ← body
  modify (·.rewind saved)
  return result

/-- Reads on, and comes back unless there is a result. -/
def attempt {α : Type} (body : Parse (Option α)) : Parse (Option α) := do
  let saved := (← get).save
  match ← body with
  | some result => return some result
  | none =>
    modify (·.rewind saved)
    return none

/-- Whether the token after the current one passes a test. -/
def nextIs (test : Parse Bool) : Parse Bool :=
  lookAhead do
    advance
    test

end SelfCapture.Grammar
