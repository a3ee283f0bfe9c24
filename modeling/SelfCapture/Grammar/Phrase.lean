import SelfCapture.Grammar.State

/-! # Nested constructs

  The grammar is recursive through six phrases.  Every rule takes, as
  `Readers`, the readers of the phrases nested in it; tying the knot is
  left to `SelfCapture.Grammar.SourceFile`.

  Reading an expression, an operand, a type or a statement is `guarded`:
  beyond the nesting limit the construct is given up and one token is
  skipped.
-/

namespace SelfCapture.Grammar

/-- The phrases through which the grammar is recursive. -/
inductive Phrase where
  /-- An expression. -/
  | expression
  /-- The operand of a unary operator. -/
  | operand
  /-- A statement or declaration. -/
  | statement
  /-- A type. -/
  | type
  /-- A type without attributes, after `some` or `any`. -/
  | composition
  /-- The `if` that follows an `else`. -/
  | branch
  deriving DecidableEq, Repr

/-- What reading a phrase yields: a node, or possibly none. -/
@[reducible] def Phrase.Result : Phrase → Type
  | .expression | .operand | .statement => Option Nat
  | .type | .composition | .branch => Nat

/-- Readers for the nested phrases. -/
abbrev Readers := (phrase : Phrase) → Parse phrase.Result

/-- Reads one level deeper.  At the nesting limit one token is skipped and
    `otherwise` gives the result. -/
def guarded {α : Type} (otherwise : Parse α) (body : Parse α) : Parse α := do
  if maxDepth ≤ (← get).depth then
    report .tooDeep
    unless ← atEnd do advance
    otherwise
  else
    modify fun s => { s with depth := s.depth + 1 }
    let result ← body
    modify fun s => { s with depth := s.depth - 1 }
    return result

end SelfCapture.Grammar
