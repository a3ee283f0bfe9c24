import SelfCapture.Grammar.Phrase
import SelfCapture.Grammar.Skipping

/-! # Arguments, tuples and collections

  Lists of expressions between brackets.  Inside the brackets no outer
  restriction on trailing closures applies.
-/

namespace SelfCapture.Grammar

open Token (Kind)

/-- The label before an argument, with its colon consumed. -/
def argumentLabel : Parse (Option Nat) := do
  if ← isName then
    if ← nextIs (isAt .colon) then
      let label ← name
      advance
      return some label
    else
      return none
  else
    return none

/-- Whether a labelled argument ends before its value, as in a function name `run(_:with:)`. -/
def argumentEnds : Parse Bool := do
  match ← kind with
  | .comma | .closeParen | .closeBracket => return true
  | _ => return false

/-- `label: value`, `value`, or a label alone. -/
def argument (nested : Readers) : Parse Nat := do
  let pos ← position
  let label ← argumentLabel
  let labelAlone ← if label.isSome then argumentEnds else pure false
  let expression ← if labelAlone then pure none else nested .expression
  finish (.argument label expression) pos

/-- The arguments of a call, subscript or tuple, brackets included. -/
def argumentList (nested : Readers) (opener closer : Kind) (what : String) :
    Parse (List Nat) := do
  advance
  let arguments ← unrestricted do
    separatedUntil closer do
      return [← argument nested]
  closeList opener closer what
  return arguments

/-- Arguments between parentheses. -/
def parenArguments (nested : Readers) : Parse (List Nat) :=
  argumentList nested .openParen .closeParen "')'"

/-- Arguments between square brackets. -/
def bracketArguments (nested : Readers) : Parse (List Nat) :=
  argumentList nested .openBracket .closeBracket "']'"

/-- A parenthesized expression or tuple. -/
def tupleExpression (nested : Readers) : Parse Nat := do
  let pos ← position
  let elements ← parenArguments nested
  finish (.tuple elements) pos

/-- An element of an array or dictionary literal. -/
def collectionElement (nested : Readers) : Parse (Option Nat) := do
  let pos ← position
  let key ← nested .expression
  if ← accept .colon then
    let value ← nested .expression
    some <$> finish (.dictionaryElement key value) pos
  else
    return key

/-- The elements of an array or dictionary literal; a lone colon is the empty dictionary. -/
def collectionElements (nested : Readers) : Parse (List Nat) := do
  if ← accept .colon then
    return []
  else
    separatedUntil .closeBracket do
      return (← collectionElement nested).toList

/-- An array or dictionary literal. -/
def collectionExpression (nested : Readers) : Parse Nat := do
  let pos ← position
  advance
  let elements ← unrestricted (collectionElements nested)
  closeList .openBracket .closeBracket "']'"
  finish (.collection elements) pos

/-- The pattern after `let` or `var`: a name or a tuple. -/
def bindingPattern (nested : Readers) : Parse Nat := do
  if ← isAt .openParen then tupleExpression nested else nameOr "Identifier"

/-- The value after `=`, if there is one. -/
def initialValue (nested : Readers) : Parse (Option Nat) := do
  if ← accept .equals then nested .expression else return none

/-- The type after `:`, if there is one. -/
def typeClause (nested : Readers) : Parse (Option Nat) := do
  if ← accept .colon then some <$> nested .type else return none

end SelfCapture.Grammar
