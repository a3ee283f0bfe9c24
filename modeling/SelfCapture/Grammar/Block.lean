import SelfCapture.Grammar.Phrase
import SelfCapture.Grammar.Repetition

/-! # Statement lists and blocks

  Statements are read one after the other until something ends the list.
  A closing brace that ends nothing is reported and skipped, and so is a
  token at which no statement starts.
-/

namespace SelfCapture.Grammar

open Token (Kind)

/-- Reads one entry of a statement list: a statement, or a token that has to be skipped. -/
def listEntry (nested : Readers) : Parse (List Nat) := do
  if ← isAt .closeBrace then
    report .strayBrace
    advance
    return []
  else
    let before ← position
    let statement ← nested .statement
    if (← position) == before && !(← atEnd) then
      reportExpected "Statement"
      advance
    return statement.toList

/-- Statements until the test holds or the text ends. -/
def statementsUntil (nested : Readers) (stops : Parse Bool) : Parse (List Nat) :=
  loop [] fun statements => do
    repeatWhile (accept .semicolon) (pure ())
    if ← atEnd then
      return .done statements
    else if ← stops then
      return .done statements
    else
      let more ← listEntry nested
      return .yield (statements ++ more)

/-- Statements up to a closing brace, which is consumed. -/
def statementsInBraces (nested : Readers) (change : Context → Context) : Parse (List Nat) := do
  advance
  let statements ← within change (statementsUntil nested (isAt .closeBrace))
  let _ ← expect .closeBrace "'\x7d'"
  return statements

/-- Statements between braces. -/
def block (nested : Readers) : Parse Nat := do
  if ← isAt .openBrace then
    let pos ← position
    let statements ← statementsInBraces nested fun _ => {}
    finish (.block statements) pos
  else
    missing "'\x7b'"

/-- The body of a function, unless it is only required. -/
def functionBody (nested : Readers) : Parse (Option Nat) := do
  if ← isAt .openBrace then some <$> block nested else return none

end SelfCapture.Grammar
