import SelfCapture.Grammar.Argument
import SelfCapture.Grammar.Block

/-! # Control statements

  Branches, loops, `switch`, `do`, and the statements that leave them.  The
  parts of a control statement are kept in one list, in source order.
-/

namespace SelfCapture.Grammar

open Token (Kind)

/-! ## Section 1: Conditions -/

/-- `let x = value`, `let x: T = value` or `let x` in a condition. -/
def optionalBinding (nested : Readers) : Parse Nat := do
  let pos ← position
  advance
  let pattern ← bindingPattern nested
  let type ← typeClause nested
  let initial ← initialValue nested
  finish (.valueBinding (some pattern) type initial) pos

/-- One condition of an `if`, `guard` or `while`. -/
def condition (nested : Readers) : Parse (Option Nat) := do
  match ← kind with
  | .letKeyword | .varKeyword => some <$> optionalBinding nested
  | .caseKeyword =>
    advance
    nested .expression
  | _ => nested .expression

/-- The conditions of an `if`, `guard` or `while`, separated by commas. -/
def conditions (nested : Readers) : Parse (List Nat) :=
  asCondition do
    separated do
      return (← condition nested).toList

/-- An expression before the body of a statement. -/
def headExpression (nested : Readers) : Parse (List Nat) :=
  asCondition do
    return (← nested .expression).toList

/-- Expressions separated by commas. -/
def expressions (nested : Readers) : Parse (List Nat) :=
  separated do
    return (← nested .expression).toList

/-- The expression after `where`, if there is one. -/
def whereCondition (nested : Readers) : Parse (List Nat) := do
  if ← accept .whereKeyword then return (← nested .expression).toList else return []

/-! ## Section 2: Branches and loops -/

/-- What follows `else`: a further branch or a block. -/
def alternative (nested : Readers) : Parse (List Nat) := do
  if ← accept .elseKeyword then
    if ← isAt .ifKeyword then return [← nested .branch] else return [← block nested]
  else
    return []

/-- `if conditions { } else ...` -/
def branchStatement (nested : Readers) : Parse Nat := do
  let pos ← position
  advance
  let conditions ← conditions nested
  let body ← block nested
  let alternative ← alternative nested
  finish (.control .branch (conditions ++ body :: alternative)) pos

/-- `guard conditions else { }` -/
def guardStatement (nested : Readers) : Parse Nat := do
  let pos ← position
  advance
  let conditions ← conditions nested
  let _ ← expect .elseKeyword "'else'"
  let body ← block nested
  finish (.control .guard (conditions ++ [body])) pos

/-- `while conditions { }` -/
def whileStatement (nested : Readers) : Parse Nat := do
  let pos ← position
  advance
  let conditions ← conditions nested
  let body ← block nested
  finish (.control .loop (conditions ++ [body])) pos

/-- `repeat { } while condition` -/
def repeatStatement (nested : Readers) : Parse Nat := do
  let pos ← position
  advance
  let body ← block nested
  let condition ← if ← expect .whileKeyword "'while'" then headExpression nested else pure []
  finish (.control .repeatLoop (body :: condition)) pos

/-- The part of a `for` statement before its body. -/
def forHead (nested : Readers) : Parse (List Nat) :=
  asCondition do
    let pattern ← nested .expression
    let type ← typeClause nested
    let values ← if ← expect .inKeyword "'in'" then nested .expression else pure none
    let filter ← whereCondition nested
    return pattern.toList ++ type.toList ++ values.toList ++ filter

/-- `for try await case pattern: T in values where condition { }` -/
def forStatement (nested : Readers) : Parse Nat := do
  let pos ← position
  advance
  let _ ← accept .tryKeyword
  let _ ← accept .awaitKeyword
  let _ ← accept .caseKeyword
  let head ← forHead nested
  let body ← block nested
  finish (.control .forLoop (head ++ [body])) pos

/-! ## Section 3: `switch` and `do` -/

/-- Whether the current token ends the body of a case. -/
def endsCase : Parse Bool := do
  match ← kind with
  | .caseKeyword | .defaultKeyword | .closeBrace => return true
  | .atSign =>
    let s ← get
    let text : Window := ⟨s.scanner.bytes, s.scanner.bytes.size⟩
    return text.startsWith s.scanner.token.stop "unknown".toList
  | _ => return false

/-- `case pattern, pattern where condition: statements` -/
def switchCase (nested : Readers) : Parse Nat := do
  let pos ← position
  advance
  let patterns ← expressions nested
  let filter ← whereCondition nested
  let _ ← expect .colon "':'"
  let statements ← statementsUntil nested endsCase
  finish (.control .case (patterns ++ filter ++ statements)) pos

/-- `default: statements` -/
def switchDefault (nested : Readers) : Parse Nat := do
  let pos ← position
  advance
  let _ ← expect .colon "':'"
  let statements ← statementsUntil nested endsCase
  finish (.control .default statements) pos

/-- Whether the number sign at hand starts a conditional compilation
    directive.  All branches of such a condition are read. -/
def atDirective : Parse Bool :=
  nextIs do
    if ← afterBlank then return false
    else if (← isAt .ifKeyword) || (← isAt .elseKeyword) then return true
    else isOneOf ["elseif", "endif"]

/-- A statement where a case should be. -/
def strayInSwitch (nested : Readers) : Parse (List Nat) := do
  reportExpected "'case'"
  return (← nested .statement).toList

/-- Reads one entry of a `switch` body. -/
def switchEntry (nested : Readers) : Parse (List Nat) := do
  match ← kind with
  | .hash =>
    if ← atDirective then
      skipLine
      return []
    else
      strayInSwitch nested
  | .atSign =>
    skipAttribute
    return []
  | .caseKeyword => return [← switchCase nested]
  | .defaultKeyword => return [← switchDefault nested]
  | _ => strayInSwitch nested

/-- Reads entries up to the closing brace of a `switch`. -/
def switchEntries (nested : Readers) : Parse (List Nat) :=
  gatherWhile (return !(← isAt .closeBrace) && !(← atEnd)) do
    let before ← position
    let entry ← switchEntry nested
    if (← position) == before && !(← atEnd) then advance
    return entry

/-- `switch value { cases }` -/
def switchStatement (nested : Readers) : Parse Nat := do
  let pos ← position
  advance
  let value ← headExpression nested
  if ← expect .openBrace "'\x7b'" then
    let cases ← unrestricted (switchEntries nested)
    let _ ← expect .closeBrace "'\x7d'"
    finish (.control .switch (value ++ cases)) pos
  else
    finish (.control .switch value) pos

/-- The patterns and condition of a `catch`. -/
def handlerHead (nested : Readers) : Parse (List Nat) :=
  asCondition do
    let patterns ← if ← isAt .openBrace then pure [] else expressions nested
    let filter ← whereCondition nested
    return patterns ++ filter

/-- `catch pattern where condition { }` -/
def handler (nested : Readers) : Parse Nat := do
  let pos ← position
  advance
  let head ← handlerHead nested
  let body ← block nested
  finish (.control .handler (head ++ [body])) pos

/-- `do { } catch pattern { }` -/
def doStatement (nested : Readers) : Parse Nat := do
  let pos ← position
  advance
  if ← accept .throwsKeyword then
    unless ← afterBlank do skipParens
  let body ← block nested
  let handlers ← gatherWhile (isAt .catchKeyword) do
    return [← handler nested]
  finish (.control .block (body :: handlers)) pos

/-! ## Section 4: Leaving a block -/

/-- `defer { }` -/
def deferStatement (nested : Readers) : Parse Nat := do
  let pos ← position
  advance
  let body ← block nested
  finish (.control .defer [body]) pos

/-- Whether an expression follows on the same line. -/
def operandFollows : Parse Bool := do
  if ← afterLineBreak then
    return false
  else
    match ← kind with
    | .endOfFile | .closeBrace | .semicolon | .caseKeyword | .defaultKeyword => return false
    | _ => return true

/-- `return value` or `throw value`. -/
def exitStatement (nested : Readers) (sort : ControlSort) : Parse Nat := do
  let pos ← position
  advance
  let value ← if ← operandFollows then nested .expression else pure none
  finish (.control sort value.toList) pos

/-- `break label` or `continue label`. -/
def jumpStatement (sort : ControlSort) : Parse Nat := do
  let pos ← position
  advance
  if (← isAt .identifier) && !(← afterLineBreak) then
    let label ← name
    finish (.control sort [label]) pos
  else
    finish (.control sort []) pos

/-- `fallthrough` -/
def fallthroughStatement : Parse Nat := do
  let pos ← position
  advance
  finish (.control .fallthrough []) pos

end SelfCapture.Grammar
