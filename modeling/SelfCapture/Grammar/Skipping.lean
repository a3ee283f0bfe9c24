import SelfCapture.Grammar.Repetition
import SelfCapture.Grammar.Speculation

/-! # Skipped constructs

  Parts of the language that leave no node behind: balanced groups,
  attributes, effect specifiers, generic constraints, and what follows an
  error up to a closing bracket.
-/

namespace SelfCapture.Grammar

open Token (Kind)

/-- Skips a group from its opening token, if it is there, to the matching closing one. -/
def skipBalanced (opener closer : Kind) : Parse Unit := do
  if ← isAt opener then
    let _ ← loop 0 fun depth => do
      let k ← kind
      if k == .endOfFile then
        return .done depth
      else if k == opener then
        advance
        return .yield (depth + 1)
      else if k == closer then
        advance
        return if depth ≤ 1 then .done 0 else .yield (depth - 1)
      else
        advance
        return .yield depth

/-- Skips a parenthesized group. -/
def skipParens : Parse Unit := skipBalanced .openParen .closeParen

/-- Skips a parenthesized group that follows the last token directly. -/
def skipAttachedParens : Parse Unit := do
  if (← isAt .openParen) && !(← afterBlank) then skipParens

/-- Skips a clause of generic parameters. -/
def skipGenerics : Parse Unit := skipBalanced .lessThan .greaterThan

/-- Skips to the closing token of a group whose opening token has been
    consumed, but not past the closing brace of what encloses it. -/
def skipToCloser (opener closer : Kind) : Parse Unit := do
  let _ ← loop 0 fun depth => do
    let k ← kind
    if k == .endOfFile then
      return .done depth
    else if k == closer then
      if depth = 0 then
        return .done depth
      else
        advance
        return .yield (depth - 1)
    else if k == opener then
      advance
      return .yield (depth + 1)
    else if k == .closeBrace && depth = 0 then
      return .done depth
    else
      advance
      return .yield depth

/-- Consumes the closing token of a list, skipping to it if something else is in the way. -/
def closeList (opener closer : Kind) (what : String) : Parse Unit := do
  unless ← isAt closer do
    reportExpected what
    skipToCloser opener closer
  let _ ← accept closer

/-- Skips the current token and the rest of its line. -/
def skipLine : Parse Unit :=
  loop () fun _ => do
    if ← atEnd then
      return .done ()
    else
      advance
      return if ← afterLineBreak then .done () else .yield ()

/-- Skips `@name`, `@name.member` or `@name(arguments)`. -/
def skipAttribute : Parse Unit := do
  advance
  if ← isName then advance
  repeatWhile (return (← isAt .dot) && !(← afterBlank)) do
    advance
    if ← isName then advance
  skipAttachedParens

/-- Skips any number of attributes. -/
def skipAttributes : Parse Unit := repeatWhile (isAt .atSign) skipAttribute

/-- Skips `async`, `throws`, `throws(E)`, `rethrows` and `reasync`, and
    says whether there were any. -/
def skipEffects : Parse Bool :=
  loop false fun skipped => do
    if ← isOneOf ["async", "reasync"] then
      advance
      return .yield true
    else if ← isAt .throwsKeyword then
      advance
      skipAttachedParens
      return .yield true
    else if ← isAt .rethrowsKeyword then
      advance
      return .yield true
    else
      return .done skipped

/-- Skips the `...` of a variadic parameter. -/
def skipVariadicMark : Parse Unit := do
  if (← isAt .operator) && (← tokenText) == "..." then advance

/-- Whether the brace at hand opens a block of property observers. -/
def opensObservers : Parse Bool :=
  lookAhead do
    advance
    if ← isOneOf ["willSet", "didSet"] then
      advance
      return (← isAt .openBrace) || (← isAt .openParen)
    else
      return false

end SelfCapture.Grammar
