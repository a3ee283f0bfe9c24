import SelfCapture.Grammar.Argument
import SelfCapture.Grammar.Block

/-! # Closures

  A closure may start with a signature: a capture list, parameters, effects
  and a result type, ended by `in`.  Whether it does shows only at the
  `in`, so the signature is read tentatively.
-/

namespace SelfCapture.Grammar

open Token (Kind)

/-- The part of a closure before its statements. -/
structure Signature where
  captures : List Nat := []
  parameters : ClosureParameters := .absent
  result : Option Nat := none

/-! ## Section 1: Captures -/

/-- The ownership specifier at the current token. -/
def ownership : Parse Ownership := do
  if ← isWord "weak" then return .weak
  else if ← isWord "unowned" then return .unowned
  else return .strong

/-- Skips `(safe)` or `(unsafe)` right after an ownership specifier, and
    says whether what stands there is acceptable. -/
def ownershipDetail : Parse Bool := do
  if (← isAt .openParen) && !(← afterBlank) then
    advance
    if ← isOneOf ["safe", "unsafe"] then
      advance
      accept .closeParen
    else
      return false
  else
    return true

/-- The name in `name = value`, with its equals sign consumed. -/
def captureName : Parse (Option Nat) := do
  if ← isName then
    if ← nextIs (isAt .equals) then
      let name ← name
      advance
      return some name
    else
      return none
  else
    return none

/-- Whether a node stands in for something that is not there. -/
def isMissing (node : Option Nat) : Parse Bool := do
  match node with
  | some id => return (← get).tree.form? id == some .missing
  | none => return false

/-- `weak self`, `unowned(unsafe) x`, `y = value` or `z`. -/
def captureItem (nested : Readers) : Parse (Option Nat) := do
  let pos ← position
  let ownership ← ownership
  let acceptable ←
    if ownership == .strong then
      pure true
    else
      advance
      ownershipDetail
  if acceptable then
    let name ← captureName
    let expression ← nested .expression
    if ← isMissing expression then
      return none
    else
      some <$> finish (.captureItem ownership name expression) pos
  else
    return none

/-- The capture list, if one starts here. -/
def captureList (nested : Readers) : Parse (Option (List Nat)) := do
  if ← isAt .openBracket then
    advance
    enclosed? .closeBracket (captureItem nested)
  else
    return some []

/-! ## Section 2: Parameters -/

/-- `a`, `a: Int` or `_ a: Int`. -/
def closureParameter (nested : Readers) : Parse (Option Nat) := do
  let pos ← position
  skipAttributes
  if ← isName then
    let first ← name
    let second ← name?
    let type ← typeClause nested
    skipVariadicMark
    some <$> finish (.parameter first second type none) pos
  else
    return none

/-- Whether the current token can be a bare parameter name. -/
def atBareParameter : Parse Bool := return (← isAt .identifier) || (← isAt .selfKeyword)

/-- `a, b` without parentheses. -/
def bareParameters : Parse (Option (List Nat)) :=
  loop (some []) fun names => do
    if ← atBareParameter then
      let name ← name
      let names := names.map (· ++ [name])
      if ← accept .comma then return .yield names else return .done names
    else
      return .done none

/-- The parameters of a closure, however they are written. -/
def closureParameters (nested : Readers) : Parse (Option ClosureParameters) := do
  if ← isAt .openParen then
    advance
    return (← enclosed? .closeParen (closureParameter nested)).map .clause
  else if ← atBareParameter then
    return (← bareParameters).map .shorthand
  else
    return some .absent

/-! ## Section 3: Closures -/

/-- The signature of a closure, up to and including `in`. -/
def closureSignature (nested : Readers) : Parse (Option Signature) := do
  skipAttributes
  match ← captureList nested with
  | none => return none
  | some captures =>
    match ← closureParameters nested with
    | none => return none
    | some parameters =>
      let _ ← skipEffects
      let result ← if ← accept .arrow then some <$> nested .type else pure none
      if ← accept .inKeyword then
        return some { captures, parameters, result }
      else
        return none

/-- The signature that follows the opening brace of a closure, if there is one. -/
def optionalSignature (nested : Readers) : Parse Signature :=
  return (← attempt (closureSignature nested)).getD {}

/-- `{ [captures] (parameters) -> T in statements }` -/
def closure (nested : Readers) : Parse Nat := do
  let pos ← position
  advance
  let signature ← optionalSignature nested
  let statements ← unrestricted (statementsUntil nested (isAt .closeBrace))
  let _ ← expect .closeBrace "'\x7d'"
  finish (.closure signature.captures signature.parameters signature.result statements) pos

/-- Whether `label: {` starts at the current token, so that one more trailing closure follows. -/
def atLabelledClosure : Parse Bool := do
  let k ← kind
  if k.isName && k != .caseKeyword && k != .defaultKeyword then
    lookAhead do
      advance
      if ← accept .colon then isAt .openBrace else return false
  else
    return false

/-- `label: { ... }` after a trailing closure. -/
def labelledClosure (nested : Readers) : Parse Nat := do
  let pos ← position
  let label ← name
  advance
  let expression ← closure nested
  finish (.argument (some label) (some expression)) pos

/-- `{ ... } label: { ... } label: { ... }` -/
def trailingClosures (nested : Readers) : Parse (Nat × List Nat) := do
  let first ← closure nested
  let additional ← gatherWhile atLabelledClosure do
    return [← labelledClosure nested]
  return (first, additional)

end SelfCapture.Grammar
