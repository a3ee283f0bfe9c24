import SelfCapture.Grammar.Phrase
import SelfCapture.Grammar.Skipping

/-! # Types

  A type is a sequence of attributes and at most one specifier, then a
  composition `A & B`, whose members are primary types followed by `?`, `!`
  and `.Member`.
-/

namespace SelfCapture.Grammar

open Token (Kind)

/-! ## Section 1: Where a type starts -/

/-- Kinds that can start a type. -/
def startsType : Kind → Bool
  | .identifier | .selfTypeKeyword | .openParen | .openBracket | .atSign | .inoutKeyword => true
  | _ => false

/-- Ownership and isolation specifiers that can stand before a parameter type. -/
def typeSpecifiers : List String :=
  ["borrowing", "consuming", "__owned", "__shared", "sending", "isolated"]

/-- Whether a type follows the current token on the same line. -/
def typeFollows : Parse Bool := nextIs (return startsType (← kind) && !(← afterLineBreak))

/-- Whether the current token is a specifier rather than the name of a type. -/
def atSpecifier : Parse Bool := do
  if ← isAt .inoutKeyword then return true
  else if ← isOneOf typeSpecifiers then typeFollows
  else return false

/-- Whether the current token is `some` or `any` before a type. -/
def atOpaque : Parse Bool := do
  if ← isOneOf ["some", "any"] then typeFollows else return false

/-! ## Section 2: Parts of types -/

/-- `@name` or `@name(arguments)`; the arguments are skipped. -/
def typeAttribute : Parse Nat := do
  let pos ← position
  advance
  let name ← nameOr "Attribute name"
  skipAttachedParens
  finish (.typeAttribute name) pos

/-- `<T, U>` after the name of a type; empty when it is not there. -/
def genericArguments (nested : Readers) : Parse (List Nat) := do
  if (← isAt .lessThan) && !(← afterLineBreak) then
    advance
    let arguments ← separatedUntil .greaterThan do
      return [← nested .type]
    let _ ← expect .greaterThan "'>'"
    return arguments
  else
    return []

/-- Whether `label:` or `_ name:` starts at the current token. -/
def atElementLabel : Parse Bool := do
  if ← isName then
    lookAhead do
      advance
      if ← isAt .colon then
        return true
      else if ← isName then
        advance
        isAt .colon
      else
        return false
  else
    return false

/-- The names before the type of a tuple element. -/
def elementLabels : Parse (Option Nat × Option Nat) := do
  if ← atElementLabel then
    let first ← name
    let second ← if ← isAt .colon then pure none else some <$> name
    advance
    return (some first, second)
  else
    return (none, none)

/-- `T`, `label: T` or `_ name: T`; a default value is read and dropped. -/
def tupleTypeElement (nested : Readers) : Parse Nat := do
  let pos ← position
  let (first, second) ← elementLabels
  let type ← nested .type
  skipVariadicMark
  if ← accept .equals then
    let _ ← nested .expression
  finish (.tupleTypeElement first second type) pos

/-- The elements between the parentheses of a tuple type. -/
def tupleTypeElements (nested : Readers) : Parse (List Nat) := do
  advance
  let elements ← separatedUntil .closeParen do
    return [← tupleTypeElement nested]
  closeList .openParen .closeParen "')'"
  return elements

/-- A tuple type, also the associated values of an enum case. -/
def tupleType (nested : Readers) : Parse Nat := do
  let pos ← position
  let elements ← tupleTypeElements nested
  finish (.tupleType elements) pos

/-- `(A, B)` or `(A, B) async throws -> R`. -/
def tupleOrFunctionType (nested : Readers) : Parse Nat := do
  let pos ← position
  let elements ← tupleTypeElements nested
  let hasEffects ← skipEffects
  if ← accept .arrow then
    let result ← nested .type
    finish (.functionType elements (some result)) pos
  else if hasEffects then
    reportExpected "'->'"
    finish (.functionType elements none) pos
  else
    finish (.tupleType elements) pos

/-- `[T]` or `[K: V]`. -/
def collectionType (nested : Readers) : Parse Nat := do
  let pos ← position
  advance
  let element ← nested .type
  let value ← if ← accept .colon then pure [← nested .type] else pure []
  let _ ← expect .closeBracket "']'"
  finish (.collectionType (element :: value)) pos

/-! ## Section 3: Types -/

/-- A type without suffixes. -/
def primaryType (nested : Readers) : Parse Nat := do
  let pos ← position
  match ← kind with
  | .identifier =>
    if ← atOpaque then
      let existential ← isWord "any"
      advance
      let base ← nested .composition
      finish (.opaqueType existential base) pos
    else
      let name ← name
      let generics ← genericArguments nested
      finish (.typeRef none name generics) pos
  | .selfTypeKeyword =>
    let name ← name
    let generics ← genericArguments nested
    finish (.typeRef none name generics) pos
  | .openParen => tupleOrFunctionType nested
  | .openBracket => collectionType nested
  | _ => missing "Type"

/-- A primary type followed by `?`, `!` and `.Member`. -/
def suffixedType (nested : Readers) : Parse Nat := do
  let pos ← position
  let base ← primaryType nested
  loop base fun type => do
    match ← kind with
    | .question | .exclamation =>
      if ← afterBlank then
        return .done type
      else
        let implicitlyUnwrapped ← isAt .exclamation
        advance
        return .yield (← finish (.optionalType type implicitlyUnwrapped) pos)
    | .dot =>
      if ← afterLineBreak then
        return .done type
      else
        advance
        if ← isName then
          let name ← name
          let generics ← genericArguments nested
          return .yield (← finish (.typeRef (some type) name generics) pos)
        else
          reportExpected "Identifier"
          return .done type
    | _ => return .done type

/-- `A & B & C`. -/
def compositionType (nested : Readers) : Parse Nat := do
  let pos ← position
  let first ← suffixedType nested
  if ← isAt .ampersand then
    let others ← gatherWhile (accept .ampersand) do
      return [← suffixedType nested]
    finish (.compositionType (first :: others)) pos
  else
    return first

/-- A type with its attributes and specifier, `@escaping inout T`. -/
def attributedType (nested : Readers) : Parse Nat := do
  let pos ← position
  let attributes ← gatherWhile (isAt .atSign) do
    return [← typeAttribute]
  let specifier ← if ← atSpecifier then some <$> name else pure none
  let base ← compositionType nested
  if attributes.isEmpty && specifier.isNone then
    return base
  else
    finish (.attributedType attributes specifier base) pos

/-- A type. -/
def type (nested : Readers) : Parse Nat := guarded (missing "Type") (attributedType nested)

end SelfCapture.Grammar
