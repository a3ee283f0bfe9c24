import SelfCapture.Grammar.Skipping

/-! # Where declarations start

  Modifiers are plain identifiers, and `class` is both a modifier and a
  declaration keyword, so whether a declaration starts shows only further
  on in the text.
-/

namespace SelfCapture.Grammar

open Token (Kind)

/-- Declaration modifiers that are spelled as plain identifiers. -/
def modifierWords : List String :=
  ["public", "private", "fileprivate", "internal", "open", "package", "final", "override",
    "mutating", "nonmutating", "lazy", "weak", "unowned", "optional", "required", "convenience",
    "dynamic", "indirect", "nonisolated", "isolated", "distributed", "prefix", "postfix", "infix",
    "consuming", "borrowing", "__consuming"]

/-- Whether the current token is spelled as a modifier. -/
def atModifierWord : Parse Bool := isOneOf modifierWords

/-- Kinds that start a declaration wherever they stand. -/
def startsDeclaration : Kind → Bool
  | .classKeyword | .structKeyword | .enumKeyword | .protocolKeyword | .extensionKeyword
  | .funcKeyword | .initKeyword | .deinitKeyword | .subscriptKeyword | .varKeyword | .letKeyword
  | .typealiasKeyword | .importKeyword | .associatedtypeKeyword | .operatorKeyword
  | .precedencegroupKeyword => true
  | _ => false

/-- Whether the current token, after any modifiers, starts a declaration. -/
def atDeclarationKeyword : Parse Bool := do
  let k ← kind
  if startsDeclaration k then
    return true
  else if k == .caseKeyword then
    return (← get).context.inTypeBody
  else if ← isWord "actor" then
    nextIs (return (← isAt .identifier) && !(← afterLineBreak))
  else
    return false

/-- Whether `class` at hand is a modifier, as in `class func`. -/
def classIsModifier : Parse Bool :=
  nextIs do
    match ← kind with
    | .funcKeyword | .varKeyword | .letKeyword | .subscriptKeyword | .typealiasKeyword
    | .staticKeyword | .atSign => return true
    | _ => atModifierWord

/-- Skips the detail of a modifier, `(set)`, and says whether what stands there is acceptable. -/
def modifierDetail : Parse Bool := do
  if (← isAt .openParen) && !(← afterBlank) then
    advance
    if ← accept .identifier then accept .closeParen else return false
  else
    return true

/-- Whether the modifier word at hand is followed on the same line by a declaration. -/
def modifierPrecedesDeclaration : Parse Bool :=
  lookAhead do
    advance
    if ← modifierDetail then
      if ← afterLineBreak then
        return false
      else
        match ← kind with
        | .atSign | .staticKeyword | .classKeyword => return true
        | _ => if ← atModifierWord then return true else atDeclarationKeyword
    else
      return false

/-- Skips one attribute or modifier, and says whether there was one. -/
def skipModifier : Parse Bool := do
  match ← kind with
  | .atSign =>
    skipAttribute
    return true
  | .staticKeyword =>
    advance
    return true
  | .classKeyword =>
    if ← classIsModifier then
      advance
      return true
    else
      return false
  | .identifier =>
    if ← atModifierWord then
      if ← modifierPrecedesDeclaration then
        advance
        skipAttachedParens
        return true
      else
        return false
    else
      return false
  | _ => return false

/-- Skips the attributes and modifiers before a declaration. -/
def skipModifiers : Parse Unit := repeatWhile skipModifier (pure ())

/-- Whether a declaration starts at the current token. -/
def atDeclaration : Parse Bool := do
  match ← kind with
  | .atSign | .staticKeyword | .classKeyword | .identifier =>
    lookAhead do
      skipModifiers
      atDeclarationKeyword
  | _ => atDeclarationKeyword

/-- Skips a `where` clause up to the body that follows it, or up to the next declaration. -/
def skipWhereClause : Parse Unit := do
  if ← accept .whereKeyword then
    loop () fun _ => do
      match ← kind with
      | .endOfFile | .openBrace | .closeBrace => return .done ()
      | _ =>
        let nextDeclaration ← if ← afterLineBreak then atDeclaration else pure false
        if nextDeclaration then
          return .done ()
        else
          advance
          return .yield ()

end SelfCapture.Grammar
