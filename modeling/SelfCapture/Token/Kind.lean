/-! # Token kinds

  Contextual words (`actor`, `weak`, `async`, `get`, `some`, ...) are plain
  identifiers; the grammar recognises them by their text.  Reserved words
  have a kind each, listed with their spelling in `reservedWords`.
-/

namespace SelfCapture.Token

/-- What a token is. -/
inductive Kind where
  /-- A character or character fragment that starts no token. -/
  | unknown
  /-- The end of the text or of the window. -/
  | endOfFile
  /-- A name, plain, escaped or `$0`. -/
  | identifier
  | integerLiteral
  | floatLiteral
  | stringLiteral
  | openBrace
  | closeBrace
  | openParen
  | closeParen
  | openBracket
  | closeBracket
  | dot
  | comma
  | colon
  | semicolon
  | atSign
  | hash
  | backslash
  | equals
  | arrow
  | lessThan
  | greaterThan
  | question
  | exclamation
  | ampersand
  /-- Any operator without a kind of its own (`+`, `==`, `...`, `??`). -/
  | operator
  | asKeyword
  | associatedtypeKeyword
  | awaitKeyword
  | breakKeyword
  | caseKeyword
  | catchKeyword
  | classKeyword
  | continueKeyword
  | defaultKeyword
  | deferKeyword
  | deinitKeyword
  | doKeyword
  | elseKeyword
  | enumKeyword
  | extensionKeyword
  | fallthroughKeyword
  | falseKeyword
  | forKeyword
  | funcKeyword
  | guardKeyword
  | ifKeyword
  | importKeyword
  | inKeyword
  | initKeyword
  | inoutKeyword
  | isKeyword
  | letKeyword
  | nilKeyword
  | operatorKeyword
  | precedencegroupKeyword
  | protocolKeyword
  | repeatKeyword
  | rethrowsKeyword
  | returnKeyword
  | selfKeyword
  | selfTypeKeyword
  | staticKeyword
  | structKeyword
  | subscriptKeyword
  | superKeyword
  | switchKeyword
  | throwKeyword
  | throwsKeyword
  | trueKeyword
  | tryKeyword
  | typealiasKeyword
  | varKeyword
  | whereKeyword
  | whileKeyword
  deriving DecidableEq, Repr, Inhabited

namespace Kind

/-! ## Section 1: Reserved words -/

/-- The reserved words with their kinds. -/
def reservedWords : List (String × Kind) := [
  ("as", .asKeyword), ("associatedtype", .associatedtypeKeyword), ("await", .awaitKeyword),
  ("break", .breakKeyword), ("case", .caseKeyword), ("catch", .catchKeyword),
  ("class", .classKeyword), ("continue", .continueKeyword), ("default", .defaultKeyword),
  ("defer", .deferKeyword), ("deinit", .deinitKeyword), ("do", .doKeyword),
  ("else", .elseKeyword), ("enum", .enumKeyword), ("extension", .extensionKeyword),
  ("fallthrough", .fallthroughKeyword), ("false", .falseKeyword), ("for", .forKeyword),
  ("func", .funcKeyword), ("guard", .guardKeyword), ("if", .ifKeyword),
  ("import", .importKeyword), ("in", .inKeyword), ("init", .initKeyword),
  ("inout", .inoutKeyword), ("is", .isKeyword), ("let", .letKeyword), ("nil", .nilKeyword),
  ("operator", .operatorKeyword), ("precedencegroup", .precedencegroupKeyword),
  ("protocol", .protocolKeyword), ("repeat", .repeatKeyword), ("rethrows", .rethrowsKeyword),
  ("return", .returnKeyword), ("self", .selfKeyword), ("Self", .selfTypeKeyword),
  ("static", .staticKeyword), ("struct", .structKeyword), ("subscript", .subscriptKeyword),
  ("super", .superKeyword), ("switch", .switchKeyword), ("throw", .throwKeyword),
  ("throws", .throwsKeyword), ("true", .trueKeyword), ("try", .tryKeyword),
  ("typealias", .typealiasKeyword), ("var", .varKeyword), ("where", .whereKeyword),
  ("while", .whileKeyword)]

/-- The kind of a reserved word. -/
def ofWord? (word : String) : Option Kind := reservedWords.lookup word

/-- Whether the kind is that of a reserved word. -/
def isReserved (kind : Kind) : Bool := reservedWords.any (·.2 == kind)

/-! ## Section 2: Classes -/

/-- Kinds that can name a member, label an argument or name a parameter. -/
def isName (kind : Kind) : Bool := kind == .identifier || kind.isReserved

/-- Kinds that join two operands of an expression. -/
def isBinary : Kind → Bool
  | .operator | .equals | .lessThan | .greaterThan | .ampersand => true
  | _ => false

/-! ## Section 3: Names -/

/-- Name of the kind, as shown in listings. -/
def name : Kind → String
  | .unknown => "Unknown"
  | .endOfFile => "EndOfFileToken"
  | .identifier => "Identifier"
  | .integerLiteral => "IntegerLiteral"
  | .floatLiteral => "FloatLiteral"
  | .stringLiteral => "StringLiteral"
  | .openBrace => "OpenBraceToken"
  | .closeBrace => "CloseBraceToken"
  | .openParen => "OpenParenToken"
  | .closeParen => "CloseParenToken"
  | .openBracket => "OpenBracketToken"
  | .closeBracket => "CloseBracketToken"
  | .dot => "DotToken"
  | .comma => "CommaToken"
  | .colon => "ColonToken"
  | .semicolon => "SemicolonToken"
  | .atSign => "AtToken"
  | .hash => "HashToken"
  | .backslash => "BackslashToken"
  | .equals => "EqualsToken"
  | .arrow => "ArrowToken"
  | .lessThan => "LessThanToken"
  | .greaterThan => "GreaterThanToken"
  | .question => "QuestionToken"
  | .exclamation => "ExclamationToken"
  | .ampersand => "AmpersandToken"
  | .operator => "OperatorToken"
  | .asKeyword => "AsKeyword"
  | .associatedtypeKeyword => "AssociatedtypeKeyword"
  | .awaitKeyword => "AwaitKeyword"
  | .breakKeyword => "BreakKeyword"
  | .caseKeyword => "CaseKeyword"
  | .catchKeyword => "CatchKeyword"
  | .classKeyword => "ClassKeyword"
  | .continueKeyword => "ContinueKeyword"
  | .defaultKeyword => "DefaultKeyword"
  | .deferKeyword => "DeferKeyword"
  | .deinitKeyword => "DeinitKeyword"
  | .doKeyword => "DoKeyword"
  | .elseKeyword => "ElseKeyword"
  | .enumKeyword => "EnumKeyword"
  | .extensionKeyword => "ExtensionKeyword"
  | .fallthroughKeyword => "FallthroughKeyword"
  | .falseKeyword => "FalseKeyword"
  | .forKeyword => "ForKeyword"
  | .funcKeyword => "FuncKeyword"
  | .guardKeyword => "GuardKeyword"
  | .ifKeyword => "IfKeyword"
  | .importKeyword => "ImportKeyword"
  | .inKeyword => "InKeyword"
  | .initKeyword => "InitKeyword"
  | .inoutKeyword => "InoutKeyword"
  | .isKeyword => "IsKeyword"
  | .letKeyword => "LetKeyword"
  | .nilKeyword => "NilKeyword"
  | .operatorKeyword => "OperatorKeyword"
  | .precedencegroupKeyword => "PrecedencegroupKeyword"
  | .protocolKeyword => "ProtocolKeyword"
  | .repeatKeyword => "RepeatKeyword"
  | .rethrowsKeyword => "RethrowsKeyword"
  | .returnKeyword => "ReturnKeyword"
  | .selfKeyword => "SelfKeyword"
  | .selfTypeKeyword => "SelfTypeKeyword"
  | .staticKeyword => "StaticKeyword"
  | .structKeyword => "StructKeyword"
  | .subscriptKeyword => "SubscriptKeyword"
  | .superKeyword => "SuperKeyword"
  | .switchKeyword => "SwitchKeyword"
  | .throwKeyword => "ThrowKeyword"
  | .throwsKeyword => "ThrowsKeyword"
  | .trueKeyword => "TrueKeyword"
  | .tryKeyword => "TryKeyword"
  | .typealiasKeyword => "TypealiasKeyword"
  | .varKeyword => "VarKeyword"
  | .whereKeyword => "WhereKeyword"
  | .whileKeyword => "WhileKeyword"

end Kind

/-- Whether the text names the enclosing instance, plainly or escaped. -/
def isSelfName (text : String) : Bool := text == "self" || text == "`self`"

end SelfCapture.Token
