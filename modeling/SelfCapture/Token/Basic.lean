import SelfCapture.Token.Kind

/-! # Tokens and diagnostics

  A token is a kind with the byte range it covers and what stands before
  it.  Its text is recovered from the source by the range.

  A `Diagnostic` places an `Issue` in the text; `Issue.message` is the only
  place where the wording of a syntax error is decided.
-/

namespace SelfCapture

/-! ## Section 1: Tokens -/

/-- A token of the source text. -/
structure Token where
  kind : Token.Kind
  /-- Offset of the first byte. -/
  pos : Nat
  /-- Offset after the last byte. -/
  stop : Nat
  /-- White space, a line break or a comment precedes the token. -/
  afterBlank : Bool := false
  /-- A line break precedes the token. -/
  afterLineBreak : Bool := false
  /-- A string literal without its closing delimiter. -/
  unterminated : Bool := false
  deriving DecidableEq, Repr

/-- The token before anything has been scanned. -/
def Token.initial : Token := { kind := .unknown, pos := 0, stop := 0 }

/-- The range of an interpolated expression inside a string literal,
    without its parentheses. -/
structure Segment where
  start : Nat
  stop : Nat
  deriving DecidableEq, Repr

/-! ## Section 2: Diagnostics -/

/-- What can be wrong with a source text. -/
inductive Issue where
  /-- Something the grammar requires is not there. -/
  | expected (what : String)
  /-- A closing brace outside any block. -/
  | strayBrace
  /-- The construct is nested too deeply to be read. -/
  | tooDeep
  /-- A character that starts no token. -/
  | invalidCharacter
  /-- An escaped identifier without its closing mark. -/
  | openIdentifier
  /-- A string literal without its closing delimiter. -/
  | openString
  deriving DecidableEq, Repr

/-- The wording of an issue. -/
def Issue.message : Issue → String
  | .expected what => what ++ " expected."
  | .strayBrace => "Unexpected '\x7d'."
  | .tooDeep => "Maximum nesting depth exceeded."
  | .invalidCharacter => "Invalid character."
  | .openIdentifier => "Unterminated escaped identifier."
  | .openString => "Unterminated string literal."

/-- An issue at a place in the text. -/
structure Diagnostic where
  start : Nat
  length : Nat
  issue : Issue
  deriving DecidableEq, Repr

end SelfCapture
