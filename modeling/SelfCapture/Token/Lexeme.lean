import SelfCapture.Text.CharClass
import SelfCapture.Text.Window
import SelfCapture.Token.Quoted

/-! # Lexemes

  `lexemeAt` reads the one token that starts at a given offset of a window,
  where no blank stands.  It never reads nothing: a lexeme covers at least
  one byte of the window.

  - `>` always stands alone, so that nested generic argument lists close.
  - `?` stands alone unless a second one follows.
  - A number right after a member dot has no fraction and no exponent:
    `tuple.0.1` is two member accesses.
-/

namespace SelfCapture.Token

/-- A token without what precedes it. -/
structure Lexeme where
  kind : Kind
  /-- Offset after the last byte. -/
  stop : Nat
  /-- Interpolated expressions, when the token is a string literal. -/
  segments : List Segment := []
  /-- What is wrong with the token. -/
  issue : Option Diagnostic := none
  deriving Repr

/-! ## Section 1: Character classes of names and operators -/

/-- Bytes below `U+0080` that start a name. -/
def isNameStart (c : Char) : Bool := c.isAlpha || c == '_'

/-- Bytes below `U+0080` that continue a name. -/
def isNamePart (c : Char) : Bool := c.isAlphanum || c == '_'

/-- Digits with the separators allowed between them. -/
def isDigitPart (c : Char) : Bool := c.isDigit || c == '_'

/-- Digits of a hexadecimal, octal or binary number with their separators. -/
def isRadixDigitPart (c : Char) : Bool :=
  c.isDigit || ('a' ≤ c && c ≤ 'f') || ('A' ≤ c && c ≤ 'F') || c == '_'

/-- Bytes that continue an operator. -/
def isOperatorPart (c : Char) : Bool :=
  ['=', '-', '+', '*', '%', '&', '|', '^', '~', '/'].contains c

/-- Bytes that start an operator, apart from the question mark. -/
def isOperatorStart (c : Char) : Bool := isOperatorPart c || c == '!' || c == '<'

/-! ## Section 2: Families of lexemes -/

/-- First offset, at most `count` bytes on, at which a name does not go on. -/
def nameEnd (w : Window) : (count offset : Nat) → Nat
  | 0, offset => offset
  | count + 1, offset =>
    match w.get? offset with
    | none => offset
    | some b =>
      if isNamePart b then
        nameEnd w count (offset + 1)
      else if b.toNat < 0x80 then
        offset
      else
        match w.char? offset with
        | some c =>
          if Text.isAlphanumeric c then nameEnd w count (offset + c.utf8Size) else offset
        | none => offset

/-- A name or reserved word. -/
def nameAt (w : Window) (start : Nat) : Lexeme :=
  let stop := nameEnd w (w.left start) start
  { kind := (Kind.ofWord? (Text.slice w.bytes start stop)).getD .identifier, stop }

/-- A name between backticks, on one line and not empty. -/
def escapedNameAt (w : Window) (start : Nat) : Lexeme :=
  let close := w.skipWhile (fun c => c != '`' && c != '\n' && c != '\r') (start + 1)
  if w.get? close == some '`' && start + 1 < close then
    { kind := .identifier, stop := close + 1 }
  else
    { kind := .unknown, stop := start + 1, issue := some ⟨start, 1, .openIdentifier⟩ }

/-- Whether a decimal digit stands at the offset. -/
def digitAt (w : Window) (offset : Nat) : Bool := (w.get? offset).any Char.isDigit

/-- The end of the exponent that starts at the offset, or none if there is no exponent. -/
def exponentEnd? (w : Window) (offset : Nat) : Option Nat :=
  match w.get? offset with
  | some 'e' | some 'E' =>
    let digits :=
      match w.get? (offset + 1) with
      | some '+' | some '-' => offset + 2
      | _ => offset + 1
    if digitAt w digits then some (w.skipWhile Char.isDigit digits) else none
  | _ => none

/-- A decimal number: digits, then a fraction and an exponent where they are allowed. -/
def decimalAt (w : Window) (afterMemberDot : Bool) (start : Nat) : Lexeme :=
  let whole := w.skipWhile isDigitPart start
  if afterMemberDot then
    { kind := .integerLiteral, stop := whole }
  else
    let fraction :=
      if w.get? whole == some '.' && digitAt w (whole + 1) then
        w.skipWhile isDigitPart (whole + 1)
      else whole
    let stop := (exponentEnd? w fraction).getD fraction
    { kind := if stop = whole then .integerLiteral else .floatLiteral, stop }

/-- A number; `previous` is the token before it. -/
def numberAt (w : Window) (previous : Token) (start : Nat) : Lexeme :=
  let afterMemberDot := previous.kind == .dot && previous.stop == start
  if w.get? start == some '0' then
    match w.get? (start + 1) with
    | some 'x' | some 'o' | some 'b' =>
      { kind := .integerLiteral, stop := w.skipWhile isRadixDigitPart (start + 2) }
    | _ => decimalAt w afterMemberDot start
  else
    decimalAt w afterMemberDot start

/-- First offset, at most `count` bytes on, at which an operator does not
    go on: a comment that follows it is not part of it. -/
def operatorEnd (w : Window) : (count offset : Nat) → Nat
  | 0, offset => offset
  | count + 1, offset =>
    match w.get? offset with
    | none => offset
    | some c =>
      if isOperatorPart c then
        if c == '/' && (w.peek? (offset + 1)).any (fun d => d == '/' || d == '*') then offset
        else operatorEnd w count (offset + 1)
      else offset

/-- An operator of which the bytes before `body` have been read. -/
def operatorAt (w : Window) (start body : Nat) : Lexeme :=
  let stop := operatorEnd w (w.left body) body
  let kind : Kind :=
    if stop = start + 1 then
      match w.get? start with
      | some '=' => .equals
      | some '<' => .lessThan
      | some '&' => .ampersand
      | some '!' => .exclamation
      | _ => .operator
    else .operator
  { kind, stop }

/-- A string literal that opens with `hashes` number signs. -/
def stringAt (w : Window) (hashes start : Nat) : Lexeme :=
  let quoted := quotedAt w hashes start
  { kind := .stringLiteral
    stop := quoted.stop
    segments := quoted.segments
    issue :=
      if quoted.closed then none else some ⟨start, quoted.stop - start, .openString⟩ }

/-- A number sign, or the string literal that it opens. -/
def hashAt (w : Window) (start : Nat) : Lexeme :=
  let quote := w.skipWhile (· == '#') start
  if w.peek? quote == some '"' then stringAt w (quote - start) start
  else { kind := .hash, stop := start + 1 }

/-- A character outside the ASCII range, or any that starts no token. -/
def otherAt (w : Window) (start : Nat) : Lexeme :=
  match w.char? start with
  | some c =>
    if Text.isAlphabetic c then nameAt w start
    else
      { kind := .unknown
        stop := start + c.utf8Size
        issue := some ⟨start, c.utf8Size, .invalidCharacter⟩ }
  | none => { kind := .unknown, stop := start + 1 }

/-! ## Section 3: Any lexeme -/

/-- The kind of a punctuation character that is a token of its own. -/
def punctuation? : Char → Option Kind
  | '\x7b' => some .openBrace
  | '\x7d' => some .closeBrace
  | '(' => some .openParen
  | ')' => some .closeParen
  | '[' => some .openBracket
  | ']' => some .closeBracket
  | ',' => some .comma
  | ':' => some .colon
  | ';' => some .semicolon
  | '@' => some .atSign
  | '\\' => some .backslash
  | '>' => some .greaterThan
  | _ => none

/-- The lexeme that starts with the byte `c` at an offset. -/
def lexemeOf (w : Window) (previous : Token) (start : Nat) (c : Char) : Lexeme :=
  match punctuation? c with
  | some kind => { kind, stop := start + 1 }
  | none =>
    if c == '"' then stringAt w 0 start
    else if c == '#' then hashAt w start
    else if c == '`' then escapedNameAt w start
    else if c == '$' then { kind := .identifier, stop := w.skipWhile isNamePart (start + 1) }
    else if c.isDigit then numberAt w previous start
    else if c == '.' then
      if w.startsWith start ['.', '.', '.'] || w.startsWith start ['.', '.', '<'] then
        { kind := .operator, stop := start + 3 }
      else
        { kind := .dot, stop := start + 1 }
    else if c == '-' && w.get? (start + 1) == some '>' then { kind := .arrow, stop := start + 2 }
    else if c == '?' then
      if w.get? (start + 1) == some '?' then operatorAt w start (start + 2)
      else { kind := .question, stop := start + 1 }
    else if isOperatorStart c then operatorAt w start (start + 1)
    else if isNameStart c then nameAt w start
    else otherAt w start

/-- The lexeme at an offset, or the end of the window. -/
def lexemeAt (w : Window) (previous : Token) (start : Nat) : Lexeme :=
  match w.get? start with
  | some c => lexemeOf w previous start c
  | none => { kind := .endOfFile, stop := start }

end SelfCapture.Token
