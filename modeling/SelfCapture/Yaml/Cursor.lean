/-! # Reading positions in YAML text

  A `Cursor` is what is left of a text together with the position reached,
  counted in characters.  `Scan` is a computation that moves a cursor and
  may refuse the text.
-/

namespace SelfCapture.Yaml

/-- A position in a text. -/
structure Cursor where
  /-- The text from the position on. -/
  rest : List Char
  /-- Characters before the position. -/
  index : Nat := 0
  /-- Line breaks before the position. -/
  line : Nat := 0
  /-- Characters before the position on its line. -/
  column : Nat := 0

/-- A computation on a cursor that may refuse the text. -/
abbrev Scan := StateT Cursor Option

/-! ## Section 1: Characters -/

/-- A space or a tab. -/
def isBlank (c : Char) : Bool := c == ' ' || c == '\t'

/-- A character that ends a line. -/
def isBreak (c : Char) : Bool :=
  c == '\n' || c == '\r' || c == '\x85' || c == '\u2028' || c == '\u2029'

/-- A blank or a character that ends a line. -/
def isSpace (c : Char) : Bool := isBlank c || isBreak c

/-- A character of anchors, directive names and tag handles. -/
def isNameChar (c : Char) : Bool := c.isAlphanum || c == '_' || c == '-'

/-- Whether a text may hold a character: control characters are refused. -/
def isAllowed (c : Char) : Bool :=
  let n := c.toNat
  n == 0x09 || n == 0x0A || n == 0x0D || (0x20 ≤ n && n ≤ 0x7E) || n == 0x85 ||
    (0xA0 ≤ n && n ≤ 0xD7FF) || (0xE000 ≤ n && n ≤ 0xFFFD) || 0x10000 ≤ n

/-! ## Section 2: Looking -/

/-- The character so many places ahead. -/
def ahead (count : Nat) : Scan (Option Char) := return (← get).rest[count]?

/-- The current character. -/
def peek : Scan (Option Char) := ahead 0

/-- Whether the current character is the given one. -/
def sees (c : Char) : Scan Bool := return (← peek) == some c

/-- Whether the text ends, or a blank or line break stands, so many places ahead. -/
def seesSpaceAt (count : Nat) : Scan Bool := return (← ahead count).all isSpace

/-- Whether the text or the line ends here. -/
def seesLineEnd : Scan Bool := return (← peek).all isBreak

/-- Whether a line starts here with three given characters and then a space or an end. -/
def seesMarker (c : Char) : Scan Bool := do
  let cursor ← get
  return cursor.column == 0 && cursor.rest.take 3 == [c, c, c] && (← seesSpaceAt 3)

/-- Whether a document marker stands here. -/
def seesDocumentMarker : Scan Bool := return (← seesMarker '-') || (← seesMarker '.')

/-! ## Section 3: Moving -/

/-- Moves over characters that end no line. -/
def skip (count : Nat) : Scan Unit :=
  modify fun cursor =>
    { cursor with
      rest := cursor.rest.drop count
      index := cursor.index + count
      column := cursor.column + count }

/-- Moves over the characters with a property, none of which ends a line, and gives them. -/
def takeWhile (p : Char → Bool) : Scan (List Char) := do
  let taken := (← get).rest.takeWhile p
  skip taken.length
  return taken

/-- Moves over the characters with a property. -/
def skipWhile (p : Char → Bool) : Scan Unit := do
  let _ ← takeWhile p

/-- Moves over a line break, if there is one, and gives what it stands for:
    a line feed, or the separator itself. -/
def readBreak : Scan (List Char) := do
  let cursor ← get
  let (width, meaning) := match cursor.rest with
    | '\r' :: '\n' :: _ => (2, ['\n'])
    | c :: _ =>
      if c == '\u2028' || c == '\u2029' then (1, [c])
      else if isBreak c then (1, ['\n'])
      else (0, [])
    | [] => (0, [])
  if width != 0 then
    set { rest := cursor.rest.drop width, index := cursor.index + width, line := cursor.line + 1 :
      Cursor }
  return meaning

/-- Moves over a comment, if one starts here. -/
def skipComment : Scan Unit := do
  if ← sees '#' then skipWhile (!isBreak ·)

/-- Moves over the rest of a line that holds nothing but a comment. -/
def finishLine : Scan Unit := do
  skipWhile isBlank
  skipComment
  guard (← seesLineEnd)
  let _ ← readBreak

/-! ## Section 4: Loops -/

/-- Repeats a step until it gives a result, so many times at most. -/
def repeatUpTo {σ α : Type} (step : σ → Scan (σ ⊕ α)) : Nat → σ → Scan α
  | 0, _ => failure
  | count + 1, state => do
    match ← step state with
    | .inl state => repeatUpTo step count state
    | .inr result => return result

/-- Repeats a step that moves the cursor until it gives a result. -/
def repeating {σ α : Type} (step : σ → Scan (σ ⊕ α)) (state : σ) : Scan α := do
  repeatUpTo step ((← get).rest.length + 1) state

end SelfCapture.Yaml
