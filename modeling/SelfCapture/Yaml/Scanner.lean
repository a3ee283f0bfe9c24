import SelfCapture.Yaml.Property
import SelfCapture.Yaml.Scalar

/-! # Tokens of a YAML text

  Tokens are read one after the other.  Blocks are found by indentation: a
  token to the right of the current block may open a new block, and one to
  its left closes blocks.  That a scalar was the key of a mapping is seen
  only when the colon after it is reached; until then it is a *candidate*,
  and the colon puts the missing tokens in front of it.  A candidate has to
  stay on one line and within 1024 characters.
-/

namespace SelfCapture.Yaml

/-- A token that may turn out to start a key. -/
structure Candidate where
  /-- Whether it has to be a key, because it starts a line of the current block. -/
  required : Bool
  /-- How many tokens stand before it. -/
  position : Nat
  index : Nat
  line : Nat
  column : Nat

/-- How far the tokens of a text have been read. -/
structure Scanner where
  cursor : Cursor
  tokens : Array Token := #[]
  /-- The column of the current block, or -1 outside of all blocks. -/
  indent : Int := -1
  /-- The columns of the enclosing blocks, innermost first. -/
  indents : List Int := []
  /-- The candidate at each open bracket or brace, innermost first, and
      outside of them. -/
  candidates : List (Option Candidate) := [none]
  /-- Whether a key may start here. -/
  keyAllowed : Bool := true

/-- A computation that reads tokens. -/
abbrev ScanTokens := StateT Scanner Option

namespace Scanner

/-! ## Section 1: State -/

/-- Runs a computation on the cursor. -/
def onCursor {α : Type} (scan : Scan α) : ScanTokens α := do
  let s ← get
  match scan s.cursor with
  | some (result, cursor) => do set { s with cursor }; return result
  | none => failure

/-- Whether a bracket or brace is open. -/
def inFlow (s : Scanner) : Bool := 1 < s.candidates.length

/-- The column that lines inside the current block have at least. -/
def contentColumn (s : Scanner) : Nat := (s.indent + 1).toNat

/-- Adds a token. -/
def emit (token : Token) : ScanTokens Unit :=
  modify fun s => { s with tokens := s.tokens.push token }

/-- Adds a token that takes so many characters. -/
def emitMark (token : Token) (width : Nat) : ScanTokens Unit := do
  onCursor (skip width)
  emit token

/-- Says whether a key may start next. -/
def allowKey (allowed : Bool) : ScanTokens Unit := modify fun s => { s with keyAllowed := allowed }

/-! ## Section 2: Candidates -/

/-- Gives up the innermost candidate. -/
def dropCandidate : ScanTokens Unit := do
  let s ← get
  match s.candidates with
  | candidate :: others =>
    guard !(candidate.any (·.required))
    set { s with candidates := none :: others }
  | [] => return

/-- Whether a candidate can still become a key. -/
def isAlive (s : Scanner) (candidate : Candidate) : Bool :=
  candidate.line == s.cursor.line && s.cursor.index ≤ candidate.index + 1024

/-- Gives up the candidates that can no longer become keys. -/
def dropStale : ScanTokens Unit := do
  let s ← get
  guard (s.candidates.all fun candidate =>
    candidate.all fun candidate => s.isAlive candidate || !candidate.required)
  set { s with candidates := s.candidates.map (Option.filter s.isAlive) }

/-- Takes the next token as a candidate if a key may start here. -/
def saveCandidate : ScanTokens Unit := do
  if (← get).keyAllowed then
    dropCandidate
    let s ← get
    let candidate : Candidate :=
      { required := !s.inFlow && s.indent == (s.cursor.column : Int)
        position := s.tokens.size
        index := s.cursor.index
        line := s.cursor.line
        column := s.cursor.column }
    set { s with candidates := some candidate :: s.candidates.drop 1 }

/-! ## Section 3: Blocks -/

/-- Opens a block at a column to the right of the current one, with its
    first token at a position. -/
def openBlock (token : Token) (column : Nat) (position : Nat) : ScanTokens Unit :=
  modify fun s =>
    if !s.inFlow && s.indent < (column : Int) then
      { s with
        indents := s.indent :: s.indents
        indent := column
        tokens := s.tokens.insertIdxIfInBounds position token }
    else
      s

/-- Opens a block at the current position. -/
def openBlockHere (token : Token) : ScanTokens Unit := do
  let s ← get
  openBlock token s.cursor.column s.tokens.size

/-- The blocks after those to the right of a column are closed. -/
def closedTo (column : Int) : List Int → Int → Array Token → Int × List Int × Array Token
  | outer :: indents, indent, tokens =>
    if column < indent then closedTo column indents outer (tokens.push .blockEnd)
    else (indent, outer :: indents, tokens)
  | [], indent, tokens => (indent, [], tokens)

/-- Closes the blocks to the right of a column. -/
def closeBlocks (column : Int) : ScanTokens Unit :=
  modify fun s =>
    if s.inFlow then s
    else
      let (indent, indents, tokens) := closedTo column s.indents s.indent s.tokens
      { s with indent, indents, tokens }

/-! ## Section 4: Tokens -/

/-- Moves to the next token: over blanks, comments and line breaks.  Tabs
    are skipped only where no key may start. -/
def skipToToken : ScanTokens Unit := do
  let s ← get
  let keyAllowed ← onCursor (repeating (fun keyAllowed => do
    let cursor ← get
    if cursor.index == 0 && cursor.rest.head? == some '\ufeff' then skip 1
    skipWhile fun c => c == ' ' || ((s.inFlow || !keyAllowed) && c == '\t')
    skipComment
    if (← peek).any isBreak then
      let _ ← readBreak
      return .inl (keyAllowed || !s.inFlow)
    return .inr keyAllowed) s.keyAllowed)
  allowKey keyAllowed

/-- Leaves all blocks, before a directive, a document marker or the end. -/
def leaveBlocks : ScanTokens Unit := do
  closeBlocks (-1)
  dropCandidate
  allowKey false

/-- Reads a bracket or brace that opens a collection. -/
def readFlowStart (token : Token) : ScanTokens Unit := do
  saveCandidate
  modify fun s => { s with candidates := none :: s.candidates }
  allowKey true
  emitMark token 1

/-- Reads a bracket or brace that closes a collection. -/
def readFlowEnd (token : Token) : ScanTokens Unit := do
  dropCandidate
  modify fun s => if s.inFlow then { s with candidates := s.candidates.drop 1 } else s
  allowKey false
  emitMark token 1

/-- Reads a comma. -/
def readFlowEntry : ScanTokens Unit := do
  dropCandidate
  allowKey true
  emitMark .flowEntry 1

/-- Opens a block for a dash, question mark or colon, where one may start. -/
def openBlockFor (token : Token) : ScanTokens Unit := do
  let s ← get
  if !s.inFlow then
    guard s.keyAllowed
    openBlockHere token

/-- Reads the dash of a sequence entry. -/
def readBlockEntry : ScanTokens Unit := do
  openBlockFor .blockSequenceStart
  dropCandidate
  allowKey true
  emitMark .blockEntry 1

/-- Reads the question mark of a key. -/
def readKey : ScanTokens Unit := do
  openBlockFor .blockMappingStart
  dropCandidate
  allowKey !(← get).inFlow
  emitMark .key 1

/-- Reads the colon of a value, and settles that the candidate is a key. -/
def readValue : ScanTokens Unit := do
  let s ← get
  match s.candidates with
  | some candidate :: others =>
    set { s with
      tokens := s.tokens.insertIdxIfInBounds candidate.position .key
      candidates := none :: others
      keyAllowed := false }
    openBlock .blockMappingStart candidate.column candidate.position
  | _ =>
    openBlockFor .blockMappingStart
    allowKey !s.inFlow
  emitMark .value 1

/-- Reads a token that may start a key and is not followed by one. -/
def readContent (scan : Scan Token) : ScanTokens Unit := do
  saveCandidate
  allowKey false
  emit (← onCursor scan)

/-- Reads a block scalar. -/
def readBlockScalar (literal : Bool) : ScanTokens Unit := do
  dropCandidate
  allowKey true
  let text ← onCursor (readBlock literal (← get).contentColumn)
  emit (.scalar (if literal then .literal else .folded) text)

/-- Reads a plain scalar; a key may follow it on a new line. -/
def readPlainScalar : ScanTokens Unit := do
  saveCandidate
  allowKey false
  let s ← get
  let (text, broken) ← onCursor (readPlain s.contentColumn s.inFlow)
  if broken then allowKey true
  emit (.scalar .plain text)

/-- Whether a character starts a plain scalar wherever it stands. -/
def startsPlain (c : Char) : Bool :=
  !isSpace c && !("-?:,[]#&*!|>'\"%@\x7b\x7d".toList.contains c) && c != Char.ofNat 0x60

/-- Reads a token that starts with a character. -/
def readToken (c : Char) : ScanTokens Unit := do
  let s ← get
  let spaceNext ← onCursor (seesSpaceAt 1)
  match c with
  | '[' => readFlowStart .flowSequenceStart
  | '\x7b' => readFlowStart .flowMappingStart
  | ']' => readFlowEnd .flowSequenceEnd
  | '\x7d' => readFlowEnd .flowMappingEnd
  | ',' => readFlowEntry
  | '*' => readContent (Token.alias <$> readAnchorName)
  | '&' => readContent (Token.anchor <$> readAnchorName)
  | '!' => readContent (readTag s.inFlow)
  | '\'' => readContent (Token.scalar .singleQuoted <$> readQuoted true)
  | '"' => readContent (Token.scalar .doubleQuoted <$> readQuoted false)
  | _ =>
    if c == '-' && spaceNext then readBlockEntry
    else if c == '?' && (s.inFlow || spaceNext) then readKey
    else if c == ':' && (s.inFlow || spaceNext) then readValue
    else if c == '|' && !s.inFlow then readBlockScalar true
    else if c == '>' && !s.inFlow then readBlockScalar false
    else do
      guard (startsPlain c || c == '-' || (!s.inFlow && (c == '?' || c == ':')))
      readPlainScalar

/-- Reads a token, or tells that the text has ended. -/
def step : ScanTokens Bool := do
  skipToToken
  dropStale
  closeBlocks (← get).cursor.column
  match ← onCursor peek with
  | none =>
    leaveBlocks
    return true
  | some c =>
    if c == '%' && (← get).cursor.column == 0 then
      leaveBlocks
      emit (← onCursor readDirective)
    else if ← onCursor (seesMarker '-') then
      leaveBlocks
      emitMark .documentStart 3
    else if ← onCursor (seesMarker '.') then
      leaveBlocks
      emitMark .documentEnd 3
    else
      readToken c
    return false

/-- Reads so many tokens at most. -/
def readAll : Nat → ScanTokens Unit
  | 0 => failure
  | count + 1 => do
    if !(← step) then readAll count

end Scanner

/-- The tokens of a text. -/
def tokens? (text : String) : Option (List Token) := do
  let chars := text.toList
  guard (chars.all isAllowed)
  let ((), s) ← Scanner.readAll (chars.length + 1) { cursor := { rest := chars } }
  return s.tokens.toList

end SelfCapture.Yaml
