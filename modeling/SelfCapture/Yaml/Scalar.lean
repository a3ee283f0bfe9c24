import SelfCapture.Text.Hex
import SelfCapture.Yaml.Cursor
import SelfCapture.Yaml.Token

/-! # YAML scalars

  Plain, quoted and block scalars.  Inside plain and quoted scalars a run of
  blanks and line breaks is a `Gap`: within a line it stays as it is, and
  across lines it is folded.
-/

namespace SelfCapture.Yaml

/-! ## Section 1: Gaps -/

/-- A run of blanks and line breaks inside a scalar. -/
structure Gap where
  /-- Blanks, as long as no line has ended. -/
  blanks : List Char := []
  /-- What the line breaks stand for. -/
  breaks : List Char := []
  /-- Whether a line has ended. -/
  broken : Bool := false
  /-- Whether the end of the first line was escaped, so that it stands for nothing. -/
  joined : Bool := false

/-- The text that a gap stands for: one line feed becomes a space, and the
    first of several is dropped. -/
def Gap.text (gap : Gap) : List Char :=
  if gap.joined then gap.breaks
  else if gap.broken then
    match gap.breaks with
    | ['\n'] => [' ']
    | '\n' :: more => more
    | breaks => breaks
  else
    gap.blanks

/-- Reads on in a gap.  A tab that stands before the column `indent` of a
    line is refused. -/
def readGap (indent : Nat) (gap : Gap) : Scan Gap :=
  repeating (fun gap => do
    match ← peek with
    | some c =>
      if isBlank c then
        guard !(gap.broken && (← get).column < indent && c == '\t')
        skip 1
        return .inl (if gap.broken then gap else { gap with blanks := gap.blanks ++ [c] })
      else if isBreak c then
        return .inl { gap with broken := true, breaks := gap.breaks ++ (← readBreak) }
      else
        return .inr gap
    | none => return .inr gap) gap

/-! ## Section 2: Plain scalars -/

/-- Whether a character has a meaning of its own inside brackets and braces. -/
def isFlowIndicator (c : Char) : Bool :=
  c == ',' || c == '[' || c == ']' || c == '\x7b' || c == '\x7d'

/-- Reads characters of a plain scalar up to a space or an indicator that ends it. -/
def readPlainRun (inFlow : Bool) : Scan (List Char) :=
  repeating (fun taken => do
    match ← peek with
    | none => return .inr taken.reverse
    | some c =>
      if isSpace c then return .inr taken.reverse
      let next ← ahead 1
      guard !(inFlow && c == ':' && next.any fun c => isFlowIndicator c || c == '?')
      if (c == ':' && (← seesSpaceAt 1)) || (inFlow && isFlowIndicator c) then
        return .inr taken.reverse
      skip 1
      return .inl (c :: taken)) []

/-- Reads a plain scalar.  Lines that continue it are indented to the column
    `indent` at least, except inside brackets and braces.  Also tells whether
    a line ended after the last character. -/
def readPlain (indent : Nat) (inFlow : Bool) : Scan (String × Bool) :=
  repeating (fun ((taken, gap) : List Char × Gap) => do
    let finished := (String.ofList taken, gap.broken)
    if (← seesDocumentMarker) || (← sees '#') then return .inr finished
    let run ← readPlainRun inFlow
    let (taken, gap) := if run.isEmpty then (taken, gap) else (taken ++ gap.text ++ run, {})
    if !(← peek).any isSpace then return .inr (String.ofList taken, gap.broken)
    let gap ← readGap indent gap
    if !inFlow && (← get).column < indent then return .inr (String.ofList taken, gap.broken)
    return .inl (taken, gap)) ([], {})

/-! ## Section 3: Quoted scalars -/

/-- What a backslash and a character stand for. -/
def escaped? : Char → Option Char
  | '0' => some '\x00'
  | 'a' => some '\x07'
  | 'b' => some '\x08'
  | 't' => some '\t'
  | '\t' => some '\t'
  | 'n' => some '\n'
  | 'v' => some '\x0b'
  | 'f' => some '\x0c'
  | 'r' => some '\r'
  | 'e' => some '\x1b'
  | ' ' => some ' '
  | '"' => some '"'
  | '/' => some '/'
  | '\\' => some '\\'
  | 'N' => some '\x85'
  | '_' => some '\xa0'
  | 'L' => some '\u2028'
  | 'P' => some '\u2029'
  | _ => none

/-- How many hexadecimal digits follow a backslash and a character. -/
def escapeWidth? : Char → Option Nat
  | 'x' => some 2
  | 'u' => some 4
  | 'U' => some 8
  | _ => none

/-- The character with a code point. -/
def charOf? (code : Nat) : Option Char :=
  if h : code.isValidChar then some (Char.ofNatAux code h) else none

/-- Reads an escape sequence. -/
def readEscape : Scan Char := do
  let some c ← ahead 1 | failure
  skip 2
  match escaped? c, escapeWidth? c with
  | some meaning, _ => return meaning
  | none, some width =>
    let digits := (← get).rest.take width
    guard (digits.length == width)
    let some meaning := (Text.hexNumber? digits).bind charOf? | failure
    skip width
    return meaning
  | none, none => failure

/-- Reads characters between quotes up to a space or the closing quote.
    Also tells whether an escaped line break ended them. -/
def readQuotedRun (single : Bool) : Scan (List Char × Bool) :=
  repeating (fun taken => do
    match ← peek with
    | none => return .inr (taken.reverse, false)
    | some c =>
      if isSpace c then return .inr (taken.reverse, false)
      if single && c == '\'' then
        if (← ahead 1) != some '\'' then return .inr (taken.reverse, false)
        skip 2
        return .inl ('\'' :: taken)
      if !single && c == '"' then return .inr (taken.reverse, false)
      if !single && c == '\\' then
        if (← ahead 1).any isBreak then
          skip 1
          let _ ← readBreak
          return .inr (taken.reverse, true)
        return .inl ((← readEscape) :: taken)
      skip 1
      return .inl (c :: taken)) []

/-- Reads a quoted scalar. -/
def readQuoted (single : Bool) : Scan String := do
  let quote := if single then '\'' else '"'
  skip 1
  let text ← repeating (fun taken => do
    guard !(← seesDocumentMarker)
    guard (← peek).isSome
    let (run, joined) ← readQuotedRun single
    let taken := taken ++ run
    if ← sees quote then return .inr taken
    let gap ← readGap 0 { broken := joined, joined }
    return .inl (taken ++ gap.text)) []
  skip 1
  return String.ofList text

/-! ## Section 4: Block scalars -/

/-- What becomes of the line breaks at the end of a block scalar. -/
inductive Chomping where
  /-- The last line break stays. -/
  | clip
  /-- None stays. -/
  | strip
  /-- All stay. -/
  | keep
  deriving DecidableEq, Repr

/-- Reads a chomping indicator, if there is one. -/
def readChomping : Scan (Option Chomping) := do
  match ← peek with
  | some '+' => skip 1; return some .keep
  | some '-' => skip 1; return some .strip
  | _ => return none

/-- Reads an indentation indicator, if there is one: a digit that is not zero. -/
def readIncrement : Scan (Option Nat) := do
  match ← peek with
  | some c =>
    if c.isDigit then
      guard (c != '0')
      skip 1
      return some (c.toNat - '0'.toNat)
    return none
  | none => return none

/-- Reads the indicators of a block scalar, in either order. -/
def readIndicators : Scan (Chomping × Option Nat) := do
  match ← readChomping with
  | some chomping => return (chomping, ← readIncrement)
  | none =>
    let increment ← readIncrement
    if increment.isSome then return ((← readChomping).getD .clip, increment)
    return (.clip, none)

/-- Moves over empty lines and the indentation of the next line, which ends
    at the column `indent` if that is known.  Gives what the line breaks
    stand for and the greatest column reached. -/
def readIndentation (indent : Option Nat) : Scan (List Char × Nat) :=
  repeating (fun ((breaks, widest) : List Char × Nat) => do
    let cursor ← get
    let spaces := (cursor.rest.takeWhile (· == ' ')).length
    skip (spaces.min ((indent.map (· - cursor.column)).getD spaces))
    let column := (← get).column
    guard !((indent.all fun indent => column < indent) && (← sees '\t'))
    let widest := widest.max column
    if (← peek).any isBreak then return .inl (breaks ++ (← readBreak), widest)
    return .inr (breaks, widest)) ([], 0)

/-- The lines of a block scalar that have been read. -/
structure BlockLines where
  taken : List Char := []
  /-- The break after the last line. -/
  lastBreak : List Char := []
  /-- The breaks of the empty lines after it. -/
  emptyBreaks : List Char
  /-- Whether the last line starts with a blank. -/
  afterBlank : Bool := false

/-- Adds a line to a block scalar, which joins the lines before it by a space
    if they are folded and neither starts with a blank. -/
def BlockLines.add (lines : BlockLines) (literal : Bool) (line : List Char) : BlockLines :=
  let startsBlank := line.head?.any isBlank
  let join :=
    if !literal && lines.lastBreak == ['\n'] && !lines.afterBlank && !startsBlank then
      if lines.emptyBreaks.isEmpty then [' '] else []
    else
      lines.lastBreak
  { taken := lines.taken ++ join ++ lines.emptyBreaks ++ line, emptyBreaks := []
    afterBlank := startsBlank }

/-- The text of a block scalar. -/
def BlockLines.text (lines : BlockLines) : Chomping → List Char
  | .clip => lines.taken ++ lines.lastBreak
  | .strip => lines.taken
  | .keep => lines.taken ++ lines.lastBreak ++ lines.emptyBreaks

/-- Reads a block scalar inside a block whose lines are indented to the
    column before `indent`. -/
def readBlock (literal : Bool) (indent : Nat) : Scan String := do
  skip 1
  let (chomping, increment) ← readIndicators
  finishLine
  -- An increment counts from the enclosing block; without one, the first
  -- line that is not empty gives the indentation.
  let given := increment.map (indent - 1 + ·)
  let (breaks, widest) ← readIndentation given
  let indent := given.getD (widest.max (indent.max 1))
  let lines ← repeating (fun (lines : BlockLines) => do
    if (← get).column != indent || (← peek).isNone then return .inr lines
    let line ← takeWhile (!isBreak ·)
    let lastBreak ← readBreak
    let (emptyBreaks, _) ← readIndentation (some indent)
    return .inl { lines.add literal line with lastBreak, emptyBreaks }) { emptyBreaks := breaks }
  return String.ofList (lines.text chomping)

end SelfCapture.Yaml
