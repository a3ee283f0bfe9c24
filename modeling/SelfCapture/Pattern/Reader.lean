import SelfCapture.Pattern.Expr
import SelfCapture.Pattern.Property
import SelfCapture.Text.Hex

/-! # Reading regular expressions

  The syntax is the usual one of Perl without look-around and without
  back-references: groups, alternatives, repetitions, bracketed classes
  with set operations, and flags that hold to the end of the group in which
  they are set.
-/

namespace SelfCapture.Pattern

/-! ## Section 1: State -/

/-- The flags in force. -/
structure Flags where
  /-- Case does not matter. -/
  ignoreCase : Bool := false
  /-- `^` and `$` match at line breaks too. -/
  multiLine : Bool := false
  /-- A dot matches a line feed too. -/
  dotAll : Bool := false
  /-- Classes know all scripts. -/
  unicode : Bool := true
  /-- White space and comments in the pattern mean nothing. -/
  verbose : Bool := false
  /-- A carriage return ends a line too. -/
  anyBreak : Bool := false

/-- The state of reading a pattern. -/
structure ReaderState where
  text : List Char
  flags : Flags := {}
  /-- Names of the groups so far. -/
  groupNames : List String := []

/-- A step of reading a pattern, which may find it invalid. -/
abbrev Reader (α : Type) := StateT ReaderState Option α

/-- An expression with the depth to which its parts are nested. -/
structure Piece where
  expr : Expr
  depth : Nat := 0

/-- How deeply a pattern may be nested. -/
def nestLimit : Nat := 250

/-- The next character. -/
def peek : Reader (Option Char) := return (← get).text.head?

/-- Passes one character. -/
def bump : Reader Unit := modify fun s => { s with text := s.text.drop 1 }

/-- Passes the given text if it is next, and says whether it was. -/
def bumpIf (expected : String) : Reader Bool := do
  let s ← get
  if expected.toList.isPrefixOf s.text then
    set { s with text := s.text.drop expected.length }
    return true
  else
    return false

/-- The text after white space and comments. -/
def afterSpace : (count : Nat) → List Char → List Char
  | 0, text => text
  | count + 1, text =>
    match text with
    | '#' :: rest => afterSpace count ((rest.dropWhile (· != '\n')).drop 1)
    | c :: rest => if Text.isBlank c then afterSpace count rest else text
    | [] => []

/-- Passes white space and comments where they mean nothing. -/
def skipSpace : Reader Unit :=
  modify fun s =>
    if s.flags.verbose then { s with text := afterSpace s.text.length s.text } else s

/-- Passes one character and the space after it. -/
def bumpSpace : Reader Unit := do
  bump
  skipSpace

/-- Requires a condition. -/
def require (condition : Bool) : Reader Unit := if condition then pure () else failure

/-! ## Section 2: Literals and classes -/

/-- Closes a set under changes of case when case does not matter. -/
def foldSet (set : CharSet) : Reader CharSet := do
  let flags := (← get).flags
  if flags.ignoreCase then return if flags.unicode then .fold set else .foldAscii set
  else return set

/-- What an escape or a single character stands for. -/
inductive Primitive where
  | literal (c : Char)
  | set (set : CharSet)
  | assertion (condition : Assertion)

/-- A class of the Perl notation, or its complement.  Outside Unicode mode
    a complement could match part of a character, and is refused. -/
def perlClass (wide narrow : CharSet) (negated : Bool) : Reader Primitive := do
  if (← get).flags.unicode then
    return .set (if negated then .compl wide else wide)
  else
    require !negated
    return .set narrow

/-- Up to `count` hexadecimal digits that are all there. -/
def fixedHex : (count : Nat) → (value : Nat) → Reader Nat
  | 0, value => return value
  | count + 1, value => do
    skipSpace
    match (← peek).bind Text.hexDigit? with
    | some digit =>
      bump
      fixedHex count (value * 16 + digit)
    | none => failure

/-- The character with a code point. -/
def charOfCode (code : Nat) : Reader Primitive :=
  if code < 0xD800 ∨ (0xE000 ≤ code ∧ code < 0x110000) then return .literal (Char.ofNat code)
  else failure

/-- A character given by its code point in digits of the given number or in
    braces.  Outside Unicode mode two digits stand for a byte, which has to
    be ASCII. -/
def hexEscape (digits : Nat) : Reader Primitive := do
  skipSpace
  if ← bumpIf "\x7b" then
    let s ← get
    let inside := s.text.takeWhile (· != '\x7d')
    let number := if s.flags.verbose then inside.filter (!Text.isBlank ·) else inside
    set { s with text := s.text.drop inside.length }
    require (← bumpIf "\x7d")
    match Text.hexNumber? number with
    | some code => charOfCode code
    | none => failure
  else
    let code ← fixedHex digits 0
    require ((← get).flags.unicode || digits != 2 || code < 0x80)
    charOfCode code

/-- The name of a property: one character, or what stands between braces. -/
def propertyName : Reader (List Char) := do
  if ← bumpIf "\x7b" then
    let s ← get
    let inside := s.text.takeWhile (· != '\x7d')
    set { s with text := s.text.drop inside.length }
    require (← bumpIf "\x7d")
    return if s.flags.verbose then inside.filter (!Text.isBlank ·) else inside
  else
    match ← peek with
    | some c =>
      require (c != '\\')
      bump
      return [c]
    | none => failure

/-- A class named by a property, which only Unicode mode has. -/
def propertyClass (negated : Bool) : Reader Primitive := do
  skipSpace
  let name ← propertyName
  require (← get).flags.unicode
  match propertySet? name with
  | some set =>
    let set ← foldSet set
    return .set (if negated then .compl set else set)
  | none => failure

/-- Names of the word boundaries that can be written in braces. -/
def boundaryNames : List (String × Assertion) := [
  ("start", .wordStart), ("end", .wordEnd), ("start-half", .wordStartHalf),
  ("end-half", .wordEndHalf)]

/-- A word boundary, which may be qualified by a name in braces. -/
def boundary : Reader Primitive := do
  let s ← get
  match s.text with
  | '\x7b' :: rest =>
    let name := rest.takeWhile fun c => c.isAlpha || c == '-'
    if name.isEmpty then
      return .assertion .wordBoundary
    else
      set { s with text := rest.drop name.length }
      require (← bumpIf "\x7d")
      match boundaryNames.lookup (String.ofList name) with
      | some condition => return .assertion condition
      | none => failure
  | _ => return .assertion .wordBoundary

/-- Whether a backslash before the character makes it stand for itself. -/
def isEscapable (c : Char) : Bool := c.toNat < 0x80 && !c.isAlphanum && c != '<' && c != '>'

/-- What stands after a backslash. -/
def escaped : Reader Primitive := do
  match ← peek with
  | none => failure
  | some c =>
    bump
    match c with
    | 'x' => hexEscape 2
    | 'u' => hexEscape 4
    | 'U' => hexEscape 8
    | 'p' => propertyClass false
    | 'P' => propertyClass true
    | 'd' => perlClass .digit .asciiDigit false
    | 'D' => perlClass .digit .asciiDigit true
    | 's' => perlClass .blank .asciiBlank false
    | 'S' => perlClass .blank .asciiBlank true
    | 'w' => perlClass .word .asciiWord false
    | 'W' => perlClass .word .asciiWord true
    | 'a' => return .literal '\x07'
    | 'f' => return .literal '\x0c'
    | 't' => return .literal '\t'
    | 'n' => return .literal '\n'
    | 'r' => return .literal '\r'
    | 'v' => return .literal '\x0b'
    | 'A' => return .assertion .startOfText
    | 'z' => return .assertion .endOfText
    | 'b' => boundary
    | 'B' => return .assertion .notWordBoundary
    | '<' => return .assertion .wordStart
    | '>' => return .assertion .wordEnd
    | _ => if isEscapable c then return .literal c else failure

/-! ## Section 3: Bracketed classes -/

/-- A member of a bracketed class, possibly the start of a range. -/
def classItem : Reader Primitive := do
  match ← peek with
  | none => failure
  | some '\\' =>
    bump
    escaped
  | some c =>
    bump
    return .literal c

/-- The next character that is not space, after the one at hand. -/
def peekSpace : Reader (Option Char) := do
  let s ← get
  let rest := s.text.drop 1
  return (if s.flags.verbose then afterSpace rest.length rest else rest).head?

/-- A member or a range of a bracketed class. -/
def classRange : Reader CharSet := do
  let first ← classItem
  skipSpace
  let next ← peek
  require next.isSome
  let after ← peekSpace
  if next != some '-' || after == some ']' || after == some '-' then
    match first with
    | .literal c =>
      require ((← get).flags.unicode || c.toNat < 0x80)
      return .single c
    | .set set => return set
    | .assertion _ => failure
  else
    bumpSpace
    require (← peek).isSome
    match first, ← classItem with
    | .literal a, .literal b =>
      require (a ≤ b && ((← get).flags.unicode || b.toNat < 0x80))
      return .range a.toNat b.toNat
    | _, _ => failure

/-- A named ASCII class such as `[:alpha:]`, if one is next. -/
def namedClass? : Reader (Option CharSet) := do
  let s ← get
  match s.text with
  | '[' :: ':' :: rest =>
    let negated := rest.head? == some '^'
    let rest := if negated then rest.drop 1 else rest
    let name := rest.takeWhile fun c => c != ':'
    match CharSet.namedAscii.lookup (String.ofList name), rest.drop name.length with
    | some members, ':' :: ']' :: rest =>
      set { s with text := rest }
      return some (if negated then .compl members else members)
    | _, _ => return none
  | _ => return none

/-- A set operation that waits for its second operand. -/
structure PendingOperation where
  apply : CharSet → CharSet → CharSet
  first : CharSet

/-- Completes a pending operation. -/
def complete (pending : Option PendingOperation) (set : CharSet) : Reader CharSet := do
  match pending with
  | none => return set
  | some operation => return operation.apply (← foldSet operation.first) (← foldSet set)

/-- Passes the `^` of a bracketed class, and says whether it is there. -/
def classNegation : Reader Bool := do
  if (← peek) == some '^' then
    bumpSpace
    return true
  else
    return false

/-- The hyphens at the start of a bracketed class, which stand for themselves. -/
def leadingHyphens : (count : Nat) → Reader CharSet
  | 0 => return .none
  | count + 1 => do
    if (← peek) == some '-' then
      bumpSpace
      let others ← leadingHyphens count
      return .union (.single '-') others
    else
      return .none

/-- What a bracketed class starts with: hyphens, or a bracket, stand for themselves. -/
def classStart : Reader CharSet := do
  let hyphens ← leadingHyphens (← get).text.length
  match hyphens with
  | .none =>
    if (← peek) == some ']' then
      bumpSpace
      return .single ']'
    else
      return .none
  | _ => return hyphens

/-- The operation that stands at the current place of a class. -/
def classOperation? : Reader (Option (CharSet → CharSet → CharSet)) := do
  if ← bumpIf "&&" then return some .inter
  else if ← bumpIf "--" then return some .diff
  else if ← bumpIf "~~" then return some .symmDiff
  else return none

/-- The complement of a class, if it is negated.  Outside Unicode mode it
    could match part of a character, and is refused. -/
def negate (negated : Bool) (set : CharSet) : Reader CharSet := do
  if negated then
    require (← get).flags.unicode
    return .compl set
  else
    return set

mutual

/-- A bracketed class after its opening bracket, with its nesting depth.
    `count` bounds the steps. -/
def bracketed : (count : Nat) → Reader (CharSet × Nat)
  | 0 => failure
  | count + 1 => do
    skipSpace
    let negated ← classNegation
    let start ← classStart
    require (← peek).isSome
    let (members, depth) ← classMembers count none start 0
    let set ← negate negated (← foldSet members)
    return (set, depth + 1)

/-- The members of a bracketed class, up to its closing bracket. -/
def classMembers : (count : Nat) → Option PendingOperation → CharSet → (depth : Nat) →
    Reader (CharSet × Nat)
  | 0, _, _, _ => failure
  | count + 1, pending, members, depth => do
    skipSpace
    match ← peek with
    | none => failure
    | some '[' =>
      match ← namedClass? with
      | some set =>
        require ((← get).flags.unicode || !set.contains 0x80)
        classMembers count pending (.union members set) depth
      | none =>
        bump
        let (set, inner) ← bracketed count
        classMembers count pending (.union members set) (max depth inner)
    | some ']' =>
      bump
      return (← complete pending members, depth)
    | some _ =>
      match ← classOperation? with
      | some apply =>
        let first ← complete pending members
        classMembers count (some ⟨apply, first⟩) .none (depth + 1)
      | none =>
        let set ← classRange
        classMembers count pending (.union members set) depth

end

/-! ## Section 4: Repetitions -/

/-- A decimal number with space around it. -/
def decimal : Reader Nat := do
  let s ← get
  let text := s.text.dropWhile Text.isBlank
  let digits := text.takeWhile Char.isDigit
  let rest := (text.dropWhile Char.isDigit).dropWhile Text.isBlank
  set { s with text := rest }
  match (String.ofList digits).toNat? with
  | some value =>
    require (value < 0x100000000)
    return value
  | none => failure

/-- The bounds of a counted repetition after its opening brace. -/
def countedBounds : Reader (Nat × Option Nat) := do
  skipSpace
  let least ← decimal
  match ← peek with
  | some ',' =>
    bumpSpace
    if (← peek) == some '\x7d' then
      bump
      return (least, none)
    else
      let most ← decimal
      require (← bumpIf "\x7d")
      require (least ≤ most)
      return (least, some most)
  | _ =>
    require (← bumpIf "\x7d")
    return (least, some least)

/-- Passes the mark of a reluctant repetition. -/
def skipReluctant : Reader Unit := do
  let _ ← bumpIf "?"

/-- Repeats the last piece of a row. -/
def repeatLast (pieces : List (Option Piece)) (least : Nat) (most : Option Nat) :
    Reader (List (Option Piece)) := do
  match pieces with
  | some piece :: others =>
    return some ⟨.repetition piece.expr least most, piece.depth + 1⟩ :: others
  | _ => failure

/-! ## Section 5: Groups -/

/-- The effect of a flag letter. -/
def flagSetter? : Char → Option (Flags → Bool → Flags)
  | 'i' => some fun flags value => { flags with ignoreCase := value }
  | 'm' => some fun flags value => { flags with multiLine := value }
  | 's' => some fun flags value => { flags with dotAll := value }
  | 'u' => some fun flags value => { flags with unicode := value }
  | 'x' => some fun flags value => { flags with verbose := value }
  | 'R' => some fun flags value => { flags with anyBreak := value }
  | 'U' => some fun flags _ => flags
  | _ => none

/-- Reads flag letters up to a colon or a closing parenthesis.  `seen`
    holds the letters so far; the result says whether there were any. -/
def readFlags : (count : Nat) → Flags → (value : Bool) → (seen : List Char) →
    Reader (Flags × Bool)
  | 0, _, _, _ => failure
  | count + 1, flags, value, seen => do
    match ← peek with
    | none => failure
    | some ':' | some ')' =>
      require (seen.head? != some '-')
      return (flags, !seen.isEmpty)
    | some '-' =>
      require value
      bumpSpace
      readFlags count flags false ('-' :: seen)
    | some c =>
      match flagSetter? c with
      | some setter =>
        require (!seen.contains c)
        bumpSpace
        readFlags count (setter flags value) value (c :: seen)
      | none => failure

/-- The name of a group, up to its closing angle bracket. -/
def groupName : Reader Unit := do
  let s ← get
  let name := s.text.takeWhile (· != '>')
  match name with
  | [] => failure
  | first :: others =>
    require (first == '_' || Text.isAlphabetic first)
    require (others.all fun c =>
      c == '_' || c == '.' || c == '[' || c == ']' || Text.isAlphanumeric c)
    require (!s.groupNames.contains (String.ofList name))
    set { s with
      text := s.text.drop name.length
      groupNames := String.ofList name :: s.groupNames }
    require (← bumpIf ">")

/-- What an opening parenthesis starts. -/
inductive Opening where
  /-- Flags for the rest of the enclosing group. -/
  | flags
  /-- A group, within which the flags may differ. -/
  | group

/-- Reads what follows an opening parenthesis and sets the flags. -/
def opening : Reader Opening := do
  skipSpace
  let text := (← get).text
  if ["?=", "?!", "?<=", "?<!"].any fun mark => mark.toList.isPrefixOf text then
    failure
  else if ← bumpIf "?P<" then
    groupName
    return .group
  else if ← bumpIf "?<" then
    groupName
    return .group
  else if ← bumpIf "?" then
    let s ← get
    let (flags, any) ← readFlags (s.text.length + 1) s.flags true []
    modify fun s => { s with flags }
    if ← bumpIf ")" then
      require any
      return .flags
    else
      require (← bumpIf ":")
      return .group
  else
    return .group

/-- The piece of a primitive. -/
def primitivePiece (primitive : Primitive) : Reader Piece := do
  match primitive with
  | .literal c => return ⟨.chars (← foldSet (.single c)), 0⟩
  | .set set => return ⟨.chars set, 0⟩
  | .assertion condition =>
    let wordSet := if (← get).flags.unicode then CharSet.word else CharSet.asciiWord
    return ⟨.assertion condition wordSet, 0⟩

/-- What a dot stands for under the flags. -/
def dotSet : Reader CharSet := do
  let flags := (← get).flags
  require flags.unicode
  if flags.dotAll then return .all
  else if flags.anyBreak then return .compl (.union (.single '\n') (.single '\r'))
  else return .compl (.single '\n')

/-- What `^` stands for under the flags. -/
def caretCondition (flags : Flags) : Assertion :=
  if flags.multiLine then if flags.anyBreak then .startOfAnyLine else .startOfLine
  else .startOfText

/-- What `$` stands for under the flags. -/
def dollarCondition (flags : Flags) : Assertion :=
  if flags.multiLine then if flags.anyBreak then .endOfAnyLine else .endOfLine
  else .endOfText

/-- Pieces in a row, given last first; settings of flags match nothing. -/
def rowPiece (pieces : List (Option Piece)) : Piece :=
  match pieces with
  | [] => ⟨.empty, 0⟩
  | [some piece] => piece
  | _ =>
    let found := pieces.filterMap id
    ⟨found.foldl (fun rest piece => .concat piece.expr rest) .empty,
      (found.map (·.depth)).foldl max 0 + 1⟩

/-- Alternatives, given last first. -/
def alternativesPiece (rows : List Piece) : Piece :=
  match rows with
  | [] => ⟨.empty, 0⟩
  | [row] => row
  | row :: others =>
    ⟨others.foldl (fun rest row => .either row.expr rest) row.expr,
      (rows.map (·.depth)).foldl max 0 + 1⟩

/-- The alternatives of a group, up to its closing parenthesis or the end
    of the pattern.  `rows` holds the alternatives before the current one
    and `pieces` the pieces of the current one, both last first; `count`
    bounds the steps. -/
def alternatives : (count : Nat) → (rows : List Piece) → (pieces : List (Option Piece)) →
    Reader Piece
  | 0, _, _ => failure
  | count + 1, rows, pieces => do
    skipSpace
    match ← peek with
    | none | some ')' => return alternativesPiece (rowPiece pieces :: rows)
    | some '|' =>
      bump
      alternatives count (rowPiece pieces :: rows) []
    | some '(' =>
      bump
      let outer := (← get).flags
      match ← opening with
      | .flags => alternatives count rows (none :: pieces)
      | .group =>
        let inner ← alternatives count [] []
        require (← bumpIf ")")
        modify fun s => { s with flags := outer }
        alternatives count rows (some ⟨inner.expr, inner.depth + 1⟩ :: pieces)
    | some '[' =>
      bump
      let (set, depth) ← bracketed count
      alternatives count rows (some ⟨.chars set, depth⟩ :: pieces)
    | some '?' =>
      bump
      skipReluctant
      alternatives count rows (← repeatLast pieces 0 (some 1))
    | some '*' =>
      bump
      skipReluctant
      alternatives count rows (← repeatLast pieces 0 none)
    | some '+' =>
      bump
      skipReluctant
      alternatives count rows (← repeatLast pieces 1 none)
    | some '\x7b' =>
      bump
      let (least, most) ← countedBounds
      skipSpace
      skipReluctant
      alternatives count rows (← repeatLast pieces least most)
    | some '\\' =>
      bump
      let piece ← primitivePiece (← escaped)
      alternatives count rows (some piece :: pieces)
    | some '.' =>
      bump
      let set ← dotSet
      alternatives count rows (some ⟨.chars set, 0⟩ :: pieces)
    | some '^' =>
      bump
      let piece ← primitivePiece (.assertion (caretCondition (← get).flags))
      alternatives count rows (some piece :: pieces)
    | some '$' =>
      bump
      let piece ← primitivePiece (.assertion (dollarCondition (← get).flags))
      alternatives count rows (some piece :: pieces)
    | some c =>
      bump
      let piece ← primitivePiece (.literal c)
      alternatives count rows (some piece :: pieces)

/-! ## Section 6: Whole patterns -/

/-- An estimate of the size of an expression with its counted repetitions written out. -/
def Expr.size : Expr → Nat
  | .empty => 1
  | .chars _ => 1
  | .assertion .. => 1
  | .concat first second => first.size + second.size
  | .either first second => first.size + second.size + 1
  | .repetition body least most => body.size * max 1 (max least (most.getD 0)) + 1

/-- The size beyond which an expression is refused. -/
def sizeLimit : Nat := 300000

/-- Reads a pattern. -/
def parse? (text : String) : Option Expr :=
  let chars := text.toList
  match (alternatives (chars.length + 1) [] []).run { text := chars } with
  | some (piece, rest) =>
    if rest.text.isEmpty && piece.depth ≤ nestLimit && piece.expr.size ≤ sizeLimit then
      some piece.expr
    else
      none
  | none => none

/-- The test that a pattern stands for: whether it matches some part of a text. -/
def test? (pattern : String) : Option (String → Bool) :=
  (parse? pattern).map fun e text => e.matchesIn text

end SelfCapture.Pattern
