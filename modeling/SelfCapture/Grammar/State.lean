import SelfCapture.Token.Scanner
import SelfCapture.Tree.Basic

/-! # Reading state

  Reading a source text is a state transformation: a `Parse α` takes a
  `State` to a value and the next state.  It never fails.  What the grammar
  does not find is recorded as a diagnostic, and a `missing` node stands in
  for it.

  The state consists of the scanner, whose token is the current one, the
  tree built so far, the diagnostics, and the context that decides how
  braces and `case` are read.
-/

namespace SelfCapture.Grammar

open Token (Kind)

/-! ## Section 1: State -/

/-- How deeply expressions, types, statements and closures may be nested. -/
def maxDepth : Nat := 256

/-- What surrounds the construct being read. -/
structure Context where
  /-- A brace does not open a trailing closure, as in a condition. -/
  noTrailingClosure : Bool := false
  /-- Directly inside a type body, where `case` declares an enum case. -/
  inTypeBody : Bool := false
  deriving DecidableEq, Repr

/-- The state of reading a source text. -/
structure State where
  scanner : Scanner
  /-- The nodes made so far. -/
  tree : Tree
  /-- Offset after the token consumed last. -/
  previousStop : Nat := 0
  context : Context := {}
  /-- What was found wrong with the structure of the text so far. -/
  diagnostics : Array Diagnostic := #[]
  /-- Where an issue was recorded last. -/
  lastIssueAt : Option Nat := none
  /-- How many nested constructs are open. -/
  depth : Nat := 0
  /-- A repetition or a nested construct was cut short because its
      allowance of steps was used up. -/
  exhausted : Bool := false

/-- The state before the first token is read. -/
def State.ofText (text : String) : State :=
  let scanner := Scanner.ofText text
  { scanner, tree := { bytes := scanner.bytes } }

/-- A step of reading with a result. -/
abbrev Parse (α : Type) := StateM State α

/-! ## Section 2: The current token -/

/-- The current token. -/
def current : Parse Token := return (← get).scanner.token

/-- The kind of the current token. -/
def kind : Parse Kind := return (← get).scanner.token.kind

/-- Whether the current token has the given kind. -/
def isAt (k : Kind) : Parse Bool := return (← get).scanner.token.kind == k

/-- Whether the window has been read to its end. -/
def atEnd : Parse Bool := isAt .endOfFile

/-- Offset of the current token. -/
def position : Parse Nat := return (← get).scanner.token.pos

/-- Text of the current token. -/
def tokenText : Parse String := return (← get).scanner.tokenText

/-- Whether a blank or a comment precedes the current token. -/
def afterBlank : Parse Bool := return (← get).scanner.token.afterBlank

/-- Whether a line break precedes the current token. -/
def afterLineBreak : Parse Bool := return (← get).scanner.token.afterLineBreak

/-- Whether the text goes on after the current token with a blank, a
    closing bracket or a separator, or ends. -/
def beforeBlank : Parse Bool := do
  let s ← get
  let follower := s.scanner.window.peek? s.scanner.token.stop
  return follower.all fun c => [' ', '\t', '\n', '\r', ')', ']', '\x7d', ',', ';', ':'].contains c

/-- Whether the current token is the given contextual word. -/
def isWord (word : String) : Parse Bool := do
  if ← isAt .identifier then return (← tokenText) == word else return false

/-- Whether the current token is one of the given contextual words. -/
def isOneOf (words : List String) : Parse Bool := do
  if ← isAt .identifier then return words.contains (← tokenText) else return false

/-- Whether the current token can serve as a name. -/
def isName : Parse Bool := return (← get).scanner.token.kind.isName

/-- Number of bytes from the current token to the end of the window. -/
def remaining : Parse Nat := do
  let s ← get
  return s.scanner.stop - s.scanner.token.pos

/-! ## Section 3: Moving on -/

/-- Consumes the current token. -/
def advance : Parse Unit :=
  modify fun s =>
    { s with previousStop := s.scanner.token.stop, scanner := s.scanner.scan }

/-- Consumes the current token if it has the given kind, and says whether it did. -/
def accept (k : Kind) : Parse Bool := do
  if ← isAt k then
    advance
    return true
  else
    return false

/-- Records an issue at the current token, unless the last one was recorded there too. -/
def report (issue : Issue) : Parse Unit :=
  modify fun s =>
    let token := s.scanner.token
    if s.lastIssueAt == some token.pos then s
    else
      { s with
        lastIssueAt := some token.pos
        diagnostics := s.diagnostics.push ⟨token.pos, token.stop - token.pos, issue⟩ }

/-- Records that something is not there. -/
def reportExpected (what : String) : Parse Unit := report (.expected what)

/-- Consumes a token of the given kind, or records that it is not there. -/
def expect (k : Kind) (what : String) : Parse Bool := do
  if ← accept k then
    return true
  else
    reportExpected what
    return false

/-- Notes that an allowance of steps was used up. -/
def exhaust : Parse Unit := modify fun s => { s with exhausted := true }

/-! ## Section 4: Nodes -/

/-- Makes a node that covers the given range. -/
def make (form : Form) (pos stop : Nat) : Parse Nat :=
  modifyGet fun s => (s.tree.nextId, { s with tree := s.tree.add form pos stop })

/-- Makes a node that ends with the token consumed last. -/
def finish (form : Form) (pos : Nat) : Parse Nat := do
  make form pos (max (← get).previousStop pos)

/-- Makes an identifier of the current token and consumes it. -/
def name : Parse Nat := do
  let token ← current
  advance
  make (.identifier token.kind) token.pos token.stop

/-- Stands in for something that is not there. -/
def missing (what : String) : Parse Nat := do
  reportExpected what
  let pos ← position
  make .missing pos pos

/-- Makes an identifier of the current token if it can serve as a name. -/
def nameOr (what : String) : Parse Nat := do
  if ← isName then name else missing what

/-- Makes an identifier of the current token if it can serve as a name. -/
def name? : Parse (Option Nat) := do
  if ← isName then some <$> name else return none

/-! ## Section 5: Context -/

/-- Reads with a changed context, which is undone afterwards. -/
def within {α : Type} (change : Context → Context) (body : Parse α) : Parse α := do
  let saved := (← get).context
  modify fun s => { s with context := change saved }
  let result ← body
  modify fun s => { s with context := saved }
  return result

/-- Reads with no restriction in force. -/
def unrestricted {α : Type} (body : Parse α) : Parse α := within (fun _ => {}) body

/-- Reads a condition, in which a brace opens the statement's body. -/
def asCondition {α : Type} (body : Parse α) : Parse α :=
  within (fun context => { context with noTrailingClosure := true }) body

end SelfCapture.Grammar
