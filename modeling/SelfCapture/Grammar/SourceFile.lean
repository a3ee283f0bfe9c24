import SelfCapture.Grammar.Declaration
import SelfCapture.Grammar.Expression

/-! # Source files

  Statements, and the reading of a whole text.

  `reader` ties the knot of the grammar.  It takes the number of nested
  phrases that may still be opened; between two nested phrases of the same
  kind a token is consumed, so twice the length of the text is enough.
-/

namespace SelfCapture

namespace Grammar

open Token (Kind)

/-! ## Section 1: Statements -/

/-- Whether `label: for`, `label: while`, ... starts at the current token. -/
def atLabelledStatement : Parse Bool :=
  nextIs do
    if ← accept .colon then
      match ← kind with
      | .forKeyword | .whileKeyword | .repeatKeyword | .switchKeyword | .ifKeyword
      | .doKeyword => return true
      | _ => return false
    else
      return false

/-- A control statement, if its keyword is the current token. -/
def controlStatement? (nested : Readers) : Parse (Option Nat) := do
  match ← kind with
  | .ifKeyword => some <$> branchStatement nested
  | .guardKeyword => some <$> guardStatement nested
  | .whileKeyword => some <$> whileStatement nested
  | .repeatKeyword => some <$> repeatStatement nested
  | .forKeyword => some <$> forStatement nested
  | .switchKeyword => some <$> switchStatement nested
  | .doKeyword => some <$> doStatement nested
  | .deferKeyword => some <$> deferStatement nested
  | .returnKeyword => some <$> exitStatement nested .return
  | .throwKeyword => some <$> exitStatement nested .throw
  | .breakKeyword => some <$> jumpStatement .break
  | .continueKeyword => some <$> jumpStatement .continue
  | .fallthroughKeyword => some <$> fallthroughStatement
  | _ => return none

/-- A declaration or an expression. -/
def plainStatement (nested : Readers) : Parse (Option Nat) := do
  if ← atDeclaration then declaration nested else nested .expression

/-- A statement of any sort. -/
def anyStatement (nested : Readers) : Parse (Option Nat) := do
  match ← kind with
  | .hash =>
    if ← atDirective then
      skipLine
      return none
    else
      plainStatement nested
  | .identifier =>
    if ← atLabelledStatement then
      advance
      advance
      controlStatement? nested
    else
      plainStatement nested
  | _ =>
    match ← controlStatement? nested with
    | some statement => return some statement
    | none => plainStatement nested

/-- A statement. -/
def statement (nested : Readers) : Parse (Option Nat) :=
  guarded (pure none) (anyStatement nested)

/-! ## Section 2: Nested phrases -/

/-- Reads a phrase, given the readers of the phrases nested in it. -/
def phrase (nested : Readers) : Readers
  | .expression => expression nested
  | .operand => operand nested
  | .statement => statement nested
  | .type => type nested
  | .composition => compositionType nested
  | .branch => branchStatement nested

/-- What is read when no further phrase may be opened. -/
def noReader : Readers
  | .expression | .operand | .statement => do
    exhaust
    return none
  | .type | .composition | .branch => do
    exhaust
    let pos ← position
    make .missing pos pos

/-- Reads a phrase in which at most `count` further phrases may be opened
    inside each other. -/
def reader : (count : Nat) → Readers
  | 0 => noReader
  | count + 1 => fun p => phrase (fun q => reader count q) p

/-! ## Section 3: Whole texts -/

/-- Diagnostics in the order of the text; those at the same place stay in
    the order in which they were found. -/
def sortDiagnostics (diagnostics : List Diagnostic) : List Diagnostic :=
  diagnostics.mergeSort fun a b => a.start ≤ b.start

/-- Reads the statements of a text and makes its root. -/
def sourceFile : Parse Nat := do
  advance
  let length := (← get).scanner.bytes.size
  let statements ← statementsUntil (reader (2 * length + 2)) (isAt .endOfFile)
  make (.sourceFile statements) 0 length

end Grammar

/-- A text that has been read. -/
structure SourceFile where
  tree : Tree
  /-- The node of the whole text. -/
  root : Nat
  /-- What is wrong with the text, in its order. -/
  diagnostics : List Diagnostic

/-- Reads a source text.  Every text can be read; what is wrong with it is
    told by the diagnostics. -/
def SourceFile.parse (text : String) : SourceFile :=
  let (root, final) := Grammar.sourceFile.run (Grammar.State.ofText text)
  { tree := final.tree
    root
    diagnostics := Grammar.sortDiagnostics
      (final.diagnostics.toList ++ final.scanner.diagnostics.toList) }

end SelfCapture
