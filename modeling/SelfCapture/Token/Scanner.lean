import SelfCapture.Token.Lexeme
import SelfCapture.Token.Trivia

/-! # Scanner

  A `Scanner` walks over a text token by token.  It can be restricted to a
  window of the text, and its position can be saved and restored.

  A saved position keeps only the number of diagnostics, so restoring it
  drops the diagnostics found since, and cannot bring back any that an
  earlier restore has dropped.
-/

namespace SelfCapture

/-- The state of a scan. -/
structure Scanner where
  /-- The bytes of the text. -/
  bytes : ByteArray
  /-- Offset of the next byte to read. -/
  pos : Nat
  /-- Offset at which the window ends. -/
  stop : Nat
  /-- The token read last. -/
  token : Token := Token.initial
  /-- Interpolated expressions of the token read last. -/
  segments : List Segment := []
  /-- What was found wrong so far. -/
  diagnostics : Array Diagnostic := #[]

namespace Scanner

/-- The window being read. -/
def window (s : Scanner) : Window := ⟨s.bytes, s.stop⟩

/-! ## Section 1: Start -/

/-- Length of a byte order mark at the start of the text. -/
def markLength (w : Window) : Nat :=
  if w.startsWith 0 [Char.ofNat 0xEF, Char.ofNat 0xBB, Char.ofNat 0xBF] then 3 else 0

/-- The offset at which scanning starts: after a byte order mark, and at
    the end of a first line that starts with `#!`. -/
def startOffset (w : Window) : Nat :=
  let start := markLength w
  if w.startsWith start ['#', '!'] then w.skipWhile (· != '\n') start else start

/-- A scanner at the start of a text. -/
def ofText (text : String) : Scanner :=
  let bytes := text.toByteArray
  { bytes, pos := startOffset ⟨bytes, bytes.size⟩, stop := bytes.size }

/-! ## Section 2: Reading -/

/-- Reads the next token. -/
def scan (s : Scanner) : Scanner :=
  let gap := Token.gapAt s.window s.pos
  let lexeme := Token.lexemeAt s.window s.token gap.stop
  { s with
    pos := lexeme.stop
    token :=
      { kind := lexeme.kind
        pos := gap.stop
        stop := lexeme.stop
        afterBlank := gap.blank
        afterLineBreak := gap.lineBreak
        unterminated := lexeme.kind == .stringLiteral && lexeme.issue.isSome }
    segments := lexeme.segments
    diagnostics :=
      match lexeme.issue with
      | some diagnostic => s.diagnostics.push diagnostic
      | none => s.diagnostics }

/-- The text of the token read last. -/
def tokenText (s : Scanner) : String := Text.slice s.bytes s.token.pos s.token.stop

/-- Restricts the scan to a window of the text, cut to the text's length. -/
def restrict (s : Scanner) (start stop : Nat) : Scanner :=
  let stop := min stop s.bytes.size
  { s with stop, pos := min start stop, token := Token.initial, segments := [] }

/-- All scanner states up to and including the one at the end of the
    window.  Each token covers a byte, so `count` states suffice when it
    exceeds the bytes left. -/
def run : (count : Nat) → Scanner → List Scanner
  | 0, _ => []
  | count + 1, s =>
    let next := s.scan
    if next.token.kind == .endOfFile then [next] else next :: run count next

/-- Every scanner state of a text, one after each token, the end included. -/
def states (text : String) : List Scanner :=
  let s := ofText text
  run (s.bytes.size + 1) s

/-! ## Section 3: Saved positions -/

/-- What is saved of a scanner. -/
structure Checkpoint where
  pos : Nat
  stop : Nat
  token : Token
  segments : List Segment
  /-- Number of diagnostics at the time. -/
  diagnosticCount : Nat

/-- Saves the position. -/
def save (s : Scanner) : Checkpoint :=
  { pos := s.pos
    stop := s.stop
    token := s.token
    segments := s.segments
    diagnosticCount := s.diagnostics.size }

/-- Goes back to a saved position. -/
def restore (s : Scanner) (saved : Checkpoint) : Scanner :=
  { s with
    pos := saved.pos
    stop := saved.stop
    token := saved.token
    segments := saved.segments
    diagnostics := s.diagnostics.shrink saved.diagnosticCount }

end Scanner
end SelfCapture
