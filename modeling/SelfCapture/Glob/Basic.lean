/-! # Globs

  A `Glob` is a pattern for file paths, made of pieces.  Paths are compared
  byte by byte, so `?` stands for one byte and a set of characters for one
  byte of their encodings; `*` and `?` also stand for slashes.

  - `Glob.Piece.rests` gives what may remain of a text after a piece has
    taken its beginning.
  - `Glob.accepts` says whether the pieces take a whole text.
-/

namespace SelfCapture.Glob

/-- One piece of a glob. -/
inductive Piece where
  | literal (char : Char)
  /-- A question mark: one byte. -/
  | single
  /-- A star: any bytes. -/
  | many
  /-- Two stars and a slash at the start: any directories, or none. -/
  | anyStart
  /-- A slash and two stars at the end: everything below a directory. -/
  | anyEnd
  /-- Two stars between slashes: any directories, or none. -/
  | anyMiddle
  /-- A set of characters between square brackets, each given as a range. -/
  | range (negated : Bool) (ranges : List (Char × Char))
  /-- Alternatives between braces. -/
  | choice (branches : List (List Piece))

/-! ## Section 1: Bytes -/

/-- The bytes of a character. -/
def bytesOf (c : Char) : List UInt8 := (String.ofList [c]).toUTF8.toList

/-- The slash. -/
def slash : UInt8 := 0x2F

/-- Whether a byte belongs to a range of characters.  Of a range with two
    different ends, the last byte of the lower end and the first byte of the
    upper end bound the bytes between; all other bytes stand for themselves. -/
def inRange (byte : UInt8) (ends : Char × Char) : Bool :=
  let low := bytesOf ends.1
  let high := bytesOf ends.2
  if ends.1 = ends.2 then low.contains byte
  else
    low.dropLast.contains byte || (high.drop 1).contains byte ||
      (low.getLast?.any (· ≤ byte) && high.head?.any (byte ≤ ·))

/-- Whether a byte is taken by a set of characters. -/
def inSet (negated : Bool) (ranges : List (Char × Char)) (byte : UInt8) : Bool :=
  ranges.any (inRange byte) != negated

/-! ## Section 2: Matching -/

/-- The text from each of its positions on. -/
def suffixes : List UInt8 → List (List UInt8)
  | [] => [[]]
  | byte :: rest => (byte :: rest) :: suffixes rest

/-- What remains after each slash of a text. -/
def afterSlashes : List UInt8 → List (List UInt8)
  | [] => []
  | byte :: rest => if byte == slash then rest :: afterSlashes rest else afterSlashes rest

/-- What remains after an expected beginning. -/
def dropBytes : List UInt8 → List UInt8 → List (List UInt8)
  | [], text => [text]
  | _ :: _, [] => []
  | byte :: bytes, first :: text => if byte == first then dropBytes bytes text else []

/-- What remains after a slash at the beginning. -/
def dropSlash (text : List UInt8) : List (List UInt8) := dropBytes [slash] text

mutual

/-- Everything that may remain of a text after a piece has taken its beginning. -/
def Piece.rests (text : List UInt8) : Piece → List (List UInt8)
  | .literal c => dropBytes (bytesOf c) text
  | .single => match text with
    | [] => []
    | _ :: rest => [rest]
  | .many => suffixes text
  | .anyStart => text :: afterSlashes text
  | .anyEnd => (dropSlash text).flatMap suffixes
  | .anyMiddle => (dropSlash text).flatMap fun rest => rest :: afterSlashes rest
  | .range negated ranges => match text with
    | [] => []
    | byte :: rest => if inSet negated ranges byte then [rest] else []
  | .choice branches =>
    if branchesEmpty branches then [text] else branchRests text branches

/-- Everything that may remain of some texts after all pieces have taken their beginning. -/
def restsAll (texts : List (List UInt8)) : List Piece → List (List UInt8)
  | [] => texts
  | piece :: pieces => restsAll ((texts.flatMap fun text => piece.rests text).eraseDups) pieces

/-- Everything that may remain after one of the branches; empty branches do not count. -/
def branchRests (text : List UInt8) : List (List Piece) → List (List UInt8)
  | [] => []
  | branch :: branches =>
    (if piecesEmpty branch then [] else restsAll [text] branch) ++ branchRests text branches

/-- Whether all branches are empty. -/
def branchesEmpty : List (List Piece) → Bool
  | [] => true
  | branch :: branches => piecesEmpty branch && branchesEmpty branches

/-- Whether the pieces are nothing but choices between nothing. -/
def piecesEmpty : List Piece → Bool
  | [] => true
  | piece :: pieces => piece.isEmpty && piecesEmpty pieces

/-- Whether a piece is a choice between nothing. -/
def Piece.isEmpty : Piece → Bool
  | .choice branches => branchesEmpty branches
  | _ => false

end

end Glob

/-- A pattern for file paths. -/
structure Glob where
  pieces : List Glob.Piece

namespace Glob

/-- Whether the glob takes a whole path.  Two stars alone take everything. -/
def accepts (glob : Glob) (path : String) : Bool :=
  match glob.pieces with
  | [.anyStart] => true
  | pieces => (restsAll [path.toUTF8.toList] pieces).contains []

end SelfCapture.Glob
