import SelfCapture.Glob.Basic

/-! # Reading globs

  The text of a glob is read character by character.  While alternatives
  are open, the branches read so far are kept on a stack of groups; the
  branch being read is held with its pieces last first.

  A glob is refused if a bracket or brace is not closed, if a brace is closed
  that was not opened, if a range runs backwards, or if nothing follows a
  final backslash.
-/

namespace SelfCapture.Glob

/-- Alternatives that are still open. -/
structure OpenGroup where
  /-- The branches that are complete, last first. -/
  branches : List (List Piece) := []
  /-- The pieces before the group, last first. -/
  before : List Piece

/-- What has been read of a glob. -/
structure Progress where
  /-- The pieces of the current branch, last first. -/
  pieces : List Piece := []
  /-- The groups that are open, innermost first. -/
  groups : List OpenGroup := []
  /-- The character before the current one. -/
  previous : Option Char := none

namespace Progress

/-- Adds a piece to the current branch. -/
def push (progress : Progress) (piece : Piece) : Progress :=
  { progress with pieces := piece :: progress.pieces }

/-- Opens a group of alternatives. -/
def openGroup (progress : Progress) : Progress :=
  { progress with pieces := [], groups := { before := progress.pieces } :: progress.groups }

/-- Ends a branch: a comma is a separator only inside a group. -/
def endBranch (progress : Progress) : Progress :=
  match progress.groups with
  | [] => progress.push (.literal ',')
  | group :: groups =>
    let group := { group with branches := progress.pieces.reverse :: group.branches }
    { progress with pieces := [], groups := group :: groups }

/-- Closes the innermost group. -/
def closeGroup? (progress : Progress) : Option Progress :=
  match progress.groups with
  | [] => none
  | group :: groups =>
    let branches := (progress.pieces.reverse :: group.branches).reverse
    some { progress with pieces := .choice branches :: group.before, groups }

/-! ## Section 1: Two stars -/

/-- Two stars that have no special meaning are two single ones. -/
def pushStars (progress : Progress) : Progress := (progress.push .many).push .many

/-- Two stars in the place of the piece before them, which is a slash. -/
def replaceSlash (progress : Progress) (piece : Piece) : Progress :=
  match progress.pieces with
  | .anyStart :: _ => progress
  | .anyEnd :: _ => progress
  | _ :: pieces => { progress with pieces := piece :: pieces }
  | [] => progress

/-- Reads what follows two stars.  At the start of a branch they stand for
    any directories if a slash or nothing follows; after a slash they stand
    for any directories if a slash follows, and for everything below if the
    branch ends. -/
def readStars (progress : Progress) (rest : List Char) : Progress × List Char :=
  if progress.pieces.isEmpty then
    match rest with
    | [] => (progress.push .anyStart, [])
    | '/' :: rest => ({ progress.push .anyStart with previous := some '/' }, rest)
    | _ => ({ progress.pushStars with previous := some '*' }, rest)
  else
    let insideGroup := !progress.groups.isEmpty
    let atBoundary := progress.previous == some '/' ||
      (insideGroup && (progress.previous == some ',' || progress.previous == some '\x7b'))
    match atBoundary, rest with
    | false, _ => ({ progress.pushStars with previous := some '*' }, rest)
    | true, [] => (progress.replaceSlash .anyEnd, [])
    | true, '/' :: rest => ({ progress.replaceSlash .anyMiddle with previous := some '/' }, rest)
    | true, c :: _ =>
      if insideGroup && (c == ',' || c == '\x7d') then
        ({ progress.replaceSlash .anyEnd with previous := some '*' }, rest)
      else
        ({ progress.pushStars with previous := some '*' }, rest)

end Progress

/-! ## Section 2: Sets of characters -/

/-- What has been read of a set of characters. -/
structure SetProgress where
  /-- The ranges, last first. -/
  ranges : List (Char × Char) := []
  /-- Whether a dash waits for the end of a range. -/
  inRange : Bool := false
  /-- Whether nothing has been read yet. -/
  first : Bool := true

/-- Ends the last range at a character, which must not be below its start. -/
def SetProgress.endRange? (progress : SetProgress) (c : Char) : Option SetProgress :=
  match progress.ranges with
  | (low, _) :: ranges =>
    if c < low then none else some { ranges := (low, c) :: ranges, first := false }
  | [] => none

/-- Reads the characters of a set up to the closing bracket, which stands
    for itself in the first place. -/
def readSet (progress : SetProgress) : List Char → Option (List (Char × Char) × List Char)
  | [] => none
  | c :: rest =>
    if c == ']' && !progress.first then
      let ranges := if progress.inRange then ('-', '-') :: progress.ranges else progress.ranges
      some (ranges.reverse, rest)
    else if c != ']' && progress.inRange then
      match progress.endRange? c with
      | some progress => readSet progress rest
      | none => none
    else if c == '-' && !progress.first then
      readSet { progress with inRange := true } rest
    else
      readSet { progress with ranges := (c, c) :: progress.ranges, first := false } rest

/-- Reads a set of characters after its opening bracket. -/
def readRange (rest : List Char) : Option (Piece × List Char) :=
  match rest with
  | '!' :: rest => (readSet {} rest).map fun (ranges, rest) => (.range true ranges, rest)
  | '^' :: rest => (readSet {} rest).map fun (ranges, rest) => (.range true ranges, rest)
  | rest => (readSet {} rest).map fun (ranges, rest) => (.range false ranges, rest)

/-! ## Section 3: Whole globs -/

/-- Reads one piece that starts with the given character. -/
def readPiece (progress : Progress) (c : Char) (rest : List Char) :
    Option (Progress × List Char) :=
  let literal (c : Char) := { progress.push (.literal c) with previous := some c }
  match c with
  | '?' => some ({ progress.push .single with previous := some c }, rest)
  | '*' => match rest with
    | '*' :: rest => some (progress.readStars rest)
    | _ => some ({ progress.push .many with previous := some c }, rest)
  | '[' => (readRange rest).map fun (piece, rest) =>
    ({ progress.push piece with previous := some ']' }, rest)
  | '\x7b' => some ({ progress.openGroup with previous := some c }, rest)
  | '\x7d' => progress.closeGroup?.map fun progress => ({ progress with previous := some c }, rest)
  | ',' => some ({ progress.endBranch with previous := some c }, rest)
  | '\\' => match rest with
    | [] => none
    | c :: rest => some (literal c, rest)
  | c => some (literal c, rest)

/-- Reads pieces until the text ends.  Each takes a character at least, so
    as many steps as there are characters suffice. -/
def readPieces : (steps : Nat) → Progress → List Char → Option Progress
  | _, progress, [] => some progress
  | 0, _, _ :: _ => none
  | steps + 1, progress, c :: rest =>
    match readPiece progress c rest with
    | some (progress, rest) => readPieces steps progress rest
    | none => none

/-- Reads a glob. -/
def parse? (text : String) : Option Glob :=
  match readPieces text.toList.length {} text.toList with
  | some { pieces, groups := [], .. } => some ⟨pieces.reverse⟩
  | _ => none

end SelfCapture.Glob
