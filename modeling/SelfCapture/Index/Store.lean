import SelfCapture.Index.Symbol
import SelfCapture.Json.Reader
import SelfCapture.Path
import Std.Data.HashMap

/-! # Symbol index

  A `Store` holds the occurrences recorded for each file by their position,
  looked up by the normal form of the file's path.  The checks see it as a
  `Lookup`, a function from positions to occurrences: a file without
  records, or no index at all, looks like an index without occurrences.
-/

namespace SelfCapture.Index

/-- The occurrences at a position of a file, in the order of their recording. -/
abbrev Lookup := (file : String) → (line column : Nat) → List Occurrence

/-- No index. -/
def Lookup.absent : Lookup := fun _ _ _ => []

/-- Whether the occurrence is a call of a function declared in Swift. -/
def Occurrence.isCall (occurrence : Occurrence) : Bool :=
  occurrence.roles.contains (Roles.reference.union Roles.call) &&
    occurrence.symbol.kind.isCallable && occurrence.symbol.language == .swift

/-- The linkage name of the function called according to the occurrences at a position. -/
def calleeOf (occurrences : List Occurrence) : Option String :=
  (occurrences.find? (·.isCall)).map (·.symbol.linkageName)

/-- The occurrences recorded for one file. -/
structure FileRecords where
  file : String
  occurrences : List Occurrence

/-- The occurrences of one file, by line and column. -/
abbrev Positions := Std.HashMap (Nat × Nat) (List Occurrence)

/-- Adds an occurrence after the others at its position. -/
def Positions.record (positions : Positions) (occurrence : Occurrence) : Positions :=
  positions.alter (occurrence.line, occurrence.column) fun found =>
    some (found.getD [] ++ [occurrence])

/-- The occurrences of all recorded files, each under the normal form of its path. -/
structure Store where
  files : Std.HashMap String Positions := {}

namespace Store

/-- Adds the records of a file, which may have some already. -/
def insert (store : Store) (unit : FileRecords) : Store :=
  { files := store.files.alter (Path.normalize unit.file) fun found =>
      some (unit.occurrences.foldl Positions.record (found.getD {})) }

/-- The store of some units. -/
def ofUnits (units : List FileRecords) : Store := units.foldl insert {}

/-- The positions recorded for a file.  `resolve` gives the path that a
    file really has, which is tried when it is not recorded as named. -/
def positionsIn? (store : Store) (resolve : String → Option String) (file : String) :
    Option Positions :=
  match store.files[Path.normalize file]? with
  | some positions => some positions
  | none => (resolve file).bind fun path => store.files[Path.normalize path]?

/-- The occurrences recorded at a position, if there are records for the file. -/
def occurrencesAt? (store : Store) (resolve : String → Option String) (file : String)
    (line column : Nat) : Option (List Occurrence) :=
  (store.positionsIn? resolve file).map fun positions => positions.getD (line, column) []

/-- The linkage name of the function called at a position, if there are
    records for the file. -/
def calleeAt? (store : Store) (resolve : String → Option String) (file : String)
    (line column : Nat) : Option (Option String) :=
  (store.occurrencesAt? resolve file line column).map calleeOf

/-- The store as the checks see it. -/
def lookup (store : Store) (resolve : String → Option String) : Lookup :=
  fun file line column => (store.occurrencesAt? resolve file line column).getD []

end Store

/-! ## Dumps -/

/-- Reads the records of one file. -/
def FileRecords.ofJson? (json : Json) : Option FileRecords :=
  match Json.fields? ["file", "occurrences"] json with
  | some [file, occurrences] => do
    some {
      file := ← Json.required Json.string? file
      occurrences := ← Json.defaulted occurrences? [] occurrences }
  | _ => none

/-- Reads a dump: a list of units, or one unit. -/
def dump? (json : Json) : Option (List FileRecords) :=
  match json.array?.bind (·.mapM FileRecords.ofJson?) with
  | some units => some units
  | none => (FileRecords.ofJson? json).map ([·])

/-- Reads the text of a dump. -/
def dumpOfText? (text : String) : Option (List FileRecords) := (Json.parse? text).bind dump?

end SelfCapture.Index
