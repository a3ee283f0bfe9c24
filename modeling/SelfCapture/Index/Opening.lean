import SelfCapture.Files.Sources
import SelfCapture.Index.Store

/-! # Opening a symbol index

  An index is a file with a dump, or a directory whose `.json` entries are
  dumps, read in the order of their names.  It is opened as a whole or not
  at all.
-/

namespace SelfCapture.Index

/-- Why an index could not be opened. -/
inductive OpenFailure where
  | missing (path : String)
  /-- The directory holds no dump. -/
  | noDumps (path : String)
  /-- A dump is not what it should be. -/
  | malformed (path : String)
  | unreadable (path : String)
  deriving DecidableEq, Repr

/-- Wording of a failure to open an index. -/
def OpenFailure.message : OpenFailure → String
  | .missing path => "index store path does not exist: " ++ path
  | .noDumps path => "no JSON index units in " ++ path
  | .malformed path => "malformed index unit " ++ path
  | .unreadable path => "failed to read index store " ++ path

/-- Wording of a query for a file that is not in the index. -/
def unknownFileMessage (file : String) : String := "no index records for " ++ file

/-- Extension of the dumps in a directory. -/
def dumpExtension : String := "json"

variable {m : Type → Type} [Monad m]

/-- Reads a dump. -/
def readDump (fs : FileSystem m) (path : String) : m (Except OpenFailure (List FileRecords)) :=
  return match ← fs.read path with
    | .error _ => .error (.unreadable path)
    | .ok text =>
      match dumpOfText? text with
      | some units => .ok units
      | none => .error (.malformed path)

/-- Reads dumps one after the other, up to the first that fails. -/
def readDumps (fs : FileSystem m) : List String → m (Except OpenFailure (List FileRecords))
  | [] => pure (.ok [])
  | path :: paths => do
    match ← readDump fs path with
    | .error failure => pure (.error failure)
    | .ok units => return (← readDumps fs paths).map (units ++ ·)

/-- The dumps that make up the index at a path. -/
def dumpPaths (fs : FileSystem m) (path : String) : m (Except OpenFailure (List String)) := do
  match ← fs.kind? path with
  | none => pure (.error (.missing path))
  | some .directory =>
    let some names ← fs.names? path | pure (.error (.unreadable path))
    let paths := ((names.mergeSort nameLe).map (Path.join path)).filter
      fun path => Path.extension? path == some dumpExtension
    pure (if paths.isEmpty then .error (.noDumps path) else .ok paths)
  | some _ => pure (.ok [path])

/-- Opens the index at a path. -/
def openAt (fs : FileSystem m) (path : String) : m (Except OpenFailure Store) := do
  match ← dumpPaths fs path with
  | .error failure => pure (.error failure)
  | .ok paths => return (← readDumps fs paths).map Store.ofUnits

end SelfCapture.Index
