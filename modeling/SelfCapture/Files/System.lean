/-! # File systems

  The questions that a run asks of a file system.  They are asked inside a
  monad, so that the same run works on the real file system and on a
  `FileTree` held in memory.
-/

namespace SelfCapture

/-- What a path leads to, after following links. -/
inductive EntryKind where
  | file | directory | other
  deriving DecidableEq, Repr

/-- Why a file could not be read as text. -/
inductive ReadFailure where
  /-- The bytes are not UTF-8. -/
  | notText
  /-- The system refused, for the given reason. -/
  | refused (reason : String)
  deriving DecidableEq, Repr

/-- Wording of a failure to read. -/
def ReadFailure.message : ReadFailure → String
  | .notText => "stream did not contain valid UTF-8"
  | .refused reason => reason

/-- The questions that a run asks of a file system. -/
structure FileSystem (m : Type → Type) where
  /-- What a path leads to, if it leads anywhere. -/
  kind? : String → m (Option EntryKind)
  /-- The text of a file. -/
  read : String → m (Except ReadFailure String)
  /-- The names of the entries of a directory, in any order. -/
  names? : String → m (Option (List String))
  /-- The absolute path without links that leads to the same place. -/
  canonical? : String → m (Option String)
  /-- A bound on how deep directories can be entered. -/
  depthLimit : Nat

namespace FileSystem

variable {m : Type → Type} [Monad m]

/-- Whether a path leads anywhere. -/
def hasEntry (fs : FileSystem m) (path : String) : m Bool := return (← fs.kind? path).isSome

/-- Whether a path leads to a file. -/
def isFile (fs : FileSystem m) (path : String) : m Bool :=
  return (← fs.kind? path) == some .file

end FileSystem
end SelfCapture
