import SelfCapture.Files.System
import SelfCapture.Glob.Basic
import SelfCapture.Path

/-! # Source files

  The Swift files that a run checks: a file that is named itself, or all
  files below a directory, in the order of a walk that takes the entries of
  each directory by name.  Links are followed; one that leads back to a
  directory being walked is left out.
-/

namespace SelfCapture

/-- Extension of the files that are checked. -/
def sourceExtension : String := "swift"

/-- Whether a path names a source file. -/
def isSourcePath (path : String) : Bool := Path.extension? path == some sourceExtension

/-- Whether a path is excluded, as it is given or as seen from a directory. -/
def isExcluded (globs : List Glob) (base path : String) : Bool :=
  globs.any (·.accepts path) ||
    (Path.relativeTo? base path).any fun relative => globs.any (·.accepts relative)

/-- Whether one name comes before another, byte by byte, or is the same. -/
def nameLe (a b : String) : Bool := !(b < a)

variable {m : Type → Type} [Monad m]

/-- Whether the entry `name` of the directory `real`, found to be the
    directory `target`, is a link that leads back to one of the directories
    being walked. -/
def leadsBack (walked : List String) (real name target : String) : Bool :=
  target != Path.join real name && walked.contains target

/-- The source files below a directory.  `walked` holds the canonical paths
    of the directories being walked. -/
def sourcesBelow (fs : FileSystem m) (globs : List Glob) (root : String) :
    (depth : Nat) → (walked : List String) → (directory : String) → m (List String)
  | 0, _, _ => pure []
  | depth + 1, walked, directory => do
    let some real ← fs.canonical? directory | pure []
    let some names ← fs.names? directory | pure []
    let walked := real :: walked
    let found ← (names.mergeSort nameLe).mapM fun name => do
      let path := Path.join directory name
      match ← fs.kind? path with
      | some .file =>
        pure (if isSourcePath path && !isExcluded globs root path then [path] else [])
      | some .directory =>
        let some target ← fs.canonical? path | pure []
        if leadsBack walked real name target then pure []
        else sourcesBelow fs globs root depth walked path
      | _ => pure []
    pure found.flatten

/-- The source files that a path stands for. -/
def sourceFiles (fs : FileSystem m) (globs : List Glob) (root : String) : m (List String) := do
  if ← fs.isFile root then
    let base := (Path.parent? root).getD root
    pure (if isSourcePath root && !isExcluded globs base root then [root] else [])
  else
    sourcesBelow fs globs root fs.depthLimit [] root

end SelfCapture
