import SelfCapture.Files.System
import SelfCapture.Path

/-! # File trees in memory

  A `FileTree` lists entries under their absolute paths, each path as the
  list of its components.  Paths are resolved one component at a time:
  links are replaced by their targets, at most forty times, and `..` leads
  to the directory that really holds the current one.
-/

namespace SelfCapture

/-- An entry of a file tree. -/
inductive FileTree.Entry where
  | file (content : ByteArray)
  | directory
  | link (target : String)

/-- A file system held in memory. -/
structure FileTree where
  /-- Every entry with the components of its path; later entries replace earlier ones. -/
  entries : List (List String × FileTree.Entry) := []
  /-- The directory in which relative paths start. -/
  workingDirectory : String := "/"

namespace FileTree

/-! ## Section 1: Building -/

/-- The pieces of a path between its slashes. -/
def piecesOf (path : String) : List String := (Path.pieces path.toList).map String.ofList

/-- The components of an absolute path. -/
def keyOf (path : String) : List String := (Path.components path).map String.ofList

/-- The entry under a path, if there is one. -/
def entry? (tree : FileTree) (key : List String) : Option Entry := tree.entries.lookup key

/-- Adds an entry. -/
def insert (tree : FileTree) (key : List String) (entry : Entry) : FileTree :=
  { tree with entries := (key, entry) :: tree.entries }

/-- Adds a directory unless there is an entry. -/
def addDirectory (tree : FileTree) (key : List String) : FileTree :=
  match tree.entry? key with
  | some _ => tree
  | none => tree.insert key .directory

/-- Adds a directory and those that hold it. -/
def addDirectories (tree : FileTree) (key : List String) : FileTree :=
  (List.range (key.length + 1)).foldl (fun tree count => tree.addDirectory (key.take count)) tree

/-- Adds an entry and the directories that hold it. -/
def add (tree : FileTree) (path : String) (entry : Entry) : FileTree :=
  let key := keyOf path
  (tree.addDirectories key.dropLast).insert key entry

/-! ## Section 2: Resolving paths -/

/-- Whether there is a directory under a path; the root is one. -/
def isDirectory (tree : FileTree) (key : List String) : Bool :=
  match key, tree.entry? key with
  | [], _ => true
  | _, some .directory => true
  | _, _ => false

/-- Follows the pieces of a path from a place, with so many links left to follow. -/
def follow (tree : FileTree) (links : Nat) (place : List String) :
    List String → Option (List String)
  | [] => some place
  | piece :: rest =>
    if !tree.isDirectory place then none
    else if piece == "" || piece == "." then tree.follow links place rest
    else if piece == ".." then tree.follow links place.dropLast rest
    else
      match tree.entry? (place ++ [piece]) with
      | none => none
      | some (.link target) =>
        match links with
        | 0 => none
        | links + 1 =>
          tree.follow links (if Path.isAbsolute target then [] else place)
            (piecesOf target ++ rest)
      | some _ => tree.follow links (place ++ [piece]) rest
termination_by pieces => (links, pieces.length)

/-- How many links may stand in the way of a path. -/
def linkLimit : Nat := 40

/-- The components of the place that a path leads to. -/
def resolve? (tree : FileTree) (path : String) : Option (List String) :=
  if path.isEmpty then none
  else tree.follow linkLimit [] (piecesOf (Path.join tree.workingDirectory path))

/-! ## Section 3: As a file system -/

/-- What is at a place. -/
def kindAt (tree : FileTree) (key : List String) : EntryKind :=
  match tree.entry? key with
  | some (.file _) => .file
  | _ => .directory

/-- The text of the file at a place. -/
def readAt (tree : FileTree) (key : List String) : Except ReadFailure String :=
  match tree.entry? key with
  | some (.file content) =>
    match String.fromUTF8? content with
    | some text => .ok text
    | none => .error .notText
  | _ => .error (.refused "Is a directory (os error 21)")

/-- The names of the entries directly below a place. -/
def namesAt (tree : FileTree) (key : List String) : List String :=
  (tree.entries.filterMap fun (entryKey, _) =>
    if entryKey.dropLast == key then entryKey.getLast? else none).eraseDups

/-- The path with the given components. -/
def pathOf (key : List String) : String := "/" ++ "/".intercalate key

/-- The tree as a file system. -/
def system (tree : FileTree) : FileSystem Id where
  kind? path := (tree.resolve? path).map tree.kindAt
  read path :=
    match tree.resolve? path with
    | some key => tree.readAt key
    | none => .error (.refused "No such file or directory (os error 2)")
  names? path :=
    ((tree.resolve? path).filter tree.isDirectory).map tree.namesAt
  canonical? path := (tree.resolve? path).map pathOf
  depthLimit := (tree.entries.length + 2) * (tree.entries.length + 2)

end FileTree
end SelfCapture
