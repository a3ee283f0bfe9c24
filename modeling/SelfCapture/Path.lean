/-! # Paths

  Paths are texts with `/` between their components.  Empty components
  (from repeated or trailing slashes) and `.` carry no meaning; a leading
  slash makes a path absolute.

  - `Path.normalize` folds `name/..` and drops what carries no meaning, so
    all spellings of a path that differ only lexically become one.
  - `Path.join` and `Path.relativeTo` are the usual operations; they do
    not normalize.
-/

namespace SelfCapture.Path

/-! ## Section 1: Components -/

/-- The text between slashes; there is one piece more than there are slashes. -/
def pieces : List Char → List (List Char)
  | [] => [[]]
  | c :: rest =>
    match c == '/', pieces rest with
    | true, found => [] :: found
    | false, first :: found => (c :: first) :: found
    | false, [] => [[c]]

/-- Whether the path starts at the root. -/
def isAbsolute (path : String) : Bool := path.toList.head? == some '/'

/-- Whether a piece of a path is a component: neither empty nor `.`. -/
def isComponent (piece : List Char) : Bool := piece != [] && piece != ['.']

/-- The components of a path, without empty ones and `.`. -/
def components (path : String) : List (List Char) := (pieces path.toList).filter isComponent

/-- The component that stands for the enclosing directory. -/
def parentComponent : List Char := ['.', '.']

/-- The path with the given components. -/
def ofComponents (absolute : Bool) (parts : List (List Char)) : String :=
  String.ofList ((if absolute then ['/'] else []) ++ ['/'].intercalate parts)

/-! ## Section 2: Normal form -/

/-- Adds a component to a normal path whose components are given last
    first: `..` takes away a name before it. -/
def fold (parts : List (List Char)) (part : List Char) : List (List Char) :=
  if part = parentComponent then
    match parts with
    | last :: others => if last = parentComponent then part :: parts else others
    | [] => [part]
  else
    part :: parts

/-- The components of the normal form of a path with the given components. -/
def normalComponents (parts : List (List Char)) : List (List Char) :=
  (parts.foldl fold []).reverse

/-- The path without `.` and without `..` after a name. -/
def normalize (path : String) : String :=
  ofComponents (isAbsolute path) (normalComponents (components path))

/-! ## Section 3: Operations -/

/-- The path as seen from a directory: an absolute path stays as it is. -/
def join (directory path : String) : String :=
  if isAbsolute path || directory.isEmpty then path
  else if directory.endsWith "/" then directory ++ path
  else directory ++ "/" ++ path

/-- The last component of a path, unless it is `..`. -/
def fileName? (path : String) : Option String :=
  match (components path).getLast? with
  | some last => if last = parentComponent then none else some (String.ofList last)
  | none => none

/-- What follows the last dot of a file name that has something before the dot. -/
def extension? (path : String) : Option String :=
  match fileName? path with
  | none => none
  | some name =>
    let chars := name.toList.reverse
    let after := chars.takeWhile (· != '.')
    let before := (chars.drop (after.length + 1))
    if after.length < chars.length && !before.isEmpty then some (String.ofList after.reverse)
    else none

/-! ## Section 4: Parts of a path as they are written -/

/-- The pieces from the first component on that comes after `count` others. -/
def dropParts : (count : Nat) → List (List Char) → List (List Char)
  | _, [] => []
  | count, piece :: rest =>
    if isComponent piece then
      match count with
      | 0 => piece :: rest
      | count + 1 => dropParts count rest
    else
      dropParts count rest

/-- The pieces up to the last component. -/
def trimEnd (parts : List (List Char)) : List (List Char) :=
  (parts.reverse.dropWhile fun piece => !isComponent piece).reverse

/-- Whether a relative path starts with the component `.`. -/
def startsWithDot (path : String) : Bool := (pieces path.toList).head? == some ['.']

/-- The path made of pieces that belong to the given path, with its start
    when no component is left. -/
def ofPieces (path : String) (parts : List (List Char)) : String :=
  if parts.isEmpty then
    if isAbsolute path then "/" else if startsWithDot path then "." else ""
  else
    String.ofList (['/'].intercalate parts)

/-- What follows the components of `base` in `path`, if `path` starts with
    them.  Between the components it stays as it is written. -/
def relativeTo? (base path : String) : Option String :=
  if base.isEmpty then
    some (ofPieces path (trimEnd (pieces path.toList)))
  else if isAbsolute base == isAbsolute path && startsWithDot base == startsWithDot path &&
      (components base).isPrefixOf (components path) then
    some (String.ofList (['/'].intercalate
      (dropParts (components base).length (trimEnd (pieces path.toList)))))
  else
    none

/-- The path without its last component, if it has one. -/
def parent? (path : String) : Option String :=
  match (trimEnd (pieces path.toList)).reverse with
  | [] => if startsWithDot path then some "" else none
  | _ :: before => some (ofPieces path (trimEnd before.reverse))

end SelfCapture.Path
