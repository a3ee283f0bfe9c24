import SelfCapture.Check.RuleSource
import SelfCapture.Report
import SelfCapture.Yaml.Node

/-! # Settings

  The settings file is a YAML mapping.  All its keys are optional, keys that
  are not known are ignored, and a known key may be given once.
-/

namespace SelfCapture

/-- The contents of a settings file. -/
structure Settings where
  severity : Option Severity := none
  silent : Option Bool := none
  /-- The calls that are left alone. -/
  rules : List RuleSource := []
  /-- Globs of the files that are left out. -/
  excluded : List String := []
  deriving DecidableEq, Repr

namespace Settings

/-! ## Section 1: Values -/

/-- The words for no value. -/
def isNullWord (text : String) : Bool := ["null", "Null", "NULL", "~"].contains text

/-- The tag of values that are nothing. -/
def nullTag : String := "tag:yaml.org,2002:null"

/-- The tag of truth values. -/
def boolTag : String := "tag:yaml.org,2002:bool"

/-- The truth value with a name. -/
def boolOf? : String → Option Bool
  | "true" | "True" | "TRUE" => some true
  | "false" | "False" | "FALSE" => some false
  | _ => none

/-- A value of a kind of node, behind an alias or not. -/
abbrev Reading (α : Type) := Yaml.Document → Yaml.Node → Option α

/-- A text: any scalar as it is written. -/
def text? : Reading String := fun document node =>
  match document.follow node with
  | .scalar _ _ text => some text
  | _ => none

/-- A truth value, which is not quoted. -/
def bool? : Reading Bool := fun document node =>
  match document.follow node with
  | .scalar _ .plain text => boolOf? text
  | .scalar tag .literal text => if tag == some boolTag then boolOf? text else none
  | _ => none

/-- What a tag that starts with an exclamation mark names. -/
def localTag? (tag : Option String) : Option String :=
  match tag.map String.toList with
  | some ['!'] => some "!"
  | some ('!' :: name) => some (String.ofList name)
  | _ => none

/-- A severity: its name, or its name as the tag of nothing. -/
def severity? : Reading Severity := fun document node =>
  match document.follow node with
  | .scalar tag style text =>
    match localTag? tag with
    | none => Severity.ofName? text
    | some name =>
      if style == .plain && (text.isEmpty || isNullWord text) then Severity.ofName? name
      else none
  | _ => none

/-- A value or nothing.  A plain scalar is nothing if it is empty or a word
    for nothing; with a tag, only if the tag says so. -/
def optional? {α : Type} (read : Reading α) : Reading (Option α) := fun document node =>
  let node := document.follow node
  match node with
  | .scalar none .plain text =>
    if text.isEmpty || isNullWord text then some none else (read document node).map some
  | .scalar (some tag) .plain text =>
    if tag == nullTag then
      if isNullWord text then some none else none
    else
      (read document node).map some
  | node => (read document node).map some

/-- The items of a list; an empty value is a list without items. -/
def list? {α : Type} (read : Reading α) : Reading (List α) := fun document node =>
  match document.follow node with
  | .sequence _ items => items.mapM (read document)
  | .scalar _ .plain "" => some []
  | _ => none

/-! ## Section 2: Records -/

/-- The members of a mapping with their keys as texts; an empty value is a
    mapping without members. -/
def members? : Reading (List (String × Yaml.Node)) := fun document node =>
  match document.follow node with
  | .mapping _ members =>
    members.mapM fun (key, value) => (text? document key).map (·, value)
  | .scalar _ .plain "" => some []
  | _ => none

/-- The value under one of several names, absent or given once. -/
def member? (names : List String) (members : List (String × Yaml.Node)) : Option (Option Yaml.Node) :=
  match members.filter fun (name, _) => names.contains name with
  | [] => some none
  | [(_, node)] => some (some node)
  | _ => none

/-- Reads a member, with a default for when it is absent. -/
def memberOr? {α : Type} (names : List String) (read : Reading α) (default : α)
    (document : Yaml.Document) (members : List (String × Yaml.Node)) : Option α := do
  match ← member? names members with
  | some node => read document node
  | none => some default

/-- An entry of the list of calls that are left alone. -/
def rule? : Reading RuleSource := fun document node => do
  let members ← members? document node
  let parent ← memberOr? ["parentPattern"] (optional? text?) none document members
  let some function ← member? ["functionName"] members | none
  return { parent, function := ← text? document function }

/-- The settings in a document. -/
def ofDocument? (document : Yaml.Document) : Option Settings := do
  let members ← members? document document.root
  return {
    severity := ← memberOr? ["reportType"] (optional? severity?) none document members
    silent := ← memberOr? ["silent", "slent"] (optional? bool?) none document members
    rules := ← memberOr? ["whiteList"] (list? rule?) [] document members
    excluded := ← memberOr? ["excludedFiles"] (list? text?) [] document members }

/-! ## Section 3: Files -/

/-- The lines of a text. -/
def linesOf : List Char → List (List Char)
  | [] => [[]]
  | c :: rest =>
    match c == '\n', linesOf rest with
    | true, lines => [] :: lines
    | false, line :: lines => (c :: line) :: lines
    | false, [] => [[c]]

/-- Whether a text holds nothing but white space and comments. -/
def isBlankText (text : String) : Bool :=
  (linesOf text.toList).all fun line =>
    (line.dropWhile Text.isBlank).head?.all (· == '#')

/-- Reads the text of a settings file. -/
def ofText? (text : String) : Option Settings :=
  if isBlankText text then some {} else (Yaml.parse? text).bind ofDocument?

end Settings
end SelfCapture
