import SelfCapture.Json.Record
import SelfCapture.Text.CharClass
import SelfCapture.Text.Hex

/-! # Symbols and their occurrences

  A symbol index records where symbols are mentioned and in which roles.
  Symbols and occurrences are read from JSON records.
-/

namespace SelfCapture.Index

/-! ## Section 1: Symbols -/

/-- What a symbol is. -/
inductive SymbolKind where
  | module | namespaceSymbol | macroSymbol | enum | struct | classType | protocol | extension | union
  | typeAlias | function | variable | field | enumConstant | instanceMethod | classMethod
  | staticMethod | instanceProperty | classProperty | staticProperty | constructor | destructor
  | conversionFunction | parameter | unknown
  deriving DecidableEq, Repr

namespace SymbolKind

/-- The kinds that have a name of their own in a record. -/
def named : List (String × SymbolKind) := [
  ("module", .module), ("namespace", .namespaceSymbol), ("macro", .macroSymbol),
  ("enum", .enum), ("struct", .struct), ("class", .classType), ("protocol", .protocol),
  ("extension", .extension), ("union", .union), ("typeAlias", .typeAlias),
  ("function", .function), ("variable", .variable), ("field", .field),
  ("enumConstant", .enumConstant), ("instanceMethod", .instanceMethod),
  ("classMethod", .classMethod), ("staticMethod", .staticMethod),
  ("instanceProperty", .instanceProperty), ("classProperty", .classProperty),
  ("staticProperty", .staticProperty), ("constructor", .constructor),
  ("destructor", .destructor), ("conversionFunction", .conversionFunction),
  ("parameter", .parameter)]

/-- Name of a kind. -/
def name (kind : SymbolKind) : String :=
  ((named.find? (·.2 == kind)).map (·.1)).getD "unknown"

/-- The kind with a name; names that are not known mean an unknown kind. -/
def ofName (name : String) : SymbolKind := (named.lookup name).getD .unknown

/-- Kinds that can be called. -/
def isCallable : SymbolKind → Bool
  | .instanceMethod | .classMethod | .staticMethod | .constructor | .function
  | .conversionFunction => true
  | _ => false

end SymbolKind

/-- The language a symbol is declared in. -/
inductive Language where
  | swift | c | objc | cxx
  deriving DecidableEq, Repr

/-- Name of a language. -/
def Language.name : Language → String
  | .swift => "swift"
  | .c => "c"
  | .objc => "objc"
  | .cxx => "cxx"

/-- The language with a name. -/
def Language.ofName? (name : String) : Option Language :=
  [Language.swift, .c, .objc, .cxx].find? (·.name == name)

/-- A declaration known to the index. -/
structure Symbol where
  kind : SymbolKind
  name : String
  /-- The name under which the symbol is linked, in readable form. -/
  linkageName : String := ""
  language : Language := .swift
  deriving DecidableEq, Repr

/-! ## Section 2: Roles -/

/-- The roles in which a symbol is mentioned, one bit for each role. -/
structure Roles where
  bits : Nat
  deriving DecidableEq, Repr

namespace Roles

/-- Names of the roles, from the lowest bit on. -/
def names : List String := [
  "DECLARATION", "DEFINITION", "REFERENCE", "READ", "WRITE", "CALL", "DYNAMIC", "ADDRESS_OF",
  "IMPLICIT", "REL_CHILD_OF", "REL_BASE_OF", "REL_OVERRIDE_OF", "REL_RECEIVED_BY",
  "REL_CALLED_BY", "REL_EXTENDED_BY", "REL_ACCESSOR_OF", "REL_CONTAINED_BY", "REL_IB_TYPE_OF",
  "REL_SPECIALIZATION_OF"]

/-- The role with the given bit. -/
def ofBit (bit : Nat) : Roles := ⟨1 <<< bit⟩

/-- A mention of the symbol. -/
def reference : Roles := ofBit 2

/-- A call of the symbol. -/
def call : Roles := ofBit 5

/-- A mention as the type that an extension extends. -/
def extendedBy : Roles := ofBit 14

/-- All roles of both. -/
def union (a b : Roles) : Roles := ⟨a.bits ||| b.bits⟩

/-- Whether every role of `b` is one of `a`. -/
def contains (a b : Roles) : Bool := a.bits &&& b.bits == b.bits

/-- The texts between bars. -/
def splitBars : List Char → List (List Char)
  | [] => [[]]
  | c :: rest =>
    match c == '|', splitBars rest with
    | true, found => [] :: found
    | false, first :: found => (c :: first) :: found
    | false, [] => [[c]]

/-- The value of a hexadecimal number below `2 ^ 32`, with an optional plus sign. -/
def bitsOfHex? (digits : List Char) : Option Nat :=
  (Text.hexNumber? (if digits.head? == some '+' then digits.drop 1 else digits)).filter
    (· < 0x100000000)

/-- One entry of a list of roles: a name, or bits as a hexadecimal number. -/
def ofPiece? (entry : String) : Option Roles :=
  if entry.startsWith "0x" then (bitsOfHex? (entry.toList.drop 2)).map Roles.mk
  else (names.findIdx? (· == entry)).map ofBit

/-- Roles separated by bars; blank text means none. -/
def ofText? (text : String) : Option Roles :=
  if (Text.trim text).isEmpty then some ⟨0⟩
  else
    (splitBars text.toList).foldlM
      (fun roles entry => (ofPiece? (Text.trim (String.ofList entry))).map roles.union) ⟨0⟩

/-- A number in hexadecimal digits. -/
def hexText (value : Nat) : String := String.ofList (Nat.toDigits 16 value)

/-- The roles by name, bits without a name last as a number. -/
def text (roles : Roles) : String :=
  let found := names.zipIdx.filter fun (_, bit) => roles.bits.testBit bit
  let unnamed := roles.bits >>> names.length <<< names.length
  " | ".intercalate
    (found.map (·.1) ++ if unnamed = 0 then [] else ["0x" ++ hexText unnamed])

end Roles

/-- A mention of a symbol at a place in a source text. -/
structure Occurrence where
  symbol : Symbol
  roles : Roles
  /-- Line number, counted from one. -/
  line : Nat
  /-- Byte column, counted from one. -/
  column : Nat
  /-- The mention comes from a system module. -/
  isSystem : Bool := false
  deriving DecidableEq, Repr

/-! ## Section 3: Records -/

/-- Reads a symbol. -/
def Symbol.ofJson? (json : Json) : Option Symbol :=
  match Json.fields? ["kind", "name", "linkageName", "language"] json with
  | some [kind, name, linkageName, language] => do
    some {
      kind := SymbolKind.ofName (← Json.required Json.choice? kind)
      name := ← Json.required Json.string? name
      linkageName := ← Json.defaulted Json.string? "" linkageName
      language := ← Json.defaulted (fun j => (Json.choice? j).bind Language.ofName?) .swift language }
  | _ => none

/-- Reads an occurrence. -/
def Occurrence.ofJson? (json : Json) : Option Occurrence :=
  match Json.fields? ["symbol", "roles", "line", "column", "isSystem"] json with
  | some [symbol, roles, line, column, isSystem] => do
    some {
      symbol := ← Json.required Symbol.ofJson? symbol
      roles := ← Json.required (fun j => j.string?.bind Roles.ofText?) roles
      line := ← Json.required (Json.natBelow? Json.wordBound) line
      column := ← Json.required (Json.natBelow? Json.wordBound) column
      isSystem := ← Json.defaulted Json.bool? false isSystem }
  | _ => none

/-- Reads a list of occurrences. -/
def occurrences? (json : Json) : Option (List Occurrence) :=
  json.array?.bind (·.mapM Occurrence.ofJson?)

/-- A symbol as a JSON object. -/
def Symbol.toJson (symbol : Symbol) : Json :=
  .object [("kind", .string symbol.kind.name), ("name", .string symbol.name),
    ("linkageName", .string symbol.linkageName), ("language", .string symbol.language.name)]

/-- An occurrence as a JSON object. -/
def Occurrence.toJson (occurrence : Occurrence) : Json :=
  .object [("symbol", occurrence.symbol.toJson), ("roles", .string occurrence.roles.text),
    ("line", .nat occurrence.line), ("column", .nat occurrence.column),
    ("isSystem", .bool occurrence.isSystem)]

end SelfCapture.Index
