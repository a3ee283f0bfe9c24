import SelfCapture.Yaml.Scanner

/-! # YAML nodes

  A document is a tree of nodes.  An alias is kept as the number of the node
  it stands for, since that node may contain the alias; `Document.follow`
  replaces it.
-/

namespace SelfCapture.Yaml

/-- A node of a document. -/
inductive Node where
  | scalar (tag : Option String) (style : Style) (text : String)
  | sequence (tag : Option String) (items : List Node)
  | mapping (tag : Option String) (members : List (Node × Node))
  /-- The anchored node with a number. -/
  | alias (number : Nat)

/-- The node that stands where nothing is written. -/
def Node.empty : Node := .scalar none .plain ""

/-- A document. -/
structure Document where
  root : Node
  /-- The anchored nodes with their numbers. -/
  anchored : List (Nat × Node) := []

/-- How far the nodes of a document have been read. -/
structure Composer where
  tokens : List Token
  /-- The expansions of tag handles. -/
  handles : List (String × String) := [("!", "!"), ("!!", "tag:yaml.org,2002:")]
  /-- The numbers of anchors, the latest first. -/
  anchors : List (String × Nat) := []
  anchored : List (Nat × Node) := []

/-- A computation that reads nodes from tokens. -/
abbrev Compose := StateT Composer Option

namespace Composer

/-! ## Section 1: Tokens -/

/-- The next token. -/
def next? : Compose (Option Token) := return (← get).tokens.head?

/-- Passes a token. -/
def pass : Compose Unit := modify fun c => { c with tokens := c.tokens.drop 1 }

/-- Passes the next token if it is the given one, and tells whether it is. -/
def accept (token : Token) : Compose Bool := do
  if (← next?) == some token then
    pass
    return true
  return false

/-- Whether the next token is one of the given ones. -/
def seesOneOf (tokens : List Token) : Compose Bool :=
  return (← next?).any tokens.contains

/-! ## Section 2: Properties -/

/-- The tag of a node. -/
def tagOf (handle rest : String) : Compose String := do
  if handle.isEmpty then return rest
  let some expansion := (← get).handles.lookup handle | failure
  return expansion ++ rest

/-- Passes an anchor, if there is one. -/
def readAnchor : Compose (Option String) := do
  match ← next? with
  | some (.anchor name) => pass; return some name
  | _ => return none

/-- Passes a tag, if there is one. -/
def readTag : Compose (Option String) := do
  match ← next? with
  | some (.tag handle rest) => pass; return some (← tagOf handle rest)
  | _ => return none

/-- Passes an anchor and a tag in either order. -/
def readProperties : Compose (Option String × Option String) := do
  match ← readAnchor with
  | some name => return (some name, ← readTag)
  | none =>
    let some tag ← readTag | return (none, none)
    return (← readAnchor, some tag)

/-- Numbers the node that is about to be read. -/
def declare (name : String) : Compose Nat := do
  let c ← get
  let number := c.anchors.length
  set { c with anchors := (name, number) :: c.anchors }
  return number

/-- Keeps an anchored node under its number. -/
def keep (number : Option Nat) (node : Node) : Compose Node := do
  if let some number := number then
    modify fun c => { c with anchored := (number, node) :: c.anchored }
  return node

/-! ## Section 3: Nodes -/

/-- Where a node stands, which decides what it can be. -/
inductive Place where
  /-- Inside brackets or braces. -/
  | flow
  | block
  /-- Beside a key, where a sequence needs no further indentation. -/
  | beside
  deriving DecidableEq, Repr

mutual

/-- Reads a node. -/
def readNode (place : Place) : Nat → Compose Node
  | 0 => failure
  | depth + 1 => do
    if let some (.alias name) ← next? then
      pass
      let some number := (← get).anchors.lookup name | failure
      return .alias number
    let (anchor, tag) ← readProperties
    let number ← anchor.mapM declare
    match ← next?, place with
    | some .blockEntry, .beside =>
      keep number (.sequence tag (← readLooseItems depth))
    | some (.scalar style text), _ =>
      pass
      keep number (.scalar tag style text)
    | some .flowSequenceStart, _ =>
      pass
      keep number (.sequence tag (← readFlowItems true depth))
    | some .flowMappingStart, _ =>
      pass
      keep number (.mapping tag (← readFlowMembers true depth))
    | some .blockSequenceStart, .block | some .blockSequenceStart, .beside =>
      pass
      keep number (.sequence tag (← readItems depth))
    | some .blockMappingStart, .block | some .blockMappingStart, .beside =>
      pass
      keep number (.mapping tag (← readMembers depth))
    | _, _ =>
      guard (anchor.isSome || tag.isSome)
      keep number (.scalar tag .plain "")

/-- Reads a node, or nothing before one of the given tokens. -/
def readNodeUnless (stops : List Token) (place : Place) : Nat → Compose Node
  | 0 => failure
  | depth + 1 => do
    if ← seesOneOf stops then return .empty
    readNode place depth

/-- Reads the items of an indented sequence. -/
def readItems : Nat → Compose (List Node)
  | 0 => failure
  | depth + 1 => do
    if ← accept .blockEntry then
      let item ← readNodeUnless [.blockEntry, .blockEnd] .block depth
      return item :: (← readItems depth)
    guard (← accept .blockEnd)
    return []

/-- Reads the items of a sequence that is not indented. -/
def readLooseItems : Nat → Compose (List Node)
  | 0 => failure
  | depth + 1 => do
    if ← accept .blockEntry then
      let item ← readNodeUnless [.blockEntry, .key, .value, .blockEnd] .block depth
      return item :: (← readLooseItems depth)
    return []

/-- Reads the members of an indented mapping. -/
def readMembers : Nat → Compose (List (Node × Node))
  | 0 => failure
  | depth + 1 => do
    if ← accept .key then
      let key ← readNodeUnless [.key, .value, .blockEnd] .beside depth
      let value ←
        if ← accept .value then readNodeUnless [.key, .value, .blockEnd] .beside depth
        else pure .empty
      return (key, value) :: (← readMembers depth)
    guard (← accept .blockEnd)
    return []

/-- Reads the items of a sequence in brackets. -/
def readFlowItems (first : Bool) : Nat → Compose (List Node)
  | 0 => failure
  | depth + 1 => do
    if ← accept .flowSequenceEnd then return []
    if !first then guard (← accept .flowEntry)
    if ← accept .flowSequenceEnd then return []
    let item ← if ← accept .key then readPair depth else readNode .flow depth
    return item :: (← readFlowItems false depth)

/-- Reads a key with its value that is an item of a sequence in brackets.
    What follows a question mark without a key is passed over. -/
def readPair : Nat → Compose Node
  | 0 => failure
  | depth + 1 => do
    let key ←
      if ← seesOneOf [.value, .flowEntry, .flowSequenceEnd] then do
        pass
        pure Node.empty
      else
        readNode .flow depth
    let value ←
      if ← accept .value then readNodeUnless [.flowEntry, .flowSequenceEnd] .flow depth
      else pure .empty
    return .mapping none [(key, value)]

/-- Reads the members of a mapping in braces. -/
def readFlowMembers (first : Bool) : Nat → Compose (List (Node × Node))
  | 0 => failure
  | depth + 1 => do
    if ← accept .flowMappingEnd then return []
    if !first then guard (← accept .flowEntry)
    if ← accept .flowMappingEnd then return []
    let member ←
      if ← accept .key then do
        let key ← readNodeUnless [.value, .flowEntry, .flowMappingEnd] .flow depth
        let value ←
          if ← accept .value then readNodeUnless [.flowEntry, .flowMappingEnd] .flow depth
          else pure .empty
        pure (key, value)
      else do
        let key ← readNode .flow depth
        pure (key, .empty)
    return member :: (← readFlowMembers false depth)

end

/-! ## Section 4: Documents -/

/-- Reads directives.  A version may be given once, and a handle may be
    explained once. -/
def readDirectives (version : Bool) (handles : List (String × String)) :
    List Token → Option (List (String × String) × List Token)
  | .versionDirective major minor :: rest =>
    if !version && major == 1 && (minor == 1 || minor == 2) then readDirectives true handles rest
    else none
  | .tagDirective handle expansion :: rest =>
    if (handles.lookup handle).isNone then
      readDirectives version (handles ++ [(handle, expansion)]) rest
    else
      none
  | rest => some (handles, rest)

/-- Takes the directives in front of a document, which need a document
    marker after them. -/
def readStart : Compose Unit := do
  let c ← get
  let some (handles, rest) := readDirectives false [] c.tokens | failure
  guard (rest.length == c.tokens.length || rest.head? == some .documentStart)
  set { c with tokens := rest, handles := handles ++ c.handles }

/-- Reads the root of a document; after a document marker it may be missing. -/
def readRoot : Compose Node := do
  readStart
  let depth := 3 * (← get).tokens.length + 3
  if ← accept .documentStart then
    if (← next?).isNone then return .empty
    match ← next? with
    | some (.versionDirective ..) | some (.tagDirective ..) => return .empty
    | _ => readNodeUnless [.documentStart, .documentEnd] .block depth
  else
    readNode .block depth

/-- Reads a document, which has to be the only one. -/
def readDocument : Compose Document := do
  let root ← readRoot
  let c ← get
  guard (c.tokens.all (· == .documentEnd))
  return { root, anchored := c.anchored }

end Composer

/-- The document of a text; a text without content has an empty one. -/
def parse? (text : String) : Option Document := do
  let tokens ← tokens? text
  if tokens.isEmpty then return { root := .empty }
  let (document, _) ← Composer.readDocument { tokens }
  return document

/-- The node that an alias stands for; another node stands for itself. -/
def Document.follow (document : Document) : Node → Node
  | .alias number => (document.anchored.lookup number).getD .empty
  | node => node

end SelfCapture.Yaml
