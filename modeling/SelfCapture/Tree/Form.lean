import SelfCapture.Token.Kind

/-! # Forms of syntax nodes

  A `Form` says what a node is and which nodes it is made of.  Nodes are
  named by their number in the tree they belong to, see `SelfCapture.Tree`.
  An optional part is an `Option`; a construct that could not be read is
  the form `missing`.

  - `Form.parts` lists the parts of a form in source order, each with the
    role it plays; every other enumeration of parts is derived from it.
  - Infix expressions are not grouped by precedence: a `sequence` holds
    operands and operators side by side.
-/

namespace SelfCapture

/-! ## Section 1: Variants of a form -/

/-- The sorts of type declarations. -/
inductive TypeSort where
  | classType | actor | struct | enum | extension | protocol
  deriving DecidableEq, Repr

/-- The keyword that introduces a sort of type declaration. -/
def TypeSort.name : TypeSort → String
  | .classType => "class"
  | .actor => "actor"
  | .struct => "struct"
  | .enum => "enum"
  | .extension => "extension"
  | .protocol => "protocol"

/-- The sorts of function-like declarations. -/
inductive FunctionSort where
  | function | initializer | deinitializer | subscript | accessor
  deriving DecidableEq, Repr

/-- Name of a sort of function. -/
def FunctionSort.name : FunctionSort → String
  | .function => "Function"
  | .initializer => "Initializer"
  | .deinitializer => "Deinitializer"
  | .subscript => "Subscript"
  | .accessor => "Accessor"

/-- The sorts of control statements and of their clauses. -/
inductive ControlSort where
  | branch | guard | loop | repeatLoop | forLoop | switch | case | default | block | handler
  | defer | return | throw | break | continue | fallthrough
  deriving DecidableEq, Repr

/-- Name of a sort of control statement. -/
def ControlSort.name : ControlSort → String
  | .branch => "If"
  | .guard => "Guard"
  | .loop => "While"
  | .repeatLoop => "Repeat"
  | .forLoop => "For"
  | .switch => "Switch"
  | .case => "Case"
  | .default => "Default"
  | .block => "Do"
  | .handler => "Catch"
  | .defer => "Defer"
  | .return => "Return"
  | .throw => "Throw"
  | .break => "Break"
  | .continue => "Continue"
  | .fallthrough => "Fallthrough"

/-- How the parameters of a closure are written. -/
inductive ClosureParameters where
  /-- None are written. -/
  | absent
  /-- Bare names, `a, b in`. -/
  | shorthand (names : List Nat)
  /-- A parameter clause, `(a: Int, b) in`. -/
  | clause (parameters : List Nat)
  deriving DecidableEq, Repr

namespace ClosureParameters

/-- The nodes of the parameters. -/
def nodes : ClosureParameters → List Nat
  | absent => []
  | shorthand names => names
  | clause parameters => parameters

/-- Name of the way the parameters are written. -/
def name : ClosureParameters → String
  | absent => "None"
  | shorthand _ => "Shorthand"
  | clause _ => "Parameters"

end ClosureParameters

/-- How a closure holds on to a captured value. -/
inductive Ownership where
  | strong | weak | unowned
  deriving DecidableEq, Repr

/-- Name of an ownership. -/
def Ownership.name : Ownership → String
  | .strong => "None"
  | .weak => "Weak"
  | .unowned => "Unowned"

/-! ## Section 2: Forms -/

/-- What a node is, with the nodes it is made of. -/
inductive Form where
  | sourceFile (statements : List Nat)
  /-- The name of an extension is the extended type. -/
  | typeDecl (sort : TypeSort) (name : Nat) (inherits members : List Nat)
  | functionDecl (sort : FunctionSort) (name : Nat) (parameters : List Nat)
      (result body : Option Nat)
  | parameter (first : Nat) (second type default : Option Nat)
  | variableDecl (bindings : List Nat)
  | patternBinding (pattern : Nat) (type initial accessors : Option Nat)
  | enumCase (elements : List Nat)
  | enumCaseElement (name : Nat) (associated raw : Option Nat)
  | typeAlias (name : Nat) (type : Option Nat)
  | typeAttribute (name : Nat)
  | block (statements : List Nat)
  /-- Conditions, patterns, expressions and bodies in source order. -/
  | control (sort : ControlSort) (children : List Nat)
  /-- A `let` or `var` pattern. -/
  | valueBinding (pattern type initial : Option Nat)
  | identifier (token : Token.Kind)
  | literal (token : Token.Kind)
  | stringLiteral (segments : List Nat)
  /-- The base is absent in an implicit member expression, `.member`. -/
  | memberAccess (base : Option Nat) (name : Nat)
  | postfixOp (operand : Option Nat) (token : Token.Kind)
  | prefixOp (token : Token.Kind) (operand : Option Nat)
  /-- Arguments, the unlabelled trailing closure and the labelled ones after it. -/
  | call (callee : Option Nat) (arguments : List Nat) (trailing : Option Nat)
      (additional : List Nat)
  | subscript (base : Option Nat) (arguments : List Nat)
  | argument (label expression : Option Nat)
  | closure (captures : List Nat) (parameters : ClosureParameters) (result : Option Nat)
      (statements : List Nat)
  | captureItem (ownership : Ownership) (name expression : Option Nat)
  | tuple (elements : List Nat)
  | collection (elements : List Nat)
  | dictionaryElement (key value : Option Nat)
  /-- Operands and operators of an infix expression, side by side. -/
  | sequence (elements : List Nat)
  | operator (token : Token.Kind)
  /-- The part of a conditional expression from `?` to `:`. -/
  | ternary (whenTrue : Option Nat)
  | cast (keyword : Token.Kind) (type : Nat)
  | genericSpecialization (base : Option Nat) (arguments : List Nat)
  | typeRef (base : Option Nat) (name : Nat) (generics : List Nat)
  | functionType (parameters : List Nat) (result : Option Nat)
  /-- `T?`, or `T!` when implicitly unwrapped. -/
  | optionalType (wrapped : Nat) (implicitlyUnwrapped : Bool)
  | attributedType (attributes : List Nat) (specifier : Option Nat) (base : Nat)
  | tupleType (elements : List Nat)
  | tupleTypeElement (first second : Option Nat) (type : Nat)
  | collectionType (elements : List Nat)
  | compositionType (elements : List Nat)
  /-- `some P`, or `any P` when existential. -/
  | opaqueType (existential : Bool) (base : Nat)
  /-- A construct that could not be read. -/
  | missing
  deriving DecidableEq, Repr

namespace Form

/-! ## Section 3: Parts -/

/-- A part with a role. -/
def one (role : String) (node : Nat) : List (String × Nat) := [(role, node)]

/-- A part that may be absent. -/
def opt (role : String) (node : Option Nat) : List (String × Nat) :=
  node.toList.map (role, ·)

/-- Parts that share a role. -/
def many (role : String) (nodes : List Nat) : List (String × Nat) := nodes.map (role, ·)

/-- The parts of a form in source order, each with its role. -/
def parts : Form → List (String × Nat)
  | sourceFile statements | block statements => many "statement" statements
  | typeDecl _ name inherits members =>
    one "name" name ++ many "inherits" inherits ++ many "member" members
  | functionDecl _ name parameters result body =>
    one "name" name ++ many "parameter" parameters ++ opt "result" result ++ opt "body" body
  | parameter first second type default =>
    one "first" first ++ opt "second" second ++ opt "type" type ++ opt "default" default
  | variableDecl elements | enumCase elements => many "element" elements
  | patternBinding pattern type initial accessors =>
    one "pattern" pattern ++ opt "type" type ++ opt "init" initial ++ opt "accessors" accessors
  | enumCaseElement name associated raw =>
    one "name" name ++ opt "associated" associated ++ opt "raw" raw
  | typeAlias name type => one "name" name ++ opt "type" type
  | typeAttribute name => one "name" name
  | control _ children => many "child" children
  | valueBinding pattern type initial =>
    opt "pattern" pattern ++ opt "type" type ++ opt "init" initial
  | stringLiteral segments => many "segment" segments
  | memberAccess base name => opt "base" base ++ one "name" name
  | postfixOp operand _ | prefixOp _ operand => opt "operand" operand
  | call callee arguments trailing additional =>
    opt "callee" callee ++ many "argument" arguments ++ opt "trailing" trailing ++
      many "additional" additional
  | subscript base arguments | genericSpecialization base arguments =>
    opt "base" base ++ many "argument" arguments
  | argument label expression => opt "label" label ++ opt "expression" expression
  | closure captures parameters result statements =>
    many "capture" captures ++ many "parameter" parameters.nodes ++ opt "result" result ++
      many "statement" statements
  | captureItem _ name expression => opt "name" name ++ opt "expression" expression
  | tuple elements | collection elements | sequence elements | tupleType elements
  | collectionType elements | compositionType elements => many "element" elements
  | dictionaryElement key value => opt "key" key ++ opt "value" value
  | ternary whenTrue => opt "then" whenTrue
  | cast _ type => one "type" type
  | typeRef base name generics =>
    opt "base" base ++ one "name" name ++ many "generic" generics
  | functionType parameters result => many "parameter" parameters ++ opt "result" result
  | optionalType wrapped _ => one "wrapped" wrapped
  | attributedType attributes specifier base =>
    many "attribute" attributes ++ opt "specifier" specifier ++ one "base" base
  | tupleTypeElement first second type =>
    opt "first" first ++ opt "second" second ++ one "type" type
  | opaqueType _ base => one "base" base
  | identifier _ | literal _ | operator _ | missing => []

/-- The parts of a form in source order. -/
def children (form : Form) : List Nat := form.parts.map (·.2)

/-! ## Section 4: Names -/

/-- Name of a form, as shown in listings. -/
def name : Form → String
  | sourceFile .. => "SourceFile"
  | typeDecl .. => "TypeDecl"
  | functionDecl .. => "FunctionDecl"
  | parameter .. => "Parameter"
  | variableDecl .. => "VariableDecl"
  | patternBinding .. => "PatternBinding"
  | enumCase .. => "EnumCase"
  | enumCaseElement .. => "EnumCaseElement"
  | typeAlias .. => "TypeAlias"
  | typeAttribute .. => "Attribute"
  | block .. => "Block"
  | control .. => "Control"
  | valueBinding .. => "ValueBinding"
  | identifier .. => "Identifier"
  | literal .. => "Literal"
  | stringLiteral .. => "StringLiteral"
  | memberAccess .. => "MemberAccess"
  | postfixOp .. => "Postfix"
  | prefixOp .. => "Prefix"
  | call .. => "Call"
  | subscript .. => "Subscript"
  | argument .. => "Argument"
  | closure .. => "Closure"
  | captureItem .. => "CaptureItem"
  | tuple .. => "Tuple"
  | collection .. => "Collection"
  | dictionaryElement .. => "DictionaryElement"
  | sequence .. => "Sequence"
  | operator .. => "Operator"
  | ternary .. => "Ternary"
  | cast .. => "Cast"
  | genericSpecialization .. => "GenericSpecialization"
  | typeRef .. => "TypeRef"
  | functionType .. => "FunctionType"
  | optionalType .. => "OptionalType"
  | attributedType .. => "AttributedType"
  | tupleType .. => "TupleType"
  | tupleTypeElement .. => "TupleTypeElement"
  | collectionType .. => "CollectionType"
  | compositionType .. => "CompositionType"
  | opaqueType .. => "OpaqueType"
  | missing => "Missing"

/-- What distinguishes a node from others of the same name. -/
def variantName? : Form → Option String
  | typeDecl sort .. => some sort.name
  | functionDecl sort .. => some sort.name
  | control sort _ => some sort.name
  | identifier token | literal token | operator token => some token.name
  | postfixOp _ token | prefixOp token _ => some token.name
  | closure _ parameters .. => some parameters.name
  | captureItem ownership .. => some ownership.name
  | cast keyword _ => some keyword.name
  | optionalType _ implicitlyUnwrapped => some (if implicitlyUnwrapped then "!" else "?")
  | opaqueType existential _ => some (if existential then "any" else "some")
  | _ => none

end Form
end SelfCapture
