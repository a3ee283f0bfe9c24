import SelfCapture.Check.ReferenceType
import SelfCapture.Check.SelfUse
import SelfCapture.Grammar.SourceFile
import SelfCapture.Index.LinkageName

/-! # Escaping closures

  A closure that does not outlive the call it is passed to is harmless.
  The declaration of the called function is made from its linkage name in
  the index; a closure passed to a parameter of function type that is
  neither optional nor marked `@escaping` does not escape.  Without a
  declaration the closure is taken to escape.
-/

namespace SelfCapture

/-! ## Section 1: Parameter types -/

/-- What the type of a parameter says about a closure passed to it. -/
structure ParameterType where
  isFunction : Bool := false
  isOptional : Bool := false
  isEscaping : Bool := false
  deriving DecidableEq, Repr

/-- Whether a closure passed to a parameter of this type escapes. -/
def ParameterType.escapes (type : ParameterType) : Answer :=
  if type.isFunction && !type.isOptional && !type.isEscaping then .definitelyNot else .definitely

namespace Tree

/-- Whether one of the attributes is `@escaping`. -/
def hasEscaping (t : Tree) (attributes : List Nat) : Bool :=
  attributes.any fun id =>
    match t.form? id with
    | some (.typeAttribute name) => t.text name == "escaping"
    | _ => false

/-- What a type is a wrapping of, with what the wrapping says: attributes,
    parentheses and optionals are wrappings. -/
def unwrapType (t : Tree) (type : ParameterType) (outermost : Bool) (id : Nat) :
    Option (Nat × ParameterType) :=
  match t.form? id with
  | some (.attributedType attributes _ base) =>
    some (base,
      { type with isEscaping := type.isEscaping || (outermost && t.hasEscaping attributes) })
  | some (.optionalType wrapped _) => some (wrapped, { type with isOptional := true })
  | some (.tupleType [element]) =>
    match t.form? element with
    | some (.tupleTypeElement none _ inner) => some (inner, type)
    | _ => none
  | some (.typeRef _ name [argument]) =>
    if t.text name == optionalTypeName then some (argument, { type with isOptional := true })
    else none
  | _ => none

/-- Whether the node is a function type. -/
def isFunctionType (t : Tree) (id : Nat) : Bool :=
  match t.form? id with
  | some (.functionType ..) => true
  | _ => false

/-- Looks through the wrappings of a type, given what the wrappings around it say. -/
def throughWrappings (t : Tree) (type : ParameterType) (outermost : Bool) (id : Nat) :
    ParameterType :=
  if t.isFunctionType id then
    { type with isFunction := true }
  else
    match t.unwrapType type outermost id with
    | some (inner, type) => if inner < id then t.throughWrappings type false inner else type
    | none => type
termination_by id

/-- What the type at a node says about a closure; nothing if there is no type. -/
def parameterType (t : Tree) (type : Option Nat) : ParameterType :=
  match type with
  | some id => t.throughWrappings {} true id
  | none => {}

/-- What the type of a parameter says about a closure. -/
def typeOfParameter (t : Tree) (parameter : Nat) : ParameterType :=
  match t.form? parameter with
  | some (.parameter _ _ type _) => t.parameterType type
  | _ => {}

/-! ## Section 2: Declarations -/

/-- The parameter that an argument is passed to.  A label names it; without
    a label it is the only parameter of function type. -/
def matchParameter? (t : Tree) (parameters : List Nat) (label : Option String) : Option Nat :=
  match label with
  | some label =>
    parameters.find? fun parameter =>
      (t.bindingName? parameter).any fun name => t.text name == label
  | none =>
    match parameters.filter fun parameter => (t.typeOfParameter parameter).isFunction with
    | [parameter] => some parameter
    | _ => none

end Tree

/-- The parameters of the first function in a text. -/
def SourceFile.firstParameters? (file : SourceFile) : Option (List Nat) :=
  match (file.tree.firstFunction? file.root).bind file.tree.form? with
  | some (.functionDecl _ _ parameters _ _) => some parameters
  | _ => none

/-- Whether a closure passed under a label escapes, given the declaration of the function. -/
def escapesIn (declaration : String) (label : Option String) : Answer :=
  let file := SourceFile.parse declaration
  match file.firstParameters? with
  | none => .definitely
  | some parameters =>
    match file.tree.matchParameter? parameters label with
    | none => .definitely
    | some parameter => (file.tree.typeOfParameter parameter).escapes

/-! ## Section 3: Calls -/

namespace Tree

/-- Where the index records a call of an expression: at the name of a
    member, else at the start of the expression. -/
def calleeOffset? (t : Tree) (callee : Nat) : Option Nat :=
  match t.form? callee with
  | none => none
  | some (.memberAccess _ name) => t.pos? name
  | some (.genericSpecialization base _) =>
    match base with
    | some inner => if inner < callee then t.calleeOffset? inner else none
    | none => none
  | some (.postfixOp operand _) =>
    match operand with
    | some inner => if inner < callee then t.calleeOffset? inner else none
    | none => none
  | some _ => t.pos? callee
termination_by callee

/-- Where the index records the call at a node. -/
def callOffset? (t : Tree) (call : Nat) : Option Nat :=
  match t.form? call with
  | some (.call (some callee) ..) => t.calleeOffset? callee
  | _ => none

end Tree

/-- Whether a closure passed to a call under a label escapes. -/
def Setting.escapes (s : Setting) (call : Nat) (label : Option String) : Answer :=
  match s.tree.callOffset? call with
  | none => .definitely
  | some offset =>
    let place := s.lines.location offset
    match Index.calleeOf (s.index s.file place.line place.column) with
    | none => .definitely
    | some linkageName =>
      match LinkageName.declaration? linkageName with
      | none => .definitely
      | some declaration => escapesIn declaration label

end SelfCapture
