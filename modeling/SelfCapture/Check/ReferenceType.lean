import SelfCapture.Check.Setting

/-! # Reference types

  A closure can keep an instance alive only if it is written in a reference
  type.  The nearest type declaration around it decides: classes and actors
  are reference types, structs and enums are not, and for extensions and
  protocols the index is asked about the extended type.
-/

namespace SelfCapture

/-- `Optional` is an enum, but an extension of it says nothing about the wrapped type. -/
def optionalTypeName : String := "Optional"

/-- Whether the occurrence mentions the type that an extension extends. -/
def isExtendedType (occurrence : Index.Occurrence) : Bool :=
  occurrence.roles.contains (Index.Roles.reference.union Index.Roles.extendedBy) &&
    !occurrence.isSystem

/-- Whether the mentioned type is a reference type. -/
def classifyExtendedType (occurrence : Index.Occurrence) : Answer :=
  match occurrence.symbol.kind with
  | .classType => .definitely
  | .struct | .enum =>
    if occurrence.symbol.name == optionalTypeName then .indeterminate else .definitelyNot
  | _ => .indeterminate

namespace Setting

/-- The last name of a type that may be qualified. -/
def lastTypeName (s : Setting) (type : Nat) : Nat :=
  match s.tree.form? type with
  | some (.typeRef _ name _) => name
  | _ => type

/-- Whether the index knows the extended type as a reference type. -/
def extendedType (s : Setting) (type : Nat) : Answer :=
  match s.location? (s.lastTypeName type) with
  | none => .indeterminate
  | some place =>
    match (s.index s.file place.line place.column).find? isExtendedType with
    | some occurrence => classifyExtendedType occurrence
    | none => .indeterminate

/-- What a node, as the nearest type declaration, says about the type; none
    if it is no type declaration. -/
def typeAnswer? (s : Setting) (id : Nat) : Option Answer :=
  match s.tree.form? id with
  | some (.typeDecl sort name _ _) =>
    some <| match sort with
      | .classType | .actor => .definitely
      | .struct | .enum => .definitelyNot
      | .extension | .protocol => s.extendedType name
  | _ => none

/-- Whether a node stands inside a reference type. -/
def inReferenceType (s : Setting) (id : Nat) : Answer :=
  ((s.tree.ancestors id).findSome? s.typeAnswer?).getD .indeterminate

end Setting
end SelfCapture
