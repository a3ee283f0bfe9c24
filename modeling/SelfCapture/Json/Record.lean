import SelfCapture.Json.Basic

/-! # Records in JSON

  A record may be written as an object with named fields or as an array of
  its fields in order.  Fields that are not known are ignored in an object
  and refused in an array.
-/

namespace SelfCapture.Json

/-- Bound of the numbers that records hold. -/
def wordBound : Nat := 0x100000000

/-- The value of a field of an object, absent or given once. -/
def fieldOnce? (members : List (String × Json)) (name : String) : Option (Option Json) :=
  match members.filter (·.1 == name) with
  | [] => some none
  | [(_, value)] => some (some value)
  | _ => none

/-- The values of the named fields of a record.  There is no result if a
    field is repeated or an array has too many items. -/
def fields? (names : List String) : Json → Option (List (Option Json))
  | .object members => names.mapM (fieldOnce? members)
  | .array items =>
    if items.length ≤ names.length then
      some (names.zipIdx.map fun (_, position) => items[position]?)
    else
      none
  | _ => none

/-- A field that has to be there. -/
def required {α : Type} (read : Json → Option α) : Option Json → Option α
  | some value => read value
  | none => none

/-- A field that has a value when it is not there. -/
def defaulted {α : Type} (read : Json → Option α) (default : α) : Option Json → Option α
  | some value => read value
  | none => some default

/-- The name of a choice: a string, or an object whose only member is the name with null. -/
def choice? : Json → Option String
  | .string name => some name
  | .object [(name, .null)] => some name
  | _ => none

end SelfCapture.Json
