/-! # JSON values

  Members of an object keep their order, and a repeated key is kept too.  A
  number is kept as it is written, because whether it is written as an
  integer matters to those who read it.
-/

namespace SelfCapture

/-- A JSON value. -/
inductive Json where
  | null
  | bool (value : Bool)
  /-- A number as it is written. -/
  | number (text : String)
  | string (value : String)
  | array (items : List Json)
  | object (members : List (String × Json))
  deriving Inhabited

namespace Json

/-- An integer. -/
def nat (value : Nat) : Json := number (toString value)

/-- A value, or null if there is none. -/
def ofOption {α : Type} (encode : α → Json) : Option α → Json
  | some value => encode value
  | none => null

/-- The values of all members with a key. -/
def values (key : String) : Json → List Json
  | object members => (members.filter (·.1 == key)).map (·.2)
  | _ => []

/-- The value of the last member with a key; null counts as absent. -/
def get? (json : Json) (key : String) : Option Json :=
  match (json.values key).getLast? with
  | some null | none => none
  | some value => some value

/-- The text of a string. -/
def string? : Json → Option String
  | string value => some value
  | _ => none

/-- The items of an array. -/
def array? : Json → Option (List Json)
  | array items => some items
  | _ => none

/-- The value of a truth value. -/
def bool? : Json → Option Bool
  | bool value => some value
  | _ => none

/-- The value of a number that is written as a natural number below `bound`. -/
def natBelow? (bound : Nat) : Json → Option Nat
  | number text =>
    if text.all Char.isDigit then
      text.toNat?.filter (· < bound)
    else
      none
  | _ => none

end Json
end SelfCapture
