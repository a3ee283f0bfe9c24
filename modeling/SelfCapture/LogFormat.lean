import SelfCapture.Arguments
import SelfCapture.Text.CharClass

/-! # Log formats -/

namespace SelfCapture

/-- How log lines are written. -/
inductive LogFormat where
  | text | tree | json
  deriving DecidableEq, Repr

namespace LogFormat

/-- Name of a log format. -/
def name : LogFormat → String
  | .text => "Text"
  | .tree => "Tree"
  | .json => "Json"

/-- The log format that a value asks for, in any case and between white
    space; every other value means text.  No letter outside ASCII becomes a
    letter of `tree` or `json` in lower case, so it is enough to lower ASCII. -/
def ofText (value : String) : LogFormat :=
  match Arguments.lowered (Text.trim value) with
  | "tree" => .tree
  | "json" => .json
  | _ => .text

end LogFormat
end SelfCapture
