import SelfCapture.Pattern.CharSet

/-! # Regular expressions

  An expression relates the places in a text at which a match can start to
  those at which it can end.  `Expr.ends` computes the second from the
  first, for all starts at once; a text matches if any end is reached from
  any start.
-/

namespace SelfCapture.Pattern

/-- A condition on a place in a text. -/
inductive Assertion where
  | startOfText | endOfText
  | startOfLine | endOfLine
  /-- Line starts and ends where a carriage return and a line feed count as one break. -/
  | startOfAnyLine | endOfAnyLine
  | wordBoundary | notWordBoundary
  | wordStart | wordEnd
  | wordStartHalf | wordEndHalf
  deriving DecidableEq, Repr

/-- A regular expression. -/
inductive Expr where
  | empty
  | chars (set : CharSet)
  | assertion (condition : Assertion) (wordSet : CharSet)
  | concat (first second : Expr)
  | either (first second : Expr)
  /-- At least `least` times, and at most `most` times if it is given. -/
  | repetition (body : Expr) (least : Nat) (most : Option Nat)

/-! ## Section 1: Assertions -/

/-- The character before a place. -/
def before? (text : Array Char) (place : Nat) : Option Char :=
  if place = 0 then none else text[place - 1]?

/-- Whether a condition holds at a place; `wordSet` says what a word is made of. -/
def Assertion.holds (text : Array Char) (wordSet : CharSet) (place : Nat) : Assertion → Bool
  | .startOfText => place == 0
  | .endOfText => place == text.size
  | .startOfLine => place == 0 || before? text place == some '\n'
  | .endOfLine => place == text.size || text[place]? == some '\n'
  | .startOfAnyLine =>
    place == 0 || before? text place == some '\n' ||
      (before? text place == some '\r' && text[place]? != some '\n')
  | .endOfAnyLine =>
    place == text.size || text[place]? == some '\r' ||
      (text[place]? == some '\n' && before? text place != some '\r')
  | .wordBoundary => wordBefore != wordAfter
  | .notWordBoundary => wordBefore == wordAfter
  | .wordStart => !wordBefore && wordAfter
  | .wordEnd => wordBefore && !wordAfter
  | .wordStartHalf => !wordBefore
  | .wordEndHalf => !wordAfter
where
  /-- A word goes up to the place. -/
  wordBefore : Bool := (before? text place).any fun c => wordSet.contains c.toNat
  /-- A word goes on from the place. -/
  wordAfter : Bool := text[place]?.any fun c => wordSet.contains c.toNat

/-! ## Section 2: Matching -/

/-- The places of a text, each marked or not. -/
abbrev Places := Array Bool

/-- The places that are marked in either. -/
def Places.union (a b : Places) : Places := a.zipWith (· || ·) b

/-- Adds the places reached by `step` until nothing changes, at most `count` times. -/
def closure (step : Places → Places) : (count : Nat) → Places → Places
  | 0, places => places
  | count + 1, places =>
    let next := places.union (step places)
    if next == places then places else closure step count next

/-- Applies `step` a number of times. -/
def repeated (step : Places → Places) : (count : Nat) → Places → Places
  | 0, places => places
  | count + 1, places => repeated step count (step places)

/-- Applies `step` up to a number of times, and keeps every place reached. -/
def repeatedUpTo (step : Places → Places) : (count : Nat) → Places → Places
  | 0, places => places
  | count + 1, places =>
    let next := places.union (step places)
    if next == places then places else repeatedUpTo step count next

/-- The places at which a match from one of the given places can end. -/
def Expr.ends (text : Array Char) : Expr → Places → Places
  | .empty, places => places
  | .chars set, places =>
    Array.ofFn fun place : Fin (text.size + 1) =>
      place.val != 0 && places.getD (place.val - 1) false &&
        (text[place.val - 1]?).any fun c => set.contains c.toNat
  | .assertion condition wordSet, places =>
    places.mapIdx fun place marked => marked && condition.holds text wordSet place
  | .concat first second, places => second.ends text (first.ends text places)
  | .either first second, places => (first.ends text places).union (second.ends text places)
  | .repetition body least most, places =>
    let required := repeated (body.ends text) least places
    match most with
    | some most => repeatedUpTo (body.ends text) (most - least) required
    | none => closure (body.ends text) (text.size + 1) required

/-- Whether the expression matches some part of the text. -/
def Expr.matchesIn (e : Expr) (text : String) : Bool :=
  let chars := text.toList.toArray
  (e.ends chars (Array.replicate (chars.size + 1) true)).any id

end SelfCapture.Pattern
