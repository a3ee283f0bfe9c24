import SelfCapture.Json.Basic
import SelfCapture.Text.Hex

/-! # Reading JSON

  `Json.parse?` reads a whole text as one JSON value.  Values may be nested
  up to a given depth; a number must not exceed the range of double
  precision; a string must not hold control characters or half of a
  surrogate pair.

  Each reader takes the text at hand and yields what it read together with
  the text after it.
-/

namespace SelfCapture.Json

/-! ## Section 1: Blanks and numbers -/

/-- White space between values. -/
def isGap (c : Char) : Bool := c == ' ' || c == '\t' || c == '\n' || c == '\r'

/-- The text after leading white space. -/
def skipGap (text : List Char) : List Char := text.dropWhile isGap

/-- The value of decimal digits. -/
def digitsValue (digits : List Char) : Nat :=
  digits.foldl (fun value c => value * 10 + (c.toNat - '0'.toNat)) 0

/-- Whether `digits` times ten to the power `exponent` stays within the
    range of double precision. -/
def inRange (digits : List Char) (exponent : Int) : Bool :=
  let significant := digits.dropWhile (· == '0')
  if significant.isEmpty then true
  else if (significant.length : Int) + exponent > 310 then false
  else if (significant.length : Int) + exponent < 300 then true
  else
    let value := digitsValue significant
    let bound := Nat.pow 2 1024 - Nat.pow 2 970
    if 0 ≤ exponent then value * Nat.pow 10 exponent.toNat < bound
    else value < bound * Nat.pow 10 (-exponent).toNat

/-- The whole part of a number: a zero alone, or digits that do not start with one. -/
def wholePart : List Char → Option (List Char × List Char)
  | '0' :: rest =>
    if rest.head?.any Char.isDigit then none else some (['0'], rest)
  | text =>
    let digits := text.takeWhile Char.isDigit
    if digits.isEmpty then none else some (digits, text.dropWhile Char.isDigit)

/-- The digits after a decimal point, if there is one. -/
def fractionPart : List Char → Option (List Char × List Char)
  | '.' :: rest =>
    let digits := rest.takeWhile Char.isDigit
    if digits.isEmpty then none else some (digits, rest.dropWhile Char.isDigit)
  | text => some ([], text)

/-- The exponent, if there is one. -/
def exponentPart (text : List Char) : Option (Option Int × List Char) :=
  match text with
  | c :: rest =>
    if c == 'e' || c == 'E' then
      let (negative, rest) :=
        match rest with
        | '+' :: rest => (false, rest)
        | '-' :: rest => (true, rest)
        | _ => (false, rest)
      let digits := rest.takeWhile Char.isDigit
      if digits.isEmpty then none
      else
        let value : Int := digitsValue digits
        some (some (if negative then -value else value), rest.dropWhile Char.isDigit)
    else
      some (none, text)
  | [] => some (none, text)

/-- A number. -/
def readNumber (text : List Char) : Option (Json × List Char) := do
  let unsigned := if text.head? == some '-' then text.drop 1 else text
  let (whole, rest) ← wholePart unsigned
  let (fraction, rest) ← fractionPart rest
  let (exponent, rest) ← exponentPart rest
  if inRange (whole ++ fraction) (exponent.getD 0 - fraction.length) then
    some (number (String.ofList (text.take (text.length - rest.length))), rest)
  else
    none

/-! ## Section 2: Strings -/

/-- Four hexadecimal digits. -/
def readUnit : List Char → Option (Nat × List Char)
  | a :: b :: c :: d :: rest => do
    let a ← Text.hexDigit? a
    let b ← Text.hexDigit? b
    let c ← Text.hexDigit? c
    let d ← Text.hexDigit? d
    some (((a * 16 + b) * 16 + c) * 16 + d, rest)
  | _ => none

/-- The character of a `\u` escape, which may need a second one. -/
def readEscapedUnit (text : List Char) : Option (Char × List Char) := do
  let (unit, rest) ← readUnit text
  if 0xDC00 ≤ unit && unit < 0xE000 then none
  else if 0xD800 ≤ unit && unit < 0xDC00 then
    match rest with
    | '\\' :: 'u' :: rest =>
      let (low, rest) ← readUnit rest
      if 0xDC00 ≤ low && low < 0xE000 then
        some (Char.ofNat (0x10000 + (unit - 0xD800) * 0x400 + (low - 0xDC00)), rest)
      else none
    | _ => none
  else some (Char.ofNat unit, rest)

/-- The character of an escape after its backslash. -/
def readEscape : List Char → Option (Char × List Char)
  | '"' :: rest => some ('"', rest)
  | '\\' :: rest => some ('\\', rest)
  | '/' :: rest => some ('/', rest)
  | 'b' :: rest => some ('\x08', rest)
  | 'f' :: rest => some ('\x0c', rest)
  | 'n' :: rest => some ('\n', rest)
  | 'r' :: rest => some ('\r', rest)
  | 't' :: rest => some ('\t', rest)
  | 'u' :: rest => readEscapedUnit rest
  | _ => none

/-- The rest of a string after its opening quote; `seen` holds what was
    read, last character first.  `count` bounds the characters left. -/
def readString : (count : Nat) → (seen : List Char) → List Char → Option (String × List Char)
  | 0, _, _ => none
  | _ + 1, _, [] => none
  | count + 1, seen, c :: rest =>
    if c == '"' then some (String.ofList seen.reverse, rest)
    else if c == '\\' then do
      let (escaped, rest) ← readEscape rest
      readString count (escaped :: seen) rest
    else if c.toNat < 0x20 then none
    else readString count (c :: seen) rest

/-! ## Section 3: Values -/

/-- The text after a given word. -/
def afterWord (word : String) (text : List Char) : Option (List Char) :=
  if word.toList.isPrefixOf text then some (text.drop word.length) else none

mutual

/-- A value, nested at most `depth` deep.  `count` bounds the characters left. -/
def readValue : (count depth : Nat) → List Char → Option (Json × List Char)
  | 0, _, _ => none
  | count + 1, depth, text =>
    match skipGap text with
    | [] => none
    | '"' :: rest => (readString (rest.length + 1) [] rest).map fun (s, rest) => (string s, rest)
    | '[' :: rest =>
      if depth ≤ 1 then none
      else
        match skipGap rest with
        | ']' :: rest => some (array [], rest)
        | rest => (readItems count (depth - 1) rest).map fun (items, rest) => (array items, rest)
    | '\x7b' :: rest =>
      if depth ≤ 1 then none
      else
        match skipGap rest with
        | '\x7d' :: rest => some (object [], rest)
        | rest =>
          (readMembers count (depth - 1) rest).map fun (members, rest) => (object members, rest)
    | 'n' :: rest => (afterWord "ull" rest).map (null, ·)
    | 't' :: rest => (afterWord "rue" rest).map (bool true, ·)
    | 'f' :: rest => (afterWord "alse" rest).map (bool false, ·)
    | rest => readNumber rest

/-- The items of an array, up to its closing bracket. -/
def readItems : (count depth : Nat) → List Char → Option (List Json × List Char)
  | 0, _, _ => none
  | count + 1, depth, text =>
    match readValue count depth text with
    | none => none
    | some (item, rest) =>
      match skipGap rest with
      | ']' :: rest => some ([item], rest)
      | ',' :: rest => (readItems count depth rest).map fun (items, rest) => (item :: items, rest)
      | _ => none

/-- The members of an object, up to its closing brace. -/
def readMembers : (count depth : Nat) → List Char → Option (List (String × Json) × List Char)
  | 0, _, _ => none
  | count + 1, depth, text =>
    match skipGap text with
    | '"' :: rest =>
      match readString (rest.length + 1) [] rest with
      | none => none
      | some (key, rest) =>
        match skipGap rest with
        | ':' :: rest =>
          match readValue count depth rest with
          | none => none
          | some (value, rest) =>
            match skipGap rest with
            | '\x7d' :: rest => some ([(key, value)], rest)
            | ',' :: rest =>
              (readMembers count depth rest).map fun (members, rest) =>
                ((key, value) :: members, rest)
            | _ => none
        | _ => none
    | _ => none

end

/-- How deeply arrays and objects may be nested, plus one. -/
def depthLimit : Nat := 128

/-- Reads a text that consists of one JSON value. -/
def parse? (text : String) : Option Json :=
  let chars := text.toList
  match readValue (2 * chars.length + 2) depthLimit chars with
  | some (value, rest) => if (skipGap rest).isEmpty then some value else none
  | none => none

end SelfCapture.Json
