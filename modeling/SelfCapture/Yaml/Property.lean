import SelfCapture.Text.Hex
import SelfCapture.Yaml.Cursor
import SelfCapture.Yaml.Token

/-! # Anchors, tags and directives of YAML -/

namespace SelfCapture.Yaml

/-! ## Section 1: Anchors -/

/-- Whether a character may follow the name of an anchor. -/
def endsAnchor (c : Char) : Bool :=
  isSpace c || c == '?' || c == ':' || c == ',' || c == ']' || c == '\x7d' || c == '%' ||
    c == '@' || c == Char.ofNat 0x60

/-- Reads the name of an anchor or alias after its indicator. -/
def readAnchorName : Scan String := do
  skip 1
  let name ← takeWhile isNameChar
  guard (!name.isEmpty && (← peek).all endsAnchor)
  return String.ofList name

/-! ## Section 2: Tags -/

/-- Whether a character may stand in a tag; inside `<` and `>`, and in
    directives, some more may. -/
def isTagChar (verbatim : Bool) (c : Char) : Bool :=
  isNameChar c || ";/?:@&=+$.%!~*'()".toList.contains c ||
    (verbatim && (c == ',' || c == '[' || c == ']'))

/-- How many bytes a character takes whose encoding starts with a byte. -/
def encodedWidth? (byte : Nat) : Option Nat :=
  if byte < 0x80 then some 1
  else if byte / 0x20 == 6 then some 2
  else if byte / 0x10 == 14 then some 3
  else if byte / 0x08 == 30 then some 4
  else none

/-- Reads one byte written as a percent sign and two digits. -/
def readEncodedByte : Scan Nat := do
  let digits := ((← get).rest.drop 1).take 2
  guard ((← sees '%') && digits.length == 2)
  let some byte := Text.hexNumber? digits | failure
  skip 3
  return byte

/-- Reads a character whose bytes are written with percent signs. -/
def readEncodedChar : Scan (List Char) := do
  let first ← readEncodedByte
  let some width := encodedWidth? first | failure
  let others ← (List.range (width - 1)).mapM fun _ => do
    let byte ← readEncodedByte
    guard (byte / 0x40 == 2)
    return byte
  let bytes := ByteArray.mk ((first :: others).map Nat.toUInt8).toArray
  let some text := String.fromUTF8? bytes | failure
  return text.toList

/-- Reads the characters of a tag. -/
def readTagChars (verbatim : Bool) : Scan (List Char) :=
  repeating (fun taken => do
    match ← peek with
    | some '%' => return .inl (taken ++ (← readEncodedChar))
    | some c =>
      if isTagChar verbatim c then
        skip 1
        return .inl (taken ++ [c])
      return .inr taken
    | none => return .inr taken) []

/-- Reads an exclamation mark with the name after it, and one more mark if there is one. -/
def readHandle : Scan (List Char) := do
  guard (← sees '!')
  skip 1
  let name ← takeWhile isNameChar
  if ← sees '!' then
    skip 1
    return '!' :: name ++ ['!']
  return '!' :: name

/-- Reads a tag. -/
def readTag (inFlow : Bool) : Scan Token := do
  let token ←
    if (← ahead 1) == some '<' then do
      skip 2
      let text ← readTagChars true
      guard (!text.isEmpty && (← sees '>'))
      skip 1
      pure (Token.tag "" (String.ofList text))
    else do
      let handle ← readHandle
      if handle.length > 1 && handle.getLast? == some '!' then do
        let rest ← readTagChars false
        guard !rest.isEmpty
        pure (Token.tag (String.ofList handle) (String.ofList rest))
      else do
        let rest := handle.drop 1 ++ (← readTagChars false)
        pure (if rest.isEmpty then Token.tag "" "!" else Token.tag "!" (String.ofList rest))
  guard ((← seesSpaceAt 0) || (inFlow && (← sees ',')))
  return token

/-! ## Section 3: Directives -/

/-- Reads a number of nine digits at most. -/
def readVersionNumber : Scan Nat := do
  let digits ← takeWhile Char.isDigit
  guard (!digits.isEmpty && digits.length ≤ 9)
  return digits.foldl (fun value c => value * 10 + (c.toNat - '0'.toNat)) 0

/-- Reads the value of a version directive. -/
def readVersion : Scan Token := do
  skipWhile isBlank
  let major ← readVersionNumber
  guard (← sees '.')
  skip 1
  return .versionDirective major (← readVersionNumber)

/-- Reads the value of a tag directive. -/
def readTagDirective : Scan Token := do
  skipWhile isBlank
  let handle ← readHandle
  guard (handle == ['!'] || handle.getLast? == some '!')
  guard ((← peek).any isBlank)
  skipWhile isBlank
  let expansion ← readTagChars true
  guard (!expansion.isEmpty && (← seesSpaceAt 0))
  return .tagDirective (String.ofList handle) (String.ofList expansion)

/-- Reads a directive with the line it stands on. -/
def readDirective : Scan Token := do
  skip 1
  let name ← takeWhile isNameChar
  guard (← seesSpaceAt 0)
  let token ← match String.ofList name with
    | "YAML" => readVersion
    | "TAG" => readTagDirective
    | _ => failure
  finishLine
  return token

end SelfCapture.Yaml
