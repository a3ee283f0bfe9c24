import SelfCapture.Pattern.CharSet
import SelfCapture.Text.Category
import SelfCapture.Text.Script

/-! # Properties in patterns

  A pattern can name a set of characters by a property, a general category
  or a script.  Case, spaces, hyphens, underscores and a leading `is` do
  not matter in a name.
-/

namespace SelfCapture.Pattern

/-! ## Section 1: Names -/

/-- The name without what does not matter in it. -/
def plainName (name : List Char) : String :=
  let isPrefixed := (name.take 2).map Char.toLower == ['i', 's']
  let rest := if isPrefixed then name.drop 2 else name
  let plain := (rest.filter fun c =>
    c != ' ' && c != '_' && c != '-' && c.toNat < 0x80).map Char.toLower
  if isPrefixed && plain == ['c'] then "isc" else String.ofList plain

/-! ## Section 2: Sets -/

/-- Properties that a character has or has not. -/
def binaryProperties : List (String × CharSet) := [
  ("alphabetic", .having Text.isAlphabetic), ("alpha", .having Text.isAlphabetic),
  ("uppercase", .having Text.isUpper), ("upper", .having Text.isUpper),
  ("lowercase", .having Text.isLower), ("lower", .having Text.isLower),
  ("whitespace", .blank), ("wspace", .blank), ("space", .blank)]

/-- General categories, and the sets that are named like them. -/
def generalCategories : List (String × CharSet) := [
  ("any", .all), ("ascii", .range 0 0x7F),
  ("l", .having Text.isLetter), ("letter", .having Text.isLetter),
  ("lu", .having Text.isUpperLetter), ("uppercaseletter", .having Text.isUpperLetter),
  ("ll", .having Text.isLowerLetter), ("lowercaseletter", .having Text.isLowerLetter),
  ("lt", .having Text.isTitleLetter), ("titlecaseletter", .having Text.isTitleLetter),
  ("lc", .having Text.isCasedLetter), ("casedletter", .having Text.isCasedLetter),
  ("lm", .having Text.isModifierLetter), ("modifierletter", .having Text.isModifierLetter),
  ("lo", .having Text.isOtherLetter), ("otherletter", .having Text.isOtherLetter),
  ("m", .having Text.isMark), ("mark", .having Text.isMark),
  ("combiningmark", .having Text.isMark),
  ("n", .having Text.isNumeric), ("number", .having Text.isNumeric),
  ("nd", .digit), ("decimalnumber", .digit), ("digit", .digit),
  ("nl", .having Text.isLetterNumber), ("letternumber", .having Text.isLetterNumber),
  ("no", .having Text.isOtherNumber), ("othernumber", .having Text.isOtherNumber),
  ("p", .having Text.isPunctuation), ("punctuation", .having Text.isPunctuation),
  ("punct", .having Text.isPunctuation),
  ("pc", .having Text.isConnector), ("connectorpunctuation", .having Text.isConnector),
  ("pd", .having Text.isDash), ("dashpunctuation", .having Text.isDash),
  ("s", .having Text.isSymbol), ("symbol", .having Text.isSymbol),
  ("sc", .having Text.isCurrency), ("currencysymbol", .having Text.isCurrency),
  ("sm", .having Text.isMath), ("mathsymbol", .having Text.isMath),
  ("z", .having Text.isSeparator), ("separator", .having Text.isSeparator),
  ("zs", .having Text.isSpace), ("spaceseparator", .having Text.isSpace),
  ("zl", .having Text.isLineSeparator), ("lineseparator", .having Text.isLineSeparator),
  ("zp", .having Text.isParagraphSeparator),
  ("paragraphseparator", .having Text.isParagraphSeparator),
  ("cc", .having Text.isControl), ("control", .having Text.isControl),
  ("cntrl", .having Text.isControl)]

/-- The characters of a script. -/
def script? (name : String) : Option CharSet :=
  (Text.scripts.lookup name).map fun ranges => .having fun c => Text.inRanges ranges c.toNat

/-- The set with a name: a property, a general category or a script. -/
def namedSet? (name : List Char) : Option CharSet :=
  let name := plainName name
  (binaryProperties.lookup name <|> generalCategories.lookup name) <|> script? name

/-- The set of the characters for which the property `name` has a value. -/
def valueSet? (name value : List Char) : Option CharSet :=
  match plainName name with
  | "gc" | "generalcategory" => generalCategories.lookup (plainName value)
  | "sc" | "script" => script? (plainName value)
  | _ => none

/-- Splits at the first occurrence of a character. -/
def splitAt? (mark : Char) (text : List Char) : Option (List Char × List Char) :=
  if text.contains mark then some (text.takeWhile (· != mark), (text.dropWhile (· != mark)).drop 1)
  else none

/-- The set that the text between the braces of a class stands for: a name,
    or a name and a value with a colon or an equals sign between them. -/
def propertySet? (text : List Char) : Option CharSet :=
  match splitAt? ':' text with
  | some (name, value) => valueSet? name value
  | none =>
    match splitAt? '=' text with
    | some (name, value) =>
      if name.getLast? == some '!' then (valueSet? name.dropLast value).map .compl
      else valueSet? name value
    | none => namedSet? text

end SelfCapture.Pattern
