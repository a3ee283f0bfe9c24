import SelfCapture.Text.CharClass

/-! # Linkage names

  A linkage name in readable form looks like

      s:Dispatch.DispatchQueue.async(execute: @escaping () -> ()) -> ()
      (extension in MyKit):Swift.Array.chunked<A>(by: (A) -> Swift.Bool) -> [[A]]

  `LinkageName.declaration?` makes of it the declaration of a function with
  the same parameters,

      func async(execute: @escaping () -> ()) -> () {}

  in which only the parameter list is meaningful.  The `>` of an arrow is
  not a closing bracket.
-/

namespace SelfCapture.LinkageName

/-- Longest linkage name, in bytes, that is looked at. -/
def maxLength : Nat := 16384

/-! ## Section 1: Groups -/

/-- Splits at the parenthesis that closes the last of `depth` open ones. -/
def closeGroup : (depth : Nat) → List Char → Option (List Char × List Char)
  | _, [] => none
  | depth, c :: rest =>
    if c == ')' then
      if depth ≤ 1 then some ([], rest)
      else (closeGroup (depth - 1) rest).map fun (inside, after) => (c :: inside, after)
    else
      let depth := if c == '(' then depth + 1 else depth
      (closeGroup depth rest).map fun (inside, after) => (c :: inside, after)

/-- Splits at the first parenthesis outside angle and square brackets, of
    which `depth` are open; `previous` is the character before. -/
def beforeParameters : (previous : Option Char) → (depth : Nat) → List Char →
    Option (List Char × List Char)
  | _, _, [] => none
  | previous, depth, c :: rest =>
    if c == '(' && depth == 0 then
      some ([], rest)
    else
      let next : Option Nat :=
        if c == '<' || c == '[' then some (depth + 1)
        else if c == ']' || (c == '>' && previous != some '-') then
          if depth = 0 then none else some (depth - 1)
        else some depth
      match next with
      | some depth =>
        (beforeParameters (some c) depth rest).map fun (name, after) => (c :: name, after)
      | none => none

/-- Without the context group that the name may start with, such as
    `(extension in Module):`. -/
def withoutContext : List Char → Option (List Char)
  | '(' :: rest =>
    match closeGroup 1 rest with
    | some (_, ':' :: after) => some after
    | some (_, after) => some after
    | none => none
  | text => some text

/-! ## Section 2: The function's name -/

/-- The part of a qualified name after its last dot outside brackets.  The
    name is given last character first, and what was passed is in `seen`. -/
def lastName : (reversed : List Char) → (depth : Nat) → (seen : List Char) → Option (List Char)
  | [], _, seen => some seen
  | c :: rest, depth, seen =>
    if c == '>' && rest.head? == some '-' then lastName rest depth (c :: seen)
    else if c == '>' || c == ']' || c == ')' then lastName rest (depth + 1) (c :: seen)
    else if c == '<' || c == '[' || c == '(' then
      if depth = 0 then none else lastName rest (depth - 1) (c :: seen)
    else if c == '.' && depth == 0 then some seen
    else lastName rest depth (c :: seen)

/-- Without white space at either end. -/
def trim (text : List Char) : List Char :=
  ((text.dropWhile Text.isBlank).reverse.dropWhile Text.isBlank).reverse

/-- The last of the words separated by spaces. -/
def lastWord (text : List Char) : List Char := (text.reverse.takeWhile (· != ' ')).reverse

/-- The name of a function without its qualifiers and the words before it. -/
def baseName? (qualified : List Char) : Option (List Char) :=
  (lastName qualified.reverse 0 []).map fun name => lastWord (trim name)

/-! ## Section 3: Parameters -/

/-- Splits at the commas outside brackets, of which `depth` are open. -/
def splitParameters : (previous : Option Char) → (depth : Nat) → List Char →
    Option (List (List Char))
  | _, depth, [] => if depth = 0 then some [[]] else none
  | previous, depth, c :: rest =>
    if c == ',' && depth == 0 then
      (splitParameters (some c) depth rest).map ([] :: ·)
    else
      let next : Option Nat :=
        if c == '(' || c == '[' || c == '<' then some (depth + 1)
        else if c == ')' || c == ']' || (c == '>' && previous != some '-') then
          if depth = 0 then none else some (depth - 1)
        else some depth
      match next with
      | some depth =>
        match splitParameters (some c) depth rest with
        | some (first :: others) => some ((c :: first) :: others)
        | _ => none
      | none => none

/-- Characters of a parameter label. -/
def isLabelChar (c : Char) : Bool := c.isAlphanum || c == '_'

/-- Whether the parameter is written `label: Type` rather than as a bare type. -/
def hasLabel (entry : List Char) : Bool :=
  match entry with
  | [] => false
  | c :: _ =>
    isLabelChar c && !c.isDigit &&
      ((entry.dropWhile isLabelChar).dropWhile Text.isBlank).head? == some ':'

/-- A parameter with a label; one without gets the label `_`. -/
def labelled (entry : List Char) : List Char :=
  if hasLabel entry then entry else ['_', ':', ' '] ++ entry

/-- The parameters of a declaration, each with a label. -/
def parameters? (text : List Char) : Option (List Char) :=
  if (trim text).isEmpty then some []
  else
    match splitParameters none 0 text with
    | none => none
    | some entries =>
      let entries := entries.map trim
      if entries.any (·.isEmpty) then none
      else some ([',', ' '].intercalate (entries.map labelled))

/-- Whether parentheses and square brackets are balanced, taken together. -/
def isBalanced : (depth : Nat) → List Char → Bool
  | depth, [] => depth == 0
  | depth, c :: rest =>
    if c == '(' || c == '[' then isBalanced (depth + 1) rest
    else if c == ')' || c == ']' then
      if depth = 0 then false else isBalanced (depth - 1) rest
    else isBalanced depth rest

/-! ## Section 4: Declarations -/

/-- The declaration of a function whose linkage name, without language mark
    and context, is given. -/
def declarationOf? (text : List Char) : Option (List Char) :=
  match beforeParameters none 0 text with
  | none => none
  | some (qualified, rest) =>
    match baseName? qualified with
    | none => none
    | some name =>
      if name.isEmpty then none
      else
        match closeGroup 1 rest with
        | none => none
        | some (inside, after) =>
          match parameters? inside with
          | none => none
          | some parameters =>
            let after := (after.reverse.dropWhile Text.isBlank).reverse
            if isBalanced 0 after then
              some ("func ".toList ++ name ++ ['('] ++ parameters ++ [')'] ++ after ++
                " \x7b\x7d".toList)
            else
              none

/-- Without the mark of the declaring language; C symbols are refused. -/
def withoutLanguage : List Char → Option (List Char)
  | 'c' :: ':' :: _ => none
  | 's' :: ':' :: rest => some rest
  | text => some text

/-- The declaration of the function with a linkage name. -/
def declaration? (name : String) : Option String :=
  if maxLength < name.utf8ByteSize then none
  else
    match withoutLanguage (trim name.toList) with
    | none => none
    | some text =>
      match withoutContext text with
      | none => none
      | some text => (declarationOf? text).map String.ofList

end SelfCapture.LinkageName
