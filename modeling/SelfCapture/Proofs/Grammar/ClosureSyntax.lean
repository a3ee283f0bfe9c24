import SelfCapture.Proofs.Grammar.NameReading

/-! # Closure signatures as they are written

  `SignatureSyntax` is the part of a closure before its statements: the
  items of a capture list, each with its ownership specifier, and bare
  parameter names.  `SignatureSyntax.words` is how a call with such a
  closure after it is written, `f { [weak self, y = x] a, b in }`, and
  these words are legible, `SignatureSyntax.legible_words`.
-/

namespace SelfCapture

open Token (Kind Name Word spellOut Legible)

/-! ## Section 1: How a closure is written -/

/-- A name in a signature: `self`, or an identifier other than the words
    that specify ownership. -/
structure BindingName extends Name where
  value : Grammar.namesValue toName.kind = true
  free : toName.text ≠ "weak" ∧ toName.text ≠ "unowned"

/-- What can stand before a captured value. -/
inductive CaptureSpecifier where
  | plain
  /-- `weak` -/
  | weak
  /-- `unowned` -/
  | unowned
  /-- `unowned(safe)` -/
  | unownedSafe
  /-- `unowned(unsafe)` -/
  | unownedUnsafe
  deriving DecidableEq

/-- An item of a capture list, `value` or `binding = value`. -/
structure CaptureSyntax where
  specifier : CaptureSpecifier
  binding : Option BindingName
  value : BindingName

/-- The captures and parameters of a closure, of which there are some. -/
structure SignatureSyntax where
  captures : List CaptureSyntax
  parameters : List BindingName
  some_of : captures ≠ [] ∨ parameters ≠ []

namespace CaptureSpecifier

/-- What is said about the captured value. -/
def ownership : CaptureSpecifier → Ownership
  | .plain => .strong
  | .weak => .weak
  | .unowned | .unownedSafe | .unownedUnsafe => .unowned

def weakName : Name := ⟨"weak".toList, by decide⟩
def unownedName : Name := ⟨"unowned".toList, by decide⟩
def safeName : Name := ⟨"safe".toList, by decide⟩
def unsafeName : Name := ⟨"unsafe".toList, by decide⟩

def keyword : CaptureSpecifier → Option Name
  | .plain => none
  | .weak => some weakName
  | .unowned | .unownedSafe | .unownedUnsafe => some unownedName

def detail : CaptureSpecifier → Option Name
  | .plain | .weak | .unowned => none
  | .unownedSafe => some safeName
  | .unownedUnsafe => some unsafeName

/-- The detail between parentheses, right after the keyword. -/
def detailWords (specifier : CaptureSpecifier) : List Word :=
  match specifier.detail with
  | none => []
  | some name => [⟨.openParen, ['('], false⟩, name.word false, ⟨.closeParen, [')'], false⟩]

end CaptureSpecifier

namespace CaptureSyntax

/-- The value, with its binding before it. -/
def bindingWords (item : CaptureSyntax) (blank : Bool) : List Word :=
  match item.binding with
  | none => [item.value.word blank]
  | some name => [name.word blank, ⟨.equals, ['='], true⟩, item.value.word true]

def words (item : CaptureSyntax) (blank : Bool) : List Word :=
  match item.specifier.keyword with
  | none => item.bindingWords blank
  | some keyword => keyword.word blank :: (item.specifier.detailWords ++ item.bindingWords true)

/-- The item captures the enclosing instance without keeping it alive. -/
def capturesSelfWeakly (item : CaptureSyntax) : Prop :=
  item.specifier ≠ .plain ∧ item.value.text = "self"

end CaptureSyntax

def BindingName.words (name : BindingName) (blank : Bool) : List Word := [name.word blank]

namespace SignatureSyntax

def calleeName : Name := ⟨"f".toList, by decide⟩
def inName : Name := ⟨"in".toList, by decide⟩

/-- The captures between brackets; no brackets without a capture. -/
def captureWords : List CaptureSyntax → List Word
  | [] => []
  | captures => ⟨.openBracket, ['['], true⟩ ::
      (Grammar.commaWords CaptureSyntax.words captures false ++ [⟨.closeBracket, [']'], false⟩])

/-- The words of the signature, up to the `in`. -/
def inner (signature : SignatureSyntax) : List Word :=
  captureWords signature.captures ++
    (Grammar.commaWords BindingName.words signature.parameters true ++ [inName.word true])

def words (signature : SignatureSyntax) : List Word :=
  calleeName.word false :: ⟨.openBrace, ['\x7b'], true⟩ ::
    (signature.inner ++ [⟨.closeBrace, ['\x7d'], true⟩])

/-- The text of a call with the closure. -/
def text (signature : SignatureSyntax) : String := String.ofList (spellOut signature.words [])

example :
    let instanceName : BindingName := ⟨⟨"self".toList, by decide⟩, by decide +kernel, by decide⟩
    let name : BindingName := ⟨⟨"x".toList, by decide⟩, by decide +kernel, by decide⟩
    text ⟨[⟨.weak, none, instanceName⟩, ⟨.unownedSafe, some name, name⟩], [name, instanceName],
        .inl nofun⟩ =
      "f \x7b [weak self, unowned(safe) x = x] x, self in \x7d" := by decide

end SignatureSyntax

/-! ## Section 2: Legibility -/

section legibility

variable {ws : List Word} {rest : List Char}

theorem BindingName.legible_words (name : BindingName) (blank : Bool) (hws : Legible ws rest)
    (hsoft : (spellOut ws rest).head?.all TypeSyntax.isSoft = true) :
    Legible (name.words blank ++ ws) rest :=
  TypeSyntax.legible_name name.toName blank (TypeSyntax.not_any_of_soft hsoft).1 hws

namespace CaptureSyntax

variable (item : CaptureSyntax)

theorem legible_bindingWords (blank : Bool) (hws : Legible ws rest)
    (hsoft : (spellOut ws rest).head?.all TypeSyntax.isSoft = true) :
    Legible (item.bindingWords blank ++ ws) rest := by
  unfold bindingWords
  cases item.binding with
  | none => exact item.value.legible_words blank hws hsoft
  | some name =>
    have hequals : Word.Valid ⟨.equals, ['='], true⟩ :=
      @Word.Valid.operator '=' [] (by decide) (by decide) true
    refine TypeSyntax.legible_name name.toName blank (by rfl) ⟨hequals, by rfl, ?_⟩
    exact item.value.legible_words true hws hsoft

/-- After an ownership specifier there is a blank. -/
theorem spellOut_bindingWords :
    spellOut (item.bindingWords true ++ ws) rest =
      ' ' :: spellOut (item.bindingWords false ++ ws) rest := by
  unfold bindingWords
  cases item.binding <;> rfl

theorem legible_detailWords (specifier : CaptureSpecifier)
    (hws : Legible (item.bindingWords true ++ ws) rest) :
    Legible (specifier.detailWords ++ (item.bindingWords true ++ ws)) rest ∧
      (spellOut (specifier.detailWords ++ (item.bindingWords true ++ ws)) rest).head?.any
        Token.isNameChar = false := by
  unfold CaptureSpecifier.detailWords
  cases specifier.detail with
  | none =>
    refine ⟨hws, ?_⟩
    show (spellOut (item.bindingWords true ++ ws) rest).head?.any Token.isNameChar = false
    rw [item.spellOut_bindingWords]
    rfl
  | some name =>
    refine ⟨TypeSyntax.legible_punctuation (by rfl) ?_, by rfl⟩
    refine TypeSyntax.legible_name name false (by rfl) ?_
    exact TypeSyntax.legible_punctuation (by rfl) hws

theorem legible_words (blank : Bool) (hws : Legible ws rest)
    (hsoft : (spellOut ws rest).head?.all TypeSyntax.isSoft = true) :
    Legible (item.words blank ++ ws) rest := by
  unfold words
  cases item.specifier.keyword with
  | none => exact item.legible_bindingWords blank hws hsoft
  | some keyword =>
    obtain ⟨hdetail, hhead⟩ :=
      item.legible_detailWords item.specifier (item.legible_bindingWords true hws hsoft)
    rw [List.cons_append, List.append_assoc]
    exact TypeSyntax.legible_name keyword blank hhead hdetail

end CaptureSyntax

namespace SignatureSyntax

theorem legible_inner (signature : SignatureSyntax) (hws : Legible ws rest)
    (hsoft : (spellOut ws rest).head?.all TypeSyntax.isSoft = true) :
    Legible (signature.inner ++ ws) rest := by
  have hparameters : Legible (Grammar.commaWords BindingName.words signature.parameters true ++
      inName.word true :: ws) rest := by
    refine Grammar.legible_commaWords (fun name _ blank _ => name.legible_words blank) ?_ (by rfl)
    exact TypeSyntax.legible_name inName true (TypeSyntax.not_any_of_soft hsoft).1 hws
  unfold inner captureWords
  cases signature.captures with
  | nil =>
    rw [List.append_assoc, List.append_assoc]
    exact hparameters
  | cons item captures =>
    simp only [List.cons_append, List.append_assoc, List.nil_append]
    refine TypeSyntax.legible_punctuation (by rfl) ?_
    refine Grammar.legible_commaWords (fun item _ blank _ => item.legible_words blank) ?_ (by rfl)
    exact TypeSyntax.legible_punctuation (by rfl) hparameters

theorem legible_words (signature : SignatureSyntax) : Legible signature.words [] := by
  apply TypeSyntax.legible_name calleeName false (by rfl)
  apply TypeSyntax.legible_punctuation (by rfl)
  exact signature.legible_inner (TypeSyntax.legible_punctuation (by rfl) trivial) (by rfl)

end SignatureSyntax

end legibility

end SelfCapture
