import SelfCapture.Proofs.Grammar.FunctionReading
import SelfCapture.Proofs.Grammar.NameReading

/-! # Function declarations as they are written

  `DeclarationSyntax` is a whole function declaration with an empty body,
  `func name<T, U>(label name: A, name: B) -> R { }`.  Its name is an
  identifier or an operator, and all types are identifiers.

  An operator is a run of characters, which need not be one token: angle
  brackets are tokens of their own, so `>>=` is three of them and `<=>` is
  two.  `operatorWords` are the tokens of a run; together they have all its
  characters, `flatMap_operatorWords`.  The words of a declaration are
  legible, `DeclarationSyntax.legible_words`.
-/

namespace SelfCapture

open Token (Kind Name Word spellOut Legible isNameChar isOperatorPart isOperatorChar isOperatorHead
  operatorKind)

/-! ## Section 1: Identifiers -/

/-- An identifier as it is written. -/
inductive IdentifierSyntax where
  /-- A name that is not reserved. -/
  | plain (name : Name) (free : name.kind = .identifier)
  /-- Anything between backticks. -/
  | escaped (chars : List Char) (some_of : chars ≠ [])
      (valid : chars.all Token.isEscapable = true)

namespace IdentifierSyntax

def chars : IdentifierSyntax → List Char
  | plain name _ => name.chars
  | escaped chars _ _ => '`' :: (chars ++ ['`'])

def text (identifier : IdentifierSyntax) : String := String.ofList identifier.chars

def word (identifier : IdentifierSyntax) (blank : Bool) : Word :=
  ⟨.identifier, identifier.chars, blank⟩

def words (identifier : IdentifierSyntax) (blank : Bool) : List Word := [identifier.word blank]

variable {ws : List Word} {rest : List Char}

theorem valid_word (identifier : IdentifierSyntax) (blank : Bool) :
    (identifier.word blank).Valid := by
  cases identifier with
  | plain name free =>
    have hvalid := Word.Valid.name name blank
    rw [free] at hvalid
    exact hvalid
  | escaped chars some_of valid => exact .escaped some_of valid blank

/-- An identifier before a character that does not go on with a name. -/
theorem legible_word (identifier : IdentifierSyntax) (blank : Bool)
    (hhead : (spellOut ws rest).head?.any isNameChar = false) (hws : Legible ws rest) :
    Legible (identifier.word blank :: ws) rest :=
  ⟨identifier.valid_word blank, hhead, hws⟩

/-- No operator goes on with an identifier. -/
theorem head_word (identifier : IdentifierSyntax) (ws : List Word) (rest : List Char) :
    ∃ c, (spellOut (identifier.word false :: ws) rest).head? = some c ∧
      isOperatorPart c = false := by
  cases identifier with
  | plain name free =>
    obtain ⟨c, hhead, hc, -⟩ := TypeSyntax.head_name name false ws rest
    exact ⟨c, hhead, hc⟩
  | escaped chars some_of valid => exact ⟨'`', rfl, rfl⟩

end IdentifierSyntax

/-! ## Section 2: Operators -/

/-- Characters of the names of operators. -/
def isOperatorNameChar (c : Char) : Bool :=
  ['=', '<', '>', '+', '*', '%', '&', '|', '^', '~'].contains c

theorem of_isOperatorNameChar {c : Char} (h : isOperatorNameChar c = true) :
    c = '>' ∨ isOperatorHead c = true := by
  simp only [isOperatorNameChar, List.contains_eq_mem, decide_eq_true_eq] at h
  have hall : ∀ d ∈ ['=', '<', '>', '+', '*', '%', '&', '|', '^', '~'],
      d = '>' ∨ isOperatorHead d = true := by simp [isOperatorHead, isOperatorChar, isOperatorPart]
  exact hall c h

/-- Such a character that does not go on with a token starts one. -/
theorem not_isOperatorPart {c : Char} (h : isOperatorNameChar c = true)
    (hpart : isOperatorChar c = false) : isOperatorPart c = false := by
  simp only [isOperatorNameChar, List.contains_eq_mem, decide_eq_true_eq] at h
  have hall : ∀ d ∈ ['=', '<', '>', '+', '*', '%', '&', '|', '^', '~'],
      isOperatorChar d = false → isOperatorPart d = false := by simp [isOperatorChar, isOperatorPart]
  exact hall c h hpart

/-- The tokens of a run of operator characters. -/
def operatorWords (blank : Bool) : List Char → List Word
  | [] => []
  | '>' :: chars => ⟨.greaterThan, ['>'], blank⟩ :: operatorWords false chars
  | c :: chars =>
    ⟨operatorKind c (chars.takeWhile isOperatorChar), c :: chars.takeWhile isOperatorChar, blank⟩ ::
      operatorWords false (chars.dropWhile isOperatorChar)
termination_by chars => chars.length
decreasing_by
  · simp
  · have hle := (List.dropWhile_suffix isOperatorChar (l := chars)).length_le
    simp only [List.length_cons]
    omega

/-- The tokens of a run are its characters. -/
theorem flatMap_operatorWords (blank : Bool) (chars : List Char) :
    (operatorWords blank chars).flatMap (·.chars) = chars := by
  fun_induction operatorWords blank chars with
  | case1 => rfl
  | case2 blank chars ih => rw [List.flatMap_cons, ih, List.singleton_append]
  | case3 blank c chars hc ih =>
    rw [List.flatMap_cons, ih, List.cons_append, List.takeWhile_append_dropWhile]

/-- A token that goes on with the name of an operator. -/
def continuesOperator (word : Word) : Prop :=
  Grammar.inOperatorName word.kind = true ∧ word.chars ≠ []

theorem inOperatorName_operatorKind (c : Char) (part : List Char) :
    Grammar.inOperatorName (operatorKind c part) = true := by
  unfold operatorKind
  split
  · split <;> rfl
  · rfl

/-- All tokens of a run go on with the name, and only the first one can have
    a blank before it. -/
theorem mem_operatorWords {blank : Bool} {chars : List Char} {word : Word}
    (h : word ∈ operatorWords blank chars) :
    continuesOperator word ∧ (word.blank = true → blank = true) := by
  fun_induction operatorWords blank chars with
  | case1 => cases h
  | case2 blank chars ih =>
    rcases List.mem_cons.mp h with rfl | h
    · exact ⟨⟨rfl, List.cons_ne_nil _ _⟩, id⟩
    · exact ⟨(ih h).1, fun hword => absurd ((ih h).2 hword) Bool.false_ne_true⟩
  | case3 blank c chars hc ih =>
    rcases List.mem_cons.mp h with rfl | h
    · exact ⟨⟨inOperatorName_operatorKind .., List.cons_ne_nil _ _⟩, id⟩
    · exact ⟨(ih h).1, fun hword => absurd ((ih h).2 hword) Bool.false_ne_true⟩

/-- The first token of a run, which may have a blank before it, and the others. -/
theorem exists_operatorWords {chars : List Char} (hne : chars ≠ []) (blank : Bool) :
    ∃ first row, operatorWords blank chars = first :: row ∧ continuesOperator first ∧
      (∀ word ∈ row, continuesOperator word ∧ word.blank = false) ∧
      first.chars ++ row.flatMap (·.chars) = chars := by
  have hothers {chars : List Char} : ∀ word ∈ operatorWords false chars,
      continuesOperator word ∧ word.blank = false := by
    intro word hmem
    obtain ⟨hword, hblank⟩ := mem_operatorWords hmem
    exact ⟨hword, eq_false_of_ne_true fun htrue => absurd (hblank htrue) Bool.false_ne_true⟩
  have hall := flatMap_operatorWords blank chars
  cases hwords : operatorWords blank chars with
  | nil =>
    rw [hwords] at hall
    exact absurd hall.symm hne
  | cons first row =>
    rw [hwords, List.flatMap_cons] at hall
    refine ⟨first, row, rfl, (mem_operatorWords (hwords ▸ List.mem_cons_self)).1, ?_, hall⟩
    -- What comes after the first token is a run without a blank.
    revert hwords
    fun_cases operatorWords blank chars with
    | case1 => rintro ⟨⟩
    | case2 chars =>
      rintro ⟨⟩
      exact hothers
    | case3 c chars hc =>
      rintro ⟨⟩
      exact hothers

/-- A run starts with its blank or with its first character. -/
theorem head_operatorWords (blank : Bool) (c : Char) (chars : List Char) (ws : List Word)
    (rest : List Char) :
    (spellOut (operatorWords blank (c :: chars) ++ ws) rest).head? =
      some (if blank then ' ' else c) := by
  by_cases hc : c = '>'
  · subst hc
    rw [operatorWords]
    cases blank <;> rfl
  · rw [operatorWords]
    · cases blank <;> rfl
    · exact hc

/-- A run is legible before a character that does not go on with it. -/
theorem legible_operatorWords {ws : List Word} {rest : List Char} (blank : Bool) {chars : List Char}
    (hchars : chars.all isOperatorNameChar = true)
    (hhead : (spellOut ws rest).head?.any isOperatorPart = false) (hws : Legible ws rest) :
    Legible (operatorWords blank chars ++ ws) rest := by
  fun_induction operatorWords blank chars with
  | case1 => exact hws
  | case2 blank chars ih =>
    rw [List.all_cons, Bool.and_eq_true] at hchars
    exact TypeSyntax.legible_punctuation (by rfl) (ih hchars.2)
  | case3 blank c chars hc ih =>
    rw [List.all_cons, Bool.and_eq_true] at hchars
    have hothers : (chars.dropWhile isOperatorChar).all isOperatorNameChar = true := by
      rw [List.all_eq_true] at hchars ⊢
      intro d hmem
      exact hchars.2 d ((List.dropWhile_suffix _).mem hmem)
    have hvalid : Word.Valid ⟨operatorKind c (chars.takeWhile isOperatorChar),
        c :: chars.takeWhile isOperatorChar, blank⟩ := by
      refine .operator ((of_isOperatorNameChar hchars.1).resolve_left hc) ?_ blank
      exact List.all_takeWhile
    refine ⟨hvalid, ?_, ih hothers⟩
    rw [Token.goesOn_operatorKind]
    -- What comes next is another token of the run, or what follows the run.
    cases hdrop : chars.dropWhile isOperatorChar with
    | nil => simpa [operatorWords] using hhead
    | cons d others =>
      show (spellOut (operatorWords false (d :: others) ++ ws) rest).head?.any isOperatorPart = false
      rw [head_operatorWords]
      rw [hdrop, List.all_cons, Bool.and_eq_true] at hothers
      refine not_isOperatorPart hothers.1 ?_
      have hstop := List.head?_dropWhile_not isOperatorChar chars
      rw [hdrop] at hstop
      simpa using hstop

/-! ## Section 3: Declarations -/

/-- The name of a function. -/
inductive DeclaredName where
  | identifier (name : IdentifierSyntax)
  | operator (chars : List Char) (some_of : chars ≠ []) (valid : chars.all isOperatorNameChar = true)

/-- A parameter, `label name: Type` or `name: Type`. -/
structure PlainParameter where
  label : Option IdentifierSyntax
  name : IdentifierSyntax
  type : IdentifierSyntax

/-- A function declaration with an empty body.  Without generic parameters
    there are no angle brackets, and without a result there is no arrow. -/
structure DeclarationSyntax where
  name : DeclaredName
  generics : List IdentifierSyntax
  parameters : List PlainParameter
  result : Option IdentifierSyntax

namespace DeclaredName

def text : DeclaredName → String
  | identifier name => name.text
  | operator chars _ _ => String.ofList chars

/-- The kind of the name's node. -/
def kind : DeclaredName → Kind
  | identifier _ => .identifier
  | operator .. => .operator

def words : DeclaredName → List Word
  | identifier name => name.words true
  | operator chars _ _ => operatorWords true chars

end DeclaredName

namespace PlainParameter

/-- The names of the parameter as they are written. -/
def nameWords (parameter : PlainParameter) (blank : Bool) : List Word :=
  match parameter.label with
  | none => [parameter.name.word blank]
  | some label => [label.word blank, parameter.name.word true]

def words (parameter : PlainParameter) (blank : Bool) : List Word :=
  parameter.nameWords blank ++ [⟨.colon, [':'], false⟩, parameter.type.word true]

end PlainParameter

namespace DeclarationSyntax

/-- The generic parameters between angle brackets. -/
def genericWords (generics : List IdentifierSyntax) : List Word :=
  TypeSyntax.angled (Grammar.commaWords IdentifierSyntax.words generics false)

/-- The arrow and the type after it. -/
def resultWords : Option IdentifierSyntax → List Word
  | none => []
  | some type => [⟨.arrow, ['-', '>'], true⟩, type.word true]

/-- The words from the parameters on. -/
def tailWords (d : DeclarationSyntax) : List Word :=
  ⟨.openParen, ['('], false⟩ :: (Grammar.commaWords PlainParameter.words d.parameters false ++
    ⟨.closeParen, [')'], false⟩ :: (resultWords d.result ++
      [⟨.openBrace, ['\x7b'], true⟩, ⟨.closeBrace, ['\x7d'], true⟩]))

def words (d : DeclarationSyntax) : List Word :=
  FunctionSyntax.keyword.word false :: (d.name.words ++ (genericWords d.generics ++ d.tailWords))

def text (d : DeclarationSyntax) : String := String.ofList (spellOut d.words [])

example :
    let identifier (chars : List Char) (h : Token.isNameText chars = true)
        (free : Name.kind ⟨chars, h⟩ = .identifier) : IdentifierSyntax := .plain ⟨chars, h⟩ free
    let a := identifier ['a'] rfl rfl
    let b := identifier ['b'] rfl rfl
    let type := identifier ['T'] rfl rfl
    text ⟨.operator ['>', '>', '='] nofun rfl, [type, a], [⟨some a, b, type⟩, ⟨none, b, a⟩],
        some type⟩ =
      "func >>=<T, a>(a b: T, b: a) -> T \x7b \x7d" := by decide +kernel

end DeclarationSyntax

/-! ## Section 4: Legibility -/

section legibility

variable {ws : List Word} {rest : List Char}

theorem PlainParameter.legible_words (parameter : PlainParameter) (blank : Bool)
    (hws : Legible ws rest) (hsoft : (spellOut ws rest).head?.all TypeSyntax.isSoft = true) :
    Legible (parameter.words blank ++ ws) rest := by
  have htype : Legible (⟨.colon, [':'], false⟩ :: parameter.type.word true :: ws) rest := by
    refine TypeSyntax.legible_punctuation (by rfl) ?_
    exact parameter.type.legible_word true (TypeSyntax.not_any_of_soft hsoft).1 hws
  unfold words nameWords
  cases parameter.label with
  | none => exact parameter.name.legible_word blank (by rfl) htype
  | some label =>
    exact label.legible_word blank (by rfl) (parameter.name.legible_word true (by rfl) htype)

namespace DeclarationSyntax

variable (d : DeclarationSyntax)

theorem legible_tailWords : Legible d.tailWords [] := by
  have hbody : Legible [⟨.openBrace, ['\x7b'], true⟩, ⟨.closeBrace, ['\x7d'], true⟩] [] :=
    TypeSyntax.legible_punctuation (by rfl) (TypeSyntax.legible_punctuation (by rfl) trivial)
  have hresult : Legible (resultWords d.result ++
      [⟨.openBrace, ['\x7b'], true⟩, ⟨.closeBrace, ['\x7d'], true⟩]) [] := by
    cases d.result with
    | none => exact hbody
    | some type =>
      refine TypeSyntax.legible_solid (.symbol (by decide) true) rfl ?_
      exact type.legible_word true (by rfl) hbody
  refine TypeSyntax.legible_punctuation (by rfl) ?_
  refine Grammar.legible_commaWords (fun p _ blank _ => p.legible_words blank) ?_ (by rfl)
  exact TypeSyntax.legible_punctuation (by rfl) hresult

/-- Neither a name nor an operator goes on with what follows the name. -/
theorem legible_genericWords : Legible (genericWords d.generics ++ d.tailWords) [] ∧
    (spellOut (genericWords d.generics ++ d.tailWords) []).head?.any isNameChar = false ∧
    (spellOut (genericWords d.generics ++ d.tailWords) []).head?.any isOperatorPart = false := by
  have htail := d.legible_tailWords
  cases d.generics with
  | nil => exact ⟨htail, rfl, rfl⟩
  | cons generic generics =>
    have hclose : Legible (⟨.greaterThan, ['>'], false⟩ :: d.tailWords) [] :=
      TypeSyntax.legible_punctuation (by rfl) htail
    have hlist : Legible (Grammar.commaWords IdentifierSyntax.words (generic :: generics) false ++
        ⟨.greaterThan, ['>'], false⟩ :: d.tailWords) [] := by
      refine Grammar.legible_commaWords (fun generic _ blank ws hws hsoft => ?_) hclose (by rfl)
      exact generic.legible_word blank (TypeSyntax.not_any_of_soft hsoft).1 hws
    rw [Grammar.commaWords_cons] at hlist
    rw [genericWords, Grammar.commaWords_cons]
    obtain ⟨c, hhead, hc⟩ := generic.head_word (Grammar.commaTail IdentifierSyntax.words generics ++
      ⟨.greaterThan, ['>'], false⟩ :: d.tailWords) []
    refine ⟨?_, rfl, rfl⟩
    simp only [IdentifierSyntax.words, TypeSyntax.angled, List.cons_append, List.nil_append,
      List.append_assoc] at hlist ⊢
    exact TypeSyntax.legible_cons (.symbol (by decide) false) hhead hc hlist

theorem legible_words : Legible d.words [] := by
  obtain ⟨hgeneric, hname, hoperator⟩ := d.legible_genericWords
  unfold words
  cases d.name with
  | identifier name =>
    exact TypeSyntax.legible_name FunctionSyntax.keyword false (by rfl)
      (name.legible_word true hname hgeneric)
  | operator chars some_of valid =>
    refine TypeSyntax.legible_name FunctionSyntax.keyword false ?_
      (legible_operatorWords true valid hoperator hgeneric)
    obtain ⟨c, others, rfl⟩ := List.exists_cons_of_ne_nil some_of
    show (spellOut (operatorWords true (c :: others) ++ _) []).head?.any isNameChar = false
    rw [head_operatorWords]
    rfl

end DeclarationSyntax

end legibility

end SelfCapture
