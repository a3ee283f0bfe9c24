import SelfCapture.Check.Escaping
import SelfCapture.Proofs.Token.Spelling

/-! # Types as they are written

  `TypeSyntax` is the syntax of types, and `TypeSyntax.words` is how a type
  is written.  The attributes and the specifier of a type stand before all
  its marks, so `@escaping (() -> ())?` is an attributed type whose base is
  marked.

  - `TypeSyntax.readable` : the parts stand where they may, and no two `?`
    stand side by side, since these are one operator.
  - `TypeSyntax.nesting` : how many types are open at a time inside a type.
  - `TypeSyntax.tells` : what a type tells about a closure.

  A type that is readable is legible, `TypeSyntax.legible`.
-/

namespace SelfCapture

open Token (Kind Name Word)

/-! ## Section 1: Parts of types -/

/-- The mark after an optional type, `?`, or after one that is unwrapped implicitly, `!`. -/
inductive Mark where
  | optional
  | unwrapped
  deriving DecidableEq

/-- What can stand between the attributes and the type. -/
inductive Specifier where
  | inout
  | borrowing
  | consuming
  | owned
  | shared
  | sending
  | isolated
  deriving DecidableEq

/-- What can stand before the arrow of a function type. -/
inductive Effect where
  | async
  | reasync
  | throws
  | rethrows
  deriving DecidableEq

/-- The words before a constraint. -/
inductive Binder where
  | some
  | any
  deriving DecidableEq

def Mark.word : Mark → Word
  | .optional => ⟨.question, ['?'], false⟩
  | .unwrapped => ⟨.exclamation, ['!'], false⟩

def Specifier.name : Specifier → Name
  | .inout => ⟨"inout".toList, by decide +kernel⟩
  | .borrowing => ⟨"borrowing".toList, by decide +kernel⟩
  | .consuming => ⟨"consuming".toList, by decide +kernel⟩
  | .owned => ⟨"__owned".toList, by decide +kernel⟩
  | .shared => ⟨"__shared".toList, by decide +kernel⟩
  | .sending => ⟨"sending".toList, by decide +kernel⟩
  | .isolated => ⟨"isolated".toList, by decide +kernel⟩

def Effect.name : Effect → Name
  | .async => ⟨"async".toList, by decide +kernel⟩
  | .reasync => ⟨"reasync".toList, by decide +kernel⟩
  | .throws => ⟨"throws".toList, by decide +kernel⟩
  | .rethrows => ⟨"rethrows".toList, by decide +kernel⟩

def Binder.name : Binder → Name
  | .some => ⟨"some".toList, by decide +kernel⟩
  | .any => ⟨"any".toList, by decide +kernel⟩

theorem Binder.kind_name (binder : Binder) : binder.name.kind = .identifier := by
  cases binder <;> decide +kernel

/-- The word that a name is. -/
def Token.Name.word (name : Name) (blank : Bool) : Word := ⟨name.kind, name.chars, blank⟩

/-- The name of a type: a plain identifier, or `Self`. -/
structure TypeName extends Name where
  starts : toName.kind = .identifier ∨ toName.kind = .selfTypeKeyword

/-! ## Section 2: Types -/

/-- A type, or an element of a tuple type. -/
inductive TypeSyntax where
  /-- `Name<A, B>` -/
  | named (name : TypeName) (arguments : List TypeSyntax)
  /-- `T.Name<A, B>` -/
  | member (base : TypeSyntax) (name : Name) (arguments : List TypeSyntax)
  /-- `T?` or `T!` -/
  | marked (base : TypeSyntax) (mark : Mark)
  /-- `(A, B)`, also a type in parentheses. -/
  | tuple (elements : List TypeSyntax)
  /-- `(A, B) async throws -> R` -/
  | function (parameters : List TypeSyntax) (effects : List Effect) (result : TypeSyntax)
  /-- `[T]` -/
  | array (element : TypeSyntax)
  /-- `[K: V]` -/
  | dictionary (key value : TypeSyntax)
  /-- `some T` or `any T` -/
  | bound (binder : Binder) (base : TypeSyntax)
  /-- `A & B & C` -/
  | composed (first : TypeSyntax) (others : List TypeSyntax)
  /-- `@name @name inout T` -/
  | attributed (attributes : List Name) (specifier : Option Specifier) (base : TypeSyntax)
  /-- `label: T` or `label name: T`, an element only. -/
  | labelled (first : Name) (second : Option Name) (type : TypeSyntax)
  /-- `T...`, an element only. -/
  | variadic (type : TypeSyntax)

namespace TypeSyntax

/-! ## Section 3: How a type is written -/

/-- The attributes and the specifier before a type. -/
def prefixWords (blank : Bool) : List Name → Option Specifier → List Word
  | [], none => []
  | [], some specifier => [specifier.name.word blank]
  | name :: names, specifier =>
    ⟨.atSign, ['@'], blank⟩ :: name.word false :: prefixWords true names specifier

/-- Generic arguments between their brackets; no brackets without an argument. -/
def angled : List Word → List Word
  | [] => []
  | words => ⟨.lessThan, ['<'], false⟩ :: words ++ [⟨.greaterThan, ['>'], false⟩]

/-- What the label of an element is written as. -/
def labelWords (blank : Bool) (first : Name) (second : Option Name) : List Word :=
  first.word blank :: (second.map (·.word true)).toList ++ [⟨.colon, [':'], false⟩]

mutual

/-- The words of a type, the first of which may have a blank before it. -/
def words : TypeSyntax → (blank : Bool) → List Word
  | .named name arguments, blank => name.word blank :: angled (listWords arguments false)
  | .member base name arguments, blank =>
    base.words blank ++ ⟨.dot, ['.'], false⟩ :: name.word false :: angled (listWords arguments false)
  | .marked base mark, blank => base.words blank ++ [mark.word]
  | .tuple elements, blank =>
    ⟨.openParen, ['('], blank⟩ :: listWords elements false ++ [⟨.closeParen, [')'], false⟩]
  | .function parameters effects result, blank =>
    ⟨.openParen, ['('], blank⟩ :: listWords parameters false ++
      ⟨.closeParen, [')'], false⟩ :: effects.map (·.name.word true) ++
      ⟨.arrow, ['-', '>'], true⟩ :: result.words true
  | .array element, blank =>
    ⟨.openBracket, ['['], blank⟩ :: element.words false ++ [⟨.closeBracket, [']'], false⟩]
  | .dictionary key value, blank =>
    ⟨.openBracket, ['['], blank⟩ :: key.words false ++
      ⟨.colon, [':'], false⟩ :: value.words true ++ [⟨.closeBracket, [']'], false⟩]
  | .bound binder base, blank => binder.name.word blank :: base.words true
  | .composed first others, blank => first.words blank ++ othersWords others
  | .attributed attributes specifier base, blank =>
    prefixWords blank attributes specifier ++ base.words true
  | .labelled first second type, blank => labelWords blank first second ++ type.words true
  | .variadic type, blank => type.words blank ++ [⟨.operator, ['.', '.', '.'], false⟩]

/-- The words of types with commas between them. -/
def listWords : List TypeSyntax → (blank : Bool) → List Word
  | [], _ => []
  | [type], blank => type.words blank
  | type :: next :: types, blank =>
    type.words blank ++ ⟨.comma, [','], false⟩ :: listWords (next :: types) true

/-- The words of types with an ampersand before each. -/
def othersWords : List TypeSyntax → List Word
  | [] => []
  | type :: types => ⟨.ampersand, ['&'], true⟩ :: type.words true ++ othersWords types

end

/-! ## Section 4: Where the parts may stand -/

/-- Types that a mark or a member can follow. -/
def isPostfix : TypeSyntax → Bool
  | .named .. | .member .. | .marked .. | .tuple .. | .array .. | .dictionary .. => true
  | _ => false

/-- Types without attributes. -/
def isPlain : TypeSyntax → Bool
  | .attributed .. | .labelled .. | .variadic .. => false
  | _ => true

/-- Types, that is, no elements with a label or an ellipsis. -/
def isType : TypeSyntax → Bool
  | .labelled .. | .variadic .. => false
  | _ => true

/-- Elements without a label. -/
def isUnlabelled : TypeSyntax → Bool
  | .labelled .. => false
  | _ => true

/-- Types that end with their own `?`. -/
def endsOptional : TypeSyntax → Bool
  | .marked _ .optional => true
  | _ => false

mutual

/-- The parts stand where they may, and no two `?` stand side by side. -/
def readable : TypeSyntax → Bool
  | .named _ arguments => arguments.all isType && readableAll arguments
  | .member base _ arguments =>
    base.isPostfix && base.readable && arguments.all isType && readableAll arguments
  | .marked base mark =>
    base.isPostfix && base.readable && !(mark == .optional && base.endsOptional)
  | .tuple elements => readableAll elements
  | .function parameters _ result => readableAll parameters && result.isType && result.readable
  | .array element => element.isType && element.readable
  | .dictionary key value => key.isType && key.readable && value.isType && value.readable
  | .bound _ base => base.isPlain && base.readable
  | .composed first others =>
    first.isPostfix && first.readable && !others.isEmpty && others.all isPostfix &&
      readableAll others
  | .attributed attributes specifier base =>
    (!attributes.isEmpty || specifier.isSome) && base.isPlain && base.readable
  | .labelled _ _ type => type.isUnlabelled && type.readable
  | .variadic type => type.isType && type.readable

/-- All of the types are readable. -/
def readableAll : List TypeSyntax → Bool
  | [] => true
  | type :: types => type.readable && readableAll types

end

mutual

/-- How many types are open at a time inside a type, itself not counted. -/
def nesting : TypeSyntax → Nat
  | .named _ arguments => nestingAll arguments
  | .member base _ arguments => max base.nesting (nestingAll arguments)
  | .marked base _ => base.nesting
  | .tuple elements => nestingAll elements
  | .function parameters _ result => max (nestingAll parameters) (result.nesting + 1)
  | .array element => element.nesting + 1
  | .dictionary key value => max (key.nesting + 1) (value.nesting + 1)
  | .bound _ base => base.nesting
  | .composed first others => max first.nesting (nestingAll others - 1)
  | .attributed _ _ base => base.nesting
  | .labelled _ _ type => type.nesting
  | .variadic type => type.nesting

/-- How many types are open at a time in types inside another one. -/
def nestingAll : List TypeSyntax → Nat
  | [] => 0
  | type :: types => max (type.nesting + 1) (nestingAll types)

end

/-! ## Section 5: What a type tells about a closure -/

/-- The name of the attribute `@escaping`. -/
def escapingName : Name := ⟨"escaping".toList, by decide +kernel⟩

/-- Whether the name is that of the attribute `@escaping`. -/
def isEscapingName (name : Name) : Bool := name.text == "escaping"

/-- What a type tells about a closure passed to a parameter, given what the
    wrappings around it say. -/
def tells : TypeSyntax → ParameterType → (outermost : Bool) → ParameterType
  | .function .., type, _ => { type with isFunction := true }
  | .attributed attributes _ base, type, outermost =>
    base.tells
      { type with
        isEscaping := type.isEscaping || (outermost && attributes.any isEscapingName) }
      false
  | .marked base _, type, _ => base.tells { type with isOptional := true } false
  | .tuple [element], type, _ => element.tells type false
  | .variadic inner, type, _ => inner.tells type false
  | .named name [argument], type, _ =>
    if name.text == optionalTypeName then argument.tells { type with isOptional := true } false
    else type
  | .member _ name [argument], type, _ =>
    if name.text == optionalTypeName then argument.tells { type with isOptional := true } false
    else type
  | _, type, _ => type

/-! ## Section 6: Legibility -/

open Token (spellOut Legible isNameChar isOperatorPart)

variable {ws : List Word} {rest : List Char}

/-- Characters that no token but a dot goes on with. -/
def isSoft (c : Char) : Bool := !isNameChar c && !isOperatorPart c && c != '?'

/-- Whether the character can follow the type. -/
def admits (type : TypeSyntax) (c : Char) : Bool :=
  isSoft c || (c == '?' && type.isPostfix && !type.endsOptional)

theorem goesOn_soft {kind : Kind} {c : Char} (hkind : kind ≠ .dot) (hc : isSoft c = true) :
    kind.goesOn c = false := by
  simp only [isSoft, Bool.and_eq_true, Bool.not_eq_true', bne_iff_ne] at hc
  unfold Kind.goesOn
  split
  · simp [hc.2]
  · exact hc.1.2
  · exact hc.1.2
  · exact hc.1.2
  · exact hc.1.2
  · exact hc.1.2
  · exact absurd rfl hkind
  · simp [hc.1.1]

/-- A word before a character that it does not go on with. -/
theorem legible_cons {word : Word} {c : Char} (hvalid : word.Valid)
    (hhead : (spellOut ws rest).head? = some c) (hc : word.kind.goesOn c = false)
    (hws : Legible ws rest) : Legible (word :: ws) rest := by
  refine ⟨hvalid, ?_, hws⟩
  rw [hhead]
  exact hc

/-- A word that goes on with nothing. -/
theorem legible_solid {word : Word} (hvalid : word.Valid)
    (hsolid : word.kind.goesOn = fun _ => false) (hws : Legible ws rest) :
    Legible (word :: ws) rest := by
  refine ⟨hvalid, ?_, hws⟩
  rw [hsolid]
  cases (spellOut ws rest).head? <;> rfl

theorem legible_punctuation {c : Char} {kind : Kind} {blank : Bool}
    (h : Token.punctuation? c = some kind) (hws : Legible ws rest) :
    Legible (⟨kind, [c], blank⟩ :: ws) rest := by
  refine legible_solid (.punctuation h blank) ?_ hws
  revert h
  fun_cases Token.punctuation? c with
  | case13 =>
    intro h
    cases h
  | _ =>
    rintro ⟨⟩
    rfl

theorem head_prefixWords {names : List Name} {specifier : Option Specifier}
    (h : (!names.isEmpty || specifier.isSome) = true) :
    spellOut (prefixWords true names specifier ++ ws) rest =
      ' ' :: spellOut (prefixWords false names specifier ++ ws) rest := by
  cases names with
  | nil =>
    cases specifier with
    | none => cases h
    | some specifier => rfl
  | cons name names => rfl

/-- A blank before a type is written before its first word. -/
theorem spellOut_words_true (type : TypeSyntax) (ws : List Word) (h : type.readable = true) :
    spellOut (type.words true ++ ws) rest = ' ' :: spellOut (type.words false ++ ws) rest := by
  match type with
  | .named .. | .tuple .. | .function .. | .array .. | .dictionary .. | .bound .. | .labelled .. =>
    simp [words, labelWords, spellOut, Token.Name.word, Word.spelling]
  | .member base .. =>
    simp only [readable, Bool.and_eq_true] at h
    simp only [words, List.append_assoc]
    exact spellOut_words_true base _ h.1.1.2
  | .marked base _ =>
    simp only [readable, Bool.and_eq_true] at h
    simp only [words, List.append_assoc]
    exact spellOut_words_true base _ h.1.2
  | .composed first _ =>
    simp only [readable, Bool.and_eq_true] at h
    simp only [words, List.append_assoc]
    exact spellOut_words_true first _ h.1.1.1.2
  | .variadic inner =>
    simp only [readable, Bool.and_eq_true] at h
    simp only [words, List.append_assoc]
    exact spellOut_words_true inner _ h.2
  | .attributed names specifier base =>
    simp only [readable, Bool.and_eq_true] at h
    simp only [words, List.append_assoc]
    exact head_prefixWords h.1.1

/-- A name starts with a character that goes on with no operator and no dot. -/
theorem head_name (name : Name) (blank : Bool) (ws : List Word) (rest : List Char) :
    ∃ c, (spellOut (name.word blank :: ws) rest).head? = some c ∧ isOperatorPart c = false ∧
      c ≠ '.' := by
  obtain ⟨chars, hvalid⟩ := name
  cases chars with
  | nil => cases hvalid
  | cons c chars =>
    cases blank with
    | true => exact ⟨' ', rfl, by decide, by decide⟩
    | false =>
      refine ⟨c, rfl, ?_⟩
      rw [Token.isNameText, Bool.and_eq_true] at hvalid
      have hall : ∀ c : Char, c.toNat < 0x80 → Token.isNameHead c = true →
          isOperatorPart c = false ∧ c ≠ '.' := Text.forall_low (by decide +kernel)
      by_cases hlow : c.toNat < 0x80
      · exact hall c hlow hvalid.1
      · constructor
        · exact eq_false_of_ne_true fun hpart => hlow (Token.low_of_isOperatorPart hpart)
        · rintro rfl
          exact hlow (by decide)

/-- No type starts with a character of an operator. -/
theorem head_words (type : TypeSyntax) (ws : List Word) (h : type.readable = true) :
    (spellOut (type.words false ++ ws) rest).head?.any isOperatorPart = false := by
  have hname (name : Name) (ws : List Word) :
      (spellOut (name.word false :: ws) rest).head?.any isOperatorPart = false := by
    obtain ⟨c, hhead, hc, -⟩ := head_name name false ws rest
    rw [hhead]
    exact hc
  -- A type with something behind it starts as the type in front does; the walk ends at a name, an
  -- opening bracket or the sign of an attribute.
  match type with
  | .named .. | .bound .. | .labelled .. =>
    simp only [words, labelWords, List.cons_append]
    exact hname _ _
  | .tuple .. | .function .. | .array .. | .dictionary .. =>
    simp [words, spellOut, Word.spelling, isOperatorPart]
  | .member base .. =>
    simp only [readable, Bool.and_eq_true] at h
    simp only [words, List.append_assoc]
    exact head_words base _ h.1.1.2
  | .marked base _ =>
    simp only [readable, Bool.and_eq_true] at h
    simp only [words, List.append_assoc]
    exact head_words base _ h.1.2
  | .composed first _ =>
    simp only [readable, Bool.and_eq_true] at h
    simp only [words, List.append_assoc]
    exact head_words first _ h.1.1.1.2
  | .variadic inner =>
    simp only [readable, Bool.and_eq_true] at h
    simp only [words, List.append_assoc]
    exact head_words inner _ h.2
  | .attributed (name :: names) specifier base =>
    simp [words, prefixWords, spellOut, Word.spelling, isOperatorPart]
  | .attributed [] (some specifier) base =>
    simp only [words, prefixWords, List.cons_append]
    exact hname _ _
  | .attributed [] none base => simp [readable] at h

/-- A name before a character that does not go on with it. -/
theorem legible_name (name : Name) (blank : Bool)
    (hhead : (spellOut ws rest).head?.any isNameChar = false) (hws : Legible ws rest) :
    Legible (name.word blank :: ws) rest := by
  refine ⟨.name name blank, ?_, hws⟩
  rw [← hhead]
  congr 1
  funext c
  exact name.goesOn_kind c

/-- A soft character goes on with no name and no operator. -/
theorem not_any_of_soft (h : (spellOut ws rest).head?.all isSoft = true) :
    (spellOut ws rest).head?.any isNameChar = false ∧
      (spellOut ws rest).head?.any isOperatorPart = false := by
  cases hhead : (spellOut ws rest).head? with
  | none => exact ⟨rfl, rfl⟩
  | some c =>
    rw [hhead] at h
    simp only [Option.all_some, isSoft, Bool.and_eq_true, Bool.not_eq_true'] at h
    exact h.1

/-- What follows a type goes on with no name and no operator. -/
theorem not_any_of_admits {type : TypeSyntax}
    (h : (spellOut ws rest).head?.all type.admits = true) :
    (spellOut ws rest).head?.any isNameChar = false ∧
      (spellOut ws rest).head?.any isOperatorPart = false := by
  cases hhead : (spellOut ws rest).head? with
  | none => exact ⟨rfl, rfl⟩
  | some c =>
    rw [hhead, Option.all_some, admits, Bool.or_eq_true, isSoft] at h
    rw [Option.any_some, Option.any_some]
    rcases h with h | h
    · simp only [Bool.and_eq_true, Bool.not_eq_true'] at h
      exact h.1
    · simp only [Bool.and_eq_true, beq_iff_eq] at h
      rw [h.1.1]
      decide

/-- A `?` can follow only where a mark can. -/
theorem all_soft_of_admits {type : TypeSyntax} (hmark : (type.isPostfix && !type.endsOptional) = false)
    (h : (spellOut ws rest).head?.all type.admits = true) :
    (spellOut ws rest).head?.all isSoft = true := by
  have hadmits : type.admits = isSoft := by
    funext c
    rw [admits, Bool.and_assoc, hmark, Bool.and_false, Bool.or_false]
  rw [← hadmits]
  exact h

theorem legible_prefixWords (names : List Name) (specifier : Option Specifier) (blank : Bool)
    (hhead : (spellOut ws rest).head? = some ' ') (hws : Legible ws rest) :
    Legible (prefixWords blank names specifier ++ ws) rest := by
  have hblank : (spellOut ws rest).head?.any isNameChar = false := by
    rw [hhead]
    decide
  induction names generalizing blank with
  | nil =>
    cases specifier with
    | none => exact hws
    | some specifier => exact legible_name _ _ hblank hws
  | cons name names ih =>
    refine legible_punctuation (by rfl) (legible_name _ _ ?_ (ih true))
    -- After a name there is a blank, before the next attribute or the type.
    cases names with
    | cons next names => rfl
    | nil =>
      cases specifier with
      | none => exact hblank
      | some specifier => rfl

theorem not_goesOn_of_soft (kind : Kind) (hkind : kind ≠ .dot)
    (h : (spellOut ws rest).head?.all isSoft = true) :
    (spellOut ws rest).head?.any kind.goesOn = false := by
  cases hhead : (spellOut ws rest).head? with
  | none => rfl
  | some c =>
    rw [hhead, Option.all_some] at h
    exact goesOn_soft hkind h

theorem all_admits_of_soft (type : TypeSyntax)
    (h : (spellOut ws rest).head?.all isSoft = true) :
    (spellOut ws rest).head?.all type.admits = true := by
  cases hhead : (spellOut ws rest).head? with
  | none => rfl
  | some c =>
    rw [hhead, Option.all_some] at h
    rw [Option.all_some, admits, h, Bool.true_or]

theorem head_listWords (types : List TypeSyntax) (ws : List Word) (h : readableAll types = true)
    (hne : types ≠ []) :
    (spellOut (listWords types false ++ ws) rest).head?.any isOperatorPart = false := by
  match types with
  | [] => exact absurd rfl hne
  | [type] =>
    simp only [readableAll, Bool.and_eq_true] at h
    exact head_words type ws h.1
  | type :: next :: types =>
    simp only [readableAll, Bool.and_eq_true] at h
    simp only [listWords, List.append_assoc]
    exact head_words type _ h.1

theorem not_isNameChar_angled (inner : List Word)
    (h : (spellOut ws rest).head?.any isNameChar = false) :
    (spellOut (angled inner ++ ws) rest).head?.any isNameChar = false := by
  cases inner with
  | nil => exact h
  | cons word inner => rfl

/-- Generic arguments, given that the list of them is legible. -/
theorem legible_angled {arguments : List TypeSyntax} (h : readableAll arguments = true)
    (hlist : ∀ ws, Legible ws rest → (spellOut ws rest).head?.all isSoft = true →
      Legible (listWords arguments false ++ ws) rest)
    (hws : Legible ws rest) : Legible (angled (listWords arguments false) ++ ws) rest := by
  have hclose : Legible (⟨.greaterThan, ['>'], false⟩ :: ws) rest :=
    legible_punctuation (by rfl) hws
  cases hwords : listWords arguments false with
  | nil => exact hws
  | cons word inner =>
    have hne : arguments ≠ [] := by
      rintro rfl
      cases hwords
    simp only [angled, List.cons_append, List.append_assoc, List.nil_append]
    rw [← List.cons_append, ← hwords]
    exact ⟨.symbol (by decide) _, head_listWords arguments _ h hne, hlist _ hclose rfl⟩

theorem legible_effects (effects : List Effect) (hhead : (spellOut ws rest).head? = some ' ')
    (hws : Legible ws rest) :
    Legible (effects.map (·.name.word true) ++ ws) rest ∧
      (spellOut (effects.map (·.name.word true) ++ ws) rest).head? = some ' ' := by
  induction effects with
  | nil => exact ⟨hws, hhead⟩
  | cons effect effects ih =>
    have hblank : (spellOut (effects.map (·.name.word true) ++ ws) rest).head?.any isNameChar =
        false := by
      rw [ih.2]
      decide
    exact ⟨legible_name _ _ hblank ih.1, rfl⟩

/-- The dot and the name of a member type, given that its arguments are legible. -/
theorem legible_member (name : Name) {arguments : List TypeSyntax}
    (hname : (spellOut ws rest).head?.any isNameChar = false)
    (harguments : Legible (angled (listWords arguments false) ++ ws) rest) :
    Legible (⟨.dot, ['.'], false⟩ :: name.word false ::
      (angled (listWords arguments false) ++ ws)) rest := by
  obtain ⟨c, hhead, -, hdot⟩ := head_name name false (angled (listWords arguments false) ++ ws) rest
  refine legible_cons (.symbol (by decide) _) hhead (by simpa [Kind.goesOn] using hdot) ?_
  exact legible_name _ _ (not_isNameChar_angled _ hname) harguments

/-- A mark, which the type before it admits: next to a `?` there is no other one. -/
theorem legible_mark {base : TypeSyntax} {mark : Mark} (h : (marked base mark).readable = true)
    (hws : Legible ws rest)
    (hfollow : (spellOut ws rest).head?.all (marked base mark).admits = true) :
    Legible (mark.word :: ws) rest ∧
      (spellOut (mark.word :: ws) rest).head?.all base.admits = true := by
  simp only [readable, Bool.and_eq_true] at h
  cases mark with
  | unwrapped => exact ⟨⟨.symbol (by decide) _, (not_any_of_admits hfollow).2, hws⟩, rfl⟩
  | optional =>
    have hsoft := all_soft_of_admits (by rfl) hfollow
    have hnext := not_goesOn_of_soft .question (by decide) hsoft
    have hbase : base.admits '?' = true := by
      simp only [admits, h.1.1, Bool.or_eq_true, Bool.and_eq_true]
      exact .inr ⟨⟨rfl, trivial⟩, by simpa using h.2⟩
    exact ⟨⟨.symbol (by decide) _, hnext, hws⟩, hbase⟩

/-- The labels of an element, up to the colon. -/
theorem legible_labelWords (blank : Bool) (first : Name) (second : Option Name)
    (hws : Legible ws rest) : Legible (labelWords blank first second ++ ws) rest := by
  have hcolon : Legible (⟨.colon, [':'], false⟩ :: ws) rest := legible_punctuation (by rfl) hws
  simp only [labelWords, List.cons_append, List.append_assoc, List.nil_append]
  cases second with
  | none => exact legible_name _ _ (by rfl) hcolon
  | some second => exact legible_name _ _ (by rfl) (legible_name _ _ (by rfl) hcolon)

mutual

/-- The words of a type do not run into each other, nor into what follows. -/
theorem legible_words (type : TypeSyntax) (blank : Bool) (ws : List Word)
    (h : type.readable = true) (hws : Legible ws rest)
    (hfollow : (spellOut ws rest).head?.all type.admits = true) :
    Legible (type.words blank ++ ws) rest := by
  obtain ⟨hname, -⟩ := not_any_of_admits hfollow
  match type with
  | .named name arguments =>
    simp only [readable, Bool.and_eq_true] at h
    refine legible_name _ _ (not_isNameChar_angled _ hname) ?_
    exact legible_angled h.2 (fun ws => legible_listWords arguments false ws h.2) hws
  | .member base name arguments =>
    simp only [readable, Bool.and_eq_true] at h
    simp only [words, List.append_assoc]
    refine legible_words base blank _ h.1.1.2 (legible_member name hname ?_) rfl
    exact legible_angled h.2 (fun ws => legible_listWords arguments false ws h.2) hws
  | .marked base mark =>
    obtain ⟨hmark, hadmits⟩ := legible_mark h hws hfollow
    simp only [readable, Bool.and_eq_true] at h
    simp only [words, List.append_assoc]
    exact legible_words base blank _ h.1.2 hmark hadmits
  | .tuple elements =>
    simp only [readable] at h
    simp only [words, List.cons_append, List.append_assoc]
    refine legible_punctuation (by rfl) ?_
    refine legible_listWords elements false _ h ?_ rfl
    exact legible_punctuation (by rfl) hws
  | .function parameters effects result =>
    simp only [readable, Bool.and_eq_true] at h
    simp only [words, List.cons_append, List.append_assoc]
    refine legible_punctuation (by rfl) ?_
    refine legible_listWords parameters false _ h.1.1 ?_ rfl
    refine legible_punctuation (by rfl) ?_
    refine (legible_effects effects (by rfl) ?_).1
    refine legible_solid (.symbol (by decide) _) (by funext c; rfl) ?_
    exact legible_words result true _ h.2 hws (all_admits_of_soft _ (all_soft_of_admits rfl hfollow))
  | .array element =>
    simp only [readable, Bool.and_eq_true] at h
    simp only [words, List.cons_append, List.append_assoc]
    refine legible_punctuation (by rfl) ?_
    refine legible_words element false _ h.2 ?_ rfl
    exact legible_punctuation (by rfl) hws
  | .dictionary key value =>
    simp only [readable, Bool.and_eq_true] at h
    simp only [words, List.cons_append, List.append_assoc]
    refine legible_punctuation (by rfl) ?_
    refine legible_words key false _ h.1.1.2 ?_ rfl
    refine legible_punctuation (by rfl) ?_
    refine legible_words value true _ h.2 ?_ rfl
    exact legible_punctuation (by rfl) hws
  | .bound binder base =>
    simp only [readable, Bool.and_eq_true] at h
    have hbase := legible_words base true ws h.2 hws
      (all_admits_of_soft _ (all_soft_of_admits rfl hfollow))
    have hhead : (spellOut (base.words true ++ ws) rest).head?.any isNameChar = false := by
      rw [spellOut_words_true base ws h.2]
      rfl
    exact legible_name binder.name blank hhead hbase
  | .composed first others =>
    simp only [readable, Bool.and_eq_true] at h
    simp only [words, List.append_assoc]
    have hothers := legible_othersWords others ws h.2 hws (all_soft_of_admits rfl hfollow)
    refine legible_words first blank _ h.1.1.1.2 hothers ?_
    cases others with
    | nil => simp at h
    | cons other others => rfl
  | .attributed names specifier base =>
    simp only [readable, Bool.and_eq_true] at h
    simp only [words, List.append_assoc]
    have hbase := legible_words base true ws h.2 hws
      (all_admits_of_soft _ (all_soft_of_admits rfl hfollow))
    refine legible_prefixWords names specifier blank ?_ hbase
    rw [spellOut_words_true base ws h.2]
    rfl
  | .labelled first second inner =>
    simp only [readable, Bool.and_eq_true] at h
    simp only [words, List.append_assoc]
    refine legible_labelWords blank first second (legible_words inner true ws h.2 hws ?_)
    exact all_admits_of_soft _ (all_soft_of_admits rfl hfollow)
  | .variadic inner =>
    simp only [readable, Bool.and_eq_true] at h
    simp only [words, List.append_assoc]
    refine legible_words inner blank _ h.2 ?_ rfl
    have hsoft := all_soft_of_admits rfl hfollow
    exact ⟨.symbol (by decide) _, not_goesOn_of_soft .operator (by decide) hsoft, hws⟩

theorem legible_listWords (types : List TypeSyntax) (blank : Bool) (ws : List Word)
    (h : readableAll types = true) (hws : Legible ws rest)
    (hfollow : (spellOut ws rest).head?.all isSoft = true) :
    Legible (listWords types blank ++ ws) rest := by
  match types with
  | [] => exact hws
  | [type] =>
    simp only [readableAll, Bool.and_eq_true] at h
    exact legible_words type blank ws h.1 hws (all_admits_of_soft type hfollow)
  | type :: next :: types =>
    rw [readableAll, Bool.and_eq_true] at h
    simp only [listWords, List.append_assoc]
    refine legible_words type blank _ h.1 ?_ rfl
    refine legible_punctuation (by rfl) ?_
    exact legible_listWords (next :: types) true ws h.2 hws hfollow

theorem legible_othersWords (types : List TypeSyntax) (ws : List Word)
    (h : readableAll types = true) (hws : Legible ws rest)
    (hfollow : (spellOut ws rest).head?.all isSoft = true) :
    Legible (othersWords types ++ ws) rest := by
  match types with
  | [] => exact hws
  | type :: types =>
    rw [readableAll, Bool.and_eq_true] at h
    simp only [othersWords, List.cons_append, List.append_assoc]
    have hothers := legible_othersWords types ws h.2 hws hfollow
    have hsoft : (spellOut (othersWords types ++ ws) rest).head?.all isSoft = true := by
      cases types with
      | nil => exact hfollow
      | cons next types => rfl
    have htype := legible_words type true _ h.1 hothers (all_admits_of_soft _ hsoft)
    refine ⟨.symbol (by decide) _, ?_, htype⟩
    rw [spellOut_words_true type _ h.1]
    rfl

end

end TypeSyntax
end SelfCapture
