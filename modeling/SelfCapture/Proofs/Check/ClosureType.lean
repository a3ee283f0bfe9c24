import SelfCapture.Proofs.Grammar.FunctionReading

/-! # The type of a closure parameter

  A parameter that takes a closure has a function type, possibly with
  attributes, in parentheses or optional: `ClosureType` is the syntax of
  such types.  A closure passed to the parameter is cleared if no layer is
  optional and no `@escaping` stands before the type.

  A function type may be escaping although the code clears it, and be taken
  to escape although it is harmless.

  - `@escaping` inside parentheses is not looked for, so that
    `(@escaping () -> ())` clears a closure.
  - `??` is one operator, so the type ends before it, and `(() -> ())??`
    clears a closure.
  - After a specifier no attribute is read, so that in
    `inout @Sendable () -> ()` no function type is found.

  `ClosureType.clears_iff` shows that there is no other case: a type without
  the last two is read as it is written, and decides as it should exactly
  if it is not the first one.
-/

namespace SelfCapture

open Token (Kind Name Word spellOut)

/-! ## Section 1: How the type is written -/

/-- The type of a closure parameter, a function type in several layers. -/
inductive ClosureType where
  /-- `(A, B) async throws -> R` -/
  | function (parameters : List TypeSyntax) (effects : List Effect) (result : TypeSyntax)
  /-- `@name @name inout T` -/
  | attributed (attributes : List Name) (specifier : Option Specifier) (inner : ClosureType)
  /-- `(T)` -/
  | parenthesized (inner : ClosureType)
  /-- `T?` or `T!`, also several of them. -/
  | marked (inner : ClosureType) (mark : Mark)
  /-- `Optional<T>` -/
  | optional (inner : ClosureType)
  /-- `Swift.Optional<T>` -/
  | qualifiedOptional (inner : ClosureType)

namespace ClosureType

/-- The name of the optional type. -/
def optionalName : TypeName := ⟨⟨"Optional".toList, by decide +kernel⟩, .inl (by decide +kernel)⟩

/-- The name of the module of the optional type. -/
def moduleName : TypeName := ⟨⟨"Swift".toList, by decide +kernel⟩, .inl (by decide +kernel)⟩

/-- The type ends with a function type, to which a mark after it would belong. -/
def endsFunction : ClosureType → Bool
  | .function .. => true
  | .attributed _ _ inner => inner.endsFunction
  | _ => false

/-- A type in parentheses, given its words. -/
def inParentheses (inner : Bool → List Word) (blank : Bool) : List Word :=
  ⟨.openParen, ['('], blank⟩ :: inner false ++ [⟨.closeParen, [')'], false⟩]

/-- The words of a type, the first of which may have a blank before it.  A
    type that ends with a function type is put in parentheses before a mark. -/
def words : ClosureType → (blank : Bool) → List Word
  | .function parameters effects result, blank =>
    (TypeSyntax.function parameters effects result).words blank
  | .attributed attributes specifier inner, blank =>
    TypeSyntax.prefixWords blank attributes specifier ++
      inner.words (blank || !attributes.isEmpty || specifier.isSome)
  | .parenthesized inner, blank => inParentheses inner.words blank
  | .marked inner mark, blank =>
    (if inner.endsFunction then inParentheses inner.words blank else inner.words blank) ++ [mark.word]
  | .optional inner, blank =>
    optionalName.word blank :: TypeSyntax.angled (inner.words false)
  | .qualifiedOptional inner, blank =>
    moduleName.word blank :: ⟨.dot, ['.'], false⟩ :: optionalName.word false ::
      TypeSyntax.angled (inner.words false)

/-- The declaration of a function that takes the closure. -/
def declaration (T : ClosureType) : String :=
  String.ofList ("func run(completion:".toList ++ spellOut (T.words true) ") \x7b\x7d".toList)

/-! ## Section 2: What should be told of a closure -/

/-- One of the layers is optional. -/
def hasOptional : ClosureType → Bool
  | .function .. => false
  | .attributed _ _ inner | .parenthesized inner => inner.hasOptional
  | .marked .. | .optional _ | .qualifiedOptional _ => true

/-- An attribute `@escaping` stands around the function type. -/
def hasEscaping : ClosureType → Bool
  | .function .. => false
  | .attributed attributes _ inner =>
    attributes.any TypeSyntax.isEscapingName || inner.hasEscaping
  | .parenthesized inner | .marked inner _ | .optional inner | .qualifiedOptional inner =>
    inner.hasEscaping

/-- The attributes that the type starts with. -/
def attributes : ClosureType → List Name
  | .attributed attributes _ inner => attributes ++ inner.attributes
  | .marked inner _ => if inner.endsFunction then [] else inner.attributes
  | _ => []

/-- The type starts with `@escaping`, possibly after other attributes. -/
def startsEscaping (T : ClosureType) : Bool := T.attributes.any TypeSyntax.isEscapingName

theorem hasEscaping_of_startsEscaping {T : ClosureType} (h : T.startsEscaping = true) :
    T.hasEscaping = true := by
  unfold startsEscaping at h
  induction T with
  | function parameters effects result => cases h
  | attributed attributes specifier inner ih =>
    simp only [ClosureType.attributes, List.any_append, Bool.or_eq_true] at h
    simp only [hasEscaping, Bool.or_eq_true]
    exact h.imp_right ih
  | parenthesized inner ih => cases h
  | marked inner mark ih =>
    rw [ClosureType.attributes] at h
    split at h
    · cases h
    · exact ih h
  | optional inner ih => cases h
  | qualifiedOptional inner ih => cases h

/-! ## Section 3: Where the parts may stand -/

/-- The specifier that the type starts with, after its attributes. -/
def specifier : ClosureType → Option Specifier
  | .attributed _ specifier inner => specifier <|> inner.specifier
  | .marked inner _ => if inner.endsFunction then none else inner.specifier
  | _ => none

/-- The type ends with its own `?`. -/
def endsOptional : ClosureType → Bool
  | .attributed _ _ inner => inner.endsOptional
  | .marked _ .optional => true
  | _ => false

/-- The parameters and the result are read back, nothing but the type follows
    a specifier, and no two `?` stand side by side. -/
def readable : ClosureType → Bool
  | .function parameters _ result =>
    TypeSyntax.readableAll parameters && result.isType && result.readable
  | .attributed _ specifier inner =>
    inner.readable && (specifier.isNone || (inner.attributes.isEmpty && inner.specifier.isNone))
  | .marked inner mark => inner.readable && !(mark == .optional && inner.endsOptional)
  | .parenthesized inner | .optional inner | .qualifiedOptional inner => inner.readable

/-- How many types are open at a time inside the type, itself not counted. -/
def nesting : ClosureType → Nat
  | .function parameters _ result => max (TypeSyntax.nestingAll parameters) (result.nesting + 1)
  | .attributed _ _ inner => inner.nesting
  | .marked inner _ => if inner.endsFunction then inner.nesting + 1 else inner.nesting
  | .parenthesized inner | .optional inner | .qualifiedOptional inner => inner.nesting + 1

/-! ## Section 4: The type as it is read -/

/-- Attributes and a specifier before a type, if there are any. -/
def withPrefix (attributes : List Name) (specifier : Option Specifier) (base : TypeSyntax) :
    TypeSyntax :=
  if attributes.isEmpty && specifier.isNone then base else .attributed attributes specifier base

/-- The type without the attributes and the specifier that it starts with.
    They stand before all marks, also before those of the type they belong to. -/
def base : ClosureType → TypeSyntax
  | .function parameters effects result => .function parameters effects result
  | .attributed _ _ inner => inner.base
  | .parenthesized inner => .tuple [withPrefix inner.attributes inner.specifier inner.base]
  | .marked inner mark =>
    if inner.endsFunction then
      .marked (.tuple [withPrefix inner.attributes inner.specifier inner.base]) mark
    else .marked inner.base mark
  | .optional inner =>
    .named optionalName [withPrefix inner.attributes inner.specifier inner.base]
  | .qualifiedOptional inner =>
    .member (.named moduleName []) optionalName.toName
      [withPrefix inner.attributes inner.specifier inner.base]

/-- The type as it is read. -/
def type (T : ClosureType) : TypeSyntax := withPrefix T.attributes T.specifier T.base

variable {T : ClosureType}

theorem words_withPrefix (attributes : List Name) (specifier : Option Specifier)
    (base : TypeSyntax) (blank : Bool) :
    (withPrefix attributes specifier base).words blank =
      TypeSyntax.prefixWords blank attributes specifier ++
        base.words (blank || !attributes.isEmpty || specifier.isSome) := by
  cases attributes with
  | nil => cases specifier <;> simp [withPrefix, TypeSyntax.words, TypeSyntax.prefixWords]
  | cons name names => simp [withPrefix, TypeSyntax.words]

theorem prefixWords_append (names more : List Name) (specifier : Option Specifier) (blank : Bool) :
    TypeSyntax.prefixWords blank (names ++ more) specifier =
      TypeSyntax.prefixWords blank names none ++
        TypeSyntax.prefixWords (blank || !names.isEmpty) more specifier := by
  induction names generalizing blank with
  | nil => simp [TypeSyntax.prefixWords]
  | cons name names ih => simp [TypeSyntax.prefixWords, ih]

/-- The type is read with the words it is written with. -/
theorem words_eq (h : T.readable = true) (blank : Bool) : T.words blank = T.type.words blank := by
  induction T generalizing blank with
  | function parameters effects result => rfl
  | attributed names specifier inner ih =>
    simp only [readable, Bool.and_eq_true] at h
    rw [words, ih h.1, type, type, words_withPrefix, words_withPrefix]
    cases specifier with
    | none =>
      simp only [ClosureType.attributes, ClosureType.specifier, base, prefixWords_append,
        List.append_assoc]
      cases names <;> simp
    | some specifier =>
      -- The specifier stands directly before the rest of the type.
      simp only [Option.isNone_some, Bool.false_or, Bool.and_eq_true, List.isEmpty_iff,
        Option.isNone_iff_eq_none] at h
      simp [ClosureType.attributes, ClosureType.specifier, base, h.2.1, h.2.2,
        TypeSyntax.prefixWords]
  | parenthesized inner ih => simp [words, inParentheses, ih h, type, withPrefix,
      ClosureType.attributes, ClosureType.specifier, base, TypeSyntax.words, TypeSyntax.listWords]
  | marked inner mark ih =>
    simp only [readable, Bool.and_eq_true] at h
    by_cases hends : inner.endsFunction = true
    · simp [words, inParentheses, ih h.1, type, withPrefix, hends,
        ClosureType.attributes, ClosureType.specifier, base, TypeSyntax.words, TypeSyntax.listWords]
    · rw [words, if_neg hends, ih h.1, type, type, words_withPrefix, words_withPrefix]
      simp [hends, ClosureType.attributes, ClosureType.specifier, base, TypeSyntax.words]
  | optional inner ih => simp [words, ih h, type, withPrefix, ClosureType.attributes,
      ClosureType.specifier, base, TypeSyntax.words, TypeSyntax.listWords]
  | qualifiedOptional inner ih => simp [words, ih h, type, withPrefix, ClosureType.attributes,
      ClosureType.specifier, base, TypeSyntax.words, TypeSyntax.listWords, TypeSyntax.angled]

/-- A type that does not end with a function type can be marked. -/
theorem isPostfix_base (h : T.endsFunction = false) : T.base.isPostfix = true := by
  induction T with
  | function parameters effects result => cases h
  | attributed attributes specifier inner ih => exact ih h
  | marked inner mark ih =>
    rw [base]
    split <;> rfl
  | parenthesized inner ih | optional inner ih | qualifiedOptional inner ih => rfl

theorem isPlain_base (T : ClosureType) : T.base.isPlain = true := by
  induction T with
  | attributed attributes specifier inner ih => exact ih
  | marked inner mark ih =>
    rw [base]
    split <;> rfl
  | function _ _ _ | parenthesized _ _ | optional _ _ | qualifiedOptional _ _ => rfl

theorem endsOptional_base (T : ClosureType) : T.base.endsOptional = T.endsOptional := by
  induction T with
  | attributed attributes specifier inner ih => exact ih
  | marked inner mark ih =>
    rw [base]
    cases mark <;> split <;> rfl
  | function _ _ _ | parenthesized _ _ | optional _ _ | qualifiedOptional _ _ => rfl

theorem isType_withPrefix {base : TypeSyntax} (attributes : List Name)
    (specifier : Option Specifier) (h : base.isPlain = true) :
    (withPrefix attributes specifier base).isType = true := by
  unfold withPrefix
  split
  · exact Grammar.isType_of_isPlain h
  · rfl

theorem readable_withPrefix {base : TypeSyntax} (attributes : List Name)
    (specifier : Option Specifier) (hplain : base.isPlain = true) (h : base.readable = true) :
    (withPrefix attributes specifier base).readable = true := by
  unfold withPrefix
  split
  · exact h
  · rename_i hsome
    cases attributes <;> cases specifier <;> simp_all [TypeSyntax.readable]

theorem readable_base (h : T.readable = true) : T.base.readable = true := by
  have htype {inner : ClosureType} (hinner : inner.base.readable = true) :
      (withPrefix inner.attributes inner.specifier inner.base).isType = true ∧
        (withPrefix inner.attributes inner.specifier inner.base).readable = true :=
    ⟨isType_withPrefix _ _ inner.isPlain_base, readable_withPrefix _ _ inner.isPlain_base hinner⟩
  induction T with
  | function parameters effects result => exact h
  | attributed attributes specifier inner ih =>
    simp only [readable, Bool.and_eq_true] at h
    exact ih h.1
  | parenthesized inner ih =>
    simp [base, TypeSyntax.readable, TypeSyntax.readableAll, htype (ih h)]
  | marked inner mark ih =>
    simp only [readable, Bool.and_eq_true] at h
    rw [base]
    by_cases hends : inner.endsFunction = true
    · simp [hends, TypeSyntax.readable, TypeSyntax.readableAll, TypeSyntax.isPostfix,
        TypeSyntax.endsOptional, htype (ih h.1)]
    · rw [if_neg hends, TypeSyntax.readable, isPostfix_base (eq_false_of_ne_true hends), ih h.1,
        inner.endsOptional_base]
      exact h.2
  | optional inner ih =>
    simp [base, TypeSyntax.readable, TypeSyntax.readableAll, htype (ih h)]
  | qualifiedOptional inner ih =>
    simp [base, TypeSyntax.readable, TypeSyntax.readableAll, TypeSyntax.isPostfix, htype (ih h)]

theorem nesting_withPrefix (attributes : List Name) (specifier : Option Specifier)
    (base : TypeSyntax) : (withPrefix attributes specifier base).nesting = base.nesting := by
  unfold withPrefix
  split <;> rfl

theorem nesting_base (T : ClosureType) : T.base.nesting = T.nesting := by
  induction T with
  | function parameters effects result => rfl
  | attributed attributes specifier inner ih => exact ih
  | marked inner mark ih =>
    rw [base, nesting]
    split <;> simp [TypeSyntax.nesting, TypeSyntax.nestingAll, nesting_withPrefix, ih]
  | parenthesized inner ih | optional inner ih | qualifiedOptional inner ih =>
    simp [base, nesting, TypeSyntax.nesting, TypeSyntax.nestingAll, nesting_withPrefix, ih]

/-! ## Section 5: What is told of a closure -/

theorem tells_withPrefix (attributes : List Name) (specifier : Option Specifier)
    (base : TypeSyntax) (said : ParameterType) (outermost : Bool)
    (hbase : ∀ said outermost, base.tells said outermost = base.tells said false) :
    (withPrefix attributes specifier base).tells said outermost =
      base.tells
        { said with
          isEscaping := said.isEscaping || (outermost && attributes.any TypeSyntax.isEscapingName) }
        false := by
  unfold withPrefix
  split
  · rename_i hnone
    simp only [Bool.and_eq_true, List.isEmpty_iff] at hnone
    rw [hbase, hnone.1]
    simp
  · rfl

/-- Below its attributes a type tells that it is a function type, and whether
    a layer is optional; of `@escaping` it tells nothing. -/
theorem tells_base (T : ClosureType) (said : ParameterType) (outermost : Bool) :
    T.base.tells said outermost =
      { isFunction := true
        isOptional := said.isOptional || T.hasOptional
        isEscaping := said.isEscaping } := by
  -- What is told of an inner type does not depend on what stands before its base.
  have htype {inner : ClosureType} (said : ParameterType)
      (ih : ∀ said outermost, inner.base.tells said outermost =
        { isFunction := true
          isOptional := said.isOptional || inner.hasOptional
          isEscaping := said.isEscaping }) :
      (withPrefix inner.attributes inner.specifier inner.base).tells said false =
        { isFunction := true
          isOptional := said.isOptional || inner.hasOptional
          isEscaping := said.isEscaping } := by
    rw [tells_withPrefix _ _ _ _ _ fun said outermost => by rw [ih, ih], ih]
    simp
  have hname : (optionalName.text == optionalTypeName) = true := by decide +kernel
  -- Only a mark and a type named as an optional add something on the way in.
  induction T generalizing said outermost with
  | function parameters effects result =>
    simp [base, TypeSyntax.tells, hasOptional]
  | attributed attributes specifier inner ih => exact ih said outermost
  | parenthesized inner ih =>
    rw [base, TypeSyntax.tells, htype said ih, hasOptional]
  | marked inner mark ih =>
    rw [base]
    split
    · rw [TypeSyntax.tells, TypeSyntax.tells, htype _ ih]
      simp [hasOptional]
    · rw [TypeSyntax.tells, ih]
      simp [hasOptional]
  | optional inner ih | qualifiedOptional inner ih =>
    rw [base, TypeSyntax.tells, if_pos hname, htype _ ih]
    simp [hasOptional]

theorem tells_type (T : ClosureType) :
    T.type.tells {} true =
      { isFunction := true, isOptional := T.hasOptional, isEscaping := T.startsEscaping } := by
  rw [type, tells_withPrefix _ _ _ _ _ fun said outermost => by rw [tells_base, tells_base],
    tells_base]
  simp [startsEscaping]

/-! ## Section 6: Closures that are cleared -/

def runName : Name := ⟨"run".toList, by decide +kernel⟩

def completionName : Name := ⟨"completion".toList, by decide +kernel⟩

/-- The function that takes the closure. -/
def taker (T : ClosureType) : FunctionSyntax where
  name := runName
  generic := none
  parameters := [⟨completionName, T.type⟩]

theorem declaration_eq (h : T.readable = true) :
    T.declaration = T.taker.text " \x7b\x7d".toList := by
  have hwords : T.taker.words =
      [FunctionSyntax.keyword.word false, runName.word true, ⟨.openParen, ['('], false⟩,
        completionName.word false, ⟨.colon, [':'], false⟩] ++
        (T.words true ++ [⟨.closeParen, [')'], false⟩]) := by
    rw [words_eq h]
    simp [taker, FunctionSyntax.words, ParameterSyntax.words, Grammar.commaWords, TypeSyntax.angled]
  have hstart : spellOut [FunctionSyntax.keyword.word false, runName.word true,
      ⟨.openParen, ['('], false⟩, completionName.word false, ⟨.colon, [':'], false⟩] [] =
      "func run(completion:".toList := by
    decide +kernel
  have hend : spellOut [⟨.closeParen, [')'], false⟩] " \x7b\x7d".toList = ") \x7b\x7d".toList := by
    decide +kernel
  unfold declaration FunctionSyntax.text
  rw [hwords, Token.spellOut_append, Token.spellOut_append, hend,
    Token.spellOut_rest [_, _, _, _, _], hstart]

/-- A closure is cleared exactly if no layer of its type is optional and the
    type does not start with `@escaping`.  This is as it should be, that is,
    no layer is optional and there is no `@escaping` at all, exactly if an
    `@escaping` in the type makes a difference: it stands at the start, or a
    layer is optional. -/
theorem clears_iff (T : ClosureType) (hread : T.readable = true)
    (hdepth : 1 + T.nesting < Grammar.maxDepth) :
    (escapesIn T.declaration (some "completion") = .definitelyNot ↔
      T.hasOptional = false ∧ T.startsEscaping = false) ∧
    ((escapesIn T.declaration (some "completion") = .definitelyNot ↔
        T.hasOptional = false ∧ T.hasEscaping = false) ↔
      (T.hasEscaping = true → T.startsEscaping = true ∨ T.hasOptional = true)) := by
  -- The declaration is that of a function whose only parameter is readable.
  have hparameter : T.taker.readable = true := by
    have htype := isType_withPrefix T.attributes T.specifier T.isPlain_base
    have hbase := readable_withPrefix T.attributes T.specifier T.isPlain_base (readable_base hread)
    have hnesting : (withPrefix T.attributes T.specifier T.base).nesting = T.nesting := by
      rw [nesting_withPrefix, nesting_base]
    simp [FunctionSyntax.readable, taker, ParameterSyntax.readable, type, htype, hbase, hnesting,
      hdepth]
  have hcleared : escapesIn T.declaration (some "completion") = .definitelyNot ↔
      T.hasOptional = false ∧ T.startsEscaping = false := by
    rw [declaration_eq hread]
    have hsole := escapesIn_sole T.taker _ " \x7b\x7d".toList hparameter rfl
    rw [tells_type] at hsole
    have hname : completionName.text = "completion" := by decide +kernel
    rw [← hname, hsole]
    simp [ParameterType.escapes]
  refine ⟨hcleared, ?_⟩
  rw [hcleared]
  have hstart := hasEscaping_of_startsEscaping (T := T)
  -- What is left relates three truth values, of which one implies another.
  cases hopt : T.hasOptional <;> cases hesc : T.hasEscaping <;> cases hfirst : T.startsEscaping <;>
    simp_all

/-- The name of an attribute. -/
def sendableName : Name := ⟨"Sendable".toList, by decide +kernel⟩

/-- `() -> ()` -/
def plainFunction : ClosureType := .function [] [] (.tuple [])

/-- `@Sendable inout (() -> ())` clears a closure, and
    `@Sendable @escaping (() -> ())?!` does not. -/
theorem clears_sendable :
    escapesIn (attributed [sendableName] (some .inout) (parenthesized plainFunction)).declaration
        (some "completion") = .definitelyNot ∧
      escapesIn (attributed [sendableName, TypeSyntax.escapingName] none
        (marked (marked plainFunction .optional) .unwrapped)).declaration
        (some "completion") ≠ .definitelyNot := by
  constructor
  · exact (clears_iff _ (by decide +kernel) (by decide +kernel)).1.mpr (by decide +kernel)
  · exact fun h => absurd ((clears_iff _ (by decide +kernel) (by decide +kernel)).1.mp h)
      (by decide +kernel)

/-- An optional type and one marked `@escaping` that clear a closure, and a
    function type that does not. -/
theorem clears_optional_and_escaping :
    (∃ T : ClosureType, T.declaration = "func run(completion: (() -> ())??) \x7b\x7d" ∧
      T.hasOptional = true ∧ escapesIn T.declaration (some "completion") = .definitelyNot) ∧
    (∃ T : ClosureType, T.declaration = "func run(completion: (@escaping () -> ())) \x7b\x7d" ∧
      T.hasEscaping = true ∧ escapesIn T.declaration (some "completion") = .definitelyNot) ∧
    ∃ T : ClosureType, T.declaration = "func run(completion: inout @Sendable () -> ()) \x7b\x7d" ∧
      T.hasOptional = false ∧ T.hasEscaping = false ∧
      escapesIn T.declaration (some "completion") = .definitely := by
  refine ⟨⟨marked (marked plainFunction .optional) .optional, ?_⟩,
    ⟨parenthesized (attributed [TypeSyntax.escapingName] none plainFunction), ?_⟩,
    ⟨attributed [] (some .inout) (attributed [sendableName] none plainFunction), ?_⟩⟩
  all_goals decide +kernel

end ClosureType
end SelfCapture
