import Mathlib.Logic.Relation
import SelfCapture.Check.Escaping

/-! # The parameter that clears a closure

  A closure is cleared against the declaration of the called function: by
  the parameter it is passed to, whose type has to be a function type that
  is neither optional nor marked `@escaping`.

  The declaration speaks for the closure without doubt if one parameter only
  can receive it and if no part of the type is marked.  A cleared closure may
  miss this in two ways, and in no other: two parameters have the name that
  the label gives, of which the first one decides, or a mark `@escaping`
  stands under parentheses or other attributes, where it is not looked for.
-/

namespace SelfCapture

theorem ParameterType.escapes_eq_definitelyNot {type : ParameterType} :
    type.escapes = .definitelyNot ↔
      type.isFunction = true ∧ type.isOptional = false ∧ type.isEscaping = false := by
  unfold escapes
  split <;> simp_all

namespace Tree

variable {t : Tree}

/-! ## Section 1: Receiving parameters -/

/-- Whether a parameter can receive an argument: it has the name that the
    label gives, or it is of function type if there is no label. -/
def receives (t : Tree) (label : Option String) (parameter : Nat) : Bool :=
  match label with
  | some label => (t.bindingName? parameter).any fun name => t.text name == label
  | none => (t.typeOfParameter parameter).isFunction

/-- The node of the type of a parameter. -/
def typeNode? (t : Tree) (parameter : Nat) : Option Nat :=
  match t.form? parameter with
  | some (.parameter _ _ type _) => type
  | _ => none

theorem typeOfParameter_eq (t : Tree) (parameter : Nat) :
    t.typeOfParameter parameter = t.parameterType (t.typeNode? parameter) := by
  cases hform : t.form? parameter with
  | none => simp [typeOfParameter, typeNode?, parameterType, hform]
  | some form => cases form <;> simp [typeOfParameter, typeNode?, parameterType, hform]

/-- Without a label no other parameter can receive the argument. -/
theorem filter_receives_none {parameters : List Nat} {parameter : Nat}
    (h : t.matchParameter? parameters none = some parameter) :
    parameters.filter (t.receives none) = [parameter] := by
  simp only [matchParameter?] at h
  split at h
  · rename_i hfilter
    cases h
    exact hfilter
  · cases h

/-- The parameter that an argument is passed to is the first that can receive it. -/
theorem head?_filter_receives {parameters : List Nat} {label : Option String} {parameter : Nat}
    (h : t.matchParameter? parameters label = some parameter) :
    (parameters.filter (t.receives label)).head? = some parameter := by
  cases label with
  | none => rw [filter_receives_none h, List.head?_cons]
  | some label =>
    rw [List.head?_filter]
    exact h

/-! ## Section 2: Wrapped types -/

/-- The first type is the second one in parentheses or with attributes. -/
inductive Wraps (t : Tree) : Nat → Nat → Prop where
  | attributes {id base : Nat} {attributes : List Nat} {specifier : Option Nat}
      (h : t.form? id = some (.attributedType attributes specifier base)) : Wraps t id base
  | parentheses {id element inner : Nat} {second : Option Nat}
      (h : t.form? id = some (.tupleType [element]))
      (helement : t.form? element = some (.tupleTypeElement none second inner)) : Wraps t id inner

/-- The type carries the attribute `@escaping`. -/
def MarkedEscaping (t : Tree) (id : Nat) : Prop :=
  ∃ attributes specifier base,
    t.form? id = some (.attributedType attributes specifier base) ∧
      t.hasEscaping attributes = true

/-- A function type, possibly in parentheses and with attributes, none of
    which is `@escaping`. -/
structure PlainFunction (t : Tree) (id : Nat) : Prop where
  function : ∃ inner, Relation.ReflTransGen t.Wraps id inner ∧ t.isFunctionType inner = true
  unmarked : ∀ inner, Relation.ReflTransGen t.Wraps id inner → ¬ t.MarkedEscaping inner

/-- A wrapping that is taken away keeps what was said before.  It does not
    make the type optional only if it is a pair of parentheses or attributes. -/
theorem unwrapType_cases {type type' : ParameterType} {outermost : Bool} {id inner : Nat}
    (h : t.unwrapType type outermost id = some (inner, type')) :
    type'.isFunction = type.isFunction ∧ (type.isEscaping = true → type'.isEscaping = true) ∧
      (type'.isOptional = true ∨
        t.Wraps id inner ∧ type'.isOptional = type.isOptional ∧
          (outermost = true → t.MarkedEscaping id → type'.isEscaping = true)) := by
  unfold unwrapType at h
  split at h
  · -- Attributes and a specifier before a type.
    rename_i attributes specifier base hform
    cases h
    refine ⟨rfl, fun hmark => by simp [hmark], .inr ⟨.attributes hform, rfl, ?_⟩⟩
    rintro hout ⟨attributes', specifier', base', hform', hmark⟩
    cases hform.symm.trans hform'
    simp [hout, hmark]
  · cases h
    exact ⟨rfl, fun hmark => hmark, .inl rfl⟩
  · -- Parentheses around a single type.
    rename_i element hform
    split at h
    · rename_i helement
      cases h
      refine ⟨rfl, fun hmark => hmark, .inr ⟨.parentheses hform helement, rfl, ?_⟩⟩
      rintro - ⟨_, _, _, hform', -⟩
      cases hform.symm.trans hform'
    · cases h
  · split at h
    · cases h
      exact ⟨rfl, fun hmark => hmark, .inl rfl⟩
    · cases h
  · cases h

/-- What was said once stays said, whatever is wrapped. -/
theorem throughWrappings_keeps (type : ParameterType) (outermost : Bool) (id : Nat) :
    (type.isOptional = true → (t.throughWrappings type outermost id).isOptional = true) ∧
      (type.isEscaping = true → (t.throughWrappings type outermost id).isEscaping = true) := by
  have hstep {type type' : ParameterType} {outermost : Bool} {id inner : Nat}
      (hwrap : t.unwrapType type outermost id = some (inner, type')) :
      (type.isOptional = true → type'.isOptional = true) ∧
        (type.isEscaping = true → type'.isEscaping = true) := by
    obtain ⟨-, hescaping, hoptional | ⟨-, hoptional, -⟩⟩ := unwrapType_cases hwrap
    · exact ⟨fun _ => hoptional, hescaping⟩
    · exact ⟨fun h => hoptional.trans h, hescaping⟩
  fun_induction t.throughWrappings type outermost id with
  | case1 => exact ⟨fun h => h, fun h => h⟩
  | case2 type outermost id hfunction inner type' hwrap hlt ih =>
    exact ⟨fun h => ih.1 ((hstep hwrap).1 h), fun h => ih.2 ((hstep hwrap).2 h)⟩
  | case3 type outermost id hfunction inner type' hwrap hlt => exact hstep hwrap
  | case4 => exact ⟨fun h => h, fun h => h⟩

/-- A type that is found to be a function type and not optional is one, in
    parentheses or with attributes. -/
theorem function_of_throughWrappings {type : ParameterType} {outermost : Bool} {id : Nat}
    (hnone : type.isFunction = false)
    (hfunction : (t.throughWrappings type outermost id).isFunction = true)
    (hoptional : (t.throughWrappings type outermost id).isOptional = false) :
    ∃ inner, Relation.ReflTransGen t.Wraps id inner ∧ t.isFunctionType inner = true := by
  fun_induction t.throughWrappings type outermost id with
  | case1 type outermost id hform => exact ⟨id, .refl, hform⟩
  | case2 type outermost id hform inner type' hwrap hlt ih =>
    obtain ⟨hsame, -, hmarked | ⟨hwraps, -, -⟩⟩ := unwrapType_cases hwrap
    · have hkept := (throughWrappings_keeps (t := t) type' false inner).1 hmarked
      rw [hoptional] at hkept
      cases hkept
    · obtain ⟨function, hreach, hform⟩ := ih (hsame.trans hnone) hfunction hoptional
      exact ⟨function, .head hwraps hreach, hform⟩
  | case3 type outermost id hform inner type' hwrap hlt =>
    rw [(unwrapType_cases hwrap).1, hnone] at hfunction
    cases hfunction
  | case4 type outermost id hform hwrap =>
    rw [hnone] at hfunction
    cases hfunction

/-- A mark on the type itself is found. -/
theorem isEscaping_of_marked {type : ParameterType} {id : Nat} (hmark : t.MarkedEscaping id) :
    (t.throughWrappings type true id).isEscaping = true := by
  obtain ⟨attributes, specifier, base, hform, hescaping⟩ := hmark
  have hother : t.isFunctionType id = false := by simp [isFunctionType, hform]
  have hwrap : t.unwrapType type true id = some (base, { type with isEscaping := true }) := by
    simp [unwrapType, hform, hescaping]
  rw [throughWrappings, hother, hwrap]
  by_cases hlt : base < id
  · simpa [hlt] using (throughWrappings_keeps { type with isEscaping := true } false base).2 rfl
  · simp [hlt]

/-- A type that clears a closure is a plain function type, unless something
    inside it is marked. -/
theorem plainFunction_iff {id : Nat}
    (h : (t.throughWrappings {} true id).escapes = .definitelyNot) :
    t.PlainFunction id ↔
      ∀ inner, Relation.TransGen t.Wraps id inner → ¬ t.MarkedEscaping inner := by
  obtain ⟨hfunction, hoptional, hescaping⟩ := ParameterType.escapes_eq_definitelyNot.mp h
  constructor
  · intro hplain inner hinside
    exact hplain.unmarked inner hinside.to_reflTransGen
  · intro hinside
    refine ⟨function_of_throughWrappings rfl hfunction hoptional, ?_⟩
    intro inner hreach hmark
    rcases Relation.reflTransGen_iff_eq_or_transGen.mp hreach with rfl | hstrict
    · rw [isEscaping_of_marked hmark] at hescaping
      cases hescaping
    · exact hinside inner hstrict hmark

end Tree

/-! ## Section 3: Cleared closures -/

/-- The parameters of the first function that can receive an argument. -/
def SourceFile.receivers (file : SourceFile) (label : Option String) : List Nat :=
  (file.firstParameters?.getD []).filter (file.tree.receives label)

/-- What a declaration that clears a closure consists of. -/
theorem exists_of_escapesIn {declaration : String} {label : Option String}
    (h : escapesIn declaration label = .definitelyNot) :
    ∃ parameters parameter type,
      (SourceFile.parse declaration).firstParameters? = some parameters ∧
      (SourceFile.parse declaration).tree.matchParameter? parameters label = some parameter ∧
      (SourceFile.parse declaration).tree.typeNode? parameter = some type ∧
      ((SourceFile.parse declaration).tree.throughWrappings {} true type).escapes =
        .definitelyNot := by
  simp only [escapesIn] at h
  split at h
  · cases h
  · rename_i parameters hparameters
    split at h
    · cases h
    · rename_i parameter hmatch
      rw [Tree.typeOfParameter_eq] at h
      cases htype : (SourceFile.parse declaration).tree.typeNode? parameter with
      | none =>
        rw [htype] at h
        cases h
      | some type =>
        rw [htype] at h
        exact ⟨parameters, parameter, type, hparameters, hmatch, htype, h⟩

/-- A closure is cleared by the first parameter that can receive it.  This is
    the only such parameter, with a plain function type, exactly if the label
    names no second one and nothing inside the type is marked `@escaping`. -/
theorem cleared_by_sole_plain_parameter_iff (declaration : String) (label : Option String)
    (h : escapesIn declaration label = .definitelyNot) :
    let file := SourceFile.parse declaration
    ∃ parameter type,
      (file.receivers label).head? = some parameter ∧
      file.tree.typeNode? parameter = some type ∧
      (file.receivers label = [parameter] ∧ file.tree.PlainFunction type ↔
        (label ≠ none → (file.receivers label).length ≤ 1) ∧
          ∀ inner, Relation.TransGen file.tree.Wraps type inner →
            ¬ file.tree.MarkedEscaping inner) := by
  intro file
  obtain ⟨parameters, parameter, type, hparameters, hmatch, htype, hescapes⟩ :=
    exists_of_escapesIn h
  have hreceivers : file.receivers label = parameters.filter (file.tree.receives label) := by
    rw [SourceFile.receivers, hparameters, Option.getD_some]
  have hhead : (file.receivers label).head? = some parameter := by
    rw [hreceivers]
    exact Tree.head?_filter_receives hmatch
  refine ⟨parameter, type, hhead, htype, ?_⟩
  rw [Tree.plainFunction_iff hescapes]
  refine and_congr_left fun _ => ⟨fun hsole _ => by simp [hsole], ?_⟩
  intro hfew
  -- Without a label there is only one in any case; with one, `hfew` says so.
  cases label with
  | none =>
    rw [hreceivers]
    exact Tree.filter_receives_none hmatch
  | some label =>
    obtain ⟨rest, hrest⟩ := List.head?_eq_some_iff.mp hhead
    have hlength := hfew (Option.some_ne_none label)
    rw [hrest, List.length_cons] at hlength
    rw [hrest, List.length_eq_zero_iff.mp (by omega : rest.length = 0)]

/-- The only parameter of function type receives a closure without a label. -/
theorem cleared_by_only_function_parameter :
    let file := SourceFile.parse "func run(times: Int, body: () -> ()) {}"
    escapesIn "func run(times: Int, body: () -> ()) {}" none = .definitelyNot ∧
      file.receivers none = [8] ∧ file.tree.PlainFunction 7 := by
  intro file
  have hcleared : escapesIn "func run(times: Int, body: () -> ()) {}" none = .definitelyNot := by
    decide +kernel
  have hhead' : (file.receivers none).head? = some 8 := by decide +kernel
  have htype' : file.tree.typeNode? 8 = some 7 := by decide +kernel
  have hform : file.tree.form? 7 = some (.functionType [] (some 6)) := by decide +kernel
  obtain ⟨parameter, type, hhead, htype, hiff⟩ :=
    cleared_by_sole_plain_parameter_iff "func run(times: Int, body: () -> ()) {}" none hcleared
  obtain rfl : 8 = parameter := Option.some.inj (hhead'.symm.trans hhead)
  obtain rfl : 7 = type := Option.some.inj (htype'.symm.trans htype)
  refine ⟨hcleared, hiff.mpr ⟨fun hlabel => absurd rfl hlabel, ?_⟩⟩
  intro inner hinside
  obtain ⟨next, hwraps, -⟩ := Relation.TransGen.head'_iff.mp hinside
  cases hwraps with
  | attributes h => cases hform.symm.trans h
  | parentheses h => cases hform.symm.trans h

/-- The first of two parameters of one name decides, also if the second one
    is marked; and a mark in parentheses is not found. -/
theorem cleared_by_first_of_two :
    escapesIn "func run(a: () -> (), a: @escaping () -> ()) {}" (some "a") = .definitelyNot ∧
      ((SourceFile.parse "func run(a: () -> (), a: @escaping () -> ()) {}").receivers
        (some "a")).length = 2 ∧
      escapesIn "func run(a: (@escaping () -> ())) {}" (some "a") = .definitelyNot := by
  decide +kernel

end SelfCapture
