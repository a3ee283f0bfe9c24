import SelfCapture.Proofs.Grammar.Wording

/-! # Parts of types

  What is read of a type that is written: how a type starts and what can
  follow it, its generic arguments, and the elements of a tuple type with
  their labels.  What a node tells of a closure is compared with what the
  type tells, `Tree.Tells`.

  Types are nested in types, so this is shown as for all rules of the
  grammar: under an assumption on the readers of nested phrases,
  `Readers.Find`.
-/

namespace SelfCapture

open Token (Kind Name Word)

/-! ## Section 1: What nodes say -/

namespace Tree

/-- In every later tree the node tells of a closure what the type tells. -/
structure Tells (t : Tree) (type : TypeSyntax) (id : Nat) : Prop where
  lt : id < t.nextId
  eq : ∀ t', Continues t t' → ∀ said outermost,
    t'.throughWrappings said outermost id = type.tells said outermost

/-- The node is an attribute of the name. -/
def TellsAttribute (t : Tree) (name : Name) (id : Nat) : Prop :=
  ∃ nameId, t.Formed (.typeAttribute nameId) id ∧ t.Spelled name.text nameId

/-- The node is the element of a tuple type. -/
inductive TellsElement (t : Tree) : TypeSyntax → Nat → Prop where
  | plain {type : TypeSyntax} {id inner : Nat} {second : Option Nat}
      (hform : t.Formed (.tupleTypeElement none second inner) id) (hlt : inner < id)
      (hinner : t.Tells type inner) : TellsElement t type id
  | variadic {type : TypeSyntax} {id inner : Nat} {second : Option Nat}
      (hform : t.Formed (.tupleTypeElement none second inner) id) (hlt : inner < id)
      (hinner : t.Tells type inner) : TellsElement t (.variadic type) id
  | labelled {type : TypeSyntax} {id inner label : Nat} {second : Option Nat} {first : Name}
      {rest : Option Name}
      (hform : t.Formed (.tupleTypeElement (some label) second inner) id) :
      TellsElement t (.labelled first rest type) id

variable {t t' : Tree} {type base : TypeSyntax} {id inner : Nat} {ids : List Nat}

theorem Tells.later (h : t.Tells type id) (ht : Continues t t') : t'.Tells type id :=
  ⟨Nat.lt_of_lt_of_le h.lt ht.nextId_le, fun t'' h' => h.eq t'' (ht.trans h')⟩

theorem TellsAttribute.later {name : Name} (h : t.TellsAttribute name id) (ht : Continues t t') :
    t'.TellsAttribute name id := by
  obtain ⟨nameId, hform, htext⟩ := h
  exact ⟨nameId, hform.later ht, htext.later ht⟩

theorem TellsElement.later (h : t.TellsElement type id) (ht : Continues t t') :
    t'.TellsElement type id := by
  cases h with
  | plain hform hlt hinner => exact .plain (hform.later ht) hlt (hinner.later ht)
  | variadic hform hlt hinner => exact .variadic (hform.later ht) hlt (hinner.later ht)
  | labelled hform => exact .labelled (hform.later ht)

theorem tells_function {parameters : List Nat} {result : Option Nat} {types : List TypeSyntax}
    {effects : List Effect} (h : t.Formed (.functionType parameters result) id) :
    t.Tells (.function types effects type) id := by
  refine ⟨h.1, fun t' ht said outermost => ?_⟩
  rw [throughWrappings, isFunctionType, h.2 t' ht]
  rfl

theorem tells_marked {implicit : Bool} {mark : Mark} (h : t.Formed (.optionalType inner implicit) id)
    (hlt : inner < id) (hinner : t.Tells base inner) : t.Tells (.marked base mark) id := by
  refine ⟨h.1, fun t' ht said outermost => ?_⟩
  rw [throughWrappings]
  simp [isFunctionType, unwrapType, h.2 t' ht, hlt, hinner.eq t' ht, TypeSyntax.tells]

/-- A name with generic arguments, also of a member. -/
theorem tells_generic {qualifier : Option Nat} {nameId : Nat} {name : Name}
    {arguments : List TypeSyntax} (h : t.Formed (.typeRef qualifier nameId ids) id)
    (hname : t.Spelled name.text nameId) (hlt : ∀ argument ∈ ids, argument < id)
    (harguments : List.Forall₂ t.Tells arguments ids) (said : ParameterType) (outermost : Bool)
    (ht : Continues t t') :
    t'.throughWrappings said outermost id =
      match arguments with
      | [argument] =>
        if name.text == optionalTypeName then
          argument.tells { said with isOptional := true } false
        else said
      | _ => said := by
  rw [throughWrappings]
  cases harguments with
  | nil => simp [isFunctionType, unwrapType, h.2 t' ht]
  | cons hfirst hrest =>
    cases hrest with
    | nil =>
      have hsmall := hlt _ List.mem_cons_self
      by_cases hoptional : (name.text == optionalTypeName) = true
      · simp [isFunctionType, unwrapType, h.2 t' ht, hname.2 t' ht, hoptional, hsmall,
          hfirst.eq t' ht]
      · simp [isFunctionType, unwrapType, h.2 t' ht, hname.2 t' ht, hoptional]
    | cons _ _ => simp [isFunctionType, unwrapType, h.2 t' ht]

theorem tells_named {name : TypeName} {arguments : List TypeSyntax} {nameId : Nat}
    (h : t.Formed (.typeRef none nameId ids) id)
    (hname : t.Spelled name.text nameId) (hlt : ∀ argument ∈ ids, argument < id)
    (harguments : List.Forall₂ t.Tells arguments ids) : t.Tells (.named name arguments) id := by
  refine ⟨h.1, fun t' ht said outermost => ?_⟩
  rw [tells_generic h hname hlt harguments said outermost ht]
  match arguments with
  | [] | [_] | _ :: _ :: _ => simp only [TypeSyntax.tells]

theorem tells_member {name : Name} {arguments : List TypeSyntax} {nameId : Nat}
    {qualifier : Option Nat} (h : t.Formed (.typeRef qualifier nameId ids) id)
    (hname : t.Spelled name.text nameId) (hlt : ∀ argument ∈ ids, argument < id)
    (harguments : List.Forall₂ t.Tells arguments ids) : t.Tells (.member base name arguments) id := by
  refine ⟨h.1, fun t' ht said outermost => ?_⟩
  rw [tells_generic h hname hlt harguments said outermost ht]
  match arguments with
  | [] | [_] | _ :: _ :: _ => simp only [TypeSyntax.tells]

theorem tells_tuple {types : List TypeSyntax} (h : t.Formed (.tupleType ids) id)
    (hlt : ∀ element ∈ ids, element < id) (helements : List.Forall₂ t.TellsElement types ids) :
    t.Tells (.tuple types) id := by
  refine ⟨h.1, fun t' ht said outermost => ?_⟩
  rw [throughWrappings]
  cases helements with
  | nil => simp [isFunctionType, unwrapType, h.2 t' ht, TypeSyntax.tells]
  | cons hfirst hrest =>
    cases hrest with
    | cons _ _ => simp [isFunctionType, unwrapType, h.2 t' ht, TypeSyntax.tells]
    | nil =>
      have hsmall := hlt _ List.mem_cons_self
      cases hfirst with
      | plain hform hinner htells =>
        have hless := Nat.lt_trans hinner hsmall
        simp [isFunctionType, unwrapType, h.2 t' ht, hform.2 t' ht, hless, htells.eq t' ht,
          TypeSyntax.tells]
      | variadic hform hinner htells =>
        have hless := Nat.lt_trans hinner hsmall
        simp [isFunctionType, unwrapType, h.2 t' ht, hform.2 t' ht, hless, htells.eq t' ht,
          TypeSyntax.tells]
      | labelled hform =>
        simp [isFunctionType, unwrapType, h.2 t' ht, hform.2 t' ht, TypeSyntax.tells]

theorem hasEscaping_eq {names : List Name} (h : List.Forall₂ t.TellsAttribute names ids)
    (ht : Continues t t') : t'.hasEscaping ids = names.any TypeSyntax.isEscapingName := by
  induction h with
  | nil => rfl
  | cons hfirst _ ih =>
    obtain ⟨nameId, hform, htext⟩ := hfirst
    rw [hasEscaping, List.any_cons, ← hasEscaping, ih, List.any_cons]
    simp [hform.2 t' ht, htext.2 t' ht, TypeSyntax.isEscapingName]

theorem tells_attributed {names : List Name} {specifier : Option Specifier} {specifierId : Option Nat}
    (h : t.Formed (.attributedType ids specifierId inner) id) (hlt : inner < id)
    (hnames : List.Forall₂ t.TellsAttribute names ids) (hinner : t.Tells base inner) :
    t.Tells (.attributed names specifier base) id := by
  refine ⟨h.1, fun t' ht said outermost => ?_⟩
  rw [throughWrappings]
  simp [isFunctionType, unwrapType, h.2 t' ht, hlt, hinner.eq t' ht, hasEscaping_eq hnames ht,
    TypeSyntax.tells]

/-- Collections, constraints and compositions say nothing of a closure. -/
theorem tells_nothing {form : Form} (h : t.Formed form id)
    (hform : (∃ parts, form = .collectionType parts) ∨
      (∃ existential part, form = .opaqueType existential part) ∨
      ∃ parts, form = .compositionType parts)
    (htells : ∀ said outermost, type.tells said outermost = said) : t.Tells type id := by
  refine ⟨h.1, fun t' ht said outermost => ?_⟩
  rw [throughWrappings, htells]
  rcases hform with ⟨_, rfl⟩ | ⟨_, _, rfl⟩ | ⟨_, rfl⟩
  all_goals simp [isFunctionType, unwrapType, h.2 t' ht]

end Tree

namespace Grammar

variable {n : Nat} {s : State} {nested : Readers} {type : TypeSyntax} {types : List TypeSyntax}
  {blank : Bool} {word : Word} {words : List Word}

/-! ## Section 2: What can follow a type -/

/-- Kinds of tokens that can follow a type. -/
def endsType : Kind → Bool
  | .comma | .closeParen | .closeBracket | .greaterThan | .colon | .operator => true
  | _ => false

/-- Kinds of tokens that can follow the member of a composition. -/
def endsMember (kind : Kind) : Bool := endsType kind || kind == .ampersand

/-- Kinds of tokens that can follow a type without marks. -/
def endsPrimary (kind : Kind) : Bool :=
  endsMember kind || kind == .question || kind == .exclamation || kind == .dot

theorem StartWith.mono {test test' : Kind → Bool} (h : StartWith test words)
    (himp : ∀ kind, test kind = true → test' kind = true) : StartWith test' words := by
  obtain ⟨word, more, rfl, hword⟩ := h
  exact ⟨word, more, rfl, himp _ hword⟩

theorem StartWith.append {test : Kind → Bool} (h : StartWith test words) (more : List Word) :
    StartWith test (words ++ more) := by
  obtain ⟨word, rest, rfl, hword⟩ := h
  exact ⟨word, rest ++ more, rfl, hword⟩

/-- The node of a type has been made, and the words after it are ahead. -/
def Finds (s : State) (type : TypeSyntax) (words : List Word) (id : Nat) (s' : State) : Prop :=
  ReadsTo s [id] words s' ∧ s'.tree.Tells type id

/-- With less than `n` bytes ahead, nested types are read back. -/
structure Readers.Find (nested : Readers) (n : Nat) : Prop where
  below : nested.Below n
  type : ∀ {type : TypeSyntax} {blank : Bool} {words : List Word} {s : State},
    type.isType = true → type.readable = true → Ready n s →
    s.Faces (type.words blank ++ words) → s.depth + type.nesting < maxDepth →
    StartWith endsType words → Ensures (nested .type) s (Finds s type words)
  composition : ∀ {type : TypeSyntax} {blank : Bool} {words : List Word} {s : State},
    type.isPlain = true → type.readable = true → Ready n s →
    s.Faces (type.words blank ++ words) → s.depth + type.nesting ≤ maxDepth →
    StartWith endsType words → Ensures (nested .composition) s (Finds s type words)

/-! ## Section 3: How types start -/

/-- Kinds with which a type without attributes starts. -/
def startsPlain : Kind → Bool
  | .identifier | .selfTypeKeyword | .openParen | .openBracket => true
  | _ => false

theorem isPlain_of_isPostfix (h : type.isPostfix = true) : type.isPlain = true := by
  cases type <;> first | rfl | cases h

theorem isType_of_isPlain (h : type.isPlain = true) : type.isType = true := by
  cases type <;> first | rfl | cases h

theorem isUnlabelled_of_isType (h : type.isType = true) : type.isUnlabelled = true := by
  cases type <;> first | rfl | cases h

theorem isUnlabelled_of_isPostfix (h : type.isPostfix = true) : type.isUnlabelled = true :=
  isUnlabelled_of_isType (isType_of_isPlain (isPlain_of_isPostfix h))

theorem isType_of_isPostfix (h : type.isPostfix = true) : type.isType = true :=
  isType_of_isPlain (isPlain_of_isPostfix h)

theorem not_bound_of_isPostfix {texts : List String} (h : type.isPostfix = true) (binder : Binder)
    (base : TypeSyntax) (hbound : type = .bound binder base) :
    texts.contains binder.name.text = false := by
  subst hbound
  cases h

theorem startsType_of_startsPlain {kind : Kind} (h : startsPlain kind = true) :
    startsType kind = true := by
  cases kind <;> first | rfl | cases h

/-- The words start a type, and the first one stands for itself: it is not
    one of the given texts with a type after it. -/
def Alone (texts : List String) (words : List Word) : Prop :=
  ∃ first more, words = first :: more ∧ startsPlain first.kind = true ∧
    (first.kind = .identifier → texts.contains (String.ofList first.chars) = true →
      StartWith (fun kind => !startsType kind) more)

theorem TypeName.startsPlain (name : TypeName) : startsPlain name.kind = true := by
  rcases name.starts with h | h
  · rw [h]
    rfl
  · rw [h]
    rfl

theorem not_startsType_of_endsPrimary {kind : Kind} (h : endsPrimary kind = true) :
    (!startsType kind) = true := by
  cases kind <;> first | rfl | cases h

theorem startWith_angled {test : Kind → Bool} (inner : List Word) (htest : test .lessThan = true)
    (h : StartWith test words) : StartWith test (TypeSyntax.angled inner ++ words) := by
  cases inner with
  | nil => exact h
  | cons first rest => exact .cons htest

/-- A bracket stands for itself. -/
theorem alone_bracket {texts : List String} (h : word.kind = .openParen ∨ word.kind = .openBracket) :
    Alone texts (word :: words) := by
  refine ⟨word, words, rfl, ?_, fun hname => ?_⟩
  · rcases h with h | h
    · rw [h]
      rfl
    · rw [h]
      rfl
  · rw [hname] at h
    cases h <;> contradiction

/-- Only `some` and `any` have a type after them. -/
theorem alone_words (type : TypeSyntax) (blank : Bool) (words : List Word) (texts : List String)
    (hplain : type.isPlain = true) (h : type.readable = true)
    (htexts : ∀ binder base, type = .bound binder base → texts.contains binder.name.text = false)
    (hwords : StartWith endsPrimary words) : Alone texts (type.words blank ++ words) := by
  -- As for the labels, a postfix or composed type starts as its base does. Only a bound type starts
  -- with a word that may be one of the texts, and `htexts` excludes it.
  match type with
  | .named name arguments =>
    refine ⟨_, _, rfl, TypeName.startsPlain name, fun _ _ => ?_⟩
    exact startWith_angled _ rfl (hwords.mono fun _ => not_startsType_of_endsPrimary)
  | .tuple .. | .function .. => exact alone_bracket (.inl rfl)
  | .array .. | .dictionary .. => exact alone_bracket (.inr rfl)
  | .member base name arguments =>
    simp only [TypeSyntax.readable, Bool.and_eq_true] at h
    simp only [TypeSyntax.words, List.append_assoc]
    exact alone_words base blank _ texts (isPlain_of_isPostfix h.1.1.1) h.1.1.2
      (not_bound_of_isPostfix h.1.1.1) (.cons rfl)
  | .marked base mark =>
    simp only [TypeSyntax.readable, Bool.and_eq_true] at h
    simp only [TypeSyntax.words, List.append_assoc]
    exact alone_words base blank _ texts (isPlain_of_isPostfix h.1.1) h.1.2
      (not_bound_of_isPostfix h.1.1) (.cons (by cases mark <;> rfl))
  | .composed first others =>
    simp only [TypeSyntax.readable, Bool.and_eq_true] at h
    simp only [TypeSyntax.words, List.append_assoc]
    refine alone_words first blank _ texts (isPlain_of_isPostfix h.1.1.1.1) h.1.1.1.2
      (not_bound_of_isPostfix h.1.1.1.1) ?_
    cases others with
    | nil => exact hwords
    | cons other others => exact .cons rfl
  | .bound binder base =>
    refine ⟨binder.name.word blank, _, rfl, ?_, fun _ htext => ?_⟩
    · show startsPlain binder.name.kind = true
      rw [binder.kind_name]
      rfl
    · have hno := htexts binder base rfl
      exact absurd (hno.symm.trans htext) Bool.false_ne_true
  | .attributed .. | .labelled .. | .variadic .. => cases hplain

/-- A type follows, or does not. -/
theorem typeFollows_faces {next : Word} (h : s.Faces (word :: next :: words)) :
    Ensures typeFollows s fun found s' => s' = s ∧ found = startsType next.kind := by
  have hnext := h.advanced
  unfold typeFollows
  refine nextIs_eq (R := fun found => found = startsType next.kind) h.settled ?_
  refine .peek (.peek (.pure ⟨.stay hnext.settled, ?_⟩))
  rw [hnext.afterLineBreak_eq, show (kind s.advanced).1 = next.kind from hnext.kind_eq]
  exact Bool.and_true _

/-- A type without a specifier does not start with one. -/
theorem atSpecifier_plain (h : s.Faces words) (halone : Alone typeSpecifiers words) :
    Ensures atSpecifier s fun found s' => found = false ∧ s' = s := by
  obtain ⟨first, more, rfl, hstart, hword⟩ := halone
  unfold atSpecifier
  refine .peek (.ite (fun hat => ?_) fun _ => .peek (.ite (fun hone => ?_) fun _ => .pure ⟨rfl, rfl⟩))
  · rw [h.isAt_eq] at hat
    rw [eq_of_beq hat] at hstart
    cases hstart
  · rw [h.isOneOf_eq, Bool.and_eq_true, beq_iff_eq] at hone
    obtain ⟨next, rest, rfl, hnext⟩ := hword hone.1 hone.2
    refine (typeFollows_faces h).mono fun found s' h' => ⟨?_, h'.1⟩
    rw [h'.2]
    exact Bool.not_eq_true' _ |>.mp hnext

/-- A type without a constraint does not start with `some` or `any`. -/
theorem atOpaque_plain (h : s.Faces words) (halone : Alone ["some", "any"] words) :
    Ensures atOpaque s fun found s' => found = false ∧ s' = s := by
  obtain ⟨first, more, rfl, hstart, hword⟩ := halone
  unfold atOpaque
  refine .peek (.ite (fun hone => ?_) fun _ => .pure ⟨rfl, rfl⟩)
  rw [h.isOneOf_eq, Bool.and_eq_true, beq_iff_eq] at hone
  obtain ⟨next, rest, rfl, hnext⟩ := hword hone.1 hone.2
  refine (typeFollows_faces h).mono fun found s' h' => ⟨?_, h'.1⟩
  rw [h'.2]
  exact Bool.not_eq_true' _ |>.mp hnext

/-! ## Section 4: Generic arguments and elements -/

theorem listWords_eq (types : List TypeSyntax) (blank : Bool) :
    TypeSyntax.listWords types blank = commaWords TypeSyntax.words types blank := by
  induction types generalizing blank with
  | nil => rfl
  | cons type types ih =>
    cases types with
    | nil => rfl
    | cons next types => rw [TypeSyntax.listWords, commaWords, ih]

theorem readable_of_mem (h : TypeSyntax.readableAll types = true) (hmem : type ∈ types) :
    type.readable = true := by
  induction types with
  | nil => cases hmem
  | cons first types ih =>
    rw [TypeSyntax.readableAll, Bool.and_eq_true] at h
    rcases List.mem_cons.mp hmem with rfl | hmem
    · exact h.1
    · exact ih h.2 hmem

theorem nesting_lt_of_mem (hmem : type ∈ types) : type.nesting < TypeSyntax.nestingAll types := by
  induction types with
  | nil => cases hmem
  | cons first types ih =>
    rw [TypeSyntax.nestingAll]
    rcases List.mem_cons.mp hmem with rfl | hmem
    · omega
    · have hlt := ih hmem
      omega

theorem startsType_specifier (specifier : Specifier) :
    startsType specifier.name.kind = true := by
  cases specifier <;> decide +kernel

theorem startsType_binder (binder : Binder) : startsType binder.name.kind = true := by
  rw [binder.kind_name]
  rfl

/-- A type starts with a token that starts a type. -/
theorem startsType_words (type : TypeSyntax) (blank : Bool) (h : type.readable = true)
    (htype : type.isType = true) : StartWith startsType (type.words blank) := by
  match type with
  | .attributed (name :: names) specifier base => exact .cons rfl
  | .attributed [] (some specifier) base => exact .cons (startsType_specifier specifier)
  | .attributed [] none base => simp [TypeSyntax.readable] at h
  | .named name _ => exact .cons (startsType_of_startsPlain (TypeName.startsPlain name))
  | .tuple .. | .function .. | .array .. | .dictionary .. => exact .cons rfl
  | .bound binder _ => exact .cons (startsType_binder binder)
  | .member base .. =>
    simp only [TypeSyntax.readable, Bool.and_eq_true] at h
    exact (startsType_words base blank h.1.1.2 (isType_of_isPostfix h.1.1.1)).append _
  | .marked base _ =>
    simp only [TypeSyntax.readable, Bool.and_eq_true] at h
    exact (startsType_words base blank h.1.2 (isType_of_isPostfix h.1.1)).append _
  | .composed first _ =>
    simp only [TypeSyntax.readable, Bool.and_eq_true] at h
    exact (startsType_words first blank h.1.1.1.2 (isType_of_isPostfix h.1.1.1.1)).append _
  | .labelled .. | .variadic .. => cases htype

theorem angled_of_startWith {test : Kind → Bool} {inner : List Word} (h : StartWith test inner) :
    TypeSyntax.angled inner = ⟨.lessThan, ['<'], false⟩ :: inner ++ [⟨.greaterThan, ['>'], false⟩] := by
  obtain ⟨word, more, rfl, -⟩ := h
  rfl

theorem endsType_of_comma {closer : Kind} (hcloser : endsType closer = true)
    (h : StartWith (fun kind => kind == .comma || kind == closer) words) :
    StartWith endsType words := by
  refine h.mono fun kind hkind => ?_
  rw [Bool.or_eq_true, beq_iff_eq, beq_iff_eq] at hkind
  rcases hkind with rfl | rfl
  · rfl
  · exact hcloser

theorem genericArguments_faces (hn : nested.Find n) (hs : Ready n s)
    (hreadable : TypeSyntax.readableAll types = true) (htypes : types.all TypeSyntax.isType = true)
    (h : s.Faces (TypeSyntax.angled (TypeSyntax.listWords types false) ++ words))
    (hdepth : s.depth + TypeSyntax.nestingAll types ≤ maxDepth)
    (hwords : StartWith endsPrimary words) :
    Ensures (genericArguments nested) s fun ids s' =>
      ReadsTo s ids words s' ∧ List.Forall₂ s'.tree.Tells types ids := by
  unfold genericArguments
  cases types with
  | nil =>
    -- No angle brackets are spelled, and what follows a primary type does not open any.
    obtain ⟨next, more, rfl, hnext⟩ := hwords
    refine .peek (.peek (.ite (fun hat => ?_) fun _ => .pure ⟨.stay h, .nil⟩))
    rw [h.isAt_eq, Bool.and_eq_true, beq_iff_eq] at hat
    rw [hat.1] at hnext
    cases hnext
  | cons first others =>
    -- The parser takes the angle bracket for a list only where a type may start behind it.
    have hfirst : StartWith startsType (TypeSyntax.listWords (first :: others) false) := by
      rw [listWords_eq, commaWords_cons]
      rw [List.all_cons, Bool.and_eq_true] at htypes
      exact (startsType_words first false (readable_of_mem hreadable List.mem_cons_self)
        htypes.1).append _
    rw [angled_of_startWith hfirst, listWords_eq] at h
    simp only [List.cons_append, List.append_assoc, List.nil_append] at h
    refine .peek (.peek (.ite (fun _ => ?_) fun hnot => absurd ?_ hnot))
    · refine (advance_faces h (by decide)).bind fun _ s₁ h₁ => ?_
      have hs₁ := hs.reads h₁.1.reads
      refine .bind (P := fun ids s₂ => ReadsTo s₁ ids (⟨.greaterThan, ['>'], false⟩ :: words) s₂ ∧
        List.Forall₂ (fun type id => s₂.tree.Tells type id) (first :: others) ids) ?_ ?_
      · refine separatedUntil_faces .greaterThan (fun type t id => t.Tells type id) (by decide)
          (fun htells ht => htells.later ht) ?_ ?_ h₁.1.faces rfl
        · intro type hmem blank
          refine (startsType_words type blank (readable_of_mem hreadable hmem)
            (List.all_eq_true.mp htypes type hmem)).mono fun kind hkind => ?_
          cases kind <;> first | rfl | cases hkind
        · intro type hmem blank words ids s₂ h₂ hnext
          refine hn.type (List.all_eq_true.mp htypes type hmem) (readable_of_mem hreadable hmem)
            (hs₁.reads h₂.reads) h₂.faces ?_ (endsType_of_comma rfl hnext)
          -- An argument is less deep than the list, so the bound on the list leaves room for it.
          have hlt := nesting_lt_of_mem hmem
          have hsame := h₂.depth_eq.trans h₁.1.depth_eq
          omega
      · intro ids s₂ h₂
        refine (expect_here h₂.1.faces rfl (by decide) _).bind fun _ s₃ h₃ => .pure ?_
        refine ⟨(h₁.1.append h₂.1).skip h₃.2.1, ?_⟩
        exact h₂.2.imp fun _ _ htells => htells.later h₃.2.1.continues
    · rw [h.isAt_eq, h.afterLineBreak_eq]
      rfl

/-- A label is one name or two, with a colon after them. -/
theorem atElementLabel_answers (hs : s.Settled) :
    Ensures atElementLabel s fun found s' => s' = s ∧
      found = (s.kind.isName && (s.advanced.kind == .colon ||
        s.advanced.kind.isName && s.advanced.advanced.kind == .colon)) := by
  unfold atElementLabel
  refine .peek (.ite (fun hname => ?_) fun hname => .pure ⟨rfl, ?_⟩)
  · have hname : s.kind.isName = true := hname
    rw [hname, Bool.true_and]
    refine lookAhead_eq ((advance_reads hs).bind fun _ s₁ h₁ => ?_)
    obtain ⟨rfl, hread⟩ := h₁
    refine .peek (.ite (fun hcolon => .pure ⟨hread, ?_⟩) fun hcolon => .peek ?_)
    · rw [show (s.advanced.kind == .colon) = true from hcolon, Bool.true_or]
    · have hcolon : (s.advanced.kind == .colon) = false := eq_false_of_ne_true hcolon
      rw [hcolon, Bool.false_or]
      refine .ite (fun hsecond => ?_) fun hsecond => .pure ⟨hread, ?_⟩
      · refine (advance_reads hread.settled).bind fun _ s₂ h₂ => ?_
        obtain ⟨rfl, hread₂⟩ := h₂
        rw [show s.advanced.kind.isName = true from hsecond, Bool.true_and]
        exact .look ⟨hread.append hread₂, rfl⟩
      · rw [show s.advanced.kind.isName = false from eq_false_of_ne_true hsecond, Bool.false_and]
  · rw [show s.kind.isName = false from eq_false_of_ne_true hname, Bool.false_and]

/-- No label starts here: there is no colon after one name or two. -/
inductive NotLabel : List Word → Prop where
  | bracket {word : Word} {words : List Word} (h : word.kind.isName = false) :
      NotLabel (word :: words)
  | one {word next : Word} {words : List Word} (h : next.kind.isName = false)
      (hcolon : next.kind ≠ .colon) : NotLabel (word :: next :: words)
  | two {word next last : Word} {words : List Word} (hnext : next.kind ≠ .colon)
      (hlast : last.kind ≠ .colon) : NotLabel (word :: next :: last :: words)

/-- A word before a type does not make a label of it. -/
theorem NotLabel.cons (h : NotLabel words) (hstart : StartWith startsType words) :
    NotLabel (word :: words) := by
  obtain ⟨first, more, rfl, hfirst⟩ := hstart
  have hcolon : first.kind ≠ .colon := by
    intro heq
    rw [heq] at hfirst
    cases hfirst
  cases h with
  | bracket hname => exact .one hname hcolon
  | one hname hnext => exact .two hcolon hnext
  | two hnext hlast => exact .two hcolon hnext

theorem notLabel_words (type : TypeSyntax) (blank : Bool) (words : List Word)
    (h : type.readable = true) (hlabel : type.isUnlabelled = true)
    (hwords : StartWith (fun kind => !kind.isName && kind != .colon) words) :
    NotLabel (type.words blank ++ words) := by
  -- The first two words decide. A postfix or composed type starts as its base does, so the walk
  -- goes down to a name, which something other than a name or a colon follows, or to a bracket.
  match type with
  | .named name arguments =>
    obtain ⟨next, more, hnext, htest⟩ := startWith_angled (TypeSyntax.listWords arguments false)
      (by decide) hwords
    simp only [Bool.and_eq_true, Bool.not_eq_true', bne_iff_ne] at htest
    rw [TypeSyntax.words, List.cons_append, hnext]
    exact .one htest.1 htest.2
  | .tuple .. | .function .. | .array .. | .dictionary .. => exact .bracket rfl
  | .member base name arguments =>
    simp only [TypeSyntax.readable, Bool.and_eq_true] at h
    simp only [TypeSyntax.words, List.append_assoc]
    exact notLabel_words base blank _ h.1.1.2 (isUnlabelled_of_isPostfix h.1.1.1) (.cons (by decide))
  | .marked base mark =>
    simp only [TypeSyntax.readable, Bool.and_eq_true] at h
    simp only [TypeSyntax.words, List.append_assoc]
    exact notLabel_words base blank _ h.1.2 (isUnlabelled_of_isPostfix h.1.1)
      (.cons (by cases mark <;> decide))
  | .composed first others =>
    simp only [TypeSyntax.readable, Bool.and_eq_true] at h
    simp only [TypeSyntax.words, List.append_assoc]
    refine notLabel_words first blank _ h.1.1.1.2 (isUnlabelled_of_isPostfix h.1.1.1.1) ?_
    cases others with
    | nil => exact hwords
    | cons other others => exact .cons (by decide)
  | .variadic inner =>
    simp only [TypeSyntax.readable, Bool.and_eq_true] at h
    simp only [TypeSyntax.words, List.append_assoc]
    exact notLabel_words inner blank _ h.2 (isUnlabelled_of_isType h.1) (.cons (by decide))
  | .bound binder base =>
    simp only [TypeSyntax.readable, Bool.and_eq_true] at h
    have hbase := isType_of_isPlain h.1
    refine NotLabel.cons (notLabel_words base true words h.2 (isUnlabelled_of_isType hbase) hwords) ?_
    exact (startsType_words base true h.2 hbase).append words
  | .attributed (name :: names) specifier base => exact .bracket rfl
  | .attributed [] (some specifier) base =>
    simp only [TypeSyntax.readable, Bool.and_eq_true] at h
    have hbase := isType_of_isPlain h.1.2
    refine NotLabel.cons (notLabel_words base true words h.2 (isUnlabelled_of_isType hbase) hwords) ?_
    exact (startsType_words base true h.2 hbase).append words
  | .attributed [] none base => simp [TypeSyntax.readable] at h
  | .labelled .. => cases hlabel

theorem elementLabels_plain (h : s.Faces words) (hno : NotLabel words) :
    Ensures elementLabels s fun labels s' => labels = (none, none) ∧ s' = s := by
  unfold elementLabels
  refine (atElementLabel_answers h.settled).bind fun found s₁ h₁ => ?_
  obtain ⟨rfl, hfound⟩ := h₁
  refine .ite (fun hlabel => ?_) fun _ => .pure ⟨rfl, rfl⟩
  rw [hfound] at hlabel
  cases hno with
  | bracket hname =>
    rw [h.kind_eq, hname] at hlabel
    cases hlabel
  | one hname hcolon =>
    rw [h.advanced.kind_eq, hname, beq_eq_false_iff_ne.mpr hcolon] at hlabel
    simp at hlabel
  | two hnext hlast =>
    rw [h.advanced.kind_eq, h.advanced.advanced.kind_eq, beq_eq_false_iff_ne.mpr hnext,
      beq_eq_false_iff_ne.mpr hlast] at hlabel
    simp at hlabel

theorem elementLabels_faces {first : Name} {second : Option Name}
    (h : s.Faces (TypeSyntax.labelWords blank first second ++ words)) :
    Ensures elementLabels s fun labels s' => labels.1 ≠ none ∧
      ReadsTo s (labels.1.toList ++ labels.2.toList) words s' := by
  unfold elementLabels
  refine (atElementLabel_answers h.settled).bind fun found s₁ h₁ => ?_
  obtain ⟨rfl, hfound⟩ := h₁
  -- The parser looks ahead for a colon behind one name or two; the last goal says that it finds it.
  refine .ite (fun _ => ?_) fun hlabel => absurd ?_ hlabel
  · refine (name_faces h (first.kind_ne rfl)).bind fun firstId s₂ h₂ => .peek ?_
    obtain ⟨hfirst, -⟩ := h₂
    refine .branch (P := fun secondId s₃ =>
      ReadsTo s₂ (Option.toList secondId) (⟨.colon, [':'], false⟩ :: words) s₃)
      (fun hat => ?_) (fun hnot => ?_) fun secondId s₃ h₃ => ?_
    · cases second with
      | none => exact .pure (.stay hfirst.faces)
      | some second =>
        rw [hfirst.faces.isAt_eq, beq_iff_eq] at hat
        exact absurd hat (second.kind_ne rfl)
    · cases second with
      | none =>
        rw [hfirst.faces.isAt_eq] at hnot
        exact absurd rfl hnot
      | some second =>
        exact .map ((name_faces hfirst.faces (second.kind_ne rfl)).mono fun _ _ h₃ => h₃.1)
    · refine (advance_faces h₃.faces (by decide)).bind fun _ s₄ h₄ => .pure ⟨nofun, ?_⟩
      exact (hfirst.append h₃).skip h₄.1
  · rw [hfound, h.kind_eq]
    have hname : (first.word blank).kind.isName = true := first.isName_kind
    rw [hname, Bool.true_and]
    cases second with
    | none => rw [h.advanced.kind_eq, beq_self_eq_true, Bool.true_or]
    | some second =>
      have hsecond : (second.word true).kind.isName = true := second.isName_kind
      rw [h.advanced.kind_eq, h.advanced.advanced.kind_eq, hsecond, beq_self_eq_true,
        Bool.true_and, Bool.or_true]

/-! An element of a tuple type, apart from its label. -/

/-- The type of an element without a label. -/
def elementType : TypeSyntax → TypeSyntax
  | .variadic type => type
  | type => type

/-- What follows the type of an element. -/
def ellipsis : TypeSyntax → List Word
  | .variadic _ => [⟨.operator, ['.', '.', '.'], false⟩]
  | _ => []

theorem words_eq_element (type : TypeSyntax) (blank : Bool) :
    type.words blank = (elementType type).words blank ++ ellipsis type := by
  cases type <;> first | rfl | exact (List.append_nil _).symm

theorem readable_element (h : type.readable = true) (hlabel : type.isUnlabelled = true) :
    (elementType type).readable = true ∧ (elementType type).isType = true ∧
      (elementType type).nesting = type.nesting := by
  cases type with
  | variadic inner =>
    rw [TypeSyntax.readable, Bool.and_eq_true] at h
    exact ⟨h.2, h.1, by rw [TypeSyntax.nesting]; rfl⟩
  | labelled => cases hlabel
  | _ => exact ⟨h, rfl, rfl⟩

theorem skipVariadicMark_none (h : s.Faces words)
    (hwords : StartWith (fun kind => kind == .comma || kind == .closeParen) words) :
    Ensures skipVariadicMark s fun _ s' => s' = s := by
  obtain ⟨next, more, rfl, hnext⟩ := hwords
  unfold skipVariadicMark
  refine .peek (.peek (.ite (fun hat => ?_) fun _ => .pure rfl))
  rw [h.isAt_eq, Bool.and_eq_true, beq_iff_eq] at hat
  rw [hat.1] at hnext
  cases hnext

theorem skipVariadicMark_faces (h : s.Faces (ellipsis type ++ words))
    (hwords : StartWith (fun kind => kind == .comma || kind == .closeParen) words) :
    Ensures skipVariadicMark s fun _ s' => ReadsTo s [] words s' := by
  cases type with
  | variadic inner =>
    unfold skipVariadicMark
    refine .peek (.peek (.ite (fun _ => ?_) fun hnot => absurd ?_ hnot))
    · exact (advance_faces h (by decide)).mono fun _ _ h' => h'.1
    · rw [h.isAt_eq, tokenText_eq, h.text_eq]
      decide +kernel
  | _ =>
    have hfaces : s.Faces words := h
    refine (skipVariadicMark_none hfaces hwords).mono fun _ s' h' => ?_
    subst h'
    exact .stay hfaces

/-- The rest of an element, after its label. -/
theorem elementTail_faces (hn : nested.Find n) {first second : Option Nat} {s₁ : State}
    (hs : Ready n s) (hreadable : type.readable = true) (hlabel : type.isUnlabelled = true)
    (h : ReadsTo s (first.toList ++ second.toList) (type.words blank ++ words) s₁)
    (hdepth : s.depth + type.nesting < maxDepth)
    (hwords : StartWith (fun kind => kind == .comma || kind == .closeParen) words) :
    Ensures
      (do
        let type ← nested .type
        skipVariadicMark
        if ← accept .equals then
          let _ ← nested .expression
        finish (.tupleTypeElement first second type) s.offset)
      s₁ fun id s' => ReadsTo s [id] words s' ∧ ∃ inner,
        s'.tree.Formed (.tupleTypeElement first second inner) id ∧ inner < id ∧
          s'.tree.Tells (elementType type) inner := by
  obtain ⟨hread, htype, hnesting⟩ := readable_element hreadable hlabel
  -- The mark of a variadic element is read behind the type, so the type faces that mark.
  have hfaces := h.faces
  rw [words_eq_element, List.append_assoc] at hfaces
  have hnext : StartWith endsType (ellipsis type ++ words) := by
    cases type with
    | variadic inner => exact .cons rfl
    | _ => exact endsType_of_comma rfl hwords
  have hsame := h.depth_eq
  refine (hn.type htype hread (hs.reads h.reads) hfaces (by omega) hnext).bind fun inner s₂ h₂ => ?_
  obtain ⟨hinner, htells⟩ := h₂
  refine (skipVariadicMark_faces hinner.faces hwords).bind fun _ s₃ h₃ => ?_
  obtain ⟨next, more, rfl, hkind⟩ := hwords
  -- No default value: the element ends at a comma or at the parenthesis.
  have hequals : next.kind ≠ .equals := by
    intro heq
    rw [heq] at hkind
    cases hkind
  refine (accept_other h₃.faces hequals).bind fun found s₄ h₄ => ?_
  obtain ⟨rfl, rfl⟩ := h₄
  have hall := (h.append hinner).skip h₃
  have hmade := finish_faces (.tupleTypeElement first second inner) hall (by simp) trivial
  refine hmade.mono fun id s₅ h₅ => ⟨h₅.readsTo, inner, h₅.formed, h₅.lt inner (by simp), ?_⟩
  exact (htells.later h₃.continues).later h₅.continues

theorem tupleTypeElement_faces (hn : nested.Find n) (hs : Ready n s)
    (hreadable : type.readable = true) (h : s.Faces (type.words blank ++ words))
    (hdepth : s.depth + type.nesting < maxDepth)
    (hwords : StartWith (fun kind => kind == .comma || kind == .closeParen) words) :
    Ensures (tupleTypeElement nested) s fun id s' =>
      ReadsTo s [id] words s' ∧ s'.tree.TellsElement type id := by
  unfold tupleTypeElement
  refine .peek ?_
  -- A labelled element reads its labels first; of any other the labels come back empty, since
  -- its words cannot be mistaken for them.
  by_cases hlabel : type.isUnlabelled = true
  · have hnotLabel : NotLabel (type.words blank ++ words) := by
      refine notLabel_words type blank words hreadable hlabel (hwords.mono fun kind hkind => ?_)
      rw [Bool.or_eq_true, beq_iff_eq, beq_iff_eq] at hkind
      rcases hkind with rfl | rfl <;> decide
    refine (elementLabels_plain h hnotLabel).bind fun labels s₁ h₁ => ?_
    obtain ⟨rfl, rfl⟩ := h₁
    have hstay : ReadsTo s₁ ((none : Option Nat).toList ++ (none : Option Nat).toList)
        (type.words blank ++ words) s₁ := .stay h
    refine (elementTail_faces hn hs hreadable hlabel hstay hdepth hwords).mono fun id s₂ h₂ => ?_
    obtain ⟨hread, inner, hform, hlt, htells⟩ := h₂
    refine ⟨hread, ?_⟩
    cases type with
    | variadic inner => exact .variadic hform hlt htells
    | labelled => cases hlabel
    | _ => exact .plain hform hlt htells
  · cases type with
    | labelled first second inner =>
      rw [TypeSyntax.readable, Bool.and_eq_true] at hreadable
      rw [TypeSyntax.words, List.append_assoc] at h
      rw [TypeSyntax.nesting] at hdepth
      refine (elementLabels_faces h).bind fun labels s₁ h₁ => ?_
      obtain ⟨label, second'⟩ := labels
      refine (elementTail_faces hn hs hreadable.2 hreadable.1 h₁.2 hdepth hwords).mono
        fun id s₂ h₂ => ?_
      obtain ⟨hread, inner, hform, -, -⟩ := h₂
      obtain ⟨label, rfl⟩ := Option.ne_none_iff_exists'.mp h₁.1
      exact ⟨hread, .labelled hform⟩
    | _ => exact absurd rfl hlabel

theorem startWith_element (type : TypeSyntax) (blank : Bool) (h : type.readable = true) :
    StartWith (fun kind => kind != .closeParen && kind != .endOfFile) (type.words blank) := by
  have hstarts {kind : Kind} (hkind : startsType kind = true) :
      (kind != .closeParen && kind != .endOfFile) = true := by
    cases kind <;> first | rfl | cases hkind
  match type with
  | .labelled first second inner =>
    refine .cons ?_
    show (first.kind != .closeParen && first.kind != .endOfFile) = true
    rw [bne_iff_ne.mpr (first.kind_ne rfl), bne_iff_ne.mpr (first.kind_ne rfl)]
    rfl
  | .variadic inner =>
    rw [TypeSyntax.readable, Bool.and_eq_true] at h
    exact ((startsType_words inner blank h.2 h.1).append _).mono fun _ => hstarts
  | .named .. | .member .. | .marked .. | .tuple .. | .function .. | .array .. | .dictionary ..
  | .bound .. | .composed .. | .attributed .. =>
    exact (startsType_words _ blank h rfl).mono fun _ => hstarts

/-- The elements of a tuple type, or the parameters of a function type. -/
theorem tupleTypeElements_faces (hn : nested.Find n) (hs : Ready (n + 1) s)
    (hreadable : TypeSyntax.readableAll types = true)
    (h : s.Faces (⟨.openParen, ['('], blank⟩ ::
      (TypeSyntax.listWords types false ++ ⟨.closeParen, [')'], false⟩ :: words)))
    (hdepth : s.depth + TypeSyntax.nestingAll types ≤ maxDepth) :
    Ensures (tupleTypeElements nested) s fun ids s' => ReadsTo s ids words s' ∧
      s.offset < s'.offset ∧ List.Forall₂ s'.tree.TellsElement types ids := by
  unfold tupleTypeElements
  refine (advance_faces h nofun).bind fun _ s₁ h₁ => ?_
  have hs₁ := hs.moved h₁.1.reads h₁.2
  have hlist := h₁.1.faces
  rw [listWords_eq] at hlist
  refine .bind (P := fun ids s₂ => ReadsTo s₁ ids (⟨.closeParen, [')'], false⟩ :: words) s₂ ∧
    List.Forall₂ (fun type id => s₂.tree.TellsElement type id) types ids) ?_ ?_
  · refine separatedUntil_faces .closeParen (fun type t id => t.TellsElement type id) (by decide)
      (fun htells ht => htells.later ht) ?_ ?_ hlist rfl
    · intro type hmem blank
      exact startWith_element type blank (readable_of_mem hreadable hmem)
    · intro type hmem blank words ids s₂ h₂ hnext
      refine tupleTypeElement_faces hn (hs₁.reads h₂.reads) (readable_of_mem hreadable hmem) h₂.faces
        ?_ hnext
      -- The list is read one level inside, which `hs₁` accounts for.
      have hlt := nesting_lt_of_mem hmem
      have hsame := h₂.depth_eq.trans h₁.1.depth_eq
      omega
  · intro ids s₂ h₂
    refine (closeList_here h₂.1.faces rfl (by decide) _ _).bind fun _ s₃ h₃ => .pure ⟨?_, ?_, ?_⟩
    · exact (h₁.1.append h₂.1).skip h₃
    · exact (h₂.1.skip h₃).reads.offset_lt h₁.2
    · exact h₂.2.imp fun _ _ htells => htells.later h₃.continues

end Grammar
end SelfCapture
