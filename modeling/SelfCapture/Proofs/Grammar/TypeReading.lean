import SelfCapture.Proofs.Grammar.Speculation
import SelfCapture.Proofs.Grammar.TypeParts

/-! # Types are read back

  Where a readable type is written, and no more types are open than allowed,
  its words are read as one type, whose node tells of a closure what the type
  tells.  `reader_find` says so of the readers of nested phrases, and
  `type_faces` of any type.
-/

namespace SelfCapture.Grammar

open Token (Kind Name Word)

variable {n : Nat} {s : State} {nested : Readers} {type base : TypeSyntax}
  {types : List TypeSyntax} {blank : Bool} {word : Word} {words : List Word}

/-! ## Section 1: Tuples and functions -/

/-- What is not attached to the last token is not skipped. -/
theorem skipAttachedParens_faces (h : s.Faces (word :: words))
    (hword : word.kind ≠ .openParen ∨ word.blank = true) :
    Ensures skipAttachedParens s fun _ s' => s' = s := by
  unfold skipAttachedParens
  refine .peek (.peek (.ite (fun hat => ?_) fun _ => .pure rfl))
  rw [h.isAt_eq, h.afterBlank_eq, Bool.and_eq_true, beq_iff_eq, Bool.not_eq_true'] at hat
  rcases hword with hkind | hblank
  · exact absurd hat.1 hkind
  · exact absurd (hblank.symm.trans hat.2) nofun

/-- Kinds of tokens before which a row of effects ends. -/
def endsEffects (kind : Kind) : Bool := endsPrimary kind || kind == .arrow

theorem ne_of_endsEffects {kind other : Kind} (h : endsEffects kind = true)
    (hother : endsEffects other = false) : kind ≠ other := by
  rintro rfl
  exact absurd (h.symm.trans hother) nofun

/-- No parenthesis follows an effect. -/
theorem effects_not_attached (effects : List Effect) (words : List Word)
    (hword : endsEffects word.kind = true) :
    ∃ next more, effects.map (·.name.word true) ++ word :: words = next :: more ∧
      (next.kind ≠ .openParen ∨ next.blank = true) := by
  cases effects with
  | nil => exact ⟨word, words, rfl, .inl (ne_of_endsEffects hword rfl)⟩
  | cons effect effects => exact ⟨effect.name.word true, _, rfl, .inr rfl⟩

theorem skipEffects_faces {effects : List Effect}
    (h : s.Faces (effects.map (·.name.word true) ++ word :: words))
    (hword : endsEffects word.kind = true) :
    Ensures skipEffects s fun found s' =>
      ReadsTo s [] (word :: words) s' ∧ found = !effects.isEmpty := by
  unfold skipEffects
  refine loop_ensures
    (I := fun found s₁ => ∃ before after, effects = before ++ after ∧
      found = !before.isEmpty ∧ ReadsTo s [] (after.map (·.name.word true) ++ word :: words) s₁)
    h.settled ⟨[], effects, rfl, rfl, .stay h⟩ ?_
  rintro found s₁ ⟨before, after, rfl, rfl, h₁⟩ -
  cases after with
  | nil =>
    have hfaces : s₁.Faces (word :: words) := h₁.faces
    refine .peek (.ite (fun hat => ?_) fun _ => .peek (.ite (fun hat => ?_) fun _ => .peek
      (.ite (fun hat => ?_) fun _ => .pure ⟨h₁, by rw [List.append_nil]⟩)))
    · rw [hfaces.isOneOf_eq, Bool.and_eq_true, beq_iff_eq] at hat
      exact absurd hat.1 (ne_of_endsEffects hword rfl)
    · rw [hfaces.isAt_eq, beq_iff_eq] at hat
      exact absurd hat (ne_of_endsEffects hword rfl)
    · rw [hfaces.isAt_eq, beq_iff_eq] at hat
      exact absurd hat (ne_of_endsEffects hword rfl)
  | cons effect after =>
    have hfaces : s₁.Faces (effect.name.word true :: (after.map (·.name.word true) ++ word :: words)) :=
      h₁.faces
    -- The next round starts after the effect.
    have hround : ∀ s₂, ReadsTo s₁ [] (after.map (·.name.word true) ++ word :: words) s₂ →
        s₁.offset < s₂.offset →
        (∃ before' after', before ++ effect :: after = before' ++ after' ∧
          true = !before'.isEmpty ∧ ReadsTo s [] (after'.map (·.name.word true) ++ word :: words) s₂) ∧
        Moved s₁ s₂ := by
      intro s₂ h₂ hlt
      exact ⟨⟨before ++ [effect], after, by simp, by simp, h₁.skip h₂⟩, h₂.reads.moved hlt⟩
    have hstep := advance_faces hfaces (effect.name.kind_ne rfl)
    refine .peek (.ite (fun _ => ?_) fun hasync => .peek (.ite (fun _ => ?_) fun hthrows => .peek
      (.ite (fun _ => ?_) fun hrethrows => ?_)))
    · exact hstep.bind fun _ s₂ h₂ => .pure (hround s₂ h₂.1 h₂.2)
    · refine hstep.bind fun _ s₂ h₂ => ?_
      obtain ⟨next, more, hnext, hattached⟩ := effects_not_attached after words hword
      have hfaces₂ := h₂.1.faces
      rw [hnext] at hfaces₂
      refine (skipAttachedParens_faces hfaces₂ hattached).bind fun _ s₃ h₃ => ?_
      subst h₃
      exact .pure (hround s₃ h₂.1 h₂.2)
    · exact hstep.bind fun _ s₂ h₂ => .pure (hround s₂ h₂.1 h₂.2)
    · rw [hfaces.isOneOf_eq] at hasync
      rw [hfaces.isAt_eq] at hthrows hrethrows
      cases effect with
      | async => exact absurd (by decide +kernel) hasync
      | reasync => exact absurd (by decide +kernel) hasync
      | throws => exact absurd (by decide +kernel) hthrows
      | rethrows => exact absurd (by decide +kernel) hrethrows

theorem tuple_faces (hn : nested.Find n) (hs : Ready (n + 1) s)
    (hreadable : TypeSyntax.readableAll types = true)
    (h : s.Faces ((TypeSyntax.tuple types).words blank ++ words))
    (hdepth : s.depth + TypeSyntax.nestingAll types ≤ maxDepth)
    (hwords : StartWith endsPrimary words) :
    Ensures (tupleOrFunctionType nested) s (Finds s (.tuple types) words) := by
  simp only [TypeSyntax.words, List.cons_append, List.append_assoc, List.nil_append] at h
  obtain ⟨next, more, rfl, hnext⟩ := hwords
  unfold tupleOrFunctionType
  refine .peek ((tupleTypeElements_faces hn hs hreadable h hdepth).bind fun ids s₁ h₁ => ?_)
  obtain ⟨helements, -, htells⟩ := h₁
  have hends : endsEffects next.kind = true := by rw [endsEffects, hnext, Bool.true_or]
  have hfaces : s₁.Faces (([] : List Effect).map (·.name.word true) ++ next :: more) := helements.faces
  refine (skipEffects_faces hfaces hends).bind fun found s₂ h₂ => ?_
  obtain ⟨heffects, rfl⟩ := h₂
  have harrow : next.kind ≠ .arrow := by
    intro heq
    rw [heq] at hnext
    cases hnext
  refine (accept_other heffects.faces harrow).bind fun found s₃ h₃ => ?_
  obtain ⟨rfl, rfl⟩ := h₃
  have hmade := finish_faces (.tupleType ids) (helements.skip heffects) (by simp) trivial
  refine hmade.mono fun id s₄ h₄ => ⟨h₄.readsTo, ?_⟩
  refine Tree.tells_tuple h₄.formed (by simpa using h₄.lt) ?_
  exact htells.imp fun _ _ hsay => (hsay.later heffects.continues).later h₄.continues

theorem function_faces (hn : nested.Find n) (hs : Ready (n + 1) s) {effects : List Effect}
    {result : TypeSyntax} (hreadable : (TypeSyntax.function types effects result).readable = true)
    (h : s.Faces ((TypeSyntax.function types effects result).words blank ++ words))
    (hdepth : s.depth + (TypeSyntax.function types effects result).nesting ≤ maxDepth)
    (hwords : StartWith endsType words) :
    Ensures (tupleOrFunctionType nested) s (Finds s (.function types effects result) words) := by
  simp only [TypeSyntax.readable, Bool.and_eq_true] at hreadable
  simp only [TypeSyntax.words, List.cons_append, List.append_assoc] at h
  rw [TypeSyntax.nesting] at hdepth
  unfold tupleOrFunctionType
  refine .peek ((tupleTypeElements_faces hn hs hreadable.1.1 h (by omega)).bind fun ids s₁ h₁ => ?_)
  obtain ⟨hparameters, hlt, -⟩ := h₁
  refine (skipEffects_faces hparameters.faces rfl).bind fun found s₂ h₂ => ?_
  obtain ⟨heffects, -⟩ := h₂
  refine (accept_here heffects.faces rfl (by decide)).bind fun found s₃ h₃ => ?_
  obtain ⟨rfl, harrow, -⟩ := h₃
  have hhead := (hparameters.skip heffects).skip harrow
  have hready := (hs.moved hparameters.reads hlt).reads (heffects.skip harrow).reads
  have hsame := hhead.depth_eq
  refine (hn.type hreadable.1.2 hreadable.2 hready hhead.faces (by omega) hwords).bind
    fun resultId s₄ h₄ => ?_
  have hmade := finish_faces (.functionType ids (some resultId)) (hhead.append h₄.1) (by simp) trivial
  exact hmade.mono fun id s₅ h₅ => ⟨h₅.readsTo, Tree.tells_function h₅.formed⟩

/-! ## Section 2: Collections -/

theorem array_faces (hn : nested.Find n) (hs : Ready (n + 1) s)
    (hreadable : (TypeSyntax.array base).readable = true)
    (h : s.Faces ((TypeSyntax.array base).words blank ++ words))
    (hdepth : s.depth + (TypeSyntax.array base).nesting ≤ maxDepth) :
    Ensures (collectionType nested) s (Finds s (.array base) words) := by
  simp only [TypeSyntax.readable, Bool.and_eq_true] at hreadable
  simp only [TypeSyntax.words, List.cons_append, List.append_assoc, List.nil_append] at h
  rw [TypeSyntax.nesting] at hdepth
  unfold collectionType
  refine .peek ((advance_faces h (show Kind.openBracket ≠ .endOfFile by decide)).bind fun _ s₁ h₁ => ?_)
  have hsame := h₁.1.depth_eq
  refine (hn.type hreadable.1 hreadable.2 (hs.moved h₁.1.reads h₁.2) h₁.1.faces (by omega)
    (.cons rfl)).bind fun element s₂ h₂ => ?_
  refine (accept_other h₂.1.faces (by decide)).bind fun found s₃ h₃ => ?_
  obtain ⟨rfl, rfl⟩ := h₃
  show Ensures (do let _ ← expect .closeBracket "']'"; finish (.collectionType [element]) s.offset) _ _
  refine (expect_here h₂.1.faces rfl (by decide) _).bind fun _ s₄ h₄ => ?_
  have hmade := finish_faces (.collectionType [element]) ((h₁.1.append h₂.1).skip h₄.2.1)
    (by simp) trivial
  refine hmade.mono fun id s₅ h₅ => ⟨h₅.readsTo, ?_⟩
  exact Tree.tells_nothing h₅.formed (.inl ⟨_, rfl⟩) fun _ _ => rfl

theorem dictionary_faces (hn : nested.Find n) (hs : Ready (n + 1) s) {key value : TypeSyntax}
    (hreadable : (TypeSyntax.dictionary key value).readable = true)
    (h : s.Faces ((TypeSyntax.dictionary key value).words blank ++ words))
    (hdepth : s.depth + (TypeSyntax.dictionary key value).nesting ≤ maxDepth) :
    Ensures (collectionType nested) s (Finds s (.dictionary key value) words) := by
  simp only [TypeSyntax.readable, Bool.and_eq_true] at hreadable
  simp only [TypeSyntax.words, List.cons_append, List.append_assoc, List.nil_append] at h
  rw [TypeSyntax.nesting] at hdepth
  unfold collectionType
  refine .peek ((advance_faces h (show Kind.openBracket ≠ .endOfFile by decide)).bind fun _ s₁ h₁ => ?_)
  -- Both types are nested behind the bracket, the second one behind the first.
  have hready := hs.moved h₁.1.reads h₁.2
  have hsame := h₁.1.depth_eq
  refine (hn.type hreadable.1.1.1 hreadable.1.1.2 hready h₁.1.faces (by omega)
    (.cons rfl)).bind fun keyId s₂ h₂ => ?_
  refine (accept_here h₂.1.faces rfl (by decide)).bind fun found s₃ h₃ => ?_
  obtain ⟨rfl, hcolon, -⟩ := h₃
  have hhead := (h₁.1.append h₂.1).skip hcolon
  have hsame := hhead.depth_eq
  refine (hn.type hreadable.1.2 hreadable.2 (hready.reads (h₂.1.skip hcolon).reads) hhead.faces
    (by omega) (.cons rfl)).bind fun valueId s₄ h₄ => ?_
  show Ensures
    (do let _ ← expect .closeBracket "']'"; finish (.collectionType [keyId, valueId]) s.offset) _ _
  refine (expect_here h₄.1.faces rfl (by decide) _).bind fun _ s₅ h₅ => ?_
  have hmade := finish_faces (.collectionType [keyId, valueId]) ((hhead.append h₄.1).skip h₅.2.1)
    (by simp) trivial
  refine hmade.mono fun id s₆ h₆ => ⟨h₆.readsTo, ?_⟩
  exact Tree.tells_nothing h₆.formed (.inl ⟨_, rfl⟩) fun _ _ => rfl

/-! ## Section 3: Types without suffixes -/

/-- A name with its generic arguments. -/
theorem genericName_faces (hn : nested.Find n) (hs : Ready (n + 1) s) {name : TypeName}
    (hreadable : (TypeSyntax.named name types).readable = true)
    (h : s.Faces ((TypeSyntax.named name types).words blank ++ words))
    (hdepth : s.depth + TypeSyntax.nestingAll types ≤ maxDepth)
    (hwords : StartWith endsPrimary words) :
    Ensures
      (do
        let name ← Grammar.name
        let generics ← genericArguments nested
        finish (.typeRef none name generics) s.offset)
      s (Finds s (.named name types) words) := by
  simp only [TypeSyntax.readable, Bool.and_eq_true] at hreadable
  simp only [TypeSyntax.words, List.cons_append] at h
  refine (name_faces h (name.kind_ne rfl)).bind fun nameId s₁ h₁ => ?_
  obtain ⟨hname, hlt, hspelled⟩ := h₁
  have hsame := hname.depth_eq
  refine (genericArguments_faces hn (hs.moved hname.reads hlt) hreadable.2 hreadable.1 hname.faces
    (by omega) hwords).bind fun ids s₂ h₂ => ?_
  have hmade := finish_faces (.typeRef none nameId ids) (hname.append h₂.1) (by simp) trivial
  refine hmade.mono fun id s₃ h₃ => ⟨h₃.readsTo, Tree.tells_named h₃.formed ?_ ?_ ?_⟩
  · exact (hspelled.later h₂.1.continues).later h₃.continues
  · intro argument hmem
    exact h₃.lt argument (by simp [hmem])
  · exact h₂.2.imp fun _ _ hsay => hsay.later h₃.continues

/-- Types that are read without suffixes. -/
def isPrimary : TypeSyntax → Bool
  | .named .. | .tuple .. | .function .. | .array .. | .dictionary .. | .bound .. => true
  | _ => false

theorem atOpaque_binder {binder : Binder} (h : s.Faces (binder.name.word blank :: words))
    (hwords : StartWith startsType words) :
    Ensures atOpaque s fun found s' => found = true ∧ s' = s := by
  obtain ⟨next, more, rfl, hnext⟩ := hwords
  unfold atOpaque
  refine .peek (.ite (fun _ => ?_) fun hnot => absurd ?_ hnot)
  · exact (typeFollows_faces h).mono fun found s' h' => ⟨h'.2.trans hnext, h'.1⟩
  · rw [h.isOneOf_eq]
    show (binder.name.kind == .identifier && ["some", "any"].contains binder.name.text) = true
    rw [binder.kind_name]
    cases binder <;> decide +kernel

theorem named_faces (hn : nested.Find n) (hs : Ready (n + 1) s) {name : TypeName}
    (hreadable : (TypeSyntax.named name types).readable = true)
    (h : s.Faces ((TypeSyntax.named name types).words blank ++ words))
    (hdepth : s.depth + TypeSyntax.nestingAll types ≤ maxDepth)
    (hwords : StartWith endsPrimary words) :
    Ensures (primaryType nested) s (Finds s (.named name types) words) := by
  have hname := genericName_faces hn hs hreadable h hdepth hwords
  have hkind : (kind s).1 = name.kind := h.kind_eq
  unfold primaryType
  refine .peek (.peek ?_)
  rw [hkind]
  rcases name.starts with hplain | hself
  · -- An identifier could also open an opaque type, which takes another type after it.
    rw [hplain]
    have halone := alone_words _ blank words ["some", "any"] rfl hreadable nofun hwords
    refine (atOpaque_plain h halone).bind fun found s₁ h₁ => ?_
    obtain ⟨rfl, rfl⟩ := h₁
    exact hname
  · rw [hself]
    exact hname

theorem bound_faces (hn : nested.Find n) (hs : Ready (n + 1) s) {binder : Binder}
    (hreadable : (TypeSyntax.bound binder base).readable = true)
    (h : s.Faces ((TypeSyntax.bound binder base).words blank ++ words))
    (hdepth : s.depth + (TypeSyntax.bound binder base).nesting ≤ maxDepth)
    (hwords : StartWith endsType words) :
    Ensures (primaryType nested) s (Finds s (.bound binder base) words) := by
  have hkind : (kind s).1 = .identifier := h.kind_eq.trans binder.kind_name
  unfold primaryType
  refine .peek (.peek ?_)
  rw [hkind]
  simp only [TypeSyntax.readable, Bool.and_eq_true] at hreadable
  have hstart := (startsType_words base true hreadable.2 (isType_of_isPlain hreadable.1)).append words
  refine (atOpaque_binder h hstart).bind fun found s₁ h₁ => ?_
  obtain ⟨rfl, rfl⟩ := h₁
  refine .peek ((advance_faces h (binder.name.kind_ne rfl)).bind fun _ s₂ h₂ => ?_)
  have hsame := h₂.1.depth_eq
  rw [TypeSyntax.nesting] at hdepth
  refine (hn.composition hreadable.1 hreadable.2 (hs.moved h₂.1.reads h₂.2) h₂.1.faces (by omega)
    hwords).bind fun inner s₃ h₃ => ?_
  have hmade := finish_faces (.opaqueType (isWord "any" s₁).1 inner) (h₂.1.append h₃.1)
    (by simp) trivial
  refine hmade.mono fun id s₄ h₄ => ⟨h₄.readsTo, ?_⟩
  exact Tree.tells_nothing h₄.formed (.inr (.inl ⟨_, _, rfl⟩)) fun _ _ => rfl

/-- A type without suffixes is read by what its first token calls for. -/
theorem primaryType_faces (hn : nested.Find n) (hs : Ready (n + 1) s)
    (hprimary : isPrimary type = true) (hreadable : type.readable = true)
    (h : s.Faces (type.words blank ++ words)) (hdepth : s.depth + type.nesting ≤ maxDepth)
    (hwords : StartWith endsPrimary words)
    (hlast : type.isPostfix = false → StartWith endsType words) :
    Ensures (primaryType nested) s (Finds s type words) := by
  have hparen (hkind : (kind s).1 = .openParen)
      (hread : Ensures (tupleOrFunctionType nested) s (Finds s type words)) :
      Ensures (primaryType nested) s (Finds s type words) := by
    unfold primaryType
    refine .peek (.peek ?_)
    rw [hkind]
    exact hread
  have hbracket (hkind : (kind s).1 = .openBracket)
      (hread : Ensures (collectionType nested) s (Finds s type words)) :
      Ensures (primaryType nested) s (Finds s type words) := by
    unfold primaryType
    refine .peek (.peek ?_)
    rw [hkind]
    exact hread
  cases type with
  | named name arguments => exact named_faces hn hs hreadable h hdepth hwords
  | bound binder base => exact bound_faces hn hs hreadable h hdepth (hlast rfl)
  | tuple elements => exact hparen h.kind_eq (tuple_faces hn hs hreadable h hdepth hwords)
  | function parameters effects result =>
    exact hparen h.kind_eq (function_faces hn hs hreadable h hdepth (hlast rfl))
  | array element => exact hbracket h.kind_eq (array_faces hn hs hreadable h hdepth)
  | dictionary key value => exact hbracket h.kind_eq (dictionary_faces hn hs hreadable h hdepth)
  | _ => cases hprimary

/-! ## Section 4: Suffixes -/

/-- With the suffixes written after it, a type becomes another one.  All
    generic arguments are readable and not nested too deep. -/
inductive Suffixes (limit : Nat) (type : TypeSyntax) : TypeSyntax → List Word → Prop where
  | done : Suffixes limit type type []
  | mark {base : TypeSyntax} {mark : Mark} {words : List Word}
      (h : Suffixes limit type (.marked base mark) words) :
      Suffixes limit type base (mark.word :: words)
  | member {base : TypeSyntax} {name : Name} {arguments : List TypeSyntax} {words : List Word}
      (h : Suffixes limit type (.member base name arguments) words)
      (htypes : arguments.all TypeSyntax.isType = true)
      (hreadable : TypeSyntax.readableAll arguments = true)
      (hnesting : TypeSyntax.nestingAll arguments ≤ limit) :
      Suffixes limit type base (⟨.dot, ['.'], false⟩ :: name.word false ::
        TypeSyntax.angled (TypeSyntax.listWords arguments false) ++ words)

namespace Suffixes

variable {limit : Nat} {before : List Word}

theorem trans {other : TypeSyntax} (h : Suffixes limit other base before)
    (h' : Suffixes limit type other words) : Suffixes limit type base (before ++ words) := by
  induction h with
  | done => exact h'
  | mark _ ih => exact .mark ih
  | member _ htypes hreadable hnesting ih =>
    simp only [List.cons_append, List.append_assoc]
    exact .member ih htypes hreadable hnesting

theorem mono {limit' : Nat} (h : Suffixes limit type base before) (hle : limit ≤ limit') :
    Suffixes limit' type base before := by
  induction h with
  | done => exact .done
  | mark _ ih => exact .mark ih
  | member _ htypes hreadable hnesting ih =>
    exact .member ih htypes hreadable (Nat.le_trans hnesting hle)

theorem startWith (h : Suffixes limit type base before) (hwords : StartWith endsPrimary words) :
    StartWith endsPrimary (before ++ words) := by
  cases h with
  | done => exact hwords
  | @mark _ mark => exact .cons (by cases mark <;> rfl)
  | member => exact .cons rfl

end Suffixes

/-- A type that a suffix can follow is one without suffixes and the suffixes after it. -/
theorem exists_suffixes (type : TypeSyntax) (hpost : type.isPostfix = true)
    (hreadable : type.readable = true) :
    ∃ base before, isPrimary base = true ∧ base.isPostfix = true ∧ base.readable = true ∧
      base.nesting ≤ type.nesting ∧ Suffixes type.nesting type base before ∧
      ∀ blank, type.words blank = base.words blank ++ before := by
  -- The suffixes are peeled off from the right, and the base of what is left is the base of all.
  match type with
  | .named .. | .tuple .. | .array .. | .dictionary .. =>
    exact ⟨_, [], rfl, rfl, hreadable, Nat.le_refl _, .done, fun _ => (List.append_nil _).symm⟩
  | .marked inner mark =>
    simp only [TypeSyntax.readable, Bool.and_eq_true] at hreadable
    obtain ⟨base, before, hprimary, hbase, hread, hnesting, hsuffixes, hwords⟩ :=
      exists_suffixes inner hreadable.1.1 hreadable.1.2
    rw [TypeSyntax.nesting]
    refine ⟨base, before ++ [mark.word], hprimary, hbase, hread, hnesting, ?_, fun blank => ?_⟩
    · exact hsuffixes.trans (.mark .done)
    · rw [TypeSyntax.words, hwords, List.append_assoc]
  | .member inner name arguments =>
    simp only [TypeSyntax.readable, Bool.and_eq_true] at hreadable
    obtain ⟨base, before, hprimary, hbase, hread, hnesting, hsuffixes, hwords⟩ :=
      exists_suffixes inner hreadable.1.1.1 hreadable.1.1.2
    rw [TypeSyntax.nesting]
    have hmember : Suffixes (max inner.nesting (TypeSyntax.nestingAll arguments))
        (.member inner name arguments) inner _ :=
      .member .done hreadable.1.2 hreadable.2 (Nat.le_max_right _ _)
    refine ⟨base, _, hprimary, hbase, hread, Nat.le_trans hnesting (Nat.le_max_left _ _),
      (hsuffixes.mono (Nat.le_max_left _ _)).trans hmember, fun blank => ?_⟩
    rw [TypeSyntax.words, hwords, List.append_assoc, List.append_nil]
  | .function .. | .bound .. | .composed .. | .attributed .. | .labelled .. | .variadic .. =>
    cases hpost

/-- A type has been read, and what follows makes it the whole type. -/
def Reaches (s : State) (limit : Nat) (type : TypeSyntax) (words : List Word) (id : Nat)
    (s' : State) : Prop :=
  ∃ reached after, Suffixes limit type reached after ∧ Finds s reached (after ++ words) id s'

theorem mark_advances {limit id : Nat} {mark : Mark} {after : List Word} {s₁ : State}
    (hafter : Suffixes limit type (.marked base mark) after)
    (h : Finds s base (mark.word :: (after ++ words)) id s₁) :
    Ensures
      (do
        if ← afterBlank then
          return .done id
        else
          let implicitlyUnwrapped ← isAt .exclamation
          advance
          return .yield (← finish (.optionalType id implicitlyUnwrapped) s.offset))
      s₁ (Advances (Reaches s limit type words) (Finds s type words) s₁) := by
  obtain ⟨hread, htells⟩ := h
  have hblank : mark.word.blank = false := by cases mark <;> rfl
  have hend : mark.word.kind ≠ .endOfFile := by cases mark <;> decide
  refine .peek (.ite (fun hno => ?_) fun _ => .peek ?_)
  · rw [hread.faces.afterBlank_eq, hblank] at hno
    cases hno
  · refine (advance_faces hread.faces hend).bind fun _ s₂ h₂ => ?_
    have hround := finish_round (.optionalType id (isAt .exclamation s₁).1) (hread.append h₂.1)
      (h₂.1.reads.moved h₂.2) (by simp) trivial
    refine hround.bind fun node s₃ h₃ => .pure ⟨⟨_, after, hafter, h₃.1.readsTo, ?_⟩, h₃.2⟩
    refine Tree.tells_marked h₃.1.formed (h₃.1.lt id (by simp)) ?_
    exact (htells.later h₂.1.continues).later h₃.1.continues

theorem member_advances (hn : nested.Find n) (hs : Ready (n + 1) s) {limit id : Nat} {name : Name}
    {after : List Word} {s₁ : State} (hafter : Suffixes limit type (.member base name types) after)
    (htypes : types.all TypeSyntax.isType = true)
    (hreadable : TypeSyntax.readableAll types = true)
    (hdepth : s.depth + TypeSyntax.nestingAll types ≤ maxDepth)
    (h : Finds s base (⟨.dot, ['.'], false⟩ :: name.word false ::
      (TypeSyntax.angled (TypeSyntax.listWords types false) ++ (after ++ words))) id s₁)
    (hwords : StartWith endsPrimary words) :
    Ensures
      (do
        if ← afterLineBreak then
          return .done id
        else
          advance
          if ← isName then
            let name ← Grammar.name
            let generics ← genericArguments nested
            return .yield (← finish (.typeRef (some id) name generics) s.offset)
          else
            reportExpected "Identifier"
            return .done id)
      s₁ (Advances (Reaches s limit type words) (Finds s type words) s₁) := by
  obtain ⟨hread, htells⟩ := h
  refine .peek (.ite (fun hno => ?_) fun _ => ?_)
  · rw [hread.faces.afterLineBreak_eq] at hno
    cases hno
  · -- The dot is on the line of the base, and a name stands behind it: neither way out is taken.
    refine (advance_faces hread.faces (by decide)).bind fun _ s₂ h₂ => .peek ?_
    obtain ⟨hdot, hlt⟩ := h₂
    have hname : (isName s₂).1 = true := hdot.faces.isName_eq.trans name.isName_kind
    refine .ite (fun _ => ?_) fun hnot => absurd hname hnot
    refine (name_faces hdot.faces (name.kind_ne rfl)).bind fun nameId s₃ h₃ => ?_
    obtain ⟨hmember, -, hspelled⟩ := h₃
    have hhead := (hread.skip hdot).append hmember
    -- The base has been read, so the arguments are nested in less text than the whole type.
    have hready : Ready n s₃ := by
      refine hs.moved hhead.reads (Nat.lt_of_le_of_lt hread.reads.offset_le ?_)
      exact hmember.reads.offset_lt hlt
    have hsame := hhead.depth_eq
    refine (genericArguments_faces hn hready hreadable htypes hmember.faces (by omega)
      (hafter.startWith hwords)).bind fun ids s₄ h₄ => ?_
    obtain ⟨hgenerics, harguments⟩ := h₄
    have hmoved : Moved s₁ s₄ := by
      refine ((hdot.append hmember).append hgenerics).reads.moved ?_
      exact (hmember.append hgenerics).reads.offset_lt hlt
    -- The node for the member replaces the base, and the loop goes on from it.
    have hround := finish_round (.typeRef (some id) nameId ids) (hhead.append hgenerics) hmoved
      (by simp) trivial
    refine hround.bind fun node s₅ h₅ => .pure ⟨⟨_, after, hafter, h₅.1.readsTo, ?_⟩, h₅.2⟩
    refine Tree.tells_member h₅.1.formed ?_ (fun argument hmem => h₅.1.lt argument (by simp [hmem])) ?_
    · exact (hspelled.later hgenerics.continues).later h₅.1.continues
    · exact harguments.imp fun _ _ hsay => hsay.later h₅.1.continues

theorem suffixedType_faces (hn : nested.Find n) (hs : Ready (n + 1) s)
    {before : List Word} {limit : Nat} (hprimary : isPrimary base = true)
    (hreadable : base.readable = true) (hsuffixes : Suffixes limit type base before)
    (h : s.Faces (base.words blank ++ (before ++ words)))
    (hdepth : s.depth + base.nesting ≤ maxDepth) (hlimit : s.depth + limit ≤ maxDepth)
    (hwords : StartWith endsMember words)
    (hlast : base.isPostfix = false → StartWith endsType (before ++ words)) :
    Ensures (suffixedType nested) s (Finds s type words) := by
  have hends : StartWith endsPrimary words :=
    hwords.mono fun kind hkind => by simp [endsPrimary, hkind]
  unfold suffixedType
  refine .peek ?_
  refine (primaryType_faces hn hs hprimary hreadable h hdepth (hsuffixes.startWith hends)
    hlast).bind fun baseId s₁ h₁ => ?_
  -- Each round of the loop takes one suffix; the invariant says which type has been read and which
  -- suffixes are still ahead.
  refine loop_ensures (I := Reaches s limit type words) h₁.1.reads.settled
    ⟨base, before, hsuffixes, h₁⟩ ?_
  rintro id s₂ ⟨reached, after, hafter, hfinds⟩ -
  refine .peek ?_
  cases hafter with
  | done =>
    -- What follows a type is none of the three kinds that the loop goes on with.
    obtain ⟨next, more, rfl, hnext⟩ := hwords
    have hkind : (kind s₂).1 = next.kind := hfinds.1.faces.kind_eq
    rw [hkind]
    split
    · rename_i heq
      rw [heq] at hnext
      cases hnext
    · rename_i heq
      rw [heq] at hnext
      cases hnext
    · rename_i heq
      rw [heq] at hnext
      cases hnext
    · exact .pure hfinds
  | @mark _ mark after hafter =>
    have hkind : (kind s₂).1 = mark.word.kind := hfinds.1.faces.kind_eq
    rw [hkind]
    cases mark with
    | optional => exact mark_advances hafter hfinds
    | unwrapped => exact mark_advances hafter hfinds
  | @member _ name arguments after hafter htypes hreadable hnesting =>
    have hkind : (kind s₂).1 = .dot := hfinds.1.faces.kind_eq
    rw [hkind]
    simp only [List.cons_append, List.append_assoc] at hfinds
    exact member_advances hn hs hafter htypes hreadable (by omega) hfinds hends

/-! ## Section 5: Compositions -/

theorem endsMember_of_endsType {kind : Kind} (h : endsType kind = true) : endsMember kind = true := by
  rw [endsMember, h, Bool.true_or]

theorem endsPrimary_of_endsType {kind : Kind} (h : endsType kind = true) :
    endsPrimary kind = true := by
  rw [endsPrimary, endsMember_of_endsType h, Bool.true_or, Bool.true_or, Bool.true_or]

/-- The member of a composition. -/
theorem memberType_faces (hn : nested.Find n) (hs : Ready (n + 1) s)
    (hpost : type.isPostfix = true) (hreadable : type.readable = true)
    (h : s.Faces (type.words blank ++ words)) (hdepth : s.depth + type.nesting ≤ maxDepth)
    (hwords : StartWith endsMember words) :
    Ensures (suffixedType nested) s (Finds s type words) := by
  obtain ⟨base, before, hprimary, hbase, hread, hnesting, hsuffixes, heq⟩ :=
    exists_suffixes type hpost hreadable
  rw [heq, List.append_assoc] at h
  refine suffixedType_faces hn hs hprimary hread hsuffixes h (by omega) hdepth hwords fun hno => ?_
  exact absurd (hbase.symm.trans hno) nofun

theorem othersWords_eq (types : List TypeSyntax) (blank : Bool) :
    TypeSyntax.othersWords types =
      rowWords (fun type _ => ⟨.ampersand, ['&'], true⟩ :: type.words true) types blank := by
  induction types generalizing blank with
  | nil => rfl
  | cons type types ih => rw [TypeSyntax.othersWords, rowWords, ih true]

theorem endsMember_others (types : List TypeSyntax) (hwords : StartWith endsType words) :
    StartWith endsMember (TypeSyntax.othersWords types ++ words) := by
  cases types with
  | nil => exact hwords.mono fun _ => endsMember_of_endsType
  | cons type types => exact .cons rfl

/-- The members after the first one. -/
theorem others_faces (hn : nested.Find n) (hs : Ready (n + 1) s)
    (hpost : types.all TypeSyntax.isPostfix = true)
    (hreadable : TypeSyntax.readableAll types = true)
    (h : s.Faces (TypeSyntax.othersWords types ++ words))
    (hdepth : ∀ type ∈ types, s.depth + type.nesting ≤ maxDepth)
    (hwords : StartWith endsType words) :
    Ensures (gatherWhile (accept .ampersand) do return [← suffixedType nested]) s fun ids s' =>
      ReadsTo s ids words s' := by
  rw [othersWords_eq types true] at h
  refine (gatherWhile_faces (fun type t id => t.Tells type id) (fun htells ht => htells.later ht) ?_ ?_
    h).mono fun ids s' h' => h'.1
  · -- One round: the ampersand, then the next member type.
    intro type hmem blank after ids s₁ h₁
    simp only [List.cons_append] at h₁
    refine (accept_here h₁.faces rfl (by decide)).mono fun found s₂ h₂ => ⟨h₂.1, ?_⟩
    obtain ⟨-, hamp, hlt⟩ := h₂
    rw [← othersWords_eq after true] at hamp ⊢
    have hsame := (h₁.skip hamp).depth_eq
    have hle := hdepth type hmem
    refine (memberType_faces hn (hs.reads (h₁.skip hamp).reads)
      (List.all_eq_true.mp hpost type hmem) (readable_of_mem hreadable hmem) hamp.faces
      (by omega) (endsMember_others after hwords)).mono fun id s₃ h₃ => ⟨hamp.append h₃.1, ?_, h₃.2⟩
    exact h₃.1.reads.offset_lt hlt
  · -- No ampersand follows the last one.
    intro s₁ h₁
    obtain ⟨next, more, rfl, hnext⟩ := hwords
    refine accept_other h₁ fun heq => ?_
    rw [heq] at hnext
    cases hnext

theorem compositionType_faces (hn : nested.Find n) (hs : Ready (n + 1) s)
    (hplain : type.isPlain = true) (hreadable : type.readable = true)
    (h : s.Faces (type.words blank ++ words)) (hdepth : s.depth + type.nesting ≤ maxDepth)
    (hwords : StartWith endsType words) :
    Ensures (compositionType nested) s (Finds s type words) := by
  have hends := hwords.mono fun _ => endsMember_of_endsType
  unfold compositionType
  refine .peek ?_
  -- Only a composition has an ampersand after its first member.
  have hsingle (hone : Ensures (suffixedType nested) s (Finds s type words)) :
      Ensures
        (do
          let first ← suffixedType nested
          if ← isAt .ampersand then
            let others ← gatherWhile (accept .ampersand) do
              return [← suffixedType nested]
            finish (.compositionType (first :: others)) s.offset
          else
            return first)
        s (Finds s type words) := by
    refine hone.bind fun id s₁ h₁ => .peek (.ite (fun hat => ?_) fun _ => .pure h₁)
    obtain ⟨next, more, rfl, hnext⟩ := hwords
    rw [h₁.1.faces.isAt_eq, beq_iff_eq] at hat
    rw [hat] at hnext
    cases hnext
  match type with
  | .named .. | .member .. | .marked .. | .tuple .. | .array .. | .dictionary .. =>
    exact hsingle (memberType_faces hn hs rfl hreadable h hdepth hends)
  | .function .. | .bound .. =>
    exact hsingle (suffixedType_faces hn hs rfl hreadable .done h hdepth hdepth hends fun _ => hwords)
  | .composed first others =>
    simp only [TypeSyntax.readable, Bool.and_eq_true, Bool.not_eq_true'] at hreadable
    obtain ⟨⟨⟨⟨hpost, hfirst⟩, hsome⟩, hothers⟩, hread⟩ := hreadable
    simp only [TypeSyntax.words, List.append_assoc] at h
    rw [TypeSyntax.nesting] at hdepth
    refine (memberType_faces hn hs hpost hfirst h (by omega) (endsMember_others others hwords)).bind
      fun firstId s₁ h₁ => .peek (.ite (fun _ => ?_) fun hnot => absurd ?_ hnot)
    · have hnested : ∀ type ∈ others, s₁.depth + type.nesting ≤ maxDepth := by
        intro type hmem
        have hlt := nesting_lt_of_mem hmem
        have hsame := h₁.1.depth_eq
        omega
      refine (others_faces hn (hs.reads h₁.1.reads) hothers hread h₁.1.faces hnested hwords).bind
        fun ids s₂ h₂ => ?_
      have hmade := finish_faces (.compositionType (firstId :: ids)) (h₁.1.append h₂) (by simp) trivial
      refine hmade.mono fun id s₃ h₃ => ⟨h₃.readsTo, ?_⟩
      exact Tree.tells_nothing h₃.formed (.inr (.inr ⟨_, rfl⟩)) fun _ _ => rfl
    · cases others with
      | nil => cases hsome
      | cons other others =>
        have hfaces := h₁.1.faces
        simp only [TypeSyntax.othersWords, List.cons_append] at hfaces
        rw [hfaces.isAt_eq]
        rfl
  | .attributed .. | .labelled .. | .variadic .. => cases hplain

/-! ## Section 6: Attributes and specifiers -/

/-- The words start after a blank. -/
def StartBlank (words : List Word) : Prop := ∃ word more, words = word :: more ∧ word.blank = true

theorem StartBlank.append (h : StartBlank words) (more : List Word) : StartBlank (words ++ more) := by
  obtain ⟨word, rest, rfl, hword⟩ := h
  exact ⟨word, rest ++ more, rfl, hword⟩

theorem startBlank_words (type : TypeSyntax) (h : type.readable = true) :
    StartBlank (type.words true) := by
  match type with
  | .named .. | .tuple .. | .function .. | .array .. | .dictionary .. | .bound .. | .labelled ..
  | .attributed (_ :: _) _ _ | .attributed [] (some _) _ => exact ⟨_, _, rfl, rfl⟩
  | .attributed [] none _ => simp [TypeSyntax.readable] at h
  | .member base .. =>
    simp only [TypeSyntax.readable, Bool.and_eq_true] at h
    exact (startBlank_words base h.1.1.2).append _
  | .marked base _ =>
    simp only [TypeSyntax.readable, Bool.and_eq_true] at h
    exact (startBlank_words base h.1.2).append _
  | .composed first _ =>
    simp only [TypeSyntax.readable, Bool.and_eq_true] at h
    exact (startBlank_words first h.1.1.1.2).append _
  | .variadic inner =>
    simp only [TypeSyntax.readable, Bool.and_eq_true] at h
    exact (startBlank_words inner h.2).append _

/-- The words of an attribute. -/
def attributeWords (name : Name) (blank : Bool) : List Word :=
  [⟨.atSign, ['@'], blank⟩, name.word false]

/-- The word of a specifier, if there is one. -/
def specifierWords (blank : Bool) (specifier : Option Specifier) : List Word :=
  (specifier.map (·.name.word blank)).toList

theorem prefixWords_eq (names : List Name) (specifier : Option Specifier) (blank : Bool) :
    TypeSyntax.prefixWords blank names specifier =
      rowWords attributeWords names blank ++ specifierWords (blank || !names.isEmpty) specifier := by
  induction names generalizing blank with
  | nil =>
    rw [List.isEmpty_nil, Bool.not_true, Bool.or_false]
    cases specifier <;> rfl
  | cons name names ih =>
    rw [TypeSyntax.prefixWords, ih true, rowWords, List.isEmpty_cons, Bool.not_false, Bool.or_true,
      Bool.true_or]
    rfl

theorem typeAttribute_faces {name : Name} (h : s.Faces (attributeWords name blank ++ words))
    (hwords : StartBlank words) :
    Ensures typeAttribute s fun id s' => ReadsTo s [id] words s' ∧ s.offset < s'.offset ∧
      s'.tree.TellsAttribute name id := by
  obtain ⟨next, more, rfl, hnext⟩ := hwords
  simp only [attributeWords, List.cons_append, List.nil_append] at h
  unfold typeAttribute
  refine .peek ((advance_faces h nofun).bind fun _ s₁ h₁ => ?_)
  refine (nameOr_faces h₁.1.faces name.isName_kind _).bind fun nameId s₂ h₂ => ?_
  refine (skipAttachedParens_faces h₂.1.faces (.inr hnext)).bind fun _ s₃ h₃ => ?_
  subst h₃
  have hround := finish_round (.typeAttribute nameId) (h₁.1.append h₂.1)
    ((h₁.1.append h₂.1).reads.moved (h₂.1.reads.offset_lt h₁.2)) (by simp) trivial
  refine hround.mono fun id s₄ h₄ => ⟨h₄.1.readsTo, h₄.2.offset_lt, nameId, h₄.1.formed, ?_⟩
  exact h₂.2.2.later h₄.1.continues

/-- The attributes before a type. -/
theorem attributes_faces {names : List Name}
    (h : s.Faces (rowWords attributeWords names blank ++ words))
    (hwords : StartWith (fun kind => kind != .atSign) words)
    (hblank : names.isEmpty = false → StartBlank words) :
    Ensures (gatherWhile (isAt .atSign) do return [← typeAttribute]) s fun ids s' =>
      ReadsTo s ids words s' ∧ List.Forall₂ s'.tree.TellsAttribute names ids := by
  refine gatherWhile_faces (fun name t id => t.TellsAttribute name id)
    (fun htells ht => htells.later ht) ?_ ?_ h
  · intro name hmem blank after ids s₁ h₁
    have hnext : StartBlank (rowWords attributeWords after true ++ words) := by
      cases after with
      | nil =>
        cases names with
        | nil => cases hmem
        | cons => exact hblank rfl
      | cons other after => exact ⟨_, _, rfl, rfl⟩
    refine .look ⟨h₁.faces.isAt_eq _, typeAttribute_faces h₁.faces hnext⟩
  · intro s₁ h₁
    obtain ⟨next, more, rfl, hnext⟩ := hwords
    refine .look ⟨?_, rfl⟩
    rw [h₁.isAt_eq, beq_eq_false_iff_ne]
    exact bne_iff_ne.mp hnext

theorem atSpecifier_here {specifier : Specifier} (h : s.Faces (specifier.name.word blank :: words))
    (hwords : StartWith startsType words) :
    Ensures atSpecifier s fun found s' => found = true ∧ s' = s := by
  obtain ⟨next, more, rfl, hnext⟩ := hwords
  unfold atSpecifier
  refine .peek (.ite (fun _ => .pure ⟨rfl, rfl⟩) fun hinout => .peek (.ite (fun _ => ?_)
    fun hword => ?_))
  · exact (typeFollows_faces h).mono fun found s' h' => ⟨h'.2.trans hnext, h'.1⟩
  · -- Every specifier is `inout` or one of the words.
    have hall : (specifier.name.kind == .inoutKeyword || specifier.name.kind == .identifier &&
        typeSpecifiers.contains specifier.name.text) = true := by
      cases specifier <;> decide +kernel
    rw [h.isAt_eq] at hinout
    rw [h.isOneOf_eq] at hword
    rcases (Bool.or_eq_true _ _).mp hall with heq | heq
    · exact absurd heq hinout
    · exact absurd heq hword

/-- The specifier, or none, is read before what comes next. -/
theorem specifier_faces {specifier : Option Specifier} {blank' : Bool}
    {next : Option Nat → Parse Nat} {Q : Nat → State → Prop} (hplain : base.isPlain = true)
    (hreadable : base.readable = true)
    (h : s.Faces (specifierWords blank specifier ++ (base.words blank' ++ words)))
    (hwords : StartWith endsType words)
    (hnext : ∀ id s₁, ReadsTo s (Option.toList id) (base.words blank' ++ words) s₁ →
      id.isNone = specifier.isNone → Ensures (next id) s₁ Q) :
    Ensures
      (do
        let found ← atSpecifier
        if found then some <$> Grammar.name >>= next else pure none >>= next)
      s Q := by
  cases specifier with
  | none =>
    -- The word the type starts with is no specifier, or no type follows it: the parser reads none.
    have halone : Alone typeSpecifiers (base.words blank' ++ words) := by
      refine alone_words base blank' words typeSpecifiers hplain hreadable ?_
        (hwords.mono fun _ => endsPrimary_of_endsType)
      intro binder _ _
      cases binder <;> decide +kernel
    refine (atSpecifier_plain h halone).bind fun found s₁ h₁ => ?_
    obtain ⟨rfl, rfl⟩ := h₁
    exact hnext none s₁ (.stay h) rfl
  | some specifier =>
    have hstart := (startsType_words base blank' hreadable (isType_of_isPlain hplain)).append words
    refine (atSpecifier_here h hstart).bind fun found s₁ h₁ => ?_
    obtain ⟨rfl, rfl⟩ := h₁
    refine .ite (fun _ => ?_) fun hnot => absurd rfl hnot
    refine Ensures.bind (P := fun id s₂ =>
      ReadsTo s₁ (Option.toList id) (base.words blank' ++ words) s₂ ∧ id.isNone = false)
      ?_ fun id s₂ h₂ => hnext id s₂ h₂.1 h₂.2
    exact .map ((name_faces h (specifier.name.kind_ne rfl)).mono fun id s₂ h₂ => ⟨h₂.1, rfl⟩)

/-- The type with the attributes and the specifier, if there are any. -/
def withPrefix (names : List Name) (specifier : Option Specifier) (base : TypeSyntax) : TypeSyntax :=
  if names.isEmpty && specifier.isNone then base else .attributed names specifier base

theorem attributedType_faces (hn : nested.Find n) (hs : Ready (n + 1) s) {names : List Name}
    {specifier : Option Specifier} {blank' : Bool} (hplain : base.isPlain = true)
    (hreadable : base.readable = true)
    (h : s.Faces (rowWords attributeWords names blank ++
      (specifierWords (blank || !names.isEmpty) specifier ++ (base.words blank' ++ words))))
    (hblank : names.isEmpty = false → blank' = true)
    (hdepth : s.depth + base.nesting ≤ maxDepth) (hwords : StartWith endsType words) :
    Ensures (attributedType nested) s (Finds s (withPrefix names specifier base) words) := by
  -- The attributes end where no `@` stands, and a blank separates the last one from a parenthesis.
  have hat : StartWith (fun kind => kind != .atSign)
      (specifierWords (blank || !names.isEmpty) specifier ++ (base.words blank' ++ words)) := by
    cases specifier with
    | none =>
      obtain ⟨first, more, heq, hstart, -⟩ := alone_words base blank' words [] hplain hreadable
        (fun _ _ _ => rfl) (hwords.mono fun _ => endsPrimary_of_endsType)
      refine ⟨first, more, heq, bne_iff_ne.mpr fun hkind => ?_⟩
      rw [hkind] at hstart
      cases hstart
    | some specifier => exact .cons (bne_iff_ne.mpr (specifier.name.kind_ne rfl))
  have hspace (hsome : names.isEmpty = false) : StartBlank
      (specifierWords (blank || !names.isEmpty) specifier ++ (base.words blank' ++ words)) := by
    rw [hsome, hblank hsome, Bool.not_false, Bool.or_true]
    cases specifier with
    | none => exact (startBlank_words base hreadable).append words
    | some specifier => exact ⟨_, _, rfl, rfl⟩
  unfold attributedType
  refine .peek ((attributes_faces h hat hspace).bind fun ids s₁ h₁ => ?_)
  refine specifier_faces hplain hreadable h₁.1.faces hwords fun specifierId s₂ h₂ hnone => ?_
  have hhead := h₁.1.append h₂
  have hsame := hhead.depth_eq
  refine (compositionType_faces hn (hs.reads hhead.reads) hplain hreadable h₂.faces (by omega)
    hwords).bind fun id s₃ h₃ => ?_
  -- A node is made only where something stands in front of the type, as in the syntax.
  have hempty : ids.isEmpty = names.isEmpty := by
    cases h₁.2 <;> rfl
  rw [hempty, hnone]
  unfold withPrefix
  refine .ite (fun hplain => ?_) fun hprefix => ?_
  · rw [if_pos hplain]
    rw [Bool.and_eq_true, ← hempty, ← hnone, List.isEmpty_iff, Option.isNone_iff_eq_none] at hplain
    obtain ⟨rfl, rfl⟩ := hplain
    exact .pure ⟨hhead.append h₃.1, h₃.2⟩
  · rw [if_neg hprefix]
    have hmade := finish_faces (.attributedType ids specifierId id) (hhead.append h₃.1) (by simp)
      trivial
    refine hmade.mono fun node s₄ h₄ => ⟨h₄.readsTo, ?_⟩
    refine Tree.tells_attributed h₄.formed (h₄.lt id (by simp)) ?_ (h₃.2.later h₄.continues)
    exact h₁.2.imp fun _ _ htells =>
      ((htells.later h₂.continues).later h₃.1.continues).later h₄.continues

/-! ## Section 7: Types -/

/-- A type is a type without attributes and what stands before it. -/
theorem exists_withPrefix (htype : type.isType = true) (hreadable : type.readable = true)
    (blank : Bool) :
    ∃ names specifier base blank', type = withPrefix names specifier base ∧ base.isPlain = true ∧
      base.readable = true ∧ base.nesting = type.nesting ∧
      (names.isEmpty = false → blank' = true) ∧
      type.words blank = rowWords attributeWords names blank ++
        (specifierWords (blank || !names.isEmpty) specifier ++ base.words blank') := by
  by_cases hplain : type.isPlain = true
  · exact ⟨[], none, type, blank, rfl, hplain, hreadable, rfl, nofun, rfl⟩
  · cases type with
    | attributed names specifier base =>
      simp only [TypeSyntax.readable, Bool.and_eq_true] at hreadable
      refine ⟨names, specifier, base, true, ?_, hreadable.1.2, hreadable.2, ?_, fun _ => rfl, ?_⟩
      · have hsome : ¬ (names.isEmpty && specifier.isNone) = true := by
          intro hnone
          rw [Bool.and_eq_true] at hnone
          rw [hnone.1, Option.isNone_iff_eq_none.mp hnone.2] at hreadable
          cases hreadable.1.1
        rw [withPrefix, if_neg hsome]
      · rw [TypeSyntax.nesting]
      · rw [TypeSyntax.words, prefixWords_eq, List.append_assoc]
    | labelled => cases htype
    | variadic => cases htype
    | _ => exact absurd rfl hplain

/-- A type is read back, whatever follows it. -/
theorem type_faces (hn : nested.Find n) (hs : Ready (n + 1) s) (htype : type.isType = true)
    (hreadable : type.readable = true) (h : s.Faces (type.words blank ++ words))
    (hdepth : s.depth + type.nesting < maxDepth) (hwords : StartWith endsType words) :
    Ensures (Grammar.type nested) s (Finds s type words) := by
  obtain ⟨names, specifier, base, blank', rfl, hplain, hread, hnesting, hblank, heq⟩ :=
    exists_withPrefix htype hreadable blank
  rw [heq] at h
  simp only [List.append_assoc] at h
  refine guarded_faces (fun id => [id]) (fun id t => t.Tells _ id) (by omega) ?_
  refine attributedType_faces hn hs.deeper hplain hread h.deeper hblank ?_ hwords
  show s.depth + 1 + base.nesting ≤ maxDepth
  omega

/-- Readers find nested types if their allowance is enough for what is ahead. -/
theorem reader_find {count n : Nat} (h : 2 * n ≤ count) : (reader count).Find n := by
  have hbelow := reader_below_ahead h
  induction n generalizing count with
  | zero =>
    refine ⟨hbelow, ?_, ?_⟩
    · intro type blank words s _ _ hs
      exact absurd hs.ahead_lt (Nat.not_lt_zero _)
    · intro type blank words s _ _ hs
      exact absurd hs.ahead_lt (Nat.not_lt_zero _)
  | succ m ih =>
    obtain ⟨less, rfl⟩ : ∃ less, count = less + 1 := ⟨count - 1, by omega⟩
    have hfind : (reader less).Find m := ih (by omega) (reader_below_ahead (by omega))
    refine ⟨hbelow, ?_, ?_⟩
    · intro type blank words s htype hreadable hs hfaces hdepth hwords
      exact type_faces hfind hs htype hreadable hfaces hdepth hwords
    · intro type blank words s hplain hreadable hs hfaces hdepth hwords
      exact compositionType_faces hfind hs hplain hreadable hfaces hdepth hwords

end SelfCapture.Grammar
