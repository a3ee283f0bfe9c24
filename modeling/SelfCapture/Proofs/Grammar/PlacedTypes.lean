import SelfCapture.Proofs.Grammar.Consumption
import SelfCapture.Proofs.Grammar.Placing

/-! # Placed nodes of types

  What the readers of nested phrases are to do, `Readers.Placing`, and the
  rules for types under that assumption.  A type before its marks and
  attributes belongs to the phrase being read; only a whole type can stand
  in any phrase.
-/

set_option synthInstance.maxSize 1000

namespace SelfCapture.Grammar

open Token (Kind)

/-! ## Section 1: Nested phrases -/

/-- The readers of nested phrases place their nodes. -/
class Readers.Placing (nested : Readers) : Prop where
  expression : ∀ place : Place, Places place True (place.Found (place.depth + 1) none)
    (nested .expression)
  operand : ∀ place : Place, Places place True (place.Found (place.depth + 1) none)
    (nested .operand)
  /-- Statements are only read where trailing closures are allowed. -/
  statement : ∀ place : Place, place.bare = false →
    Places place True (fun r => ∀ id ∈ r, place.Stated id) (nested .statement)
  type : ∀ place : Place, Places place True (place.Holds none) (nested .type)
  composition : ∀ place : Place, Places place True (place.Holds (some .type)) (nested .composition)
  branch : ∀ place : Place, Places place True (place.Anywhere (some .statement)) (nested .branch)

variable {place : Place} {given : Prop} {tier? : Option Tier} {nested : Readers}
  [hn : nested.Placing]

theorem nestedExpression_places :
    Places place given (place.Found (place.depth + 1) none) (nested .expression) :=
  (hn.expression place).weaken fun _ => trivial

/-- An expression where it does not matter whether there is one. -/
theorem nestedExpression_holds :
    Places place given (fun r => ∀ id ∈ r, place.Holds none id) (nested .expression) :=
  nestedExpression_places.mono fun _ _ h => h.holds

theorem nestedOperand_holds :
    Places place given (fun r => ∀ id ∈ r, place.Holds none id) (nested .operand) :=
  ((hn.operand place).weaken fun _ => trivial).mono fun _ _ h => h.holds

theorem nestedStatement_places (hfree : place.bare = false) :
    Places place given (fun r => ∀ id ∈ r, place.Stated id) (nested .statement) :=
  (hn.statement place hfree).weaken fun _ => trivial

theorem nestedType_places : Places place given (place.Holds none) (nested .type) :=
  (hn.type place).weaken fun _ => trivial

theorem nestedComposition_places :
    Places place given (place.Holds (some .type)) (nested .composition) :=
  (hn.composition place).weaken fun _ => trivial

theorem nestedBranch_places :
    Places place given (place.Anywhere (some .statement)) (nested .branch) :=
  (hn.branch place).weaken fun _ => trivial

/-- A name as a part of a node. -/
theorem name_holds : Places place given (place.Holds none) name :=
  Places.name.mono fun _ _ h => h.here

theorem nameOr_holds (what : String) : Places place given (place.Holds none) (nameOr what) :=
  (Places.nameOr what).mono fun _ _ h => h.here

theorem name?_holds : Places place given (fun r => ∀ id ∈ r, place.Holds none id) name? :=
  Places.name?.mono fun _ _ h id hid => (h id hid).here

theorem missing_holds (what : String) : Places place given (place.Holds none) (missing what) :=
  (Places.missing what).mono fun _ _ h => h.here

/-- A node that is always there, for a part that may be absent. -/
theorem Places.some {P : Nat → Prop} {item : Parse Nat} (h : Places place given P item) :
    Places place given (fun r => ∀ id ∈ r, P id) (Option.some <$> item) := by
  refine .map (h.mono ?_)
  rintro id - hid _ ⟨⟩
  exact hid

/-- A part that is absent. -/
theorem Places.absent {P : Nat → Prop} :
    Places place given (fun r => ∀ id ∈ r, P id) (Pure.pure (none : Option Nat)) :=
  .pure fun _ => nofun

/-! ## Section 2: Skipped constructs -/

instance (opener closer : Kind) : Quiet (skipBalanced opener closer) := by
  unfold skipBalanced
  infer_instance

instance : Quiet skipParens := inferInstanceAs (Quiet (skipBalanced _ _))

instance : Quiet skipAttachedParens := by
  unfold skipAttachedParens
  infer_instance

instance : Quiet skipGenerics := inferInstanceAs (Quiet (skipBalanced _ _))

instance (opener closer : Kind) : Quiet (skipToCloser opener closer) := by
  unfold skipToCloser
  infer_instance

instance (opener closer : Kind) (what : String) : Quiet (closeList opener closer what) := by
  unfold closeList
  dsimp only
  infer_instance

instance : Quiet skipLine := by
  unfold skipLine
  infer_instance

instance : Quiet skipAttribute := by
  unfold skipAttribute
  dsimp only
  infer_instance

instance : Quiet skipAttributes := by
  unfold skipAttributes
  infer_instance

instance : Quiet skipEffects := by
  unfold skipEffects
  infer_instance

instance : Quiet skipVariadicMark := by
  unfold skipVariadicMark
  infer_instance

/-! ## Section 3: Types -/

instance : Quiet atSpecifier := by
  unfold atSpecifier typeFollows
  infer_instance

instance : Quiet atElementLabel := by
  unfold atElementLabel
  infer_instance

theorem typeAttribute_places : Places place given (place.Holds none) typeAttribute := by
  unfold typeAttribute
  refine .here fun pos hpos => .after fun _ => .bind (nameOr_holds _) fun name => .after fun _ => ?_
  exact .finish hpos rfl rfl fun h => by simpa using h.2

theorem genericArguments_places :
    Places place given (fun ids => ∀ id ∈ ids, place.Holds none id) (genericArguments nested) := by
  unfold genericArguments
  refine .after fun found => .after fun fresh => .ite (fun _ => ?_) fun _ => .pure fun _ => nofun
  refine .after fun _ => .bind (.separatedUntil (.single nestedType_places)) fun arguments => ?_
  exact .after fun _ => .pure fun h => h.2

theorem elementLabels_places :
    Places place given
      (fun labels => (∀ id ∈ labels.1, place.Holds none id) ∧ ∀ id ∈ labels.2, place.Holds none id)
      elementLabels := by
  unfold elementLabels
  dsimp only
  refine .after fun found => .ite (fun _ => ?_) fun _ => .pure fun _ => ⟨nofun, nofun⟩
  refine .bind name_holds fun first => .after fun ended => ?_
  have hdone (second : Option Nat) : Places place ((given ∧ place.Holds none first) ∧
      ∀ id ∈ second, place.Holds none id) (fun labels => (∀ id ∈ labels.1, place.Holds none id) ∧
        ∀ id ∈ labels.2, place.Holds none id) (do advance; return (some first, second)) := by
    refine .after fun _ => .pure fun h => ⟨?_, h.2⟩
    rintro _ ⟨⟩
    exact h.1.2
  exact .ite (fun _ => .bind .absent hdone) fun _ => .bind (.some name_holds) hdone

/-- The default value of an element is read, but it is not kept. -/
theorem tupleTypeElement_places :
    Places place given (place.Holds none) (tupleTypeElement nested) := by
  unfold tupleTypeElement
  dsimp only
  refine .here fun pos hpos => .bind elementLabels_places fun labels => ?_
  refine .bind nestedType_places fun type => .after fun _ => .after fun found => ?_
  have hfinish : Places place ((given ∧ (∀ id ∈ labels.1, place.Holds none id) ∧
      ∀ id ∈ labels.2, place.Holds none id) ∧ place.Holds none type) (place.Holds none)
      (finish (.tupleTypeElement labels.1 labels.2 type) pos) := by
    refine .finish hpos rfl rfl fun h child hchild => ?_
    simp at hchild
    rcases hchild with hfirst | hsecond | rfl
    · exact h.1.2.1 child hfirst
    · exact h.1.2.2 child hsecond
    · exact h.2
  exact .ite (fun _ => .drop nestedExpression_holds fun _ => hfinish) fun _ => hfinish

theorem tupleTypeElements_places :
    Places place given (fun ids => ∀ id ∈ ids, place.Holds none id) (tupleTypeElements nested) := by
  unfold tupleTypeElements
  refine .after fun _ => .bind (.separatedUntil (.single tupleTypeElement_places)) fun elements => ?_
  exact .after fun _ => .pure fun h => h.2

theorem tupleType_places : Places place given (place.Holds none) (tupleType nested) := by
  unfold tupleType
  refine .here fun pos hpos => .bind tupleTypeElements_places fun elements => ?_
  exact .finish hpos rfl rfl fun h => by simpa using h.2

theorem tupleOrFunctionType_places :
    Places place given (place.Holds none) (tupleOrFunctionType nested) := by
  unfold tupleOrFunctionType
  refine .here fun pos hpos => .bind tupleTypeElements_places fun elements => ?_
  refine .after fun effects => .after fun arrow => .ite (fun _ => ?_) fun _ =>
    .ite (fun _ => ?_) fun _ => ?_
  · refine .bind nestedType_places fun result => .finish hpos rfl rfl fun h child hchild => ?_
    simp at hchild
    rcases hchild with hparameter | rfl
    · exact h.1.2 child hparameter
    · exact h.2
  · exact .after fun _ => .finish hpos rfl rfl fun h => by simpa using h.2
  · exact .finish hpos rfl rfl fun h => by simpa using h.2

theorem collectionType_places : Places place given (place.Holds none) (collectionType nested) := by
  unfold collectionType
  dsimp only
  refine .here fun pos hpos => .after fun _ => .bind nestedType_places fun element => ?_
  have hdone (value : List Nat) : Places place
      ((given ∧ place.Holds none element) ∧ ∀ id ∈ value, place.Holds none id) (place.Holds none) (do
        let _ ← expect .closeBracket "']'"
        finish (.collectionType (element :: value)) pos) := by
    refine .after fun _ => .finish hpos rfl rfl fun h => ?_
    simpa using ⟨h.1.2, h.2⟩
  refine .after fun found => .ite (fun _ => ?_) fun _ => .bind (.pure fun _ => nofun) hdone
  refine .bind nestedType_places fun value => ?_
  refine .bind (P := fun ids => ∀ id ∈ ids, place.Holds none id)
    (.pure fun h => List.forall_mem_singleton.mpr h.2) fun values => ?_
  exact (hdone values).weaken fun h => ⟨h.1.1, h.2⟩

theorem primaryType_places :
    Places place given (place.Holds (some .type)) (primaryType nested) := by
  have hname (pos : Nat) (hpos : place.low ≤ pos) :
      Places place given (place.Holds (some .type)) (do
        let name ← name
        let generics ← genericArguments nested
        finish (.typeRef none name generics) pos) := by
    refine .bind name_holds fun name => .bind genericArguments_places fun generics => ?_
    refine (Places.finish hpos rfl rfl fun h => ?_).mono fun _ _ h => h.lift
    simpa using ⟨h.1.2, h.2⟩
  unfold primaryType
  refine .here fun pos hpos => .after fun k => ?_
  split
  · refine .after fun constrained => .ite (fun _ => ?_) fun _ => hname pos hpos
    refine .after fun existential => .after fun _ => .bind nestedComposition_places fun base => ?_
    refine .finish_in hpos rfl (fun _ h => h) fun h => ⟨List.forall_mem_nil _, ?_⟩
    simpa using h.2
  · exact hname pos hpos
  · exact tupleOrFunctionType_places.mono fun _ _ h => h.lift
  · exact collectionType_places.mono fun _ _ h => h.lift
  · exact (missing_holds _).mono fun _ _ h => h.lift

theorem suffixedType_places :
    Places place given (place.Holds (some .type)) (suffixedType nested) := by
  unfold suffixedType
  refine .here fun pos hpos => .bind primaryType_places fun base => ?_
  -- Invariant: the type read so far holds; each suffix is put around it.
  refine .loop (fun h => h.2) fun type => .after fun k => ?_
  have hmark : Places place ((given ∧ place.Holds (some .type) base) ∧ place.Holds (some .type) type)
      (fun r : ForInStep Nat => place.Holds (some .type) r.value) (do
        if ← afterBlank then
          return .done type
        else
          let implicitlyUnwrapped ← isAt .exclamation
          advance
          return .yield (← finish (.optionalType type implicitlyUnwrapped) pos)) := by
    refine .after fun blank => .ite (fun _ => .pure fun h => h.2) fun _ => ?_
    refine .after fun implicit => .after fun _ => .bind ?_ fun id => .pure fun h => h.2
    refine .finish_in hpos rfl (by rintro _ ⟨⟩) fun h => ⟨List.forall_mem_nil _, ?_⟩
    simpa using h.2
  split
  · exact hmark
  · exact hmark
  · refine .after fun fresh => .ite (fun _ => .pure fun h => h.2) fun _ => .after fun _ => ?_
    refine .after fun named => .ite (fun _ => ?_) fun _ => .after fun _ => .pure fun h => h.2
    refine .bind name_holds fun name => .bind genericArguments_places fun generics => ?_
    refine .bind (.finish_in hpos rfl (by rintro _ ⟨⟩) fun h => ⟨?_, ?_⟩) fun id => .pure fun h => h.2
    · simpa using ⟨h.1.2, h.2⟩
    · simpa using h.1.1.2
  · exact .pure fun h => h.2

theorem compositionType_places :
    Places place given (place.Holds (some .type)) (compositionType nested) := by
  unfold compositionType
  refine .here fun pos hpos => .bind suffixedType_places fun first => ?_
  refine .after fun found => .ite (fun _ => ?_) fun _ => .pure fun h => h.2
  refine .bind (.gatherWhile (.single suffixedType_places)) fun others => ?_
  refine .finish_in hpos rfl nofun fun h => ⟨nofun, ?_⟩
  simpa using ⟨h.1.2, h.2⟩

theorem attributedType_places :
    Places place given (place.Holds (some .type)) (attributedType nested) := by
  unfold attributedType
  dsimp only
  refine .here fun pos hpos => .bind (.gatherWhile (.single typeAttribute_places)) fun attributes => ?_
  have hrest (specifier : Option Nat) : Places place
      ((given ∧ ∀ id ∈ attributes, place.Holds none id) ∧ ∀ id ∈ specifier, place.Holds none id)
      (place.Holds (some .type)) (do
        let base ← compositionType nested
        if attributes.isEmpty && specifier.isNone then
          return base
        else
          finish (.attributedType attributes specifier base) pos) := by
    refine .bind compositionType_places fun base => .ite (fun _ => .pure fun h => h.2) fun _ => ?_
    refine .finish_in hpos rfl nofun fun h => ⟨fun child hchild => ?_, by simpa using h.2⟩
    rcases List.mem_append.mp hchild with hattribute | hspecifier
    · exact h.1.1.2 child hattribute
    · exact h.1.2 child (Option.mem_toList.mp hspecifier)
  refine .after fun found => .ite (fun _ => ?_) fun _ => .bind .absent hrest
  exact .bind (.some name_holds) hrest

theorem type_places : Places place given (place.Holds none) (type nested) := by
  unfold type
  refine .guarded (fun _ => missing_holds _) fun hdepth => ?_
  exact attributedType_places.mono fun id _ h => h.shallower hdepth

end SelfCapture.Grammar
