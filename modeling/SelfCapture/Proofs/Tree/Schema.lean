import SelfCapture.Proofs.Grammar.Balance

/-! # Schema of syntax trees

  A part of a form is a number, which says nothing about the node it names.
  The schema says what it has to be: the arguments of a call are arguments,
  the captures of a closure are capture items, and so on.  It also says
  where clauses may stand: a case in a `switch`, a handler in a `do`, an
  enum case among the members of a type.

  The schema is relative to a `FormPlan`, which gives the form that each number
  will have in the end.  So it does not change while the tree grows.
-/

namespace SelfCapture

/-! ## Section 1: Parts -/

/-- Sorts of nodes of which certain forms have to be made. -/
inductive PartSort where
  | argument | closure | captureItem | identifier | parameter | patternBinding | enumCaseElement
  | tupleTypeElement | typeAttribute
  deriving DecidableEq, Repr

/-- The sort of part that a node of this form can be. -/
def Form.partSort? : Form → Option PartSort
  | .argument .. => some .argument
  | .closure .. => some .closure
  | .captureItem .. => some .captureItem
  | .identifier .. => some .identifier
  | .parameter .. => some .parameter
  | .patternBinding .. => some .patternBinding
  | .enumCaseElement .. => some .enumCaseElement
  | .tupleTypeElement .. => some .tupleTypeElement
  | .typeAttribute .. => some .typeAttribute
  | _ => none

/-- The form that each number stands for. -/
abbrev FormPlan := Nat → Option Form

namespace FormPlan

variable (plan : FormPlan)

/-- The number stands for a node of the given sort. -/
def Is (sort : PartSort) (id : Nat) : Prop := (plan id).bind Form.partSort? = some sort

/-- All numbers stand for nodes of the given sort. -/
def All (sort : PartSort) (ids : List Nat) : Prop := ∀ id ∈ ids, plan.Is sort id

/-- The number stands for a trailing closure with its label. -/
def IsLabelledClosure (id : Nat) : Prop :=
  ∃ label expression, plan id = some (.argument (some label) (some expression)) ∧
    plan.Is .identifier label ∧ plan.Is .closure expression

end FormPlan

/-- The parameters of a closure are names or parameters, as they are written. -/
def ClosureParameters.Conforms (plan : FormPlan) : ClosureParameters → Prop
  | absent => True
  | shorthand names => plan.All .identifier names
  | clause parameters => plan.All .parameter parameters

/-- The parts of a form are of the sorts that the schema asks for. -/
def Form.Conforms (plan : FormPlan) : Form → Prop
  | call _ arguments trailing additional =>
    plan.All .argument arguments ∧ plan.All .closure trailing.toList ∧
      ∀ id ∈ additional, plan.IsLabelledClosure id
  | subscript _ arguments => plan.All .argument arguments
  | tuple elements | stringLiteral elements => plan.All .argument elements
  | closure captures parameters _ _ => plan.All .captureItem captures ∧ parameters.Conforms plan
  | functionDecl _ _ parameters _ _ => plan.All .parameter parameters
  | variableDecl bindings => plan.All .patternBinding bindings
  | enumCase elements => plan.All .enumCaseElement elements
  | functionType elements _ | tupleType elements => plan.All .tupleTypeElement elements
  | attributedType attributes _ _ => plan.All .typeAttribute attributes
  | _ => True

/-! ## Section 2: Clauses -/

/-- Sorts of nodes that stand only in nodes of one other sort. -/
inductive ClauseSort where
  /-- A case of a `switch`, or its default. -/
  | switchCase
  /-- A `catch` of a `do`. -/
  | handler
  /-- A case of an enum. -/
  | enumCase
  deriving DecidableEq, Repr

/-- The sort of clause that a node of this form is. -/
def Form.clause? : Form → Option ClauseSort
  | .control .case _ | .control .default _ => some .switchCase
  | .control .handler _ => some .handler
  | .enumCase _ => some .enumCase
  | _ => none

/-- The parts of a form among which clauses of a sort may stand. -/
def Form.clauses : Form → ClauseSort → List Nat
  | .control .switch children, .switchCase => children
  | .control .block children, .handler => children
  | .typeDecl _ _ _ members, .enumCase => members
  | _, _ => []

theorem Form.clauses_subset (form : Form) (clause : ClauseSort) :
    form.clauses clause ⊆ form.children := by
  intro id hid
  fun_cases Form.clauses form clause with
  | case1 => simpa [Form.clauses] using hid
  | case2 => simpa [Form.clauses] using hid
  | case3 =>
    have hmember : id ∈ _ := hid
    simp only [Form.children, Form.parts, List.map_append, map_snd_many, List.mem_append]
    exact Or.inr hmember
  | case4 =>
    rw [Form.clauses] at hid
    · cases hid
    all_goals assumption

/-- Whether the schema asks something of a node of this form. -/
@[reducible] def Form.isBound : Form → Bool
  | .call .. | .subscript .. | .tuple .. | .stringLiteral .. | .closure .. | .functionDecl ..
  | .variableDecl .. | .enumCase .. | .functionType .. | .tupleType .. | .attributedType ..
  | .control .case _ | .control .default _ | .control .handler _ | .missing => true
  | _ => false

namespace Form

variable {form : Form}

theorem conforms_of_free (h : form.isBound = false) (plan : FormPlan) : form.Conforms plan := by
  cases form with
  | call | subscript | tuple | stringLiteral | closure | functionDecl | variableDecl | enumCase
  | functionType | tupleType | attributedType => cases h
  | _ => trivial

theorem clause?_of_free (h : form.isBound = false) : form.clause? = none := by
  cases form with
  | control sort children =>
    cases sort with
    | case | default | handler => cases h
    | _ => rfl
  | enumCase => cases h
  | _ => rfl

theorem ne_missing_of_free (h : form.isBound = false) : form ≠ .missing := by
  rintro rfl
  cases h

end Form

/-! ## Section 3: Trees -/

namespace Tree

variable {t t' : Tree} {plan : FormPlan}

/-- The plan tells the forms of a tree. -/
def Matches (t : Tree) (plan : FormPlan) : Prop :=
  ∀ {id : Nat} {form : Form}, t.form? id = some form → plan id = some form

/-- A clause stands where it may stand. -/
def Houses (t : Tree) (clause : ClauseSort) (id : Nat) : Prop :=
  ∃ holder form, t.form? holder = some form ∧ id ∈ form.clauses clause

theorem lt_nextId_of_form? {id : Nat} {form : Form} (h : t.form? id = some form) :
    id < t.nextId := by
  obtain ⟨node, hnode, -⟩ := Option.map_eq_some_iff.mp h
  exact lt_nextId_of_get? hnode

namespace Extends

variable {id : Nat} {form : Form} {clause : ClauseSort}

theorem form?_eq (h : Extends t t') (hform : t.form? id = some form) :
    t'.form? id = some form :=
  (h.form_eq (lt_nextId_of_form? hform)).trans hform

theorem matches_plan (h : Extends t t') (hplan : t'.Matches plan) : t.Matches plan :=
  fun hform => hplan (h.form?_eq hform)

theorem houses (h : Extends t t') (hhouses : t.Houses clause id) : t'.Houses clause id := by
  obtain ⟨holder, form, hform, hmem⟩ := hhouses
  exact ⟨holder, form, h.form?_eq hform, hmem⟩

end Extends

theorem get?_truncate (t : Tree) (count id : Nat) :
    (t.truncate count).get? id = if id < count then t.get? id else none := by
  simp only [get?, truncate, ← Array.getElem?_toList, Array.toList_shrink, List.getElem?_take]

theorem form?_truncate (t : Tree) (count id : Nat) :
    (t.truncate count).form? id = if id < count then t.form? id else none := by
  rw [form?, get?_truncate]
  split
  · rfl
  · rfl

/-- Dropping what a tree has gained leaves the nodes it had. -/
theorem Extends.truncate (h : Extends t t') : Extends t (t'.truncate t.nextId) where
  nextId_le := by
    simp only [nextId, Tree.truncate, Array.size_shrink]
    exact Nat.le_min.mpr ⟨Nat.le_refl _, h.nextId_le⟩
  form_eq hid := by rw [form?_truncate, if_pos hid, h.form_eq hid]
  range_eq hid := by rw [range?_truncate, if_pos hid, h.range_eq hid]

end Tree
end SelfCapture
