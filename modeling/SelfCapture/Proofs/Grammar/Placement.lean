import Mathlib.Data.List.Chain
import SelfCapture.Grammar.Phrase
import SelfCapture.Tree.Basic

/-! # Where nodes are placed

  How deeply a node is nested and whether a brace may open a trailing
  closure in it is not written in the tree.  `Tree.Placed` says of a node
  that its descendants can have been read at a given depth, with or without
  trailing closures, by the rules of the grammar about who reads whom:

  * some forms are only read as a phrase, which is one level deeper, or in
    the same phrase as the form around them, `Form.unguarded`;
  * inside brackets, braces and the middle of `? :` trailing closures are
    allowed again, `Form.shields`.

  Two things follow for all descendants.  Along a path downwards, phrases
  are entered no more often than `maxDepth`, `Placed.count_le`.  And where
  trailing closures are not allowed, none is in sight,
  `Placed.not_exposes`.
-/

namespace SelfCapture

/-! ## Section 1: Phrases in a tree -/

/-- The sorts of phrases that are read one level deeper. -/
inductive Tier where
  | statement | expression | type
  deriving DecidableEq, Repr

namespace Form

/-- The sort of phrase in which a form is read, if it is read in no other. -/
def tier? : Form → Option Tier
  | control .branch _ => some .statement
  | call .. => some .expression
  | opaqueType .. => some .type
  | _ => none

/-- The parts that can be read in the same phrase as the form itself: the
    `if` after an `else`, operands and bases, and what a constraint, a mark
    or an attribute belongs to. -/
def unguarded : Form → List Nat
  | control .branch children => children.getLast?.toList
  | memberAccess base _ | subscript base _ | genericSpecialization base _ => base.toList
  | postfixOp operand _ | prefixOp _ operand => operand.toList
  | call callee .. => callee.toList
  | typeRef base .. => base.toList
  | sequence elements | compositionType elements => elements
  | optionalType wrapped _ => [wrapped]
  | attributedType _ _ base | opaqueType _ base => [base]
  | _ => []

/-- The other parts. -/
def guarded : Form → List Nat
  | control .branch children => children.dropLast
  | memberAccess _ name => [name]
  | subscript _ arguments | genericSpecialization _ arguments => arguments
  | call _ arguments trailing additional => arguments ++ trailing.toList ++ additional
  | typeRef _ name generics => name :: generics
  | attributedType attributes specifier _ => attributes ++ specifier.toList
  | postfixOp .. | prefixOp .. | sequence _ | compositionType _ | optionalType .. | opaqueType .. =>
    []
  | form => form.children

theorem mem_children_iff {form : Form} {child : Nat} :
    child ∈ form.children ↔ child ∈ form.unguarded ∨ child ∈ form.guarded := by
  cases form with
  | control sort all =>
    cases sort with
    | branch =>
      rcases List.eq_nil_or_concat all with rfl | ⟨before, last, rfl⟩
      · simp [children, parts, many, unguarded, guarded]
      · simp [children, parts, many, unguarded, guarded, or_comm]
    | _ => simp [unguarded, guarded]
  | memberAccess | subscript | genericSpecialization | postfixOp | prefixOp | call | typeRef
  | sequence | compositionType | optionalType | attributedType | opaqueType =>
    simp [unguarded, guarded, children, parts, one, opt, many, or_comm, or_assoc, or_left_comm]
  | _ => simp [unguarded, guarded]

attribute [simp] unguarded guarded

/-- Forms in which trailing closures are allowed, even if they are not around it. -/
def shields : Form → Bool
  | argument .. | collection _ | ternary _ | closure .. | block _ | control .. => true
  | _ => false

/-- Whether a form is a call with a trailing closure. -/
def hasTrailing : Form → Bool
  | call _ _ trailing _ => trailing.isSome
  | _ => false

/-- Forms that are only read where trailing closures are allowed. -/
def needsBraces : Form → Bool
  | typeDecl .. | functionDecl .. => true
  | form => form.hasTrailing

theorem needsBraces_of_hasTrailing {form : Form} (h : form.hasTrailing = true) :
    form.needsBraces = true := by
  cases form <;> first | exact h | cases h

theorem not_needsBraces_of_shields {form : Form} (h : form.shields = true) :
    form.needsBraces = false := by
  cases form <;> first | rfl | cases h

end Form

/-! ## Section 2: Placed nodes -/

namespace Tree

/-- The node can have been read at the given depth, in a phrase of the given
    sort, and without trailing closures if `bare`. -/
inductive Placed (t : Tree) : Option Tier → (depth : Nat) → (bare : Bool) → Nat → Prop
  | node {tier? : Option Tier} {depth : Nat} {bare : Bool} {id : Nat} {form : Form}
      (hform : t.form? id = some form)
      (htier : ∀ tier, form.tier? = some tier → tier? = some tier)
      (hbare : form.needsBraces = true → bare = false)
      (hguarded : ∀ child ∈ form.guarded, Placed t none depth (bare && !form.shields) child)
      (hunguarded : ∀ child ∈ form.unguarded,
        Placed t tier? depth (bare && !form.shields) child) :
      Placed t tier? depth bare id
  | deeper {tier? : Option Tier} {depth : Nat} {bare : Bool} {id : Nat} (inner : Tier)
      (hdepth : depth < Grammar.maxDepth) (h : Placed t (some inner) (depth + 1) bare id) :
      Placed t tier? depth bare id

namespace Placed

variable {t : Tree} {tier? : Option Tier} {depth : Nat} {bare : Bool} {id : Nat}

/-- What needs no particular phrase can stand in any. -/
theorem lift (h : t.Placed none depth bare id) : t.Placed tier? depth bare id := by
  generalize hnone : (none : Option Tier) = outer at h
  induction h with
  | @node _ depth bare id form hform htier hbare hguarded _ _ ihunguarded =>
    subst hnone
    refine .node hform (fun tier h => ?_) hbare hguarded fun child hmem => ihunguarded child hmem rfl
    cases htier tier h
  | deeper inner hdepth h _ => exact .deeper inner hdepth h

/-- Where trailing closures are allowed they need not be there. -/
theorem relax (h : t.Placed tier? depth bare id) : t.Placed tier? depth false id := by
  induction h with
  | node hform htier _ _ _ ihguarded ihunguarded =>
    exact .node hform htier (fun _ => rfl) ihguarded ihunguarded
  | deeper inner hdepth _ ih => exact .deeper inner hdepth ih

end Placed

/-! ## Section 3: Exposed trailing closures -/

/-- At the node, or below it without a shielding form on the way, is a call
    with a trailing closure. -/
inductive Exposes (t : Tree) : Nat → Prop
  | call {id : Nat} {form : Form} (hform : t.form? id = some form)
      (htrailing : form.hasTrailing = true) : Exposes t id
  | part {id child : Nat} {form : Form} (hform : t.form? id = some form)
      (hopen : form.shields = false) (hchild : child ∈ form.children) (h : Exposes t child) :
      Exposes t id

/-- What a node exposes is one of its parts, or the node itself is a call. -/
theorem Exposes.cases_form {t : Tree} {id : Nat} {form : Form} (hform : t.form? id = some form)
    (h : t.Exposes id) :
    form.hasTrailing = true ∨
      form.shields = false ∧ ∃ child ∈ form.children, t.Exposes child := by
  cases h with
  | call hform' htrailing =>
    obtain rfl := Option.some.inj (hform'.symm.trans hform)
    exact .inl htrailing
  | part hform' hopen hchild h =>
    obtain rfl := Option.some.inj (hform'.symm.trans hform)
    exact .inr ⟨hopen, _, hchild, h⟩

theorem not_exposes_of_shields {t : Tree} {id : Nat} {form : Form}
    (hform : t.form? id = some form) (hshields : form.shields = true) : ¬ t.Exposes id := by
  intro h
  rcases h.cases_form hform with htrailing | ⟨hopen, -⟩
  · have hneeds := Form.needsBraces_of_hasTrailing htrailing
    rw [Form.not_needsBraces_of_shields hshields] at hneeds
    cases hneeds
  · rw [hshields] at hopen
    cases hopen

namespace Placed

variable {t : Tree} {tier? : Option Tier} {depth : Nat} {bare : Bool} {id : Nat}

/-- Where trailing closures are not allowed none is in sight. -/
theorem not_exposes (h : t.Placed tier? depth true id) : ¬ t.Exposes id := by
  generalize htrue : true = bare at h
  induction h with
  | @node _ _ _ _ form hform _ hbare _ _ ihguarded ihunguarded =>
    subst htrue
    intro hexposes
    rcases hexposes.cases_form hform with htrailing | ⟨hopen, child, hchild, hinner⟩
    · cases hbare (Form.needsBraces_of_hasTrailing htrailing)
    · have hsame : true = (true && !form.shields) := by rw [hopen]; rfl
      rcases Form.mem_children_iff.mp hchild with hmem | hmem
      · exact ihunguarded child hmem hsame hinner
      · exact ihguarded child hmem hsame hinner
  | deeper _ _ _ ih => exact ih htrue

/-- At the nesting limit no expression can be read, so there are no calls. -/
theorem not_exposes_of_limit (h : t.Placed tier? Grammar.maxDepth bare id)
    (htier? : tier? ≠ some .expression) : ¬ t.Exposes id := by
  generalize hlimit : Grammar.maxDepth = depth at h
  induction h with
  | @node _ _ _ _ form hform htier _ _ _ ihguarded ihunguarded =>
    intro hexposes
    rcases hexposes.cases_form hform with htrailing | ⟨_, child, hchild, hinner⟩
    · cases form with
      | call => exact htier? (htier .expression rfl)
      | _ => cases htrailing
    · rcases Form.mem_children_iff.mp hchild with hmem | hmem
      · exact ihunguarded child hmem htier? hlimit hinner
      · exact ihguarded child hmem nofun hlimit hinner
  | deeper _ hdepth _ _ => exact absurd hdepth (by omega)

end Placed

/-! ## Section 4: Paths -/

/-- The path goes from each node to one of its children. -/
def Descends (t : Tree) (path : List Nat) : Prop :=
  path.IsChain fun id child => child ∈ t.children id

/-- Whether the form of the node is read in phrases of the given sort only. -/
def stands (t : Tree) (tier : Tier) (id : Nat) : Bool :=
  (t.form? id).any (·.tier? == some tier)

/-- Whether the second node can be read in the same phrase as the first. -/
def goesOn (t : Tree) (id child : Nat) : Bool :=
  (t.form? id).any (·.unguarded.contains child)

/-- Number of nodes on a path that are read in the same phrase as one above
    them that stands in the same sort of phrase.  `within` says that there is
    one above the whole path. -/
def repeats (t : Tree) (tier : Tier) : (within : Bool) → List Nat → Nat
  | _, [] => 0
  | within, id :: path =>
    (if t.stands tier id && within then 1 else 0) +
      t.repeats tier ((within || t.stands tier id) && path.head?.any (t.goesOn id)) path

/-- On a path down, the nodes that stand in a sort of phrase are no more
    than the levels left, apart from those read in the same phrase. -/
theorem Placed.count_le {t : Tree} {tier? : Option Tier} {depth : Nat} {bare : Bool} {id : Nat}
    (h : t.Placed tier? depth bare id) (tier : Tier) {path : List Nat} (within : Bool)
    (hpath : t.Descends (id :: path)) :
    (id :: path).countP (t.stands tier) ≤ t.repeats tier within (id :: path) +
      (Grammar.maxDepth - depth) + if tier? = some tier ∧ within = false then 1 else 0 := by
  induction h generalizing path within with
  | @node tier? depth bare id form hform htier _ _ _ ihguarded ihunguarded =>
    have hstands : t.stands tier id = true ↔ form.tier? = some tier := by
      simp [stands, hform]
    -- What the path goes on with, by how the next node is read.
    have hrest : path.countP (t.stands tier) ≤
        t.repeats tier ((within || t.stands tier id) && path.head?.any (t.goesOn id)) path +
          (Grammar.maxDepth - depth) +
          if tier? = some tier ∧ (within || t.stands tier id) = false then 1 else 0 := by
      cases path with
      | nil => simp
      | cons child path =>
        obtain ⟨hchild, hpath⟩ := List.isChain_cons_cons.mp hpath
        have hchild : child ∈ form.children := by
          simpa [Tree.children, hform] using hchild
        have hgoes : (child :: path).head?.any (t.goesOn id) = form.unguarded.contains child := by
          simp [goesOn, hform]
        rw [hgoes]
        by_cases hmem : child ∈ form.unguarded
        · rw [List.contains_iff_mem.mpr hmem, Bool.and_true]
          exact ihunguarded child hmem _ hpath
        · have hno : form.unguarded.contains child = false := by simpa using hmem
          have hother := (Form.mem_children_iff.mp hchild).resolve_left hmem
          have hnext := ihguarded child hother false hpath
          rw [hno, Bool.and_false]
          simp only [reduceCtorEq, false_and, if_false, Nat.add_zero] at hnext
          exact Nat.le_trans hnext (Nat.le_add_right ..)
    rw [List.countP_cons, repeats]
    by_cases hcounts : t.stands tier id = true
    · -- The node counts: it is the one of its phrase, or a repetition.
      have hsame : tier? = some tier := htier tier (hstands.mp hcounts)
      simp [hcounts] at hrest
      cases within with
      | false =>
        simp [hcounts, hsame]
        omega
      | true =>
        simp [hcounts]
        omega
    · simp only [hcounts, Bool.or_false] at hrest
      simp only [hcounts]
      simpa using hrest
  | @deeper tier? depth bare id inner hdepth _ ih =>
    have hinner := ih within hpath
    split at hinner <;> omega

end Tree
end SelfCapture
