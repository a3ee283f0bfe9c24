import SelfCapture.Proofs.Grammar.Containment
import SelfCapture.Proofs.Grammar.PlacedTrees

/-! # Braces after conditions

  In a condition no brace is taken for a trailing closure:
  `parse_condition_braces`.  A call with a trailing closure can occur in a
  condition, but only in brackets, in braces or in the middle of `? :`.
-/

namespace SelfCapture

namespace Tree

variable {t : Tree}

/-- Below a node from which no trailing closure is in sight, every call with
    one is shielded. -/
theorem exists_shield {top call : Nat} {form : Form} (hno : ¬ t.Exposes top)
    (hreaches : t.Reaches top call) (hcall : t.form? call = some form)
    (htrailing : form.hasTrailing = true) :
    ∃ shield outer, t.Reaches top shield ∧ t.form? shield = some outer ∧ outer.shields = true ∧
      shield ≠ call ∧ t.Reaches shield call := by
  induction hreaches using Relation.ReflTransGen.head_induction_on with
  | refl => exact absurd (.call hcall htrailing) hno
  | @head id child hchild hbelow ih =>
    obtain ⟨outer, houter, hmem⟩ := exists_form_of_mem_children hchild
    by_cases hshields : outer.shields = true
    · refine ⟨id, outer, .refl, houter, hshields, ?_, .head hchild hbelow⟩
      rintro rfl
      exact not_exposes_of_shields houter hshields (.call hcall htrailing)
    · have hopen : outer.shields = false := by simpa using hshields
      have hnext : ¬ t.Exposes child := fun h => hno (.part houter hopen hmem h)
      obtain ⟨shield, inner, hshield, hrest⟩ := ih hnext
      exact ⟨shield, inner, .head hchild hshield, hrest⟩

end Tree

/-- No call directly in a condition has a trailing closure, in any text: one
    in a part of an `if`, a `guard`, a loop or a `catch`, or in the first part
    of a `switch`, is below a form in that part in which trailing closures are
    allowed again.  Bodies, clauses and further branches are such forms
    themselves. -/
theorem parse_condition_braces (text : String) :
    let t := (SourceFile.parse text).tree
    ∀ (id : Nat) (sort : ControlSort) (children : List Nat) (part : Nat),
      t.form? id = some (.control sort children) →
      sort.hasHead = true ∧ part ∈ children ∨ sort = .switch ∧ children.head? = some part →
      ¬ t.Exposes part ∧
        ∀ (call : Nat) (form : Form), t.Reaches part call → t.form? call = some form →
          form.hasTrailing = true →
          ∃ shield outer, t.Reaches part shield ∧ t.form? shield = some outer ∧
            outer.shields = true ∧ shield ≠ call ∧ t.Reaches shield call := by
  intro t id sort children part hform hpart
  obtain ⟨r, hrange⟩ := Tree.exists_range_of_form hform
  have hlaw : (Form.control sort children).Law text (Grammar.sourceFile (.ofText text)).2 r :=
    Grammar.parse_lawful text hform hrange
  have hno : ¬ t.Exposes part := by
    rcases hpart with ⟨hhead, hmem⟩ | ⟨hswitch, hfirst⟩
    · exact hlaw.1 hhead part hmem
    · exact hlaw.2 hswitch part hfirst
  exact ⟨hno, fun call form hreaches hcall htrailing =>
    Tree.exists_shield hno hreaches hcall htrailing⟩

/-- A call in the condition of an `if` that has its trailing closure inside
    an argument. -/
theorem parse_condition_braces_argument :
    let t := (SourceFile.parse "if f(g \x7b \x7d) \x7b \x7d").tree
    (t.form? 7 = some (.control .branch [5, 6]) ∧ t.Reaches 5 3 ∧
      t.form? 3 = some (.call (some 1) [] (some 2) [])) ∧
      ¬ t.Exposes 5 ∧ ∃ shield outer, t.Reaches 5 shield ∧ t.form? shield = some outer ∧
        outer.shields = true ∧ shield ≠ 3 ∧ t.Reaches shield 3 := by
  intro t
  have hbranch : t.form? 7 = some (.control .branch [5, 6]) := by decide +kernel
  have hcall : t.form? 3 = some (.call (some 1) [] (some 2) []) := by decide +kernel
  have hargument : 4 ∈ t.children 5 := by decide +kernel
  have hexpression : 3 ∈ t.children 4 := by decide +kernel
  have hreaches : t.Reaches 5 3 := .head hargument (.single hexpression)
  have hpart : ControlSort.branch.hasHead = true ∧ 5 ∈ [5, 6] ∨
      ControlSort.branch = .switch ∧ [5, 6].head? = some 5 := .inl ⟨rfl, List.mem_cons_self⟩
  obtain ⟨hno, hshield⟩ := parse_condition_braces _ 7 .branch [5, 6] 5 hbranch hpart
  exact ⟨⟨hbranch, hreaches, hcall⟩, hno, hshield 3 _ hreaches hcall rfl⟩

end SelfCapture
