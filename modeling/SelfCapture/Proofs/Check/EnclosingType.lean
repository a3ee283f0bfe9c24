import SelfCapture.Check.ReferenceType
import SelfCapture.Proofs.Check.Inspection
import SelfCapture.Proofs.Grammar.Containment
import SelfCapture.Proofs.Grammar.PlacedTrees

/-! # The type a closure is written in

  Whether a closure stands in a reference type is told by the nearest type
  declaration above it.  In the text this is the innermost declaration
  around the closure, `closure_in_innermost_type`: to be above a closure and
  to contain its bytes are the same for a type declaration, and the nearer
  one of two above the closure is the smaller one.
-/

namespace SelfCapture

namespace Tree

variable {t : Tree} {id top other root type : Nat} {r r' : Nat × Nat}

/-! ## Section 1: The nearest node above -/

/-- What is found first on the way up is found at the nearest of the nodes
    above at which there is something to find. -/
theorem Linked.nearest_of_findSome? {α : Type} (h : t.Linked) {f : Nat → Option α} {answer : α}
    (hfound : (t.ancestors id).findSome? f = some answer) :
    ∃ nearest, f nearest = some answer ∧ t.Reaches nearest id ∧ id < nearest ∧
      ∀ other, t.Reaches other id → other ≠ id → (f other).isSome = true →
        t.Reaches other nearest := by
  fun_induction t.ancestors id with
  | case1 id parent hparent hbounds ih =>
    have hchild := h.parent_iff.mp hparent
    -- What else is above the node is its parent, or above that.
    have habove {other : Nat} (hother : t.Reaches other id) (hne : other ≠ id) :
        t.Reaches other parent := by
      rcases hother.cases_tail with rfl | ⟨last, hlast, hbelow⟩
      · exact absurd rfl hne
      · exact h.parent_unique hbelow hchild ▸ hlast
    rw [List.findSome?_cons] at hfound
    cases hhere : f parent with
    | some found =>
      rw [hhere] at hfound
      refine ⟨parent, hhere.trans hfound, .single hchild, hbounds.1, ?_⟩
      exact fun other hother hne _ => habove hother hne
    | none =>
      rw [hhere] at hfound
      -- The parent has no answer, so the nearest node with one is above it.
      obtain ⟨nearest, hnearest, hreaches, hlt, hall⟩ := ih hfound
      refine ⟨nearest, hnearest, .tail hreaches hchild, Nat.lt_trans hbounds.1 hlt, ?_⟩
      intro other hother hne hsome
      refine hall other (habove hother hne) ?_ hsome
      rintro rfl
      rw [hhere] at hsome
      cases hsome
  | case2 | case3 => cases hfound

/-! ## Section 2: Type declarations -/

/-- Whether the node is a type declaration. -/
def isTypeDecl (t : Tree) (id : Nat) : Bool :=
  match t.form? id with
  | some (.typeDecl ..) => true
  | _ => false

/-- Number of bytes that a node covers. -/
def byteCount (t : Tree) (id : Nat) : Nat := (t.range? id).elim 0 fun r => r.2 - r.1

/-- Of the type declarations under the root whose ranges contain the node,
    this one is the smallest, and all others contain it. -/
structure Innermost (t : Tree) (root id type : Nat) : Prop where
  reaches : t.Reaches root type
  isTypeDecl : t.isTypeDecl type = true
  covers : t.Covers type id
  smallest : ∀ other, t.Reaches root other → t.isTypeDecl other = true → t.Covers other id →
    other ≠ type → t.Covers other type ∧ t.byteCount type < t.byteCount other

theorem Innermost.unique (h : t.Innermost root id type) (h' : t.Innermost root id other) :
    other = type := by
  by_contra hne
  have hlt := (h.smallest other h'.reaches h'.isTypeDecl h'.covers hne).2
  have hgt := (h'.smallest type h.reaches h.isTypeDecl h.covers fun heq => hne heq.symm).2
  omega

theorem exists_typeDecl (h : t.isTypeDecl id = true) :
    ∃ sort name inherits members, t.form? id = some (.typeDecl sort name inherits members) := by
  unfold isTypeDecl at h
  split at h
  · exact ⟨_, _, _, _, ‹_›⟩
  · cases h

theorem exists_range_of_isTypeDecl (h : t.isTypeDecl id = true) : ∃ r, t.range? id = some r := by
  obtain ⟨sort, name, inherits, members, hform⟩ := exists_typeDecl h
  exact exists_range_of_form hform

theorem not_isTypeDecl_of_isClosure (h : t.isClosure id = true) : t.isTypeDecl id = false := by
  obtain ⟨captures, parameters, result, statements, hform⟩ := exists_closure h
  rw [isTypeDecl, hform]

end Tree

namespace Grammar

variable {text : String} {closure type other : Nat}

/-- The parts of a type declaration come after its first byte. -/
theorem typeDecl_part_after {id child : Nat} {r r' : Nat × Nat}
    (h : (SourceFile.parse text).tree.isTypeDecl id = true)
    (hr : (SourceFile.parse text).tree.range? id = some r)
    (hchild : child ∈ (SourceFile.parse text).tree.children id)
    (hr' : (SourceFile.parse text).tree.range? child = some r') : r.1 < r'.1 := by
  obtain ⟨sort, name, inherits, members, hform⟩ := Tree.exists_typeDecl h
  have hlaw : (Form.typeDecl sort name inherits members).Law text _ r := parse_lawful text hform hr
  rw [Tree.children, hform] at hchild
  exact hlaw child (by simpa using hchild) r' hr'

/-- Of two type declarations around a node that is not empty, the one above
    the other contains it and is larger. -/
theorem nearer_type_smaller {id : Nat} {r : Nat × Nat}
    (hother : (SourceFile.parse text).tree.isTypeDecl other = true)
    (htype : (SourceFile.parse text).tree.isTypeDecl type = true)
    (habove : (SourceFile.parse text).tree.Reaches other type) (hne : type ≠ other)
    (hreaches : (SourceFile.parse text).tree.Reaches type id)
    (hr : (SourceFile.parse text).tree.range? id = some r) (hlt : r.1 < r.2) :
    (SourceFile.parse text).tree.Covers other type ∧
      (SourceFile.parse text).tree.byteCount type < (SourceFile.parse text).tree.byteCount other := by
  have hrows := parse_inRows text
  have hlinked := parse_linked text
  obtain ⟨outer, houter⟩ := Tree.exists_range_of_isTypeDecl hother
  obtain ⟨inner, hinner⟩ := Tree.exists_range_of_isTypeDecl htype
  rcases habove.cases_head with rfl | ⟨child, hchild, hbelow⟩
  · exact absurd rfl hne
  · obtain ⟨part, hpart⟩ := Tree.exists_range_of_mem_children hlinked hchild
    have hafter := typeDecl_part_after hother houter hchild hpart
    have hstart := (hrows.within hlinked hbelow hpart hinner).1
    obtain ⟨hlow, hhigh⟩ := hrows.within hlinked hreaches hinner hr
    have hstop := hhigh hlt
    have hend := (hrows.within hlinked habove houter hinner).2 (by omega)
    refine ⟨⟨outer, inner, houter, hinner, by omega, hend⟩, ?_⟩
    rw [Tree.byteCount, Tree.byteCount, houter, hinner]
    show inner.2 - inner.1 < outer.2 - outer.1
    omega

/-- A type declaration contains a closure just if it is above it.  It does
    not stand in the closure, as what does starts after the brace. -/
theorem type_covers_iff (hroot : (SourceFile.parse text).tree.Reaches (SourceFile.parse text).root type)
    (htype : (SourceFile.parse text).tree.isTypeDecl type = true)
    (hreached : (SourceFile.parse text).tree.Reaches (SourceFile.parse text).root closure)
    (hclosure : (SourceFile.parse text).tree.isClosure closure = true) :
    (SourceFile.parse text).tree.Covers type closure ↔
      (SourceFile.parse text).tree.Reaches type closure := by
  have hrows := parse_inRows text
  have hlinked := parse_linked text
  obtain ⟨outer, houter⟩ := Tree.exists_range_of_isTypeDecl htype
  obtain ⟨captures, parameters, result, statements, hform⟩ := Tree.exists_closure hclosure
  obtain ⟨inner, hinner⟩ := Tree.exists_range_of_form hform
  have hlt := (parse_closuresOpen text).lt hclosure hinner
  refine ⟨fun hcovers => ?_, fun hreaches => hrows.covers hlinked hreaches houter hinner hlt⟩
  rcases hrows.reaches_of_covers hlinked hroot hreached hcovers hinner hlt with habove | hbelow
  · exact habove
  · rcases hbelow.cases_head with rfl | ⟨child, hchild, hrest⟩
    · rw [Tree.not_isTypeDecl_of_isClosure hclosure] at htype
      cases htype
    · obtain ⟨part, hpart⟩ := Tree.exists_range_of_mem_children hlinked hchild
      have hafter := (parse_closuresOpen text).part hclosure hinner hchild hpart
      have hstart := (hrows.within hlinked hrest hpart houter).1
      obtain ⟨x, y, hx, hy, hlow, -⟩ := hcovers
      obtain rfl := Option.some.inj (houter.symm.trans hx)
      obtain rfl := Option.some.inj (hinner.symm.trans hy)
      omega

/-- The nearest type declaration above a closure is the innermost one around it. -/
theorem innermost_of_nearest
    (hreached : (SourceFile.parse text).tree.Reaches (SourceFile.parse text).root closure)
    (hclosure : (SourceFile.parse text).tree.isClosure closure = true)
    (htype : (SourceFile.parse text).tree.isTypeDecl type = true)
    (habove : (SourceFile.parse text).tree.Reaches type closure)
    (hnearest : ∀ other, (SourceFile.parse text).tree.Reaches other closure → other ≠ closure →
      (SourceFile.parse text).tree.isTypeDecl other = true →
      (SourceFile.parse text).tree.Reaches other type) :
    (SourceFile.parse text).tree.Innermost (SourceFile.parse text).root closure type := by
  have hroot := (parse_linked text).reaches_of_orphan (parse_root_orphan text) hreached habove
  obtain ⟨captures, parameters, result, statements, hform⟩ := Tree.exists_closure hclosure
  obtain ⟨r, hr⟩ := Tree.exists_range_of_form hform
  have hlt := (parse_closuresOpen text).lt hclosure hr
  refine ⟨hroot, htype, (type_covers_iff hroot htype hreached hclosure).mpr habove, ?_⟩
  intro other hother hdecl hcovers hne
  have hupper := (type_covers_iff hother hdecl hreached hclosure).mp hcovers
  have hapart : other ≠ closure := by
    rintro rfl
    rw [Tree.not_isTypeDecl_of_isClosure hclosure] at hdecl
    cases hdecl
  exact nearer_type_smaller hdecl htype (hnearest other hupper hapart hdecl) hne.symm habove hr hlt

end Grammar

/-! ## Section 3: Reference types -/

theorem Setting.isSome_typeAnswer? (s : Setting) (id : Nat) :
    (s.typeAnswer? id).isSome = s.tree.isTypeDecl id := by
  rw [typeAnswer?, Tree.isTypeDecl]
  cases s.tree.form? id with
  | none => rfl
  | some form => cases form <;> rfl

/-- The type declaration that says whether a closure stands in a reference
    type is the innermost one around it in the text, and a class, an actor, a
    struct or an enum says so whatever the index knows.  If there is none
    around the closure, the question stays open. -/
theorem closure_in_innermost_type (index : Index.Lookup) (file text : String) :
    let s := Setting.ofText index file text
    let root := (SourceFile.parse text).root
    ∀ closure, s.tree.Reaches root closure → s.tree.isClosure closure = true →
      (∃ type sort name inherits members,
        (∀ other, s.tree.Innermost root closure other ↔ other = type) ∧
          s.tree.form? type = some (.typeDecl sort name inherits members) ∧
          s.inReferenceType closure =
            match sort with
            | .classType | .actor => .definitely
            | .struct | .enum => .definitelyNot
            | .extension | .protocol => s.extendedType name) ∨
        (∀ type, s.tree.Reaches root type → s.tree.isTypeDecl type = true →
          ¬ s.tree.Covers type closure) ∧
          s.inReferenceType closure = .indeterminate := by
  intro s root closure hreached hclosure
  have hlinked : s.tree.Linked := Grammar.parse_linked text
  have horphan : s.tree.parent? root = none := parse_root_orphan text
  -- The walk over the parents has an answer just if one of them is a type.
  cases hfound : (s.tree.ancestors closure).findSome? s.typeAnswer? with
  | none =>
    refine .inr ⟨fun type hroot htype hcovers => ?_, by rw [Setting.inReferenceType, hfound]; rfl⟩
    -- A type around the closure would be among the parents, and answer.
    have habove : s.tree.Reaches type closure :=
      (Grammar.type_covers_iff hroot htype hreached hclosure).mp hcovers
    have hne : type ≠ closure := by
      rintro rfl
      rw [Tree.not_isTypeDecl_of_isClosure hclosure] at htype
      cases htype
    obtain ⟨nearer, hancestors⟩ := hlinked.ancestors_of_reaches habove hne
    have hmem : type ∈ s.tree.ancestors closure := by
      rw [hancestors]
      exact List.mem_append_right _ List.mem_cons_self
    have hnone := List.findSome?_eq_none_iff.mp hfound type hmem
    rw [← Setting.isSome_typeAnswer?, hnone] at htype
    cases htype
  | some answer =>
    obtain ⟨type, hanswer, habove, -, hnearest⟩ := hlinked.nearest_of_findSome? hfound
    have htype : s.tree.isTypeDecl type = true := by
      rw [← Setting.isSome_typeAnswer?, hanswer]
      rfl
    -- The first parent that answers is the innermost type of the text.
    have hinnermost : s.tree.Innermost root closure type := by
      refine Grammar.innermost_of_nearest hreached hclosure htype habove
        fun other hother hne hdecl => ?_
      exact hnearest other hother hne ((s.isSome_typeAnswer? other).trans hdecl)
    obtain ⟨sort, name, inherits, members, hform⟩ := Tree.exists_typeDecl htype
    refine .inl ⟨type, sort, name, inherits, members, fun other => ⟨hinnermost.unique, ?_⟩, hform, ?_⟩
    · rintro rfl
      exact hinnermost
    · rw [Setting.inReferenceType, hfound, Option.getD_some]
      rw [Setting.typeAnswer?, hform] at hanswer
      exact (Option.some.inj hanswer).symm

/-- A closure in a struct in a class is in the struct, and so in no reference type. -/
theorem closure_in_innermost_type_nested :
    let text := "class A \x7b struct B \x7b var c = \x7b 1 \x7d \x7d \x7d"
    let s := Setting.ofText .absent "a.swift" text
    let root := (SourceFile.parse text).root
    (s.tree.Reaches root 4 ∧ s.tree.isClosure 4 = true) ∧
      (∀ other, s.tree.Innermost root 4 other ↔ other = 7) ∧
        s.inReferenceType 4 = .definitelyNot := by
  intro text s root
  have hpath : 8 ∈ s.tree.children root ∧ 7 ∈ s.tree.children 8 ∧ 6 ∈ s.tree.children 7 ∧
      5 ∈ s.tree.children 6 ∧ 4 ∈ s.tree.children 5 := by decide +kernel
  have hclosure : s.tree.isClosure 4 = true := by decide +kernel
  obtain ⟨hclass, hstruct, hvariable, hbinding, hvalue⟩ := hpath
  have hreached : s.tree.Reaches root 4 :=
    .head hclass (.head hstruct (.head hvariable (.head hbinding (.single hvalue))))
  have htypes : ∀ type < s.tree.nodes.size, s.tree.isTypeDecl type = true → type = 7 ∨ type = 8 := by
    decide +kernel
  have hform : s.tree.form? 8 = some (.typeDecl .classType 0 [] [7]) := by decide +kernel
  have hanswer : s.inReferenceType 4 = .definitelyNot := by decide +kernel
  rcases closure_in_innermost_type .absent "a.swift" text 4 hreached hclosure with
    ⟨type, sort, name, inherits, members, hinnermost, hdecl, hsays⟩ | ⟨-, hopen⟩
  · have hname : name ∈ s.tree.children type := by
      rw [Tree.children, hdecl]
      exact List.mem_cons_self
    have hsize := Tree.Linked.lt_size_of_mem_children hname
    rcases htypes type hsize ((hinnermost type).mpr rfl).isTypeDecl with rfl | rfl
    · exact ⟨⟨hreached, hclosure⟩, hinnermost, hanswer⟩
    · -- the class would say that the closure is in a reference type
      cases hform.symm.trans hdecl
      cases hanswer.symm.trans hsays
  · cases hanswer.symm.trans hopen

end SelfCapture
