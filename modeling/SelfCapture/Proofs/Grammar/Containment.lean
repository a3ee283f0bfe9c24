import Mathlib.Data.List.Pairwise
import SelfCapture.Proofs.Grammar.Ranges
import SelfCapture.Proofs.Tree.Loops

/-! # Which ranges contain each other

  A node that is not empty lies inside all the nodes above it, and two
  nodes neither of which is above the other lie apart.  So for nodes that
  are not empty, to contain a range and to be above the node are the same,
  but for a node that starts where another one does.

  A closure is not empty, and its parts start after its brace:
  `parse_closuresOpen`.
-/

namespace SelfCapture

namespace Tree

variable {t : Tree} {id child top other root : Nat} {r r' : Nat × Nat}

/-! ## Section 1: Going up and down -/

theorem exists_form_of_mem_children (h : child ∈ t.children id) :
    ∃ form, t.form? id = some form ∧ child ∈ form.children := by
  cases hform : t.form? id with
  | none =>
    rw [children, hform] at h
    cases h
  | some form =>
    rw [children, hform] at h
    exact ⟨form, rfl, h⟩

/-- The nodes above a node are those from which it can be reached. -/
theorem Linked.ancestors_of_reaches (h : t.Linked) (hreaches : t.Reaches top id) (hne : top ≠ id) :
    ∃ nearer, t.ancestors id = nearer ++ top :: t.ancestors top := by
  induction hreaches with
  | refl => exact absurd rfl hne
  | @tail parent child _ hchild ih =>
    rw [h.ancestors_of_parent (h.parent_iff.mpr hchild)]
    by_cases hsame : top = parent
    · exact ⟨[], by rw [hsame, List.nil_append]⟩
    · obtain ⟨nearer, hnearer⟩ := ih hsame
      exact ⟨parent :: nearer, by rw [hnearer, List.cons_append]⟩

/-- Of two nodes above a third one is above the other. -/
theorem Linked.reaches_or_reaches (h : t.Linked) (htop : t.Reaches top id)
    (hother : t.Reaches other id) : t.Reaches top other ∨ t.Reaches other top := by
  induction htop generalizing other with
  | refl => exact .inr hother
  | @tail parent child _ hchild ih =>
    rcases hother.cases_tail with rfl | ⟨above, habove, hbelow⟩
    · exact .inl (.tail ‹_› hchild)
    · rw [h.parent_unique hbelow hchild] at habove
      exact ih habove

/-- A node above one that can be reached from the root can be reached from there too. -/
theorem Linked.reaches_of_orphan (h : t.Linked) (hroot : t.parent? root = none)
    (hid : t.Reaches root id) (htop : t.Reaches top id) : t.Reaches root top := by
  rcases h.reaches_or_reaches hid htop with hbelow | habove
  · exact hbelow
  · rcases habove.cases_tail with rfl | ⟨parent, -, hchild⟩
    · exact .refl
    · rw [h.parent_iff.mpr hchild] at hroot
      cases hroot

/-! ## Section 2: Above and below -/

/-- The range of the first node contains the range of the second. -/
def Covers (t : Tree) (outer inner : Nat) : Prop :=
  ∃ r r', t.range? outer = some r ∧ t.range? inner = some r' ∧ r.1 ≤ r'.1 ∧ r'.2 ≤ r.2

theorem exists_range_of_form {form : Form} (h : t.form? id = some form) :
    ∃ r, t.range? id = some r := by
  obtain ⟨node, hnode, -⟩ := Option.map_eq_some_iff.mp h
  exact ⟨_, Option.map_eq_some_iff.mpr ⟨node, hnode, rfl⟩⟩

theorem exists_range_of_mem_children (h : t.Linked) (hchild : child ∈ t.children id) :
    ∃ r, t.range? child = some r := by
  have hlt := h.child_lt hchild
  have hsize : id < t.nodes.size := Linked.lt_size_of_mem_children hchild
  obtain ⟨node, hnode⟩ := exists_get?_of_lt (Nat.lt_trans hlt hsize)
  exact ⟨_, Option.map_eq_some_iff.mpr ⟨node, hnode, rfl⟩⟩

/-- A child starts within its parent, and ends there if it is not empty. -/
theorem InRows.child_within (h : t.InRows) (hchild : child ∈ t.children id)
    (hr : t.range? id = some r) (hr' : t.range? child = some r') :
    r.1 ≤ r'.1 ∧ (r'.1 < r'.2 → r'.2 ≤ r.2) := by
  obtain ⟨node, hnode, rfl⟩ := Option.map_eq_some_iff.mp hr
  have hmem : r' ∈ t.ranges (t.children id) := List.mem_filterMap.mpr ⟨child, hchild, hr'⟩
  exact ⟨(h.row hnode).low_le hmem, (h.row hnode).le_mark hmem⟩

/-- So does every node below it. -/
theorem InRows.within (h : t.InRows) (hlinked : t.Linked) (hreaches : t.Reaches top id)
    (hr : t.range? top = some r) (hr' : t.range? id = some r') :
    r.1 ≤ r'.1 ∧ (r'.1 < r'.2 → r'.2 ≤ r.2) := by
  induction hreaches using Relation.ReflTransGen.head_induction_on generalizing r with
  | refl =>
    obtain rfl := Option.some.inj (hr.symm.trans hr')
    exact ⟨Nat.le_refl _, fun _ => Nat.le_refl _⟩
  | @head top child hchild hbelow ih =>
    obtain ⟨mid, hmid⟩ := exists_range_of_mem_children hlinked hchild
    have hupper := h.child_within hchild hr hmid
    have hlower := ih hmid
    refine ⟨Nat.le_trans hupper.1 hlower.1, fun hlt => ?_⟩
    have hend := hlower.2 hlt
    exact Nat.le_trans hend (hupper.2 (by omega))

theorem InRows.covers (h : t.InRows) (hlinked : t.Linked) (hreaches : t.Reaches top id)
    (hr : t.range? top = some r) (hr' : t.range? id = some r') (hlt : r'.1 < r'.2) :
    t.Covers top id := by
  have hwithin := h.within hlinked hreaches hr hr'
  exact ⟨r, r', hr, hr', hwithin.1, hwithin.2 hlt⟩

/-- One of the nodes ends before the other one starts. -/
def Apart (t : Tree) (id other : Nat) : Prop :=
  ∀ r r', t.range? id = some r → t.range? other = some r' → r.2 ≤ r'.1 ∨ r'.2 ≤ r.1

instance : Std.Symm t.Apart := ⟨fun _ _ h r r' hr hr' => (h r' r hr' hr).symm⟩

/-- Children of one node lie apart. -/
theorem InRows.children_apart (h : t.InRows) (hchild : child ∈ t.children id)
    (hother : other ∈ t.children id) (hne : child ≠ other) : t.Apart child other := by
  have hparent : id < t.nodes.size := Linked.lt_size_of_mem_children hchild
  obtain ⟨node, hnode⟩ := exists_get?_of_lt hparent
  have hpairs := List.pairwise_filterMap.mp (h.row hnode).pairwise
  have hapart : (t.children id).Pairwise t.Apart :=
    hpairs.imp fun hbefore r r' hr hr' => .inl (hbefore r hr r' hr')
  exact hapart.forall hchild hother hne

/-- Nodes that are not empty lie apart unless one is above the other. -/
theorem InRows.apart (h : t.InRows) (hlinked : t.Linked) (hid : t.Reaches root id)
    (hother : t.Reaches root other) (hno : ¬ t.Reaches id other) (hno' : ¬ t.Reaches other id)
    (hr : t.range? id = some r) (hlt : r.1 < r.2) (hr' : t.range? other = some r')
    (hlt' : r'.1 < r'.2) : r.2 ≤ r'.1 ∨ r'.2 ≤ r.1 := by
  induction hid using Relation.ReflTransGen.head_induction_on with
  | refl => exact absurd hother hno
  | @head top child hchild hbelow ih =>
    rcases hother.cases_head with rfl | ⟨child', hchild', hbelow'⟩
    · exact absurd (.head hchild hbelow) hno'
    · by_cases hsame : child = child'
      · exact ih (hsame ▸ hbelow')
      · obtain ⟨x, hx⟩ := exists_range_of_mem_children hlinked hchild
        obtain ⟨y, hy⟩ := exists_range_of_mem_children hlinked hchild'
        have hwithin := h.within hlinked hbelow hx hr
        have hwithin' := h.within hlinked hbelow' hy hr'
        have hend := hwithin.2 hlt
        have hend' := hwithin'.2 hlt'
        rcases h.children_apart hchild hchild' hsame x y hx hy with hbefore | hafter
        · exact .inl (by omega)
        · exact .inr (by omega)

/-- A node whose range contains that of another is above or below it. -/
theorem InRows.reaches_of_covers (h : t.InRows) (hlinked : t.Linked) (htop : t.Reaches root top)
    (hid : t.Reaches root id) (hcovers : t.Covers top id) (hr : t.range? id = some r)
    (hlt : r.1 < r.2) : t.Reaches top id ∨ t.Reaches id top := by
  obtain ⟨outer, inner, houter, hinner, hstart, hstop⟩ := hcovers
  obtain rfl := Option.some.inj (hinner.symm.trans hr)
  by_contra hno
  rw [not_or] at hno
  rcases h.apart hlinked htop hid hno.1 hno.2 houter (by omega) hinner hlt with hbefore | hafter
  · omega
  · omega

/-! ## Section 3: Closures -/

/-- A closure covers a byte, and its parts start after its first one. -/
structure ClosuresOpen (t : Tree) : Prop where
  lt : ∀ {id : Nat} {r : Nat × Nat}, t.isClosure id = true → t.range? id = some r → r.1 < r.2
  part : ∀ {id child : Nat} {r r' : Nat × Nat}, t.isClosure id = true → t.range? id = some r →
    child ∈ t.children id → t.range? child = some r' → r.1 < r'.1

/-- What the general rule makes is no closure. -/
theorem not_isClosure_add {form : Form} {pos stop : Nat} (hfits : t.Fits form) :
    (t.add form pos stop).isClosure t.nextId = false := by
  refine Bool.eq_false_iff.mpr fun hclosure => ?_
  obtain ⟨captures, parameters, result, statements, hform⟩ := exists_closure hclosure
  rw [form?_add, if_pos rfl] at hform
  rw [Option.some.inj hform] at hfits
  exact hfits

theorem closuresOpen_empty (bytes : ByteArray) : (Tree.mk bytes #[]).ClosuresOpen := ⟨nofun, nofun⟩

theorem ClosuresOpen.add {form : Form} {pos stop : Nat} (h : t.ClosuresOpen) (hlinked : t.Linked)
    (hlt : ∀ child ∈ form.children, child < t.nextId)
    (hnew : (t.add form pos stop).isClosure t.nextId = true →
      pos < max stop pos ∧ ∀ r ∈ t.ranges form.children, pos < r.1) :
    (t.add form pos stop).ClosuresOpen := by
  -- The new node is no part of an old one.
  have hkept {id child : Nat} (hid : id ≠ t.nextId) (hchild : child ∈ t.children id) :
      child ≠ t.nextId := by
    have hparent : id < t.nextId := Linked.lt_size_of_mem_children hchild
    have hbelow := hlinked.child_lt hchild
    omega
  -- An old closure was one before.
  have hold {id : Nat} (hid : id ≠ t.nextId) (hclosure : (t.add form pos stop).isClosure id = true) :
      t.isClosure id = true := by
    rw [isClosure, form?_add, if_neg hid] at hclosure
    exact hclosure
  constructor
  · intro id r hclosure hr
    rw [range?_add] at hr
    split at hr
    · subst id
      obtain rfl := Option.some.inj hr
      exact (hnew hclosure).1
    · exact h.lt (hold ‹_› hclosure) hr
  · intro id child r r' hclosure hr hchild hr'
    rw [range?_add] at hr hr'
    rw [children_add] at hchild
    by_cases hid : id = t.nextId
    · subst id
      rw [if_pos rfl] at hr hchild
      rw [if_neg (Nat.ne_of_lt (hlt child hchild))] at hr'
      obtain rfl := Option.some.inj hr
      exact (hnew hclosure).2 r' (List.mem_filterMap.mpr ⟨child, hchild, hr'⟩)
    · rw [if_neg hid] at hr hchild
      rw [if_neg (hkept hid hchild)] at hr'
      exact h.part (hold hid hclosure) hr hchild hr'

end Tree

namespace Grammar

/-- Every closure that a derivation makes starts with its brace. -/
theorem Derives.closuresOpen {task : Task} {s s' : State} {ids : List Nat}
    (h : Derives task s ids s') (hlinked : s.tree.Linked) (hs : s.tree.ClosuresOpen) :
    s'.tree.ClosuresOpen := by
  induction h with
  | stay _ | advance _ | noWindow _ => exact hs
  | report _ issue =>
    unfold State.reported
    split
    · exact hs
    · exact hs
  | append h _ ih ih' => exact ih' (h.grows.linked hlinked) (ih hlinked hs)
  | forget _ ih => exact ih hlinked hs
  | @finish s s₁ form h hfits ih =>
    refine (ih hlinked hs).add (h.grows.linked hlinked) (fun _ hchild => (h.grows.new hchild).2) ?_
    exact fun hclosure => absurd (hclosure.symm.trans (Tree.not_isClosure_add hfits)) nofun
  | @closure s s₁ captures parameters result statements hsettled hbrace h ih =>
    -- The row of the parts starts after the brace, and the node at it.
    have hnext : s.advanced.Behind := State.advanced_behind hsettled
    have hne : s.kind ≠ .endOfFile := by rw [hbrace]; nofun
    have hcovers : s.offset < s.scanner.token.stop := hsettled.covers hne
    have hstart : s.scanner.token.stop ≤ s.advanced.offset := hsettled.stop_le_scan
    have hrow := h.inRow ⟨hnext, Nat.le_refl _, Nat.le_refl _, Nat.le_refl _⟩
    have hstop : s.scanner.token.stop ≤ s₁.previousStop := (h.previousStop_le rfl hnext).1
    refine (ih hlinked hs).add (h.grows.linked hlinked) (fun _ hchild => (h.grows.new hchild).2) ?_
    intro _
    refine ⟨by omega, fun r hr => ?_⟩
    have hlow := hrow.low_le hr
    omega
  | name _ | missing _ =>
    exact hs.add hlinked nofun fun hclosure =>
      absurd (hclosure.symm.trans (Tree.not_isClosure_add trivial)) nofun
  | under _ _ ih => exact ih hlinked hs
  | deeper _ _ ih => exact ih hlinked hs
  | interpolate _ _ ih => exact ih hlinked hs
  | window h _ ih ih' => exact ih' (h.grows.linked hlinked) (ih hlinked hs)

theorem parse_closuresOpen (text : String) : (SourceFile.parse text).tree.ClosuresOpen := by
  obtain ⟨statements, s', hread, -, htree⟩ := parse_derives text
  have hlinked : (State.ofText text).advanced.tree.Linked := Tree.linked_empty _
  rw [htree]
  exact (hread.closuresOpen hlinked (Tree.closuresOpen_empty _)).add (hread.grows.linked hlinked)
    (fun _ hchild => (hread.grows.new hchild).2) fun hclosure =>
      absurd (hclosure.symm.trans (Tree.not_isClosure_add trivial)) nofun

end Grammar
end SelfCapture
