import SelfCapture.Tree.Walk

/-! # Preorder

  `Tree.preorder` lists a node and its descendants by plain recursion, each
  node before its children and the children in order.  A walk that leaves
  nothing out passes the nodes of that list one after the other.

  `Tree.Linked` says that the nodes are linked up as a forest: a child was
  made before its parent, knows its parent, and is the child of no other
  node.  In a linked tree the list has no node twice, and a node never
  comes before its parent.
-/

namespace SelfCapture.Tree

variable {t : Tree} {id root child : Nat}

/-! ## Section 1: The list -/

theorem lt_of_mem_earlierChildren (h : child ∈ t.earlierChildren id) : child < id := by
  simp only [earlierChildren, List.mem_filter, decide_eq_true_eq] at h
  exact h.2

/-- A node and its descendants, each node before its children. -/
def preorder (t : Tree) (id : Nat) : List Nat :=
  match t.get? id with
  | none => []
  | some _ => id :: (t.earlierChildren id).attach.flatMap fun child => t.preorder child.1
termination_by id
decreasing_by exact lt_of_mem_earlierChildren child.2

theorem preorder_of_none (h : t.get? id = none) : t.preorder id = [] := by
  rw [preorder, h]

theorem preorder_of_some {node : Node} (h : t.get? id = some node) :
    t.preorder id = id :: (t.earlierChildren id).flatMap t.preorder := by
  rw [preorder, h]
  simp only [List.cons.injEq, true_and]
  rw [List.flatMap_subtype (g := t.preorder) (fun _ _ => rfl), List.unattach_attach]

/-- The list of a node that exists starts with the node. -/
theorem mem_preorder_self {node : Node} (h : t.get? id = some node) : id ∈ t.preorder id := by
  rw [preorder_of_some h]
  exact List.mem_cons_self

theorem exists_top_of_mem_preorder {k : Nat} (h : k ∈ t.preorder id) :
    ∃ node, t.get? id = some node := by
  cases hnode : t.get? id with
  | none =>
    rw [preorder_of_none hnode] at h
    exact absurd h List.not_mem_nil
  | some node => exact ⟨node, rfl⟩

/-- A member of the list is the node itself or a member of a child's list. -/
theorem mem_preorder {k : Nat} (h : k ∈ t.preorder id) :
    (k = id ∧ ∃ node, t.get? id = some node) ∨
      ∃ child ∈ t.earlierChildren id, k ∈ t.preorder child := by
  obtain ⟨node, hnode⟩ := exists_top_of_mem_preorder h
  rw [preorder_of_some hnode, List.mem_cons, List.mem_flatMap] at h
  rcases h with rfl | h
  · exact Or.inl ⟨rfl, node, hnode⟩
  · exact Or.inr h

theorem exists_of_mem_preorder {k : Nat} (h : k ∈ t.preorder id) :
    ∃ node, t.get? k = some node := by
  induction id using Nat.strongRecOn with
  | ind id ih =>
    rcases mem_preorder h with ⟨rfl, hnode⟩ | ⟨child, hchild, hk⟩
    · exact hnode
    · exact ih child (lt_of_mem_earlierChildren hchild) hk

theorem le_of_mem_preorder {k : Nat} (h : k ∈ t.preorder id) : k ≤ id := by
  induction id using Nat.strongRecOn with
  | ind id ih =>
    rcases mem_preorder h with ⟨rfl, -⟩ | ⟨child, hchild, hk⟩
    · exact Nat.le_refl _
    · have hlt := lt_of_mem_earlierChildren hchild
      have hle := ih child hlt hk
      omega

/-- The children of a member are members. -/
theorem mem_preorder_of_mem_earlierChildren {k : Nat} {node : Node} (hk : k ∈ t.preorder id)
    (hchild : child ∈ t.earlierChildren k) (hnode : t.get? child = some node) :
    child ∈ t.preorder id := by
  induction id using Nat.strongRecOn with
  | ind id ih =>
    obtain ⟨top, htop⟩ := exists_top_of_mem_preorder hk
    rw [preorder_of_some htop]
    refine List.mem_cons_of_mem _ (List.mem_flatMap.mpr ?_)
    -- Either the member is the top, or it is in the list of a child of the top.
    rcases mem_preorder hk with ⟨rfl, -⟩ | ⟨between, hbetween, hmem⟩
    · exact ⟨child, hchild, mem_preorder_self hnode⟩
    · exact ⟨between, hbetween, ih between (lt_of_mem_earlierChildren hbetween) hmem⟩

theorem get?_eq_none_of_form_eq {t' : Tree} (h : t'.form? id = t.form? id)
    (hnode : t.get? id = none) : t'.get? id = none := by
  rwa [form?, form?, hnode, Option.map_none, Option.map_eq_none_iff] at h

/-- Nodes of the same form may still differ, in their places and parents. -/
theorem exists_of_form_eq {t' : Tree} {node : Node} (h : t'.form? id = t.form? id)
    (hnode : t.get? id = some node) : ∃ node', t'.get? id = some node' ∧ node'.form = node.form := by
  rwa [form?, form?, hnode, Option.map_some, Option.map_eq_some_iff] at h

/-- The list depends only on the forms of the node and of earlier ones. -/
theorem preorder_congr {t' : Tree} (h : ∀ k ≤ id, t'.form? k = t.form? k) :
    t'.preorder id = t.preorder id := by
  induction id using Nat.strongRecOn with
  | ind id ih =>
    have hself := h id (Nat.le_refl _)
    have hchildren : t'.earlierChildren id = t.earlierChildren id := by
      simp only [earlierChildren, children, hself]
    have hsub : (t.earlierChildren id).flatMap t'.preorder =
        (t.earlierChildren id).flatMap t.preorder := by
      rw [List.flatMap_def, List.flatMap_def]
      congr 1
      refine List.map_congr_left fun child hchild => ?_
      have hlt := lt_of_mem_earlierChildren hchild
      exact ih child hlt fun k hk => h k (by omega)
    cases hnode : t.get? id with
    | none => rw [preorder_of_none hnode, preorder_of_none (get?_eq_none_of_form_eq hself hnode)]
    | some node =>
      obtain ⟨node', hnode', -⟩ := exists_of_form_eq hself hnode
      rw [preorder_of_some hnode, preorder_of_some hnode', hchildren, hsub]

theorem flatMap_preorder_congr {t' : Tree} {ids : List Nat}
    (h : ∀ id ∈ ids, ∀ k ≤ id, t'.form? k = t.form? k) :
    ids.flatMap t'.preorder = ids.flatMap t.preorder := by
  rw [List.flatMap_def, List.flatMap_def]
  congr 1
  exact List.map_congr_left fun id hid => preorder_congr (h id hid)

/-! ## Section 2: Walks -/

/-- What a walk does at a node of the list. -/
def visitAt {β : Type} (t : Tree) (visit : β → Nat → Node → β) (acc : β) (id : Nat) : β :=
  match t.get? id with
  | some node => visit acc id node
  | none => acc

/-- A walk that always descends passes the pending nodes and their
    descendants in preorder. -/
theorem foldPending_descend {β : Type} (t : Tree) (visit : β → Nat → Node → β)
    (pending : List Nat) (acc : β) :
    t.foldPending (fun acc id node => (visit acc id node, .descend)) pending acc =
      (pending.flatMap t.preorder).foldl (t.visitAt visit) acc := by
  fun_induction t.foldPending (fun acc id node => (visit acc id node, .descend)) pending acc with
  | case1 acc => rfl
  | case2 id pending acc hnode ih =>
    rw [ih, List.flatMap_cons, preorder_of_none hnode, List.nil_append]
  | case3 id pending acc node hnode acc' hvisit ih =>
    -- The children go on top of the pending nodes, which is where the list of
    -- the node has them.
    have hacc : acc' = t.visitAt visit acc id := by
      simp only [Prod.mk.injEq, and_true] at hvisit
      simp only [visitAt, hnode, hvisit]
    rw [ih, List.flatMap_append, List.flatMap_cons, preorder_of_some hnode, List.cons_append,
      List.foldl_cons, hacc]
  | case4 id pending acc node hnode acc' hvisit ih =>
    simp only [Prod.mk.injEq, reduceCtorEq, and_false] at hvisit
  | case5 id pending acc node hnode acc' hvisit =>
    simp only [Prod.mk.injEq, reduceCtorEq, and_false] at hvisit

theorem fold_descend {β : Type} (t : Tree) (visit : β → Nat → Node → β) (root : Nat) (acc : β) :
    t.fold root acc (fun acc id node => (visit acc id node, .descend)) =
      (t.preorder root).foldl (t.visitAt visit) acc := by
  rw [fold, foldPending_descend, List.flatMap_cons, List.flatMap_nil, List.append_nil]

/-- A walk that stops at the first node that passes a test tells whether one
    of the nodes in preorder passes it. -/
theorem foldPending_any (t : Tree) (test : Node → Bool) (pending : List Nat) (found : Bool) :
    t.foldPending (fun found _ node => if test node then (true, .stop) else (found, .descend))
        pending found =
      (found || (pending.flatMap t.preorder).any fun id => (t.get? id).any test) := by
  fun_induction t.foldPending
      (fun found _ node => if test node then (true, .stop) else (found, .descend))
      pending found with
  | case1 found => rw [List.flatMap_nil, List.any_nil, Bool.or_false]
  | case2 id pending found hnode ih =>
    rw [ih, List.flatMap_cons, preorder_of_none hnode, List.nil_append]
  | case3 id pending found node hnode found' hvisit ih =>
    -- The walk descends from a node that fails the test.
    split at hvisit
    · cases hvisit
    · rename_i hfails
      cases hvisit
      rw [ih, List.flatMap_append, List.flatMap_cons, preorder_of_some hnode, List.cons_append,
        List.any_cons, hnode, Option.any_some, Bool.eq_false_iff.mpr hfails, Bool.false_or]
  | case4 id pending found node hnode found' hvisit ih =>
    split at hvisit <;> cases hvisit
  | case5 id pending found node hnode found' hvisit =>
    split at hvisit
    · rename_i hpasses
      cases hvisit
      rw [List.flatMap_cons, preorder_of_some hnode, List.cons_append, List.any_cons, hnode,
        Option.any_some, hpasses, Bool.true_or, Bool.or_true]
    · cases hvisit

theorem fold_any (t : Tree) (test : Node → Bool) (root : Nat) :
    (t.fold root false fun found _ node =>
        if test node then (true, .stop) else (found, .descend)) =
      (t.preorder root).any fun id => (t.get? id).any test := by
  rw [fold, foldPending_any, Bool.false_or, List.flatMap_cons, List.flatMap_nil, List.append_nil]

/-- What a walk sees of a tree are the forms of its nodes, if its visits
    look at no more. -/
theorem foldPending_congr {β : Type} {t t' : Tree} (hform : ∀ id, t'.form? id = t.form? id)
    {visit visit' : β → Nat → Node → β × Visit}
    (hvisit : ∀ acc id (node node' : Node), node'.form = node.form →
      visit' acc id node' = visit acc id node) (pending : List Nat) (acc : β) :
    t'.foldPending visit' pending acc = t.foldPending visit pending acc := by
  have hchildren (id : Nat) : t'.earlierChildren id = t.earlierChildren id := by
    simp only [earlierChildren, children, hform]
  -- A node is looked up by its form in both trees, so the visits agree and so do their answers.
  fun_induction t.foldPending visit pending acc with
  | case1 acc => rw [foldPending]
  | case2 id pending acc hnode ih =>
    rw [foldPending, get?_eq_none_of_form_eq (hform id) hnode]
    exact ih
  | case3 id pending acc node hnode acc' hnext ih =>
    obtain ⟨node', hnode', hsame⟩ := exists_of_form_eq (hform id) hnode
    rw [foldPending, hnode']
    simp only [hvisit acc id node node' hsame, hnext, hchildren]
    exact ih
  | case4 id pending acc node hnode acc' hnext ih =>
    obtain ⟨node', hnode', hsame⟩ := exists_of_form_eq (hform id) hnode
    rw [foldPending, hnode']
    simp only [hvisit acc id node node' hsame, hnext]
    exact ih
  | case5 id pending acc node hnode acc' hnext =>
    obtain ⟨node', hnode', hsame⟩ := exists_of_form_eq (hform id) hnode
    rw [foldPending, hnode']
    simp only [hvisit acc id node node' hsame, hnext]

theorem fold_congr {β : Type} {t t' : Tree} (hform : ∀ id, t'.form? id = t.form? id)
    {visit visit' : β → Nat → Node → β × Visit}
    (hvisit : ∀ acc id (node node' : Node), node'.form = node.form →
      visit' acc id node' = visit acc id node) (root : Nat) (acc : β) :
    t'.fold root acc visit' = t.fold root acc visit :=
  foldPending_congr hform hvisit [root] acc

/-! ## Section 3: Linked trees -/

/-- Every child was made before its parent. -/
def ChildrenFirst (t : Tree) : Prop := ∀ id, ∀ child ∈ t.children id, child < id

/-- No child is left out for its number. -/
theorem ChildrenFirst.earlierChildren_eq (h : t.ChildrenFirst) (id : Nat) :
    t.earlierChildren id = t.children id := by
  rw [earlierChildren, List.filter_eq_self]
  intro child hchild
  exact decide_eq_true (h id child hchild)

/-- The nodes are linked up as a forest, in which children come before their parents. -/
structure Linked (t : Tree) : Prop where
  child_lt : ∀ {id child : Nat}, child ∈ t.children id → child < id
  /-- Every child knows its parent, and is one of its parent's children. -/
  parent_iff : ∀ {id child : Nat}, t.parent? child = some id ↔ child ∈ t.children id
  nodup_children : ∀ id : Nat, (t.children id).Nodup

namespace Linked

theorem childrenFirst (h : t.Linked) : t.ChildrenFirst := fun _ _ hchild => h.child_lt hchild

theorem earlierChildren_eq (h : t.Linked) (id : Nat) : t.earlierChildren id = t.children id :=
  h.childrenFirst.earlierChildren_eq id

/-- A child exists, for it knows its parent. -/
theorem exists_child (h : t.Linked) (hchild : child ∈ t.children id) :
    ∃ node, t.get? child = some node := by
  have hparent := h.parent_iff.mpr hchild
  rw [parent?, Option.bind_eq_some_iff] at hparent
  obtain ⟨node, hnode, -⟩ := hparent
  exact ⟨node, hnode⟩

/-- The list of a node, with all its children. -/
theorem preorder_eq (h : t.Linked) {node : Node} (hnode : t.get? id = some node) :
    t.preorder id = id :: (t.children id).flatMap t.preorder := by
  rw [preorder_of_some hnode, h.earlierChildren_eq]

/-- A node has at most one parent. -/
theorem parent_unique (h : t.Linked) {a b : Nat} (ha : child ∈ t.children a)
    (hb : child ∈ t.children b) : a = b := by
  have hparent := h.parent_iff.mpr ha
  rw [h.parent_iff.mpr hb] at hparent
  exact (Option.some.inj hparent).symm

theorem mem_preorder_child (h : t.Linked) {k : Nat} (hk : k ∈ t.preorder root)
    (hchild : child ∈ t.children k) : child ∈ t.preorder root := by
  obtain ⟨node, hnode⟩ := h.exists_child hchild
  refine mem_preorder_of_mem_earlierChildren hk ?_ hnode
  rw [h.earlierChildren_eq]
  exact hchild

/-- A member other than the top has its parent among the members. -/
theorem exists_parent (h : t.Linked) {k : Nat} (hk : k ∈ t.preorder root) (hne : k ≠ root) :
    ∃ parent ∈ t.preorder root, k ∈ t.children parent := by
  induction root using Nat.strongRecOn with
  | ind root ih =>
    rcases mem_preorder hk with ⟨rfl, -⟩ | ⟨child, hchild, hmem⟩
    · exact absurd rfl hne
    · obtain ⟨top, htop⟩ := exists_top_of_mem_preorder hk
      by_cases heq : k = child
      · subst heq
        rw [h.earlierChildren_eq] at hchild
        exact ⟨root, mem_preorder_self htop, hchild⟩
      · obtain ⟨parent, hparent, hlink⟩ := ih child (lt_of_mem_earlierChildren hchild) hmem heq
        refine ⟨parent, ?_, hlink⟩
        rw [preorder_of_some htop]
        exact List.mem_cons_of_mem _ (List.mem_flatMap.mpr ⟨child, hchild, hparent⟩)

theorem mem_preorder_parent (h : t.Linked) {k parent : Nat} (hk : k ∈ t.preorder root)
    (hne : k ≠ root) (hparent : k ∈ t.children parent) : parent ∈ t.preorder root := by
  obtain ⟨other, hother, hlink⟩ := h.exists_parent hk hne
  rw [h.parent_unique hparent hlink]
  exact hother

/-- The lists of two siblings have no node in common: going up from a
    common node, the way would pass through both. -/
theorem disjoint_siblings (h : t.Linked) {a b k : Nat} (ha : a ∈ t.children id)
    (hb : b ∈ t.children id) (hne : a ≠ b) (hka : k ∈ t.preorder a) : k ∉ t.preorder b := by
  intro hkb
  have hlta := h.child_lt ha
  have hltb := h.child_lt hb
  by_cases hk : k = a
  · -- The parent would then be below its own child.
    subst hk
    have hup := le_of_mem_preorder (h.mem_preorder_parent hkb hne ha)
    omega
  · by_cases hk' : k = b
    · subst hk'
      have hup := le_of_mem_preorder (h.mem_preorder_parent hka (Ne.symm hne) hb)
      omega
    · -- Neither list starts with the node, so its parent is in both.
      obtain ⟨parent, hparent, hlink⟩ := h.exists_parent hka hk
      have hlt := h.child_lt hlink
      have hle := le_of_mem_preorder hparent
      exact h.disjoint_siblings ha hb hne hparent (h.mem_preorder_parent hkb hk' hlink)
termination_by a - k

theorem nodup_preorder (h : t.Linked) (id : Nat) : (t.preorder id).Nodup := by
  induction id using Nat.strongRecOn with
  | ind id ih =>
    cases hnode : t.get? id with
    | none =>
      rw [preorder_of_none hnode]
      exact List.nodup_nil
    | some node =>
      rw [h.preorder_eq hnode, List.nodup_cons]
      constructor
      · -- Descendants are made before the node.
        intro hmem
        obtain ⟨child, hchild, hself⟩ := List.mem_flatMap.mp hmem
        have hlt := h.child_lt hchild
        have hle := le_of_mem_preorder hself
        omega
      · refine List.pairwise_flatMap.mpr ⟨fun child hchild => ih child (h.child_lt hchild), ?_⟩
        refine (h.nodup_children id).imp_of_mem fun {a b} ha hb hne x hx y hy hxy => ?_
        subst hxy
        exact h.disjoint_siblings ha hb hne hx hy

/-- No node comes before its parent. -/
theorem parent_first (h : t.Linked) (id : Nat) :
    (t.preorder id).Pairwise fun a b => a ∉ t.children b := by
  induction id using Nat.strongRecOn with
  | ind id ih =>
    cases hnode : t.get? id with
    | none =>
      rw [preorder_of_none hnode]
      exact List.Pairwise.nil
    | some node =>
      rw [h.preorder_eq hnode, List.pairwise_cons]
      constructor
      · intro k hk hlink
        obtain ⟨child, hchild, hmem⟩ := List.mem_flatMap.mp hk
        have hlt := h.child_lt hchild
        have hle := le_of_mem_preorder hmem
        have hlt' := h.child_lt hlink
        omega
      · refine List.pairwise_flatMap.mpr ⟨fun child hchild => ih child (h.child_lt hchild), ?_⟩
        refine (h.nodup_children id).imp_of_mem fun {a b} ha hb hne x hx y hy hlink => ?_
        -- For two nodes below different children: the first is a child of the
        -- top, or its parent is on its own side.
        by_cases hxa : x = a
        · subst hxa
          have hle := le_of_mem_preorder hy
          have hlt := h.child_lt hb
          rw [h.parent_unique hlink ha] at hle
          omega
        · exact h.disjoint_siblings ha hb hne (h.mem_preorder_parent hx hxa hlink) hy

/-- A member's parent, if it is a member, has been passed when the member is reached. -/
theorem mem_before_of_mem_children (h : t.Linked) {parent k : Nat} {before after : List Nat}
    (hsplit : t.preorder id = before ++ k :: after) (hparent : parent ∈ t.preorder id)
    (hlink : k ∈ t.children parent) : parent ∈ before := by
  have hfirst := h.parent_first id
  rw [hsplit] at hparent hfirst
  rcases List.mem_append.mp hparent with hmem | hmem
  · exact hmem
  · exfalso
    rcases List.mem_cons.mp hmem with heq | hmem
    · have hlt := h.child_lt hlink
      omega
    · have hrest := (List.pairwise_append.mp hfirst).2.1
      exact (List.pairwise_cons.mp hrest).1 parent hmem hlink

end Linked
end SelfCapture.Tree
