import Mathlib.Logic.Relation
import SelfCapture.Check.Callee
import SelfCapture.Check.Escaping
import SelfCapture.Proofs.Grammar.SourceFile

/-! # Loops over a tree

  Questions about a tree go from node to node: up to a parent, down to an
  operand, a base or a wrapped type, or along a list of pending nodes.  The
  functions that answer them stop early where the next node would not have
  the number they expect, or after as many steps as the tree has nodes.

  This module states the loops without that precaution, each as a step that
  is repeated until it gives a result.  `Ends step a b` says that repeating
  comes to an end.  In a linked tree every loop ends, with the answer that
  the function gives, so the precaution is never needed.
-/

namespace SelfCapture

/-! ## Section 1: Repeated steps -/

/-- Repeating the step from `a` comes to an end, with the result `b`. -/
inductive Ends {α β : Type} (step : α → α ⊕ β) : α → β → Prop where
  | done {a : α} {b : β} (h : step a = .inr b) : Ends step a b
  | next {a a' : α} {b : β} (h : step a = .inl a') (hrest : Ends step a' b) : Ends step a b

/-- What a step has to give for the loop to end with an answer: a state with
    a smaller measure and the same answer of `f`, or the answer itself. -/
def Lowers {α β : Type} (measure : α → Nat) (f : α → β) (bound : Nat) (answer : β) :
    α ⊕ β → Prop
  | .inl a => measure a < bound ∧ answer = f a
  | .inr b => answer = b

theorem Ends.of_lowers {α β : Type} {step : α → α ⊕ β} (measure : α → Nat) (f : α → β)
    (hstep : ∀ a, Lowers measure f (measure a) (f a) (step a)) (a : α) : Ends step a (f a) := by
  induction hn : measure a using Nat.strongRecOn generalizing a with
  | ind n ih =>
    have hlower := hstep a
    cases hresult : step a with
    | inl a' =>
      rw [hresult] at hlower
      obtain ⟨hlt, heq⟩ := hlower
      rw [heq]
      exact .next hresult (ih (measure a') (hn ▸ hlt) a' rfl)
    | inr b =>
      rw [hresult] at hlower
      obtain rfl : f a = b := hlower
      exact .done hresult

/-- A loop has one result. -/
theorem Ends.unique {α β : Type} {step : α → α ⊕ β} {a : α} {b b' : β} (h : Ends step a b)
    (h' : Ends step a b') : b = b' := by
  induction h with
  | done hstep =>
    cases h' with
    | done hstep' => exact Sum.inr.inj (hstep.symm.trans hstep')
    | next hstep' _ => cases hstep.symm.trans hstep'
  | next hstep _ ih =>
    cases h' with
    | done hstep' => cases hstep.symm.trans hstep'
    | next hstep' hrest =>
      obtain rfl := Sum.inl.inj (hstep.symm.trans hstep')
      exact ih hrest

namespace Tree

/-- Goes up to the parent and notes it. -/
def ancestorStep (t : Tree) : List Nat × Nat → (List Nat × Nat) ⊕ List Nat
  | (above, id) =>
    match t.parent? id with
    | some parent => .inl (above ++ [parent], parent)
    | none => .inr above

/-- Takes one unwrapping mark away. -/
def unwrapStep (t : Tree) (id : Nat) : Nat ⊕ Option Nat :=
  match t.form? id with
  | some (.postfixOp operand token) =>
    if token = .exclamation ∨ token = .question then
      match operand with
      | some inner => .inl inner
      | none => .inr none
    else .inr (some id)
  | _ => .inr (some id)

/-- Goes on to the expression that is specialized or marked, else gives the offset. -/
def calleeStep (t : Tree) (callee : Nat) : Nat ⊕ Option Nat :=
  match t.form? callee with
  | none => .inr none
  | some (.memberAccess _ name) => .inr (t.pos? name)
  | some (.genericSpecialization base _) =>
    match base with
    | some inner => .inl inner
    | none => .inr none
  | some (.postfixOp operand _) =>
    match operand with
    | some inner => .inl inner
    | none => .inr none
  | some _ => .inr (t.pos? callee)

/-- Takes one wrapping of a type away. -/
def wrappingStep (t : Tree) :
    ParameterType × Bool × Nat → (ParameterType × Bool × Nat) ⊕ ParameterType
  | (type, outermost, id) =>
    if t.isFunctionType id then .inr { type with isFunction := true }
    else
      match t.unwrapType type outermost id with
      | some (inner, type) => .inl (type, false, inner)
      | none => .inr type

/-- Visits the first pending node and puts its children before the others. -/
def foldStep {β : Type} (t : Tree) (visit : β → Nat → Node → β × Visit) :
    List Nat × β → (List Nat × β) ⊕ β
  | ([], acc) => .inr acc
  | (id :: pending, acc) =>
    match t.get? id with
    | none => .inl (pending, acc)
    | some node =>
      match visit acc id node with
      | (acc, .descend) => .inl (node.form.children ++ pending, acc)
      | (acc, .skip) => .inl (pending, acc)
      | (acc, .stop) => .inr acc

end Tree

/-- Notes the name of a member access and goes on to its base. -/
def Callee.chainStep (t : Tree) : List String × Nat → (List String × Nat) ⊕ List String
  | (names, id) =>
    match t.form? id with
    | some (.memberAccess base name) =>
      match base with
      | none => .inr (names ++ [t.text name])
      | some base =>
        if isMemberAccess t (throughCall t base) then
          .inl (names ++ [t.text name], throughCall t base)
        else if (t.get? (throughCall t base)).isSome then
          .inr (names ++ [t.text name] ++ [Text.trim (t.text (throughCall t base))])
        else
          .inr (names ++ [t.text name])
    | _ => .inr names

/-! ## Section 2: Children of a linked tree -/

/-- The second node can be reached from the first by going from nodes to their children. -/
def Tree.Reaches (t : Tree) : Nat → Nat → Prop :=
  Relation.ReflTransGen fun parent child => child ∈ t.children parent

namespace Tree.Linked

variable {t : Tree} {id root child : Nat}

theorem lt_of_form? (h : t.Linked) {form : Form} (hform : t.form? id = some form)
    (hchild : child ∈ form.children) : child < id := by
  apply h.child_lt
  rw [children, hform]
  exact hchild

/-- A node with a child exists. -/
theorem lt_size_of_mem_children (hchild : child ∈ t.children id) : id < t.nodes.size := by
  apply Nat.lt_of_not_le
  intro hle
  rw [children, form?, get?_eq_none_of_le hle] at hchild
  exact absurd hchild List.not_mem_nil

/-- No node occurs twice among the children of all nodes. -/
theorem nodup_allChildren (h : t.Linked) (count : Nat) :
    ((List.range count).flatMap t.children).Nodup := by
  refine List.pairwise_flatMap.mpr ⟨fun id _ => h.nodup_children id, ?_⟩
  refine List.nodup_range.imp fun {a b} hne x hx y hy heq => ?_
  subst heq
  exact hne (h.parent_unique hx hy)

/-- What can be reached from a node is passed by a walk over it. -/
theorem mem_preorder_of_reaches (h : t.Linked) {node : Node} (hroot : t.get? root = some node)
    (hid : t.Reaches root id) : id ∈ t.preorder root := by
  induction hid with
  | refl => exact mem_preorder_self hroot
  | tail _ hchild ih => exact h.mem_preorder_child ih hchild

/-- What a walk passes can be reached from where it starts. -/
theorem reaches_of_mem_preorder (h : t.Linked) (hid : id ∈ t.preorder root) :
    t.Reaches root id := by
  induction root using Nat.strongRecOn with
  | ind root ih =>
    rcases mem_preorder hid with ⟨rfl, -⟩ | ⟨child, hchild, hmem⟩
    · exact .refl
    · have hlt := lt_of_mem_earlierChildren hchild
      rw [h.earlierChildren_eq] at hchild
      exact .head hchild (ih child hlt hmem)

/-- A walk passes the nodes that can be reached from where it starts. -/
theorem mem_preorder_iff (h : t.Linked) :
    id ∈ t.preorder root ↔ t.Reaches root id ∧ ∃ node, t.get? id = some node := by
  constructor
  · intro hid
    exact ⟨h.reaches_of_mem_preorder hid, exists_of_mem_preorder hid⟩
  · rintro ⟨hreaches, node, hnode⟩
    -- A node with a child exists, so the root exists too.
    rcases hreaches.cases_head with rfl | ⟨child, hchild, -⟩
    · exact mem_preorder_self hnode
    · have hroot : root < t.nextId := lt_size_of_mem_children hchild
      obtain ⟨top, htop⟩ := exists_get?_of_lt hroot
      exact h.mem_preorder_of_reaches htop hreaches

/-! ## Section 3: Going up -/

theorem ancestors_of_parent (h : t.Linked) {parent : Nat} (hparent : t.parent? id = some parent) :
    t.ancestors id = parent :: t.ancestors parent := by
  have hchild := h.parent_iff.mp hparent
  rw [ancestors, hparent]
  exact if_pos ⟨h.child_lt hchild, lt_size_of_mem_children hchild⟩

theorem ancestors_of_none (hparent : t.parent? id = none) : t.ancestors id = [] := by
  rw [ancestors, hparent]

theorem ancestors_ends (h : t.Linked) (id : Nat) :
    Ends t.ancestorStep ([], id) (t.ancestors id) := by
  refine Ends.of_lowers (fun s => t.nodes.size - s.2) (fun s => s.1 ++ t.ancestors s.2) ?_ ([], id)
  rintro ⟨above, id⟩
  cases hparent : t.parent? id with
  | none => simp [ancestorStep, Lowers, hparent, ancestors_of_none hparent]
  | some parent =>
    -- The parent is a node of the tree, with a larger number.
    have hchild := h.parent_iff.mp hparent
    have hlt := h.child_lt hchild
    have hsize := lt_size_of_mem_children hchild
    simp only [ancestorStep, Lowers, hparent, h.ancestors_of_parent hparent, List.append_assoc,
      List.singleton_append, and_true]
    omega

/-- The last ancestor of a node under the root is the root. -/
theorem getLast?_ancestors (h : t.Linked) (hroot : t.parent? root = none) {k : Nat}
    (hk : k ∈ t.preorder root) : (k :: t.ancestors k).getLast? = some root := by
  by_cases heq : k = root
  · rw [heq, ancestors_of_none hroot]
    rfl
  · obtain ⟨parent, hmem, hchild⟩ := h.exists_parent hk heq
    have hlt := h.child_lt hchild
    have hsize := lt_size_of_mem_children hchild
    rw [h.ancestors_of_parent (h.parent_iff.mpr hchild), List.getLast?_cons_cons]
    exact h.getLast?_ancestors hroot hmem
termination_by t.nodes.size - k

/-! ## Section 4: Going down -/

theorem unwrapped_ends (h : t.Linked) (id : Nat) : Ends t.unwrapStep id (t.unwrapped id) := by
  refine Ends.of_lowers (fun id => id) t.unwrapped (fun id => ?_) id
  rw [unwrapStep, unwrapped]
  cases hform : t.form? id with
  | none => rfl
  | some form =>
    cases form with
    | postfixOp operand token =>
      dsimp only
      split
      · cases operand with
        | none => rfl
        | some inner =>
          have hlt : inner < id := h.lt_of_form? hform (by simp)
          exact ⟨hlt, if_pos hlt⟩
      · rfl
    | _ => rfl

theorem calleeOffset?_ends (h : t.Linked) (id : Nat) :
    Ends t.calleeStep id (t.calleeOffset? id) := by
  refine Ends.of_lowers (fun id => id) t.calleeOffset? (fun id => ?_) id
  rw [calleeStep, calleeOffset?]
  cases hform : t.form? id with
  | none => rfl
  | some form =>
    cases form with
    | genericSpecialization base arguments =>
      cases base with
      | none => rfl
      | some inner =>
        have hlt : inner < id := h.lt_of_form? hform (by simp)
        exact ⟨hlt, if_pos hlt⟩
    | postfixOp operand token =>
      cases operand with
      | none => rfl
      | some inner =>
        have hlt : inner < id := h.lt_of_form? hform (by simp)
        exact ⟨hlt, if_pos hlt⟩
    | _ => rfl

/-- Looking through a call does not lead up. -/
theorem throughCall_le (h : t.Linked) (id : Nat) : Callee.throughCall t id ≤ id := by
  unfold Callee.throughCall
  split
  · rename_i callee arguments trailing additional hform
    split
    · exact Nat.le_of_lt (h.lt_of_form? hform (by simp))
    · exact Nat.le_refl _
  · exact Nat.le_refl _

theorem chainUpTo_ends (h : t.Linked) {count : Nat} (hid : id < count) (names : List String) :
    Ends (Callee.chainStep t) (names, id) (names ++ Callee.chainUpTo t count id) := by
  induction count generalizing id names with
  | zero => exact absurd hid (Nat.not_lt_zero id)
  | succ count ih =>
    cases hform : t.form? id with
    | none =>
      refine .done ?_
      simp [Callee.chainStep, Callee.chainUpTo, hform]
    | some form =>
      cases form with
      | memberAccess base name =>
        cases base with
        | none =>
          refine .done ?_
          simp [Callee.chainStep, Callee.chainUpTo, hform]
        | some base =>
          -- The base and what it calls are older nodes, so the budget covers them.
          have hbase : base < id := h.lt_of_form? hform (by simp)
          have hle := h.throughCall_le base
          by_cases hinner : Callee.isMemberAccess t (Callee.throughCall t base)
          · have hlt : Callee.throughCall t base < count := by omega
            have hrest := ih hlt (names ++ [t.text name])
            rw [List.append_assoc] at hrest
            simp only [Callee.chainUpTo, hform, hinner, if_true]
            exact .next (by simp [Callee.chainStep, hform, hinner]) hrest
          · refine .done ?_
            simp only [Callee.chainStep, Callee.chainUpTo, hform, if_neg hinner]
            split <;> simp
      | _ =>
        refine .done ?_
        simp [Callee.chainStep, Callee.chainUpTo, hform]

theorem reversedChain_ends (h : t.Linked) (id : Nat) :
    Ends (Callee.chainStep t) ([], id) (Callee.reversedChain t id) := by
  rw [Callee.reversedChain]
  by_cases hid : id < t.nodes.size
  · exact h.chainUpTo_ends hid []
  · have hform : t.form? id = none := by
      rw [form?, get?_eq_none_of_le (Nat.le_of_not_lt hid)]
      rfl
    refine .done ?_
    cases t.nodes.size <;> simp [Callee.chainStep, Callee.chainUpTo, hform]

/-- What a wrapping wraps was made before it. -/
theorem lt_of_unwrapType (h : t.Linked) {type type' : ParameterType} {outermost : Bool}
    {inner : Nat} (hwrap : t.unwrapType type outermost id = some (inner, type')) : inner < id := by
  unfold unwrapType at hwrap
  split at hwrap
  · rename_i hform
    cases hwrap
    exact h.lt_of_form? hform (by simp)
  · rename_i hform
    cases hwrap
    exact h.lt_of_form? hform (by simp)
  · -- A parenthesized type is two levels down.
    rename_i element hform
    have helement : element < id := h.lt_of_form? hform (by simp)
    split at hwrap
    · rename_i hinner
      cases hwrap
      exact Nat.lt_trans (h.lt_of_form? hinner (by simp)) helement
    · cases hwrap
  · rename_i hform
    split at hwrap
    · cases hwrap
      exact h.lt_of_form? hform (by simp)
    · cases hwrap
  · cases hwrap

theorem throughWrappings_ends (h : t.Linked) (type : ParameterType) (outermost : Bool) (id : Nat) :
    Ends t.wrappingStep (type, outermost, id) (t.throughWrappings type outermost id) := by
  refine Ends.of_lowers (fun s => s.2.2) (fun s => t.throughWrappings s.1 s.2.1 s.2.2) ?_
    (type, outermost, id)
  rintro ⟨type, outermost, id⟩
  dsimp only
  rw [wrappingStep, throughWrappings]
  split
  · rfl
  · cases hwrap : t.unwrapType type outermost id with
    | none => rfl
    | some wrapped =>
      obtain ⟨inner, type'⟩ := wrapped
      have hlt := h.lt_of_unwrapType hwrap
      exact ⟨hlt, if_pos hlt⟩

end Tree.Linked

/-! ## Section 5: Walking -/

namespace Tree

variable {t : Tree} {β : Type}

theorem ChildrenFirst.foldPending_ends (h : t.ChildrenFirst) (visit : β → Nat → Node → β × Visit)
    (pending : List Nat) (acc : β) :
    Ends (t.foldStep visit) (pending, acc) (t.foldPending visit pending acc) := by
  refine Ends.of_lowers (fun s => t.pendingWeight s.1) (fun s => t.foldPending visit s.1 s.2) ?_
    (pending, acc)
  rintro ⟨pending, acc⟩
  cases pending with
  | nil => rw [foldStep, Lowers, foldPending]
  | cons id pending =>
    -- The weight of the first pending node is what a step takes away, less the
    -- weight of the children that come in its place.
    have hchildren := t.pendingWeight_earlierChildren_lt id
    rw [h.earlierChildren_eq] at hchildren
    have hless : t.pendingWeight pending < t.pendingWeight (id :: pending) := by
      simp only [pendingWeight, List.map_cons, total] at hchildren ⊢
      omega
    dsimp only
    rw [foldStep, foldPending]
    cases hnode : t.get? id with
    | none => exact ⟨hless, rfl⟩
    | some node =>
      dsimp only
      rcases visit acc id node with ⟨acc, _ | _ | _⟩
      · have hforms : node.form.children = t.children id := by simp [children, form?, hnode]
        dsimp only
        rw [hforms, h.earlierChildren_eq]
        refine ⟨?_, rfl⟩
        simp only [pendingWeight, List.map_append, total_append, List.map_cons, total] at hchildren ⊢
        omega
      · exact ⟨hless, rfl⟩
      · rfl

theorem Linked.fold_ends (h : t.Linked) (visit : β → Nat → Node → β × Visit) (id : Nat)
    (acc : β) : Ends (t.foldStep visit) ([id], acc) (t.fold id acc visit) :=
  h.childrenFirst.foldPending_ends visit [id] acc

end Tree

/-! ## Section 6: The tree of a text -/

theorem parse_root_last (text : String) :
    (SourceFile.parse text).root + 1 = (SourceFile.parse text).tree.nodes.size := by
  obtain ⟨statements, s', -, hroot, htree⟩ := Grammar.parse_derives text
  rw [hroot, htree]
  exact Tree.nextId_add.symm

theorem parse_root_orphan (text : String) :
    (SourceFile.parse text).tree.parent? (SourceFile.parse text).root = none :=
  (Grammar.parse_grows text).orphan (List.mem_singleton.mpr rfl)

/-- The nodes of a text, also those that were made and not used, are linked
    up as a forest whose last node is the root.  So every loop that starts
    under the root ends, and going up ends at the root. -/
theorem parse_links (text : String) :
    let t := (SourceFile.parse text).tree
    let root := (SourceFile.parse text).root
    (∀ id child, child ∈ t.children id → child < id ∧ t.parent? child = some id) ∧
    (∀ id child, t.parent? child = some id → id < t.nodes.size ∧ child ∈ t.children id) ∧
    ((List.range t.nodes.size).flatMap t.children).Nodup ∧
    root + 1 = t.nodes.size ∧
    t.parent? root = none ∧
    ∀ id, t.Reaches root id →
      Ends t.ancestorStep ([], id) (t.ancestors id) ∧
      (id :: t.ancestors id).getLast? = some root ∧
      Ends t.unwrapStep id (t.unwrapped id) ∧
      Ends t.calleeStep id (t.calleeOffset? id) ∧
      Ends (Callee.chainStep t) ([], id) (Callee.reversedChain t id) ∧
      (∀ type outermost,
        Ends t.wrappingStep (type, outermost, id) (t.throughWrappings type outermost id)) ∧
      ∀ (β : Type) (visit : β → Nat → Node → β × Visit) (acc : β),
        Ends (t.foldStep visit) ([id], acc) (t.fold id acc visit) := by
  intro t root
  have h : t.Linked := Grammar.parse_linked text
  have hlast : root + 1 = t.nodes.size := parse_root_last text
  have hroot : t.parent? root = none := parse_root_orphan text
  refine ⟨?_, ?_, h.nodup_allChildren _, hlast, hroot, ?_⟩
  · intro id child hchild
    exact ⟨h.child_lt hchild, h.parent_iff.mpr hchild⟩
  · intro id child hparent
    have hchild := h.parent_iff.mp hparent
    exact ⟨Tree.Linked.lt_size_of_mem_children hchild, hchild⟩
  · -- Each loop starts at a node that hangs from the root, and every step goes along a link.
    intro id hid
    have hlt : root < t.nextId := Nat.lt_of_succ_le (Nat.le_of_eq hlast)
    obtain ⟨node, hnode⟩ := Tree.exists_get?_of_lt hlt
    have hmem := h.mem_preorder_of_reaches hnode hid
    exact ⟨h.ancestors_ends id, h.getLast?_ancestors hroot hmem, h.unwrapped_ends id,
      h.calleeOffset?_ends id, h.reversedChain_ends id,
      fun type outermost => h.throughWrappings_ends type outermost id,
      fun _ visit acc => h.fold_ends visit id acc⟩

/-- The operand of an unwrapping inside a member access is found. -/
theorem parse_links_unwrapping :
    let t := (SourceFile.parse "self!.x").tree
    t.Reaches (SourceFile.parse "self!.x").root 1 ∧ t.ancestors 1 = [3, 4] ∧
      Ends t.unwrapStep 1 (some 0) := by
  intro t
  have hreaches : t.Reaches (SourceFile.parse "self!.x").root 1 := by
    refine .tail (b := 3) (.single ?_) ?_
    · decide +kernel
    · decide +kernel
  have hunwrapped : t.unwrapped 1 = some 0 := by decide +kernel
  have hancestors : t.ancestors 1 = [3, 4] := by decide +kernel
  obtain ⟨-, -, hends, -⟩ := (parse_links "self!.x").2.2.2.2.2 1 hreaches
  exact ⟨hreaches, hancestors, hunwrapped ▸ hends⟩

end SelfCapture
