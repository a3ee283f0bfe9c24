import SelfCapture.Proofs.Tree.Loops

/-! # Traversals

  `Tree.traverse` walks over a node and its descendants by plain recursion:
  it visits the node and then, if the visit says so, walks over the children
  one after the other.  A visit that ends the walk makes it an `error` with
  the value at that point, so every sibling still to come is left out, those
  of the nodes above included.  The recursion ends where every child was made
  before its parent (`Tree.ChildrenFirst`), as in the tree of every text.

  `Tree.fold` has no recursion: it keeps the nodes that are still to come in
  one list, siblings of all levels mixed.  What holds of that list at every
  step is that the rest of the walk is the traversal of its nodes, one after
  the other.
-/

namespace SelfCapture.Tree

variable {β : Type} {t : Tree} {id : Nat}

/-! ## Section 1: Recursion over a tree -/

/-- Walks over a node and its descendants, each node before its children and
    the children in order.  A node that does not exist is passed over. -/
def traverse (t : Tree) (h : t.ChildrenFirst) (visit : β → Nat → Node → β × Visit) (id : Nat)
    (acc : β) : Except β β :=
  match t.get? id with
  | none => .ok acc
  | some node =>
    match visit acc id node with
    | (acc, .descend) =>
      (t.children id).attach.foldlM (fun acc child => t.traverse h visit child.1 acc) acc
    | (acc, .skip) => .ok acc
    | (acc, .stop) => .error acc
termination_by id
decreasing_by exact h id child.1 child.2

/-- The value of a walk, whether it went through or was ended. -/
def walkValue : Except β β → β
  | .ok acc => acc
  | .error acc => acc

section

variable {h : t.ChildrenFirst} {visit : β → Nat → Node → β × Visit} {acc acc' : β} {node : Node}

theorem traverse_of_none (hnode : t.get? id = none) : t.traverse h visit id acc = .ok acc := by
  rw [traverse, hnode]

theorem traverse_of_descend (hnode : t.get? id = some node)
    (hvisit : visit acc id node = (acc', .descend)) :
    t.traverse h visit id acc =
      (t.children id).foldlM (fun acc child => t.traverse h visit child acc) acc' := by
  rw [traverse, hnode]
  simp only [hvisit]
  rw [List.foldlM_subtype (g := fun acc child => t.traverse h visit child acc) (fun _ _ _ => rfl),
    List.unattach_attach]

theorem traverse_of_skip (hnode : t.get? id = some node)
    (hvisit : visit acc id node = (acc', .skip)) : t.traverse h visit id acc = .ok acc' := by
  rw [traverse, hnode]
  simp only [hvisit]

theorem traverse_of_stop (hnode : t.get? id = some node)
    (hvisit : visit acc id node = (acc', .stop)) : t.traverse h visit id acc = .error acc' := by
  rw [traverse, hnode]
  simp only [hvisit]

end

/-! ## Section 2: The list of pending nodes -/

/-- At every step the rest of the walk is the traversal of the pending nodes
    one after the other. -/
theorem foldPending_eq_foldlM (h : t.ChildrenFirst) (visit : β → Nat → Node → β × Visit)
    (pending : List Nat) (acc : β) :
    t.foldPending visit pending acc =
      walkValue (pending.foldlM (fun acc id => t.traverse h visit id acc) acc) := by
  fun_induction t.foldPending visit pending acc with
  | case1 acc => rfl
  | case2 id pending acc hnode ih =>
    rw [ih, List.foldlM_cons, traverse_of_none hnode]
    rfl
  | case3 id pending acc node hnode acc' hvisit ih =>
    -- The children go before the other pending nodes, and a traversal of the
    -- longer list is one of the children followed by one of the others.
    rw [ih, h.earlierChildren_eq, List.foldlM_append, List.foldlM_cons,
      traverse_of_descend hnode hvisit]
  | case4 id pending acc node hnode acc' hvisit ih =>
    rw [ih, List.foldlM_cons, traverse_of_skip hnode hvisit]
    rfl
  | case5 id pending acc node hnode acc' hvisit =>
    -- An error is what the whole list gives, whatever is still pending.
    rw [List.foldlM_cons, traverse_of_stop hnode hvisit]
    rfl

/-- The tree of a text can be walked over by recursion. -/
theorem parse_childrenFirst (text : String) : (SourceFile.parse text).tree.ChildrenFirst :=
  (Grammar.parse_linked text).childrenFirst

/-- A walk gives what the recursion gives, for every value that is threaded
    through it and every visit, and so does the loop that puts all children
    on the list as they are.  A visit with a state of its own has it in the value. -/
theorem fold_eq_traverse (t : Tree) (h : t.ChildrenFirst) (root : Nat) (acc : β)
    (visit : β → Nat → Node → β × Visit) :
    t.fold root acc visit = walkValue (t.traverse h visit root acc) ∧
      Ends (t.foldStep visit) ([root], acc) (walkValue (t.traverse h visit root acc)) := by
  have hfold : t.fold root acc visit = walkValue (t.traverse h visit root acc) := by
    rw [fold, foldPending_eq_foldlM h, List.foldlM_cons]
    cases t.traverse h visit root acc with
    | ok acc => rfl
    | error acc => rfl
  have hends := h.foldPending_ends visit [root] acc
  rw [← fold, hfold] at hends
  exact ⟨hfold, hends⟩

/-- Names of forms are taken down, the parts of member accesses are left out
    and a closure ends the walk.  So all that comes after the closure is left
    out too, on its own level and above. -/
theorem fold_eq_traverse_noted :
    let noteForm : List String → Nat → Node → List String × Visit := fun names _ node =>
      (names ++ [node.form.name],
        match node.form with
        | .closure .. => .stop
        | .memberAccess .. => .skip
        | _ => .descend)
    let file := SourceFile.parse "a.b(c, { d }, e)\nf"
    let first : file.tree.ChildrenFirst := parse_childrenFirst "a.b(c, { d }, e)\nf"
    let names :=
      ["SourceFile", "Call", "MemberAccess", "Argument", "Identifier", "Argument", "Closure"]
    walkValue (file.tree.traverse first noteForm file.root []) = names ∧
      file.tree.fold file.root [] noteForm = names ∧
      Ends (file.tree.foldStep noteForm) ([file.root], []) names := by
  intro noteForm file first names
  have hvalue : walkValue (file.tree.traverse first noteForm file.root []) = names := by
    decide +kernel
  obtain ⟨hfold, hends⟩ := fold_eq_traverse file.tree first file.root [] noteForm
  rw [hvalue] at hfold hends
  exact ⟨hvalue, hfold, hends⟩

end SelfCapture.Tree
