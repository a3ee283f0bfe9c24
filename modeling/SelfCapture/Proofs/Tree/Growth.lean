import SelfCapture.Proofs.Tree.Preorder
import SelfCapture.Tree.Query

/-! # Growth of a tree

  Reading a text only ever adds nodes to the tree.  `Tree.Grows` relates a
  tree to a later one and names the nodes, made in between, that no other
  node has taken as its children yet.  Earlier nodes stay as they were,
  their parents included, so dropping the new nodes gives the earlier tree
  back.

  `Tree.Sound` collects what holds of each single node: a trailing closure
  is a closure, and a closure starts at an opening brace.
-/

namespace SelfCapture.Tree

variable {t t' t'' : Tree} {ids more : List Nat} {form : Form} {pos stop id child : Nat}

/-! ## Section 1: Adding a node -/

theorem size_adopt (nodes : Array Node) (parent : Nat) (children : List Nat) :
    (adopt nodes parent children).size = nodes.size := by
  unfold adopt
  induction children generalizing nodes with
  | nil => rfl
  | cons child children ih =>
    rw [List.foldl_cons, ih, Array.size_modify]

theorem getElem?_adopt (nodes : Array Node) (parent : Nat) (children : List Nat) (id : Nat) :
    (adopt nodes parent children)[id]? =
      (nodes[id]?).map fun node =>
        if id ∈ children then { node with parent := some parent } else node := by
  unfold adopt
  induction children generalizing nodes with
  | nil => simp
  | cons child children ih =>
    rw [List.foldl_cons, ih, Array.getElem?_modify]
    by_cases heq : child = id
    · subst heq
      cases nodes[child]? <;> simp
    · have hne : id ≠ child := fun h => heq h.symm
      simp [heq, hne]

@[simp] theorem nextId_add : (t.add form pos stop).nextId = t.nextId + 1 := by
  simp [nextId, add, size_adopt]

@[simp] theorem bytes_add : (t.add form pos stop).bytes = t.bytes := rfl

theorem get?_add (t : Tree) (form : Form) (pos stop id : Nat) :
    (t.add form pos stop).get? id =
      if id = t.nextId then some { form, pos, stop := max stop pos }
      else (t.get? id).map fun node =>
        if id ∈ form.children then { node with parent := some t.nextId } else node := by
  simp only [get?, add, Array.getElem?_push, size_adopt, getElem?_adopt]
  rfl

theorem get?_eq_none_of_le (h : t.nextId ≤ id) : t.get? id = none :=
  Array.getElem?_eq_none h

theorem lt_nextId_of_get? {node : Node} (h : t.get? id = some node) : id < t.nextId := by
  rcases Nat.lt_or_ge id t.nextId with hlt | hge
  · exact hlt
  · rw [get?_eq_none_of_le hge] at h
    cases h

theorem exists_get?_of_lt (h : id < t.nextId) : ∃ node, t.get? id = some node :=
  ⟨_, Array.getElem?_eq_getElem h⟩

theorem form?_add (t : Tree) (form : Form) (pos stop id : Nat) :
    (t.add form pos stop).form? id = if id = t.nextId then some form else t.form? id := by
  rw [form?, get?_add]
  split
  · rfl
  · rw [form?]
    cases t.get? id with
    | none => rfl
    | some node => simp only [Option.map_some, apply_ite Node.form, ite_self]

theorem children_add (t : Tree) (form : Form) (pos stop id : Nat) :
    (t.add form pos stop).children id = if id = t.nextId then form.children else t.children id := by
  rw [children, form?_add]
  split
  · rfl
  · rfl

theorem parent?_add (t : Tree) (form : Form) (pos stop id : Nat) :
    (t.add form pos stop).parent? id =
      if id = t.nextId then none
      else if id ∈ form.children ∧ id < t.nextId then some t.nextId
      else t.parent? id := by
  rw [parent?, get?_add]
  split
  · rfl
  · -- Adopting a node that does not exist changes nothing.
    cases hnode : t.get? id with
    | none =>
      have hge : ¬ id < t.nextId := by
        intro hlt
        obtain ⟨node, hsome⟩ := exists_get?_of_lt hlt
        rw [hsome] at hnode
        cases hnode
      simp [hge, parent?, hnode]
    | some node =>
      have hlt := lt_nextId_of_get? hnode
      by_cases hmem : id ∈ form.children
      · simp [hmem, hlt]
      · simp [hmem, parent?, hnode]

/-! ## Section 2: Growth -/

/-- The second tree comes from the first by adding nodes; `ids` are new
    nodes without a parent. -/
structure Grows (t : Tree) (ids : List Nat) (t' : Tree) : Prop where
  bytes_eq : t'.bytes = t.bytes
  nextId_le : t.nextId ≤ t'.nextId
  kept : ∀ {id : Nat}, id < t.nextId → t'.get? id = t.get? id
  linked : t.Linked → t'.Linked
  nodup : ids.Nodup
  new : ∀ {id : Nat}, id ∈ ids → t.nextId ≤ id ∧ id < t'.nextId
  orphan : ∀ {id : Nat}, id ∈ ids → t'.parent? id = none

namespace Grows

theorem refl (t : Tree) : Grows t [] t where
  bytes_eq := rfl
  nextId_le := Nat.le_refl _
  kept := fun _ => rfl
  linked := fun h => h
  nodup := List.nodup_nil
  new := fun h => absurd h List.not_mem_nil
  orphan := fun h => absurd h List.not_mem_nil

theorem form?_eq (h : Grows t ids t') (hid : id < t.nextId) : t'.form? id = t.form? id := by
  rw [form?, form?, h.kept hid]

theorem isClosure (h : Grows t ids t') (hid : t.isClosure id = true) : t'.isClosure id = true := by
  have hlt : id < t.nextId := by
    rcases Nat.lt_or_ge id t.nextId with hlt | hge
    · exact hlt
    · simp [Tree.isClosure, form?, get?_eq_none_of_le hge] at hid
  rw [Tree.isClosure, h.form?_eq hlt]
  exact hid

theorem append (h : Grows t ids t') (h' : Grows t' more t'') : Grows t (ids ++ more) t'' where
  bytes_eq := h'.bytes_eq.trans h.bytes_eq
  nextId_le := Nat.le_trans h.nextId_le h'.nextId_le
  kept := fun hid => (h'.kept (Nat.lt_of_lt_of_le hid h.nextId_le)).trans (h.kept hid)
  linked := fun ht => h'.linked (h.linked ht)
  nodup := by
    refine List.nodup_append.mpr ⟨h.nodup, h'.nodup, ?_⟩
    -- The nodes of the second step are made after those of the first.
    intro a ha b hb heq
    have hlt := (h.new ha).2
    have hge := (h'.new hb).1
    omega
  new := by
    intro id hid
    rcases List.mem_append.mp hid with hid | hid
    · exact ⟨(h.new hid).1, Nat.lt_of_lt_of_le (h.new hid).2 h'.nextId_le⟩
    · exact ⟨Nat.le_trans h.nextId_le (h'.new hid).1, (h'.new hid).2⟩
  orphan := by
    intro id hid
    rcases List.mem_append.mp hid with hid | hid
    · rw [parent?, h'.kept (h.new hid).2, ← parent?]
      exact h.orphan hid
    · exact h'.orphan hid

theorem forget (h : Grows t ids t') : Grows t [] t' where
  bytes_eq := h.bytes_eq
  nextId_le := h.nextId_le
  kept := h.kept
  linked := h.linked
  nodup := List.nodup_nil
  new := fun hid => absurd hid List.not_mem_nil
  orphan := fun hid => absurd hid List.not_mem_nil

end Grows

theorem linked_empty (bytes : ByteArray) : (Tree.mk bytes #[]).Linked where
  child_lt := fun h => absurd h List.not_mem_nil
  parent_iff := ⟨nofun, fun h => absurd h List.not_mem_nil⟩
  nodup_children := fun _ => List.nodup_nil

/-- A node made of nodes without a parent keeps the tree linked. -/
theorem Linked.add (h : t.Linked) (hnodup : form.children.Nodup)
    (hlt : ∀ {child}, child ∈ form.children → child < t.nextId)
    (horphan : ∀ {child}, child ∈ form.children → t.parent? child = none) :
    (t.add form pos stop).Linked where
  child_lt := by
    intro id child hchild
    rw [children_add] at hchild
    split at hchild
    · rename_i heq
      rw [heq]
      exact hlt hchild
    · exact h.child_lt hchild
  parent_iff := by
    intro id child
    rw [parent?_add, children_add]
    by_cases hmem : child ∈ form.children
    · -- An adopted node was nobody's child before.
      have hother : child ∉ t.children id := by
        intro hlink
        rw [← h.parent_iff, horphan hmem] at hlink
        cases hlink
      have hne : child ≠ t.nextId := Nat.ne_of_lt (hlt hmem)
      rw [if_neg hne, if_pos ⟨hmem, hlt hmem⟩]
      by_cases hid : id = t.nextId
      · simp [hid, hmem]
      · simp [hid, hother, Ne.symm hid]
    · by_cases hnew : child = t.nextId
      · -- The new node is nobody's child, for it did not exist.
        have hother : child ∉ t.children id := by
          intro hlink
          obtain ⟨node, hnode⟩ := h.exists_child hlink
          exact absurd (lt_nextId_of_get? hnode) (by omega)
        by_cases hid : id = t.nextId
        · simp [hnew, hid, hnew ▸ hmem]
        · simp [hnew, hid, hnew ▸ hother]
      · -- Any other node keeps its parent.
        rw [if_neg hnew, if_neg (fun hc => hmem hc.1), h.parent_iff]
        by_cases hid : id = t.nextId
        · have hnone : t.children id = [] := by
            simp [children, form?, get?_eq_none_of_le (Nat.le_of_eq hid.symm)]
          simp [hid, hmem, hid ▸ hnone]
        · rw [if_neg hid]
  nodup_children := by
    intro id
    rw [children_add]
    split
    · exact hnodup
    · exact h.nodup_children id

/-- Making a node of the new nodes is growth, after which it is the only
    new node without a parent. -/
theorem Grows.add (h : Grows t form.children t') :
    Grows t [t'.nextId] (t'.add form pos stop) where
  bytes_eq := h.bytes_eq
  nextId_le := by
    rw [nextId_add]
    exact Nat.le_succ_of_le h.nextId_le
  kept := by
    intro id hid
    have hne : id ≠ t'.nextId := Nat.ne_of_lt (Nat.lt_of_lt_of_le hid h.nextId_le)
    -- Only new nodes are adopted, so the earlier ones keep their parents.
    have hmem : id ∉ form.children := fun hc => Nat.not_le_of_lt hid (h.new hc).1
    rw [get?_add, if_neg hne, ← h.kept hid]
    cases t'.get? id <;> simp [hmem]
  linked := fun ht => (h.linked ht).add h.nodup (fun hc => (h.new hc).2) h.orphan
  nodup := List.pairwise_singleton ..
  new := by
    intro id hid
    rw [List.mem_singleton] at hid
    rw [hid, nextId_add]
    exact ⟨h.nextId_le, Nat.lt_succ_self _⟩
  orphan := by
    intro id hid
    rw [List.mem_singleton] at hid
    rw [hid, parent?_add, if_pos rfl]

/-- The nodes under a node that has just been made. -/
theorem preorder_add (hlt : ∀ child ∈ form.children, child < t.nextId) :
    (t.add form pos stop).preorder t.nextId =
      t.nextId :: form.children.flatMap t.preorder := by
  have hnode : (t.add form pos stop).get? t.nextId = some { form, pos, stop := max stop pos } := by
    rw [get?_add, if_pos rfl]
  have hchildren : (t.add form pos stop).earlierChildren t.nextId = form.children := by
    rw [earlierChildren, children_add, if_pos rfl, List.filter_eq_self]
    intro child hchild
    exact decide_eq_true (hlt child hchild)
  rw [preorder_of_some hnode, hchildren]
  refine congrArg (t.nextId :: ·) (flatMap_preorder_congr fun child hchild k hk => ?_)
  have hlt' := hlt child hchild
  rw [form?_add, if_neg (by omega)]

/-- Dropping the new nodes gives the earlier tree back. -/
theorem Grows.truncate (h : Grows t ids t') : t'.truncate t.nodes.size = t := by
  have hnodes : t'.nodes.shrink t.nodes.size = t.nodes := by
    apply Array.ext_getElem?
    intro id
    have hle : t.nodes.size ≤ t'.nodes.size := h.nextId_le
    rcases Nat.lt_or_ge id t.nodes.size with hlt | hge
    · rw [← Array.getElem?_toList, Array.toList_shrink, List.getElem?_take_of_lt hlt,
        Array.getElem?_toList]
      exact h.kept hlt
    · rw [Array.getElem?_eq_none hge, Array.getElem?_eq_none]
      rw [Array.size_shrink]
      omega
  rw [Tree.truncate, hnodes, h.bytes_eq]

/-! ## Section 3: Sound nodes -/

theorem isClosure_add_of_lt (h : id < t.nextId) :
    (t.add form pos stop).isClosure id = t.isClosure id := by
  rw [isClosure, isClosure, form?_add, if_neg (Nat.ne_of_lt h)]

theorem exists_closure (h : t.isClosure id = true) :
    ∃ captures parameters result statements,
      t.form? id = some (.closure captures parameters result statements) := by
  unfold isClosure at h
  split at h
  · rename_i captures parameters result statements heq
    exact ⟨captures, parameters, result, statements, heq⟩
  · cases h

theorem lt_nextId_of_isClosure (h : t.isClosure id = true) : id < t.nextId := by
  obtain ⟨captures, parameters, result, statements, hform⟩ := exists_closure h
  rw [form?, Option.map_eq_some_iff] at hform
  obtain ⟨node, hnode, -⟩ := hform
  exact lt_nextId_of_get? hnode

/-- What holds of each node. -/
structure Sound (t : Tree) : Prop where
  trailing : ∀ {id closure : Nat} {callee : Option Nat} {arguments additional : List Nat},
    t.form? id = some (.call callee arguments (some closure) additional) →
      t.isClosure closure = true
  brace : ∀ {id : Nat} {node : Node},
    t.get? id = some node → t.isClosure id = true → t.bytes[node.pos]? = some 0x7B

theorem sound_empty (bytes : ByteArray) : (Tree.mk bytes #[]).Sound where
  trailing := nofun
  brace := nofun

theorem Sound.add (h : t.Sound)
    (htrailing : ∀ callee arguments closure additional,
      form = .call callee arguments (some closure) additional → t.isClosure closure = true)
    (hbrace : ∀ captures parameters result statements,
      form = .closure captures parameters result statements → t.bytes[pos]? = some 0x7B) :
    (t.add form pos stop).Sound where
  trailing := by
    intro id closure callee arguments additional hform
    have hclosure : t.isClosure closure = true := by
      rw [form?_add] at hform
      split at hform
      · exact htrailing _ _ _ _ (Option.some.inj hform)
      · exact h.trailing hform
    rw [isClosure_add_of_lt (lt_nextId_of_isClosure hclosure)]
    exact hclosure
  brace := by
    intro id node hnode hclosure
    by_cases hid : id = t.nextId
    · obtain ⟨captures, parameters, result, statements, hform⟩ := exists_closure hclosure
      rw [form?_add, if_pos hid] at hform
      rw [get?_add, if_pos hid] at hnode
      rw [← Option.some.inj hnode]
      exact hbrace captures parameters result statements (Option.some.inj hform)
    · have hlt : id < t.nextId := by
        have hle := lt_nextId_of_get? hnode
        rw [nextId_add] at hle
        omega
      rw [isClosure_add_of_lt hlt] at hclosure
      rw [get?_add, if_neg hid, Option.map_eq_some_iff] at hnode
      obtain ⟨old, hold, hnode⟩ := hnode
      -- Adoption changes the parent and leaves the place.
      have hpos : node.pos = old.pos := by
        rw [← hnode]
        split
        · rfl
        · rfl
      rw [hpos]
      exact h.brace hold hclosure

/-- Whether a node of the form may be made by the general rule: a trailing
    closure is a closure.  Closures themselves are made by a rule of their own. -/
def Fits (t : Tree) : Form → Prop
  | .call _ _ (some closure) _ => t.isClosure closure = true
  | .closure .. => False
  | _ => True

theorem Sound.add_fits (h : t.Sound) (hfits : t.Fits form) : (t.add form pos stop).Sound := by
  refine h.add ?_ ?_
  · intro callee arguments closure additional hform
    rw [hform] at hfits
    exact hfits
  · intro captures parameters result statements hform
    rw [hform] at hfits
    exact hfits.elim

end SelfCapture.Tree

namespace SelfCapture.Form

/-! ## Section 4: Children of a given form -/

@[simp] theorem map_snd_one (role : String) (node : Nat) :
    (one role node).map (·.2) = [node] := rfl

@[simp] theorem map_snd_opt (role : String) (node : Option Nat) :
    (opt role node).map (·.2) = node.toList := by
  simp [opt, Function.comp_def]

@[simp] theorem map_snd_many (role : String) (nodes : List Nat) :
    (many role nodes).map (·.2) = nodes := by
  simp [many, Function.comp_def]

-- Which children a node of a given form has is then a matter of computation.
attribute [simp] children parts

end SelfCapture.Form
