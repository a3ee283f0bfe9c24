import SelfCapture.Proofs.Grammar.Fullness

/-! # Nesting of ranges

  A child starts within its parent and after its sisters before it.  If it
  is not empty it also ends within its parent.  An empty one stands for
  something that was not there, and may come after the end of its parent,
  where the next token starts.  A text without diagnostics has no empty
  nodes below its root, so there all children lie inside their parents.
-/

namespace SelfCapture

/-! ## Section 1: Parents and children -/

namespace Tree

variable {t : Tree} {id child : Nat} {node inner : Node}

theorem range?_of_get? (h : t.get? id = some node) : t.range? id = some (node.pos, node.stop) := by
  rw [range?, h]
  rfl

theorem lt_nextId_of_mem_children (h : child ∈ t.children id) : id < t.nextId := by
  rcases Nat.lt_or_ge id t.nextId with hlt | hle
  · exact hlt
  · rw [children, form?, get?_eq_none_of_le hle] at h
    cases h

/-- A child has a range among those of its parent's children. -/
theorem mem_ranges_of_get? (h : child ∈ t.children id) (hinner : t.get? child = some inner) :
    (inner.pos, inner.stop) ∈ t.ranges (t.children id) :=
  List.mem_filterMap.mpr ⟨child, h, range?_of_get? hinner⟩

end Tree

namespace Grammar

/-- The root is made last, so it is no child. -/
theorem child_ne_root (text : String) {id child : Nat}
    (h : child ∈ (SourceFile.parse text).tree.children id) :
    child ≠ (SourceFile.parse text).root := by
  obtain ⟨statements, s', -, hroot, htree⟩ := parse_derives text
  have hlt := (parse_linked text).child_lt h
  have hparent := Tree.lt_nextId_of_mem_children h
  rw [htree, Tree.nextId_add, ← hroot] at hparent
  omega

/-- A child lies inside its parent unless it is empty and there are diagnostics. -/
theorem child_nests (text : String) {id child : Nat} {node inner : Node}
    (hnode : (SourceFile.parse text).tree.get? id = some node)
    (h : child ∈ (SourceFile.parse text).tree.children id)
    (hinner : (SourceFile.parse text).tree.get? child = some inner) :
    node.pos ≤ inner.pos ∧ inner.pos ≤ inner.stop ∧ inner.stop ≤ text.utf8ByteSize ∧
      (inner.pos < inner.stop → inner.stop ≤ node.stop) ∧
      ((SourceFile.parse text).diagnostics = [] → inner.stop ≤ node.stop) := by
  have hrow := (parse_inRows text).row hnode
  have hmem := Tree.mem_ranges_of_get? h hinner
  have hhigh := hrow.le_high hmem
  rw [parse_bytes] at hhigh
  refine ⟨hrow.low_le hmem, hrow.le hmem, hhigh, hrow.le_mark hmem, fun hnone => ?_⟩
  exact hrow.le_mark hmem (parse_full text hnone (child_ne_root text h) (Tree.range?_of_get? hinner))

/-- A node covers whole characters, and its text is exactly those. -/
theorem node_text (text : String) {id : Nat} {node : Node}
    (hnode : (SourceFile.parse text).tree.get? id = some node) :
    (String.Pos.Raw.mk node.pos).IsValid text ∧ (String.Pos.Raw.mk node.stop).IsValid text ∧
      ((SourceFile.parse text).tree.text id).toByteArray =
        text.toByteArray.extract node.pos node.stop := by
  obtain ⟨hpos, hstop, hle⟩ := (parse_aligned text).ends (Tree.range?_of_get? hnode)
  refine ⟨hpos, hstop, ?_⟩
  rw [Tree.text, hnode, parse_bytes]
  exact Text.toByteArray_slice hpos hstop hle

end Grammar

/-! ## Section 2: Every text -/

/-- Every node of a text, whatever is wrong with the text, starts and ends
    between characters, and its text is exact.  Its children start within
    it, one after the other, and end within the text; those that are not
    empty end within it too, and so do all of them if the text has no
    diagnostics. -/
theorem parse_nests (text : String) :
    let file := SourceFile.parse text
    ∀ (id : Nat) (node : Node), file.tree.get? id = some node →
      ((String.Pos.Raw.mk node.pos).IsValid text ∧ (String.Pos.Raw.mk node.stop).IsValid text ∧
        (file.tree.text id).toByteArray = text.toByteArray.extract node.pos node.stop) ∧
      (∀ child ∈ file.tree.children id, ∃ inner, file.tree.get? child = some inner ∧
        node.pos ≤ inner.pos ∧ inner.pos ≤ inner.stop ∧ inner.stop ≤ text.utf8ByteSize ∧
        (inner.pos < inner.stop → inner.stop ≤ node.stop) ∧
        (file.diagnostics = [] → inner.stop ≤ node.stop)) ∧
      (file.tree.children id).Pairwise fun first second =>
        ∀ a, file.tree.get? first = some a → ∀ b, file.tree.get? second = some b →
          a.stop ≤ b.pos := by
  intro file id node hnode
  refine ⟨Grammar.node_text text hnode, fun child hchild => ?_, ?_⟩
  · have hlt := (Grammar.parse_linked text).child_lt hchild
    obtain ⟨inner, hinner⟩ :=
      Tree.exists_get?_of_lt (Nat.lt_trans hlt (Tree.lt_nextId_of_get? hnode))
    exact ⟨inner, hinner, Grammar.child_nests text hnode hchild hinner⟩
  · have hpairs := List.pairwise_filterMap.mp ((Grammar.parse_inRows text).row hnode).pairwise
    refine hpairs.imp fun hpair a ha b hb => ?_
    exact hpair _ (Tree.range?_of_get? ha) _ (Tree.range?_of_get? hb)

/-- An interpolated name lies inside its literal, and its text is the name. -/
theorem parse_nests_interpolation :
    let file := SourceFile.parse "\"ä\\(é)\""
    (file.diagnostics = [] ∧ file.tree.range? 2 = some (0, 9) ∧ 1 ∈ file.tree.children 2) ∧
      ∃ inner, file.tree.get? 1 = some inner ∧ inner.stop ≤ 9 ∧
        (file.tree.text 1).toByteArray = "é".toByteArray := by
  intro file
  have hvalid : file.diagnostics = [] := by decide +kernel
  have hliteral : file.tree.range? 2 = some (0, 9) := by decide +kernel
  have hargument : file.tree.range? 1 = some (5, 7) := by decide +kernel
  have hchild : 1 ∈ file.tree.children 2 := by decide +kernel
  obtain ⟨node, hnode, hplace⟩ := Option.map_eq_some_iff.mp hliteral
  obtain ⟨inner, hinner, -, -, -, -, hstop⟩ := (parse_nests _ 2 node hnode).2.1 1 hchild
  obtain ⟨⟨-, -, htext⟩, -⟩ := parse_nests _ 1 inner hinner
  have hends : (inner.pos, inner.stop) = (5, 7) :=
    Option.some.inj ((Tree.range?_of_get? hinner).symm.trans hargument)
  refine ⟨⟨hvalid, hliteral, hchild⟩, inner, hinner, ?_, ?_⟩
  · have hle := hstop hvalid
    rw [(Prod.mk.inj hplace).2] at hle
    exact hle
  · rw [(Prod.mk.inj hends).1, (Prod.mk.inj hends).2] at htext
    rw [htext]
    decide +kernel

/-- What is missing at the end of a text comes after the blank there, and its parent before. -/
example :
    let t := (SourceFile.parse "é + ").tree
    t.range? 3 = some (0, 4) ∧ t.children 3 = [0, 1, 2] ∧ t.range? 2 = some (5, 5) := by
  decide +kernel

end SelfCapture
