import SelfCapture.Proofs.Grammar.BinderTower
import SelfCapture.Proofs.Grammar.PlacedTrees

/-! # How deeply phrases nest

  The nesting limit bounds the `if` statements and the opaque types on a
  path down the tree only as far as each of them is read in a phrase of its
  own, `parse_nesting_bounded`.  A further `if` after an `else` and a type
  after `some` or `any` are read in the phrase around them, without a limit:
  opaque types can be nested as deeply as the text is long, `parse_tower_path`.
-/

namespace SelfCapture

/-- On a path down from the root of any text there are at most `maxDepth`
    nodes of a sort that is read in phrases of its own, be it `if` statements,
    calls or opaque types, and those that are read in the same phrase as one
    of the sort above them. -/
theorem parse_nesting_bounded (text : String) :
    let file := SourceFile.parse text
    ∀ (tier : Tier) (path : List Nat), file.tree.Descends (file.root :: path) →
      (file.root :: path).countP (file.tree.stands tier) ≤
        Grammar.maxDepth + file.tree.repeats tier false (file.root :: path) := by
  intro file tier path hpath
  have hbound := (Grammar.parse_placed text).count_le tier false hpath
  simp only [reduceCtorEq, false_and, if_false, Nat.sub_zero, Nat.add_zero] at hbound
  exact Nat.le_trans hbound (Nat.le_of_eq (Nat.add_comm ..))

/-- A second `if` after an `else` is on a path of two, one of which is a repetition. -/
theorem parse_nesting_bounded_else :
    let file := SourceFile.parse "if a \x7b \x7d else if b \x7b \x7d"
    (file.root = 6 ∧ file.tree.Descends [6, 5, 4]) ∧
      [6, 5, 4].countP (file.tree.stands .statement) = 2 ∧
      file.tree.repeats .statement false [6, 5, 4] = 1 ∧ 2 ≤ Grammar.maxDepth + 1 := by
  intro file
  have hroot : file.root = 6 := by decide +kernel
  have houter : 5 ∈ file.tree.children 6 := by decide +kernel
  have hinner : 4 ∈ file.tree.children 5 := by decide +kernel
  have hpath : file.tree.Descends [6, 5, 4] := .cons_cons houter (.cons_cons hinner (.singleton 4))
  have hcount : [6, 5, 4].countP (file.tree.stands .statement) = 2 := by decide +kernel
  have hrepeats : file.tree.repeats .statement false [6, 5, 4] = 1 := by decide +kernel
  have hbound := parse_nesting_bounded _ .statement [5, 4] (hroot.symm ▸ hpath)
  rw [show (SourceFile.parse _).root = 6 from hroot, hcount, hrepeats] at hbound
  exact ⟨⟨hroot, hpath⟩, hcount, hrepeats, hbound⟩

/-- A stack of opaque types is a path down the tree. -/
theorem Tree.Stacks.exists_path {t : Tree} {height id : Nat} (h : t.Stacks height id) :
    ∃ path, t.Descends (id :: path) ∧ height ≤ (id :: path).countP (t.stands .type) := by
  induction height generalizing id with
  | zero => exact ⟨[], .singleton id, Nat.zero_le _⟩
  | succ height ih =>
    obtain ⟨existential, base, hformed, hbase⟩ := h
    obtain ⟨path, hpath, hcount⟩ := ih hbase
    have hform : t.form? id = some (.opaqueType existential base) := hformed.2 t (.refl t)
    have hchild : base ∈ t.children id := by
      rw [children, hform]
      exact List.mem_cons_self
    have hstands : t.stands .type id = true := by
      rw [stands, hform]
      rfl
    refine ⟨base :: path, .cons_cons hchild hpath, ?_⟩
    rw [List.countP_cons_of_pos hstands]
    exact Nat.succ_le_succ hcount

/-- Nothing is wrong with a text of as many nested opaque types as one likes. -/
theorem parse_tower_path (height : Nat) :
    let file := SourceFile.parse (towerAlias height).text
    file.diagnostics = [] ∧ ∃ path, file.tree.Descends (file.root :: path) ∧
      height ≤ (file.root :: path).countP (file.tree.stands .type) := by
  intro file
  obtain ⟨hclean, id, hroot, name, type, hformed, hstacks⟩ := parse_tower height
  obtain ⟨path, hpath, hcount⟩ := hstacks.exists_path
  have hform : file.tree.form? id = some (.typeAlias name (some type)) := hformed.2 _ (.refl _)
  have hstatement : id ∈ file.tree.children file.root := by
    rw [Tree.children, hroot]
    exact List.mem_cons_self
  have htype : type ∈ file.tree.children id := by
    rw [Tree.children, hform]
    exact List.mem_cons_of_mem _ List.mem_cons_self
  refine ⟨hclean, id :: type :: path, .cons_cons hstatement (.cons_cons htype hpath), ?_⟩
  exact Nat.le_trans hcount (((List.sublist_cons_self ..).trans (List.sublist_cons_self ..)).countP_le)

/-- One opaque type more than the limit allows, and nothing is wrong. -/
theorem tower_nests_past_limit :
    let file := SourceFile.parse (towerAlias 257).text
    file.diagnostics = [] ∧ ∃ path, file.tree.Descends (file.root :: path) ∧
      Grammar.maxDepth < (file.root :: path).countP (file.tree.stands .type) := by
  -- The height is left open, so that the text is not read out.
  have hall (height : Nat) (hheight : Grammar.maxDepth < height) :
      let file := SourceFile.parse (towerAlias height).text
      file.diagnostics = [] ∧ ∃ path, file.tree.Descends (file.root :: path) ∧
        Grammar.maxDepth < (file.root :: path).countP (file.tree.stands .type) := by
    intro file
    obtain ⟨hclean, path, hpath, hcount⟩ := parse_tower_path height
    exact ⟨hclean, path, hpath, Nat.lt_of_lt_of_le hheight hcount⟩
  exact hall 257 (by decide)

end SelfCapture
