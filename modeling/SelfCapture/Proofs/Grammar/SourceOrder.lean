import Mathlib.Data.List.Basic
import SelfCapture.Proofs.Grammar.SourceFile

/-! # Closures in source order

  The braces that open the closures of a tree, in preorder, have ascending
  offsets.  `Derives.ascends` shows it by induction over derivations: the
  closures among the new nodes open between the first token read and the
  token after the last one.  A closure opens before the closures in its
  body; the closures inside a string literal open between its ends, those
  of each interpolated expression in the window of the expression.
-/

namespace SelfCapture

/-! ## Section 1: Ascending offsets -/

/-- The offsets ascend, from `low` on and before `high`. -/
structure Ascends (low : Nat) (offsets : List Nat) (high : Nat) : Prop where
  pairwise : offsets.Pairwise (· < ·)
  low_le : ∀ {offset}, offset ∈ offsets → low ≤ offset
  lt_high : ∀ {offset}, offset ∈ offsets → offset < high

namespace Ascends

variable {low low' high high' offset : Nat} {xs ys : List Nat}

theorem nil (low high : Nat) : Ascends low [] high :=
  ⟨List.Pairwise.nil, nofun, nofun⟩

theorem mono (h : Ascends low xs high) (hlow : low' ≤ low) (hhigh : high ≤ high') :
    Ascends low' xs high' where
  pairwise := h.pairwise
  low_le := fun hmem => Nat.le_trans hlow (h.low_le hmem)
  lt_high := fun hmem => Nat.lt_of_lt_of_le (h.lt_high hmem) hhigh

theorem append (h : Ascends low xs high) (h' : Ascends low' ys high') (hlow : low ≤ low')
    (hmeet : high ≤ low') (hhigh : high ≤ high') : Ascends low (xs ++ ys) high' where
  pairwise := by
    refine List.pairwise_append.mpr ⟨h.pairwise, h'.pairwise, fun x hx y hy => ?_⟩
    exact Nat.lt_of_lt_of_le (h.lt_high hx) (Nat.le_trans hmeet (h'.low_le hy))
  low_le := by
    intro offset hmem
    rcases List.mem_append.mp hmem with hmem | hmem
    · exact h.low_le hmem
    · exact Nat.le_trans hlow (h'.low_le hmem)
  lt_high := by
    intro offset hmem
    rcases List.mem_append.mp hmem with hmem | hmem
    · exact Nat.lt_of_lt_of_le (h.lt_high hmem) hhigh
    · exact h'.lt_high hmem

theorem cons (h : Ascends low xs high) (hlt : offset < low) (hhigh : low ≤ high) :
    Ascends offset (offset :: xs) high where
  pairwise := List.pairwise_cons.mpr ⟨fun x hx => Nat.lt_of_lt_of_le hlt (h.low_le hx), h.pairwise⟩
  low_le := by
    intro x hmem
    rcases List.mem_cons.mp hmem with rfl | hmem
    · exact Nat.le_refl _
    · exact Nat.le_trans (Nat.le_of_lt hlt) (h.low_le hmem)
  lt_high := by
    intro x hmem
    rcases List.mem_cons.mp hmem with rfl | hmem
    · exact Nat.lt_of_lt_of_le hlt hhigh
    · exact h.lt_high hmem

end Ascends

/-! ## Section 2: Where closures open -/

namespace Tree

variable {t t' : Tree} {ids more : List Nat} {form : Form} {pos stop : Nat}

/-- Where the closures under some nodes open, in preorder. -/
def openings (t : Tree) (ids : List Nat) : List Nat :=
  ((ids.flatMap t.preorder).filter t.isClosure).filterMap t.pos?

theorem openings_append (t : Tree) (ids more : List Nat) :
    t.openings (ids ++ more) = t.openings ids ++ t.openings more := by
  rw [openings, List.flatMap_append, List.filter_append, List.filterMap_append]
  rfl

theorem openings_congr
    (h : ∀ id ∈ ids, ∀ k ≤ id, t'.form? k = t.form? k ∧ t'.pos? k = t.pos? k) :
    t'.openings ids = t.openings ids := by
  have hnodes : ids.flatMap t'.preorder = ids.flatMap t.preorder :=
    flatMap_preorder_congr fun id hid k hk => (h id hid k hk).1
  have hsame : ∀ k ∈ ids.flatMap t.preorder, t'.form? k = t.form? k ∧ t'.pos? k = t.pos? k := by
    intro k hk
    obtain ⟨id, hid, hk⟩ := List.mem_flatMap.mp hk
    exact h id hid k (le_of_mem_preorder hk)
  have hclosures : (ids.flatMap t.preorder).filter t'.isClosure =
      (ids.flatMap t.preorder).filter t.isClosure := by
    refine List.filter_congr fun k hk => ?_
    rw [isClosure, isClosure, (hsame k hk).1]
  rw [openings, hnodes, hclosures]
  exact List.filterMap_congr fun k hk => (hsame k (List.mem_filter.mp hk).1).2

theorem Grows.openings_eq (h : Grows t more t') (hids : ∀ {id}, id ∈ ids → id < t.nextId) :
    t'.openings ids = t.openings ids := by
  refine openings_congr fun id hid k hk => ?_
  have hlt : k < t.nextId := Nat.lt_of_le_of_lt hk (hids hid)
  exact ⟨h.form?_eq hlt, by rw [pos?, pos?, h.kept hlt]⟩

theorem pos?_add (t : Tree) (form : Form) (pos stop id : Nat) :
    (t.add form pos stop).pos? id = if id = t.nextId then some pos else t.pos? id := by
  rw [pos?, get?_add]
  split
  · rfl
  · rw [pos?]
    cases t.get? id with
    | none => rfl
    | some node => simp only [Option.map_some, apply_ite Node.pos, ite_self]

/-- The closures under a node that has just been made: itself, if it is
    one, and those under its children. -/
theorem openings_add (hlt : ∀ child ∈ form.children, child < t.nextId) :
    (t.add form pos stop).openings [t.nextId] =
      (if (t.add form pos stop).isClosure t.nextId then [pos] else []) ++
        t.openings form.children := by
  have hsame : ∀ child ∈ form.children, ∀ k ≤ child,
      (t.add form pos stop).form? k = t.form? k ∧ (t.add form pos stop).pos? k = t.pos? k := by
    intro child hchild k hk
    have hne : k ≠ t.nextId := Nat.ne_of_lt (Nat.lt_of_le_of_lt hk (hlt child hchild))
    rw [form?_add, pos?_add, if_neg hne, if_neg hne]
    exact ⟨rfl, rfl⟩
  have hpos : (t.add form pos stop).pos? t.nextId = some pos := by
    rw [pos?_add, if_pos rfl]
  have hbelow := flatMap_preorder_congr fun child hchild k hk => (hsame child hchild k hk).1
  rw [← openings_congr hsame, openings, openings, List.flatMap_singleton, preorder_add hlt,
    ← hbelow]
  cases hclosure : (t.add form pos stop).isClosure t.nextId with
  | true => simp [hclosure, hpos]
  | false => simp [hclosure]

end Tree

namespace Grammar

/-! ## Section 3: Derivations -/

/-- Where the closures of a derivation open: its tokens lie between `low`
    and `high`, or the windows that it reads do. -/
def Task.Spans (task : Task) (s s' : State) (low high : Nat) : Prop :=
  match task with
  | .tokens => low ≤ s.offset ∧ s'.offset ≤ high
  | .windows segments => Token.Inside low segments high ∧ high ≤ s.scanner.bytes.size

/-- A node that is not a closure opens where its children do. -/
theorem openings_finish {t t' : Tree} {form : Form} {pos stop : Nat}
    (h : t.Grows form.children t') (hfits : t'.Fits form) :
    (t'.add form pos stop).openings [t'.nextId] = t'.openings form.children := by
  have hclosure : (t'.add form pos stop).isClosure t'.nextId = false := by
    refine Bool.eq_false_iff.mpr fun hclosure => ?_
    obtain ⟨captures, parameters, result, statements, hform⟩ := Tree.exists_closure hclosure
    rw [Tree.form?_add, if_pos rfl] at hform
    rw [Option.some.inj hform] at hfits
    exact hfits
  rw [Tree.openings_add fun child hchild => (h.new hchild).2, hclosure]
  rfl

theorem Derives.ascends {task : Task} {s s' : State} {ids : List Nat}
    (h : Derives task s ids s') {low high : Nat} (hspans : task.Spans s s' low high) :
    Ascends low (s'.tree.openings ids) high := by
  induction h generalizing low high with
  | stay _ | advance _ | report _ _ | forget _ _ | noWindow _ => exact .nil _ _
  | @append s s₁ s₂ ids more h h' ih ih' =>
    -- The two readings meet at the token between them.
    have hkept : s₂.tree.openings ids = s₁.tree.openings ids :=
      h'.grows.openings_eq fun hid => (h.grows.new hid).2
    have hle := h.offset_le
    have hle' := h'.offset_le
    rw [Tree.openings_append, hkept]
    exact (ih ⟨hspans.1, Nat.le_refl _⟩).append (ih' ⟨Nat.le_refl _, hspans.2⟩)
      (Nat.le_trans hspans.1 hle) (Nat.le_refl _) (Nat.le_trans hle' hspans.2)
  | @finish s s₁ form h hfits ih =>
    rw [State.made, openings_finish h.grows hfits]
    exact ih hspans
  | @closure s s₁ captures parameters result statements hs hbrace h ih =>
    -- The brace comes before everything that the body was read from.
    have hlt : s.offset < s.advanced.offset := hs.offset_lt (by rw [hbrace]; decide)
    have hle := h.offset_le
    have hself : (s₁.tree.add (.closure captures parameters result statements) s.offset
        (max s₁.previousStop s.offset)).isClosure s₁.tree.nextId = true := by
      rw [Tree.isClosure, Tree.form?_add, if_pos rfl]
    rw [State.made, Tree.openings_add fun child hchild => (h.grows.new hchild).2, hself]
    refine Ascends.mono ((ih ⟨Nat.le_refl _, hspans.2⟩).cons hlt ?_) hspans.1 (Nat.le_refl _)
    exact Nat.le_trans hle hspans.2
  | @name s hs =>
    have hgrows : s.tree.Grows (Form.identifier s.kind).children s.tree := .refl _
    exact openings_finish hgrows trivial ▸ .nil _ _
  | @missing s hs =>
    have hgrows : s.tree.Grows Form.missing.children s.tree := .refl _
    exact openings_finish hgrows trivial ▸ .nil _ _
  | under _ _ ih => exact ih hspans
  | deeper _ _ ih => exact ih hspans
  | @interpolate s s₁ ids hs h ih =>
    -- The windows lie inside the literal, and the next token is after it.
    have hbound := Nat.le_trans hs.token_stop_le hs.stop_le
    exact (ih ⟨hs.inside, hbound⟩).mono hspans.1 (Nat.le_trans (h.stop_le_returned hs) hspans.2)
  | @window s s₁ s₂ segment rest ids more h h' ih ih' =>
    -- The first expression ends within its window; the others are in later ones.
    obtain ⟨⟨hstart, hle, hrest⟩, hbound⟩ := hspans
    have hstop := hrest.le
    have hwithin : segment.stop ≤ s.scanner.bytes.size := by omega
    have hfirst := s.le_offset_entered hle hwithin
    have hend : s₁.offset ≤ segment.stop := h.offset_le_window
    have hbytes : s₁.scanner.bytes = s.scanner.bytes := h.keeps.bytes_eq
    have hkept : s₂.tree.openings ids = s₁.tree.openings ids :=
      h'.grows.openings_eq fun hid => (h.grows.new hid).2
    rw [Tree.openings_append, hkept]
    refine Ascends.append (ih ⟨?_, hend⟩) (ih' ⟨hrest, ?_⟩) ?_ ?_ ?_
    · omega
    · rw [hbytes]
      exact hbound
    · omega
    · omega
    · omega

/-! ## Section 4: The tree of a text -/

theorem parse_openings (text : String) :
    Ascends 0 ((SourceFile.parse text).tree.openings [(SourceFile.parse text).root])
      text.toByteArray.size := by
  obtain ⟨statements, s', hread, hroot, htree⟩ := parse_derives text
  have hbytes : s'.scanner.bytes = text.toByteArray := hread.keeps.bytes_eq
  have hle := Nat.le_trans hread.settled.token_pos_le hread.settled.stop_le
  rw [hbytes] at hle
  rw [hroot, htree, openings_finish hread.grows trivial]
  exact hread.ascends ⟨Nat.zero_le _, hle⟩

end Grammar
end SelfCapture
