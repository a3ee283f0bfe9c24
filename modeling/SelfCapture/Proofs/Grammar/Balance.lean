import Mathlib.Data.List.Infix
import SelfCapture.Proofs.Grammar.Coverage
import SelfCapture.Proofs.Token.Braces

/-! # Readings that keep braces balanced

  What a rule of the grammar reads is balanced, and a body that it reads
  ends at the partner of its opening brace.  Two things are excepted.  After
  trouble nothing is said.  And some stretches of the text are skipped by
  line or by bracket, whatever braces they hold: for these it has to be
  known that they are balanced, `Kept` for lines and parentheses and
  `Angled` for generic parameters.

  `Moves q s s'` says what reading leaves in place, and `Tallies q s s'`
  that it also keeps count of the braces.  The offset `q` is one at or after
  which all new nodes start; it is needed for string literals, whose nodes
  are of no concern to the count.
-/

namespace SelfCapture

/-! ## Section 1: Stretches that are skipped -/

namespace Token

/-- Whether the token after a number sign makes it a compilation directive. -/
def namesDirective (bytes : ByteArray) (token : Token) : Bool :=
  !token.afterBlank &&
    (token.kind == .ifKeyword || token.kind == .elseKeyword ||
      token.kind == .identifier &&
        ["elseif", "endif"].contains (Text.slice bytes token.pos token.stop))

/-- Whether the tokens start with a declaration or directive that is skipped
    to the end of its line. -/
def startsSkippedLine (bytes : ByteArray) : List Token → Bool
  | [] => false
  | token :: rest =>
    match token.kind with
    | .importKeyword | .associatedtypeKeyword | .operatorKeyword => true
    | .hash => rest.head?.any (namesDirective bytes)
    | _ => false

/-- Whether the first token is of a kind. -/
def startsWith (kind : Kind) (row : List Token) : Bool := row.head?.any (·.kind == kind)

/-- Lines that are skipped and groups in parentheses are balanced. -/
structure Kept (bytes : ByteArray) (all : List Token) : Prop where
  lines : ∀ row ∈ all.tails, startsSkippedLine bytes row = true → Balanced (line row)
  groups : ∀ row ∈ all.tails, startsWith .openParen row = true →
    ∀ inner ∈ group? .openParen .closeParen 0 row, Balanced inner

instance (bytes : ByteArray) (all : List Token) : Decidable (Kept bytes all) :=
  decidable_of_iff
    ((∀ row ∈ all.tails, startsSkippedLine bytes row = true → Balanced (line row)) ∧
      ∀ row ∈ all.tails, startsWith .openParen row = true →
        ∀ inner ∈ group? .openParen .closeParen 0 row, Balanced inner)
    ⟨fun h => ⟨h.1, h.2⟩, fun h => ⟨h.lines, h.groups⟩⟩

end Token

/-- Whether a declaration of this form can have generic parameters. -/
@[reducible] def Form.takesGenerics : Form → Bool
  | .functionDecl .. | .typeDecl .. | .typeAlias .. => true
  | _ => false

namespace Tree

/-- Whether an offset is in a node and in none of its children. -/
def owns (t : Tree) (id offset : Nat) : Bool :=
  (t.range? id).any (fun r => r.1 ≤ offset && offset < r.2) &&
    (t.earlierChildren id).all fun child =>
      (t.range? child).all fun r => offset < r.1 || r.2 ≤ offset

/-- Whether the tokens start with an angle bracket of a declaration itself. -/
def opensGenerics (t : Tree) (id : Nat) (row : List Token) : Bool :=
  (t.form? id).any (·.takesGenerics) &&
    row.head?.any fun token => token.kind == .lessThan && t.owns id token.pos

/-- There are no braces in the generic parameters of declarations. -/
def Angled (t : Tree) (all : List Token) : Prop :=
  ∀ id < t.nextId, ∀ row ∈ all.tails, t.opensGenerics id row = true →
    ∀ inner ∈ Token.group? .lessThan .greaterThan 0 row, Token.BraceFree inner

instance (t : Tree) (all : List Token) : Decidable (t.Angled all) :=
  inferInstanceAs (Decidable (∀ id < t.nextId, ∀ row ∈ all.tails, t.opensGenerics id row = true →
    ∀ inner ∈ Token.group? .lessThan .greaterThan 0 row, Token.BraceFree inner))

/-! ## Section 2: Bodies -/

/-- The second tree has the nodes of the first, and maybe more. -/
structure Extends (t t' : Tree) : Prop where
  nextId_le : t.nextId ≤ t'.nextId
  form_eq : ∀ {id : Nat}, id < t.nextId → t'.form? id = t.form? id
  range_eq : ∀ {id : Nat}, id < t.nextId → t'.range? id = t.range? id

variable {t t' t'' : Tree} {all : List Token} {id : Nat}

theorem lt_nextId_of_range? {r : Nat × Nat} (h : t.range? id = some r) : id < t.nextId := by
  obtain ⟨node, hnode, -⟩ := Option.map_eq_some_iff.mp h
  exact lt_nextId_of_get? hnode

namespace Extends

theorem refl (t : Tree) : Extends t t := ⟨Nat.le_refl _, fun _ => rfl, fun _ => rfl⟩

theorem trans (h : Extends t t') (h' : Extends t' t'') : Extends t t'' where
  nextId_le := Nat.le_trans h.nextId_le h'.nextId_le
  form_eq hid := (h'.form_eq (Nat.lt_of_lt_of_le hid h.nextId_le)).trans (h.form_eq hid)
  range_eq hid := (h'.range_eq (Nat.lt_of_lt_of_le hid h.nextId_le)).trans (h.range_eq hid)

theorem add (t : Tree) (form : Form) (pos stop : Nat) : Extends t (t.add form pos stop) where
  nextId_le := by simp
  form_eq hid := by rw [form?_add, if_neg (Nat.ne_of_lt hid)]
  range_eq hid := by rw [range?_add, if_neg (Nat.ne_of_lt hid)]

theorem range?_eq {r : Nat × Nat} (h : Extends t t') (hr : t.range? id = some r) :
    t'.range? id = some r :=
  (h.range_eq (lt_nextId_of_range? hr)).trans hr

theorem owns_eq (h : Extends t t') (hid : id < t.nextId) (offset : Nat) :
    t'.owns id offset = t.owns id offset := by
  have hchildren : t'.earlierChildren id = t.earlierChildren id := by
    rw [earlierChildren, earlierChildren, children, children, h.form_eq hid]
  rw [owns, owns, hchildren, h.range_eq hid]
  refine congrArg (_ && ·) (Bool.eq_iff_iff.mpr ?_)
  rw [List.all_eq_true, List.all_eq_true]
  refine forall₂_congr fun child hchild => ?_
  have hlt : child < id := by simpa using (List.mem_filter.mp hchild).2
  rw [h.range_eq (Nat.lt_trans hlt hid)]

theorem angled (h : Extends t t') (hangled : t'.Angled all) : t.Angled all := by
  intro id hid row hrow hopens
  refine hangled id (Nat.lt_of_lt_of_le hid h.nextId_le) row hrow ?_
  simp only [opensGenerics] at hopens ⊢
  rw [h.form_eq hid]
  simpa only [h.owns_eq hid] using hopens

end Extends
end Tree

/-- Whether a node of this form is or has a body in braces. -/
@[reducible] def Form.isBody : Form → Bool
  | .closure .. | .block .. | .typeDecl .. => true
  | _ => false

namespace Tree

variable {t t' : Tree} {all before : List Token} {id : Nat}

/-- The brace opens the body of a node.  A closure or block starts with its
    brace.  The members of a type start with the first opening brace at or
    after the ends of its name and of the types it inherits from. -/
def OpensBody (t : Tree) (form : Form) (start : Nat) (before : List Token) (brace : Token) :
    Prop :=
  match form with
  | .typeDecl _ name inherits _ =>
    (∀ part ∈ name :: inherits, ∃ r, t.range? part = some r ∧ r.2 ≤ brace.pos) ∧
      ∀ token ∈ before, token.kind = .openBrace →
        ∃ part ∈ name :: inherits, ∃ r, t.range? part = some r ∧ token.pos < r.2
  | _ => brace.pos = start

/-- The offset is outside all string literals. -/
def OutsideLiterals (all : List Token) (offset : Nat) : Prop :=
  ∀ token ∈ all, token.kind = .stringLiteral → ¬ (token.pos < offset ∧ offset < token.stop)

/-- A body outside string literals ends with the partner of its opening brace. -/
def ClosesBody (t : Tree) (all : List Token) (id : Nat) : Prop :=
  ∀ form r, t.form? id = some form → form.isBody = true → t.range? id = some r →
    OutsideLiterals all r.1 →
    ∃ before brace rest close, all = before ++ brace :: rest ∧ brace.kind = .openBrace ∧
      t.OpensBody form r.1 before brace ∧
      Token.partner? 0 rest = some close ∧ close.stop = r.2

theorem OpensBody.extends {form : Form} {start : Nat} {brace : Token}
    (h : t.OpensBody form start before brace) (ht : t.Extends t') :
    t'.OpensBody form start before brace := by
  cases form with
  | typeDecl sort name inherits members =>
    obtain ⟨hparts, hfirst⟩ := h
    constructor
    · intro part hpart
      obtain ⟨r, hr, hle⟩ := hparts part hpart
      exact ⟨r, ht.range?_eq hr, hle⟩
    · intro token htoken hbrace
      obtain ⟨part, hpart, r, hr, hlt⟩ := hfirst token htoken hbrace
      exact ⟨part, hpart, r, ht.range?_eq hr, hlt⟩
  | _ => exact h

theorem ClosesBody.extends (h : t.ClosesBody all id) (ht : t.Extends t') (hid : id < t.nextId) :
    t'.ClosesBody all id := by
  intro form r hform hbody hr houtside
  rw [ht.form_eq hid] at hform
  rw [ht.range_eq hid] at hr
  obtain ⟨before, brace, rest, close, hall, hbrace, hopens, hclose⟩ :=
    h form r hform hbody hr houtside
  exact ⟨before, brace, rest, close, hall, hbrace, hopens.extends ht, hclose⟩

end Tree

namespace Grammar

open Token (Kind)

/-! ## Section 3: States on the way -/

namespace State

/-- What holds at every token: nodes have been made of what comes before it. -/
structure Steady (s : State) : Prop where
  settled : s.Settled
  behind : s.Behind
  /-- Nothing is noted as an issue without a diagnostic. -/
  issue : s.lastIssueAt ≠ none → s.Troubled
  ended : ∀ {id : Nat} {r : Nat × Nat}, s.tree.range? id = some r →
    r.1 ≤ s.offset ∧ r.2 ≤ s.offset

/-- The window has been read to its end. -/
def Over (s : State) : Prop := s.scanner.stop ≤ s.offset

/-- Of all tokens, some have been read and a row is left. -/
structure At (all before row : List Token) (s : State) : Prop where
  split : all = before ++ row
  kept : Token.Kept s.scanner.bytes all
  yields : s.scanner.Yields row
  read : ∀ token ∈ before, token.pos < s.previousStop

end State

/-- What reading leaves in place, and where it gets to.  New nodes start at
    `q` or later. -/
structure Moves (q : Nat) (s s' : State) : Prop where
  bytes_eq : s'.scanner.bytes = s.scanner.bytes
  stop_eq : s'.scanner.stop = s.scanner.stop
  diagnostics_le : s.diagnostics.size ≤ s'.diagnostics.size
  exhausted_imp : s.exhausted = true → s'.exhausted = true
  tree : s.tree.Extends s'.tree
  steady : s'.Steady
  offset_le : s.offset ≤ s'.offset
  previousStop_le : s.previousStop ≤ s'.previousStop
  starts : ∀ {id : Nat} {r : Nat × Nat}, s.tree.nextId ≤ id → s'.tree.range? id = some r → q ≤ r.1

/-- The tokens up to the second state are balanced, or the text is at its end. -/
def Counted (all before row : List Token) (s' : State) : Prop :=
  s'.Over ∨ ∃ passed rest, row = passed ++ rest ∧ s'.At all (before ++ passed) rest ∧
    Token.Balanced passed

/-- Reading keeps braces balanced, and the new bodies end with their braces,
    if there are no braces in the generic parameters of a tree. -/
structure TalliesIn (t : Tree) (q : Nat) (s s' : State) : Prop extends Moves q s s' where
  counted : s'.Troubled ∨ ∀ {all before row}, s.At all before row → t.Angled all →
    Counted all before row s'
  closes : s'.Troubled ∨ ∀ {all before row}, s.Over ∨ s.At all before row →
    t.Angled all → ∀ id, s.tree.nextId ≤ id → s'.tree.ClosesBody all id

/-- Reading keeps braces balanced, with the tree that it ends with. -/
abbrev Tallies (q : Nat) (s s' : State) : Prop := TalliesIn s'.tree q s s'

theorem State.Steady.kind_of_over {s : State} (hs : s.Steady) (h : s.Over) :
    s.kind = .endOfFile :=
  hs.settled.atEnd_iff.mpr (Nat.le_antisymm hs.settled.token_pos_le h)

theorem State.Steady.over_of_kind {s : State} (hs : s.Steady) (h : s.kind = .endOfFile) :
    s.Over :=
  Nat.le_of_eq (hs.settled.atEnd_iff.mp h).symm

namespace Moves

variable {q q' : Nat} {s s₁ s₂ : State}

theorem refl (hs : s.Steady) (q : Nat) : Moves q s s where
  bytes_eq := rfl
  stop_eq := rfl
  diagnostics_le := Nat.le_refl _
  exhausted_imp := id
  tree := .refl _
  steady := hs
  offset_le := Nat.le_refl _
  previousStop_le := Nat.le_refl _
  starts hid hr := absurd (Tree.lt_nextId_of_range? hr) (Nat.not_lt_of_le hid)

theorem trans (h : Moves q s s₁) (h' : Moves q s₁ s₂) : Moves q s s₂ where
  bytes_eq := h'.bytes_eq.trans h.bytes_eq
  stop_eq := h'.stop_eq.trans h.stop_eq
  diagnostics_le := Nat.le_trans h.diagnostics_le h'.diagnostics_le
  exhausted_imp hs := h'.exhausted_imp (h.exhausted_imp hs)
  tree := h.tree.trans h'.tree
  steady := h'.steady
  offset_le := Nat.le_trans h.offset_le h'.offset_le
  previousStop_le := Nat.le_trans h.previousStop_le h'.previousStop_le
  starts {id r} hid hr := by
    by_cases hnew : s₁.tree.nextId ≤ id
    · exact h'.starts hnew hr
    · rw [h'.tree.range_eq (Nat.lt_of_not_le hnew)] at hr
      exact h.starts hid hr

theorem mono (h : Moves q' s s₁) (hle : q ≤ q') : Moves q s s₁ :=
  { h with starts := fun hid hr => Nat.le_trans hle (h.starts hid hr) }

theorem troubled (h : Moves q s s₁) (hs : s.Troubled) : s₁.Troubled :=
  hs.imp (fun hlt => Nat.lt_of_lt_of_le hlt h.diagnostics_le) h.exhausted_imp

theorem advanced (hs : s.Steady) (q : Nat) : Moves q s s.advanced where
  bytes_eq := rfl
  stop_eq := rfl
  diagnostics_le := Nat.le_refl _
  exhausted_imp := id
  tree := .refl _
  steady :=
    { settled := hs.settled.scan
      behind := State.advanced_behind hs.settled
      issue := hs.issue
      ended := fun hr =>
        have hle := (Onward.advanced hs.settled).offset_le
        ⟨Nat.le_trans (hs.ended hr).1 hle, Nat.le_trans (hs.ended hr).2 hle⟩ }
  offset_le := (Onward.advanced hs.settled).offset_le
  previousStop_le := Nat.le_trans hs.behind hs.settled.token_le
  starts hid hr := absurd (Tree.lt_nextId_of_range? hr) (Nat.not_lt_of_le hid)

/-- After a report there is trouble, also if it repeats an earlier one. -/
theorem reported (hs : s.Steady) (q : Nat) (issue : Issue) :
    Moves q s (s.reported issue) ∧ (s.reported issue).Troubled := by
  unfold State.reported
  split
  · -- What was recorded at this token before is still there.
    rename_i hlast
    refine ⟨refl hs q, hs.issue ?_⟩
    rw [eq_of_beq hlast]
    exact Option.some_ne_none _
  · have htrouble (s' : State) (h : 0 < s'.diagnostics.size) : s'.Troubled := Or.inl h
    have hmoves := refl hs q
    refine ⟨{ hmoves with diagnostics_le := ?_, steady := ?_ }, htrouble _ (by simp)⟩
    · simp
    · exact ⟨hs.settled, hs.behind, fun _ => htrouble _ (by simp), hs.ended⟩

theorem exhausted (hs : s.Steady) (q : Nat) : Moves q s { s with exhausted := true } :=
  { refl hs q with
    exhausted_imp := fun _ => rfl
    steady := ⟨hs.settled, hs.behind, fun _ => Or.inr rfl, hs.ended⟩ }

/-- A node can be made of what has been read. -/
theorem made (hs : s.Steady) {form : Form} {pos stop : Nat} (hq : q ≤ pos) (hpos : pos ≤ s.offset)
    (hstop : stop ≤ s.offset) : Moves q s (s.made form pos stop) := by
  have htree : s.tree.Extends (s.made form pos stop).tree := .add _ form pos stop
  refine { refl hs q with tree := htree, steady := ?_, starts := ?_ }
  · refine ⟨hs.settled, hs.behind, hs.issue, fun {id r} hr => ?_⟩
    simp only [State.made, Tree.range?_add] at hr
    split at hr
    · cases hr
      exact ⟨hpos, Nat.max_le.mpr ⟨hstop, hpos⟩⟩
    · exact hs.ended hr
  · intro id r hid hr
    simp only [State.made, Tree.range?_add] at hr
    split at hr
    · cases hr
      exact hq
    · exact absurd (Tree.lt_nextId_of_range? hr) (Nat.not_lt_of_le hid)

/-- Context and depth do not matter. -/
theorem surround (h : Moves q s s₁) (context : Context) (depth : Nat) :
    Moves q s { s₁ with context, depth } :=
  { h with steady := ⟨h.steady.settled, h.steady.behind, h.steady.issue, h.steady.ended⟩ }

theorem stillOver (h : Moves q s s₁) (hs : s.Over) : s₁.Over := by
  rw [State.Over, h.stop_eq]
  exact Nat.le_trans hs h.offset_le

theorem nextId_rewind (h : Moves q s s₁) : (s₁.rewind s.save).tree.nextId = s.tree.nextId := by
  simp only [State.rewind, State.save, Tree.nextId, Tree.truncate, Array.size_shrink]
  exact Nat.min_eq_left h.tree.nextId_le

/-- Coming back to where reading started keeps the nodes from before. -/
theorem rewind (hs : s.Steady) (h : Moves q s s₁) : Moves q s (s₁.rewind s.save) := by
  have hdiagnostics : (s₁.rewind s.save).diagnostics.size = s.diagnostics.size := by
    simp only [State.rewind, State.save, Array.size_shrink, Nat.min_eq_left h.diagnostics_le]
  have hsize := h.nextId_rewind
  -- The nodes that are left are those from before the attempt, unchanged.
  have hrange {id : Nat} (hid : id < s.tree.nextId) :
      (s₁.rewind s.save).tree.range? id = s.tree.range? id := by
    simp only [State.rewind, State.save, Tree.range?_truncate]
    rw [if_pos (show id < s.tree.nodes.size from hid)]
    exact h.tree.range_eq hid
  have hform {id : Nat} (hid : id < s.tree.nextId) :
      (s₁.rewind s.save).tree.form? id = s.tree.form? id := by
    rw [← h.tree.form_eq hid]
    simp only [State.rewind, State.save, Tree.form?, Tree.get?, Tree.truncate,
      ← Array.getElem?_toList, Array.toList_shrink, List.getElem?_take]
    rw [if_pos (show id < s.tree.nodes.size from hid)]
  have hold {id : Nat} {r : Nat × Nat} (hr : (s₁.rewind s.save).tree.range? id = some r) :
      id < s.tree.nextId := by
    rw [← hsize]
    exact Tree.lt_nextId_of_range? hr
  refine
    { bytes_eq := h.bytes_eq
      stop_eq := rfl
      diagnostics_le := Nat.le_of_eq hdiagnostics.symm
      exhausted_imp := h.exhausted_imp
      tree := ⟨Nat.le_of_eq hsize.symm, hform, hrange⟩
      steady := ?_
      offset_le := Nat.le_refl _
      previousStop_le := Nat.le_refl _
      starts := fun hid hr => absurd (hold hr) (Nat.not_lt_of_le hid) }
  refine ⟨hs.settled.restore h.bytes_eq, hs.behind, fun hissue => ?_, fun {id r} hr => ?_⟩
  · refine (hs.issue hissue).imp (fun hlt => ?_) h.exhausted_imp
    rw [hdiagnostics]
    exact hlt
  · rw [hrange (hold hr)] at hr
    exact hs.ended hr

end Moves

namespace State.At

variable {s s' : State} {all before row : List Token}

/-- The state matters only for where the scanner is. -/
theorem congr (h : s.At all before row) (hbytes : s'.scanner.bytes = s.scanner.bytes)
    (hpos : s'.scanner.pos = s.scanner.pos) (hstop : s'.scanner.stop = s.scanner.stop)
    (htoken : s'.scanner.token = s.scanner.token) (hprevious : s'.previousStop = s.previousStop) :
    s'.At all before row where
  split := h.split
  kept := by
    rw [hbytes]
    exact h.kept
  yields := h.yields.congr hbytes hpos hstop htoken
  read := by
    rw [hprevious]
    exact h.read

theorem advanced (h : s.At all before row) (hs : s.Steady) (hk : s.kind ≠ .endOfFile) :
    ∃ rest, row = s.scanner.token :: rest ∧
      s.advanced.At all (before ++ [s.scanner.token]) rest := by
  obtain ⟨rest, hrow, hrest⟩ := h.yields.scan hk
  refine ⟨rest, hrow, ⟨?_, h.kept, hrest, ?_⟩⟩
  · rw [h.split, hrow, List.append_assoc, List.singleton_append]
  · intro token htoken
    have hcovers := hs.settled.covers hk
    rcases List.mem_append.mp htoken with hold | hnew
    · exact Nat.lt_of_lt_of_le (h.read token hold) (Nat.le_trans hs.behind (Nat.le_of_lt hcovers))
    · rw [List.mem_singleton.mp hnew]
      exact hcovers

/-- The row starts with the current token. -/
theorem eq_cons (h : s.At all before row) : ∃ rest, row = s.scanner.token :: rest :=
  h.yields.eq_cons

theorem suffix (h : s.At all before row) : row ∈ all.tails := by
  rw [List.mem_tails, h.split]
  exact List.suffix_append before row

end State.At

namespace TalliesIn

variable {t t' : Tree} {q q' : Nat} {s s₁ s₂ : State}

/-- A step that makes no node. -/
theorem of_moves (h : Moves q s s₁) (hnodes : s₁.tree.nextId = s.tree.nextId)
    (hcounted : s₁.Troubled ∨ ∀ {all before row}, s.At all before row → t.Angled all →
      Counted all before row s₁) : TalliesIn t q s s₁ where
  toMoves := h
  counted := hcounted
  closes := Or.inr fun _ _ _ hid _ _ _ _ hr =>
    absurd (Tree.lt_nextId_of_range? hr) (Nat.not_lt_of_le (hnodes ▸ hid))

theorem of_troubled (h : Moves q s s₁) (htrouble : s₁.Troubled) : TalliesIn t q s s₁ :=
  ⟨h, Or.inl htrouble, Or.inl htrouble⟩

theorem mono (h : TalliesIn t q' s s₁) (hle : q ≤ q') : TalliesIn t q s s₁ :=
  ⟨h.toMoves.mono hle, h.counted, h.closes⟩

/-- There are more generic parameters in a tree with more nodes. -/
theorem extend (h : TalliesIn t q s s₁) (ht : t.Extends t') : TalliesIn t' q s s₁ where
  toMoves := h.toMoves
  counted := h.counted.imp_right fun hcounted _ _ _ hat hangled =>
    hcounted hat (ht.angled hangled)
  closes := h.closes.imp_right fun hcloses _ _ _ hat hangled =>
    hcloses hat (ht.angled hangled)

theorem trans (h : TalliesIn t q s s₁) (h' : TalliesIn t q s₁ s₂) : TalliesIn t q s s₂ := by
  have hmoves := h.toMoves.trans h'.toMoves
  rcases h.counted with htrouble | hcounted
  · exact of_troubled hmoves (h'.troubled htrouble)
  rcases h'.counted with htrouble | hcounted'
  · exact of_troubled hmoves htrouble
  rcases h.closes with htrouble | hcloses
  · exact of_troubled hmoves (h'.troubled htrouble)
  rcases h'.closes with htrouble | hcloses'
  · exact of_troubled hmoves htrouble
  refine ⟨hmoves, Or.inr ?_, Or.inr ?_⟩
  · intro all before row hat hangled
    rcases hcounted hat hangled with hover | ⟨passed, rest, rfl, hat₁, hbalanced⟩
    · exact Or.inl (h'.stillOver hover)
    rcases hcounted' hat₁ hangled with hover | ⟨passed', rest', rfl, hat₂, hbalanced'⟩
    · exact Or.inl hover
    · refine Or.inr ⟨passed ++ passed', rest', (List.append_assoc ..).symm, ?_, ?_⟩
      · rw [← List.append_assoc]
        exact hat₂
      · exact hbalanced.append hbalanced'
  · intro all before row hat hangled id hid
    by_cases hnew : s₁.tree.nextId ≤ id
    · -- A node of the second part: its tokens are those after the first part.
      rcases hat with hover | hat
      · exact @hcloses' all [] [] (Or.inl (h.stillOver hover)) hangled id hnew
      · rcases hcounted hat hangled with hover | ⟨passed, rest, -, hat₁, -⟩
        · exact @hcloses' all [] [] (Or.inl hover) hangled id hnew
        · exact hcloses' (Or.inr hat₁) hangled id hnew
    · have hlt := Nat.lt_of_not_le hnew
      exact (hcloses hat hangled id hid).extends h'.tree hlt

/-- A node is made of what has been read.  If it is a body, it has to be
    known that its braces fit. -/
theorem madeOf {form : Form} {pos stop : Nat} (h : TalliesIn t q s s₁) (hq : q ≤ pos)
    (hpos : pos ≤ s₁.offset) (hstop : stop ≤ s₁.offset)
    (hnew : s₁.Troubled ∨ ∀ {all before row}, s.Over ∨ s.At all before row → t.Angled all →
      (s₁.made form pos stop).tree.ClosesBody all s₁.tree.nextId) :
    TalliesIn t q s (s₁.made form pos stop) := by
  have hmade : Moves q s₁ (s₁.made form pos stop) := .made h.steady hq hpos hstop
  refine ⟨h.toMoves.trans hmade, ?_, ?_⟩
  · refine h.counted.imp_right fun hcounted {all before row} hat hangled => ?_
    refine (hcounted hat hangled).imp_right ?_
    rintro ⟨passed, rest, hrow, hat₁, hbalanced⟩
    exact ⟨passed, rest, hrow, hat₁.congr rfl rfl rfl rfl rfl, hbalanced⟩
  · rcases h.closes with htrouble | hcloses
    · exact Or.inl htrouble
    rcases hnew with htrouble | hnew
    · exact Or.inl htrouble
    refine Or.inr fun {all before row} hat hangled id hid => ?_
    by_cases hold : id < s₁.tree.nextId
    · exact (hcloses hat hangled id hid).extends hmade.tree hold
    · intro form' r hform hbody hr
      have hlt := Tree.lt_nextId_of_range? hr
      simp only [State.made, Tree.nextId_add] at hlt
      obtain rfl : id = s₁.tree.nextId := by omega
      exact hnew hat hangled form' r hform hbody hr

/-- Context and depth do not matter. -/
theorem surround (h : TalliesIn t q s s₁) (context : Context) (depth : Nat) :
    TalliesIn t q s { s₁ with context, depth } where
  toMoves := h.toMoves.surround context depth
  counted := h.counted.imp_right fun hcounted => by
    intro all before row hat hangled
    refine (hcounted hat hangled).imp_right ?_
    rintro ⟨passed, rest, hrow, hat₁, hbalanced⟩
    exact ⟨passed, rest, hrow, hat₁.congr rfl rfl rfl rfl rfl, hbalanced⟩
  closes := h.closes

end TalliesIn

namespace Tallies

variable {q q' : Nat} {s s₁ s₂ : State}

/-- A step that stays at the token. -/
theorem stay (h : Moves q s s₁) (hnodes : s₁.tree.nextId = s.tree.nextId)
    (hpos : s₁.scanner.pos = s.scanner.pos) (htoken : s₁.scanner.token = s.scanner.token)
    (hprevious : s₁.previousStop = s.previousStop) : Tallies q s s₁ := by
  refine .of_moves h hnodes (Or.inr fun {all before row} hat _ => Or.inr ⟨[], row, rfl, ?_, .nil⟩)
  rw [List.append_nil]
  exact hat.congr h.bytes_eq hpos h.stop_eq htoken hprevious

theorem refl (hs : s.Steady) (q : Nat) : Tallies q s s := stay (.refl hs q) rfl rfl rfl rfl

theorem trans (h : Tallies q s s₁) (h' : Tallies q s₁ s₂) : Tallies q s s₂ :=
  TalliesIn.trans (h.extend h'.tree) h'

/-- What a reading does after trouble does not matter. -/
theorem then_moves (h : Moves q s s₁) (htrouble : s₁.Troubled) (h' : Moves q s₁ s₂) :
    Tallies q s s₂ :=
  .of_troubled (h.trans h') (h'.troubled htrouble)

/-- A token that is no brace. -/
theorem advanced (hs : s.Steady) (q : Nat) (hk : s.kind.isBrace = false) :
    Tallies q s s.advanced := by
  have hmoves := Moves.advanced hs q
  refine .of_moves hmoves rfl (Or.inr fun {all before row} hat _ => ?_)
  by_cases hend : s.kind = .endOfFile
  · exact Or.inl (hmoves.stillOver (hs.over_of_kind hend))
  · obtain ⟨rest, rfl, hat₁⟩ := hat.advanced hs hend
    exact Or.inr ⟨[s.scanner.token], rest, rfl, hat₁, .plain hk⟩

/-- A node that is no body. -/
theorem made (hs : s.Steady) {form : Form} {pos stop : Nat} (hbody : form.isBody = false)
    (hq : q ≤ pos) (hpos : pos ≤ s.offset) (hstop : stop ≤ s.offset) :
    Tallies q s (s.made form pos stop) := by
  have hstart := (refl hs q).extend (.add s.tree form pos stop)
  refine hstart.madeOf hq hpos hstop (Or.inr fun _ _ => ?_)
  intro form' r hform hbody'
  simp only [State.made, Tree.form?_add, if_pos] at hform
  cases hform
  rw [hbody] at hbody'
  cases hbody'

end Tallies
end Grammar
end SelfCapture
