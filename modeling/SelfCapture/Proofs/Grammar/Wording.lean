import Mathlib.Data.List.Forall2
import SelfCapture.Proofs.Grammar.Balance
import SelfCapture.Proofs.Grammar.TypeName
import SelfCapture.Proofs.Grammar.TypeSyntax

/-! # Reading known words

  Where the words ahead are known, so is what is read.  `State.Faces` says
  that the current token and those after it are certain words; `ReadsTo`
  tells that reading has come to certain words and what nodes it has made.

  What is said of a node has to hold in every later tree too,
  `Tree.Continues`, since reading goes on.
-/

namespace SelfCapture

open Token (Kind Name Word)

/-! ## Section 1: Later trees -/

namespace Tree

/-- The second tree is of the same text and has the nodes of the first. -/
structure Continues (t t' : Tree) : Prop extends Extends t t' where
  bytes_eq : t'.bytes = t.bytes

variable {t t' t'' : Tree} {id : Nat} {ids : List Nat}

namespace Continues

theorem refl (t : Tree) : Continues t t := ⟨.refl t, rfl⟩

theorem trans (h : Continues t t') (h' : Continues t' t'') : Continues t t'' :=
  ⟨h.toExtends.trans h'.toExtends, h'.bytes_eq.trans h.bytes_eq⟩

theorem add (t : Tree) (form : Form) (pos stop : Nat) : Continues t (t.add form pos stop) :=
  ⟨.add t form pos stop, rfl⟩

end Continues

theorem Grows.continues (h : Grows t ids t') : Continues t t' where
  nextId_le := h.nextId_le
  form_eq hid := h.form?_eq hid
  range_eq hid := by rw [range?, range?, h.kept hid]
  bytes_eq := h.bytes_eq

/-- In every later tree the node has the text. -/
def Spelled (t : Tree) (text : String) (id : Nat) : Prop :=
  id < t.nextId ∧ ∀ t', Continues t t' → t'.text id = text

/-- In every later tree the node has the form. -/
def Formed (t : Tree) (form : Form) (id : Nat) : Prop :=
  id < t.nextId ∧ ∀ t', Continues t t' → t'.form? id = some form

theorem Spelled.later {text : String} (h : t.Spelled text id) (ht : Continues t t') :
    t'.Spelled text id :=
  ⟨Nat.lt_of_lt_of_le h.1 ht.nextId_le, fun t'' h' => h.2 t'' (ht.trans h')⟩

theorem Formed.later {form : Form} (h : t.Formed form id) (ht : Continues t t') :
    t'.Formed form id :=
  ⟨Nat.lt_of_lt_of_le h.1 ht.nextId_le, fun t'' h' => h.2 t'' (ht.trans h')⟩

/-- In every later tree the node is the identifier. -/
def Identifies (t : Tree) (kind : Kind) (text : String) (id : Nat) : Prop :=
  t.Formed (.identifier kind) id ∧ t.Spelled text id

theorem Identifies.later {kind : Kind} {text : String} (h : t.Identifies kind text id)
    (ht : Continues t t') : t'.Identifies kind text id :=
  ⟨h.1.later ht, h.2.later ht⟩

theorem formed_add (t : Tree) (form : Form) (pos stop : Nat) :
    (t.add form pos stop).Formed form t.nextId := by
  refine ⟨by simp, fun t' ht => ?_⟩
  rw [ht.form_eq (by simp), form?_add, if_pos rfl]

/-- The text of a node is that of its range. -/
theorem text_eq_slice {pos stop : Nat} (h : t.range? id = some (pos, stop)) :
    t.text id = Text.slice t.bytes pos stop := by
  obtain ⟨node, hnode, hrange⟩ := Option.map_eq_some_iff.mp h
  obtain ⟨rfl, rfl⟩ := Prod.mk.inj hrange
  rw [text, hnode]

theorem spelled_add (t : Tree) (form : Form) {pos stop : Nat} (hle : pos ≤ stop) :
    (t.add form pos stop).Spelled (Text.slice t.bytes pos stop) t.nextId := by
  refine ⟨by simp, fun t' ht => ?_⟩
  have hrange : t'.range? t.nextId = some (pos, stop) := by
    rw [ht.range_eq (by simp), range?_add, if_pos rfl, Nat.max_eq_left hle]
  rw [text_eq_slice hrange, ht.bytes_eq]
  rfl

end Tree

namespace Grammar

/-! ## Section 2: Words ahead -/

/-- The current token and those after it are the words.  As long as words
    are known, nothing has been found missing. -/
structure State.Faces (s : State) (words : List Word) : Prop where
  settled : s.Settled
  bytes_eq : s.tree.bytes = s.scanner.bytes
  spells : s.scanner.Spells words
  clean : words ≠ [] → s.diagnostics = #[]

/-- Reading has come to the words and left the new nodes. -/
structure ReadsTo (s : State) (ids : List Nat) (words : List Word) (s' : State) : Prop where
  reads : Reads s ids s'
  faces : s'.Faces words

variable {s s' s₁ s₂ : State} {word : Word} {words more : List Word} {ids nodes : List Nat}

namespace State.Faces

theorem kind_eq (h : s.Faces (word :: words)) : s.kind = word.kind := h.spells.1.kind_eq

theorem text_eq (h : s.Faces (word :: words)) : s.scanner.tokenText = String.ofList word.chars :=
  h.spells.1.text_eq

theorem afterBlank_eq (h : s.Faces (word :: words)) : (afterBlank s).1 = word.blank :=
  h.spells.1.blank_eq

theorem afterLineBreak_eq (h : s.Faces (word :: words)) : (afterLineBreak s).1 = false :=
  h.spells.1.line_eq

theorem isAt_eq (h : s.Faces (word :: words)) (k : Kind) : (isAt k s).1 = (word.kind == k) := by
  show (s.kind == k) = _
  rw [h.kind_eq]

theorem isName_eq (h : s.Faces (word :: words)) : (isName s).1 = word.kind.isName := by
  show s.kind.isName = _
  rw [h.kind_eq]

theorem isOneOf_eq (h : s.Faces (word :: words)) (texts : List String) :
    (isOneOf texts s).1 = (word.kind == .identifier && texts.contains (String.ofList word.chars)) := by
  rw [Grammar.isOneOf_eq, h.kind_eq, h.text_eq]

theorem isWord_eq (h : s.Faces (word :: words)) (text : String) :
    (isWord text s).1 = (word.kind == .identifier && String.ofList word.chars == text) := by
  rw [Grammar.isWord_eq, h.kind_eq, h.text_eq]

/-- Whatever has been read, the words ahead may be known. -/
theorem after (h : s.Faces words) (hread : Reads s ids s') (hspells : s'.scanner.Spells more)
    (hclean : more ≠ [] → s'.diagnostics = #[]) : s'.Faces more where
  settled := hread.settled
  bytes_eq := by rw [hread.grows.bytes_eq, hread.keeps.bytes_eq, h.bytes_eq]
  spells := hspells
  clean := hclean

theorem advanced (h : s.Faces (word :: words)) : s.advanced.Faces words :=
  h.after (.advance h.settled) h.spells.2 fun _ => h.clean nofun

theorem deeper (h : s.Faces words) : s.deeper.Faces words :=
  ⟨h.settled, h.bytes_eq, h.spells, h.clean⟩

theorem under (h : s.Faces words) (context : Context) : (s.under context).Faces words :=
  ⟨h.settled, h.bytes_eq, h.spells, h.clean⟩

end State.Faces

namespace ReadsTo

theorem stay (h : s.Faces words) : ReadsTo s [] words s := ⟨.stay h.settled, h⟩

theorem append (h : ReadsTo s ids more s₁) (h' : ReadsTo s₁ nodes words s₂) :
    ReadsTo s (ids ++ nodes) words s₂ :=
  ⟨h.reads.append h'.reads, h'.faces⟩

/-- What follows makes no node. -/
theorem skip (h : ReadsTo s ids more s₁) (h' : ReadsTo s₁ [] words s₂) :
    ReadsTo s ids words s₂ :=
  ⟨h.reads.skip h'.reads, h'.faces⟩

theorem continues (h : ReadsTo s ids words s') : s.tree.Continues s'.tree :=
  h.reads.grows.continues

theorem depth_eq (h : ReadsTo s ids words s') : s'.depth = s.depth := h.reads.keeps.depth_eq

end ReadsTo

/-! ## Section 3: Steps -/

theorem advance_faces (h : s.Faces (word :: words)) (hk : word.kind ≠ .endOfFile) :
    Ensures advance s fun _ s' => ReadsTo s [] words s' ∧ s.offset < s'.offset := by
  have hk' : s.kind ≠ .endOfFile := by
    rw [h.kind_eq]
    exact hk
  exact ⟨⟨⟨.advance h.settled, h.advanced⟩, h.settled.offset_lt hk'⟩⟩

/-- A token of the kind is there. -/
theorem accept_here (h : s.Faces (word :: words)) {k : Kind} (hkind : word.kind = k)
    (hk : k ≠ .endOfFile) :
    Ensures (accept k) s fun found s' =>
      found = true ∧ ReadsTo s [] words s' ∧ s.offset < s'.offset := by
  unfold accept
  refine .peek (.ite (fun _ => ?_) fun hnot => absurd ?_ hnot)
  · exact (advance_faces h (hkind ▸ hk)).bind fun _ s' h' => .pure ⟨rfl, h'⟩
  · rw [h.isAt_eq, hkind, beq_self_eq_true]

/-- A token of another kind is there. -/
theorem accept_other (h : s.Faces (word :: words)) {k : Kind} (hkind : word.kind ≠ k) :
    Ensures (accept k) s fun found s' => found = false ∧ s' = s := by
  unfold accept
  refine .peek (.ite (fun hat => ?_) fun _ => .pure ⟨rfl, rfl⟩)
  rw [h.isAt_eq] at hat
  exact absurd (eq_of_beq hat) hkind

theorem expect_here (h : s.Faces (word :: words)) {k : Kind} (hkind : word.kind = k)
    (hk : k ≠ .endOfFile) (what : String) :
    Ensures (expect k what) s fun found s' =>
      found = true ∧ ReadsTo s [] words s' ∧ s.offset < s'.offset := by
  unfold expect
  refine (accept_here h hkind hk).bind fun found s₁ h₁ => ?_
  obtain ⟨rfl, hread⟩ := h₁
  exact .pure ⟨rfl, hread⟩

theorem closeList_here (h : s.Faces (word :: words)) {k : Kind} (hkind : word.kind = k)
    (hk : k ≠ .endOfFile) (opener : Kind) (what : String) :
    Ensures (closeList opener k what) s fun _ s' => ReadsTo s [] words s' := by
  unfold closeList
  refine .peek (.ite (fun _ => ?_) fun hnot => absurd ?_ hnot)
  · exact (accept_here h hkind hk).bind fun _ s₁ h₁ => .pure h₁.2.1
  · rw [h.isAt_eq, hkind, beq_self_eq_true]

/-- A token is read as an identifier with its text. -/
theorem name_identifies (h : s.Faces (word :: words)) (hk : word.kind ≠ .endOfFile) :
    Ensures name s fun id s' => ReadsTo s [id] words s' ∧ s.offset < s'.offset ∧
      s'.tree.Identifies word.kind (String.ofList word.chars) id := by
  have hk' : s.kind ≠ .endOfFile := by
    rw [h.kind_eq]
    exact hk
  have hname : Ensures name s fun id s' => Reads s [id] s' ∧ s'.scanner = s.advanced.scanner ∧
      s'.diagnostics = s.diagnostics ∧ id = s.tree.nextId ∧
      s'.tree = s.tree.add (.identifier s.kind) s.offset s.scanner.token.stop :=
    ⟨⟨.name h.settled, rfl, rfl, rfl, rfl⟩⟩
  refine hname.mono fun id s' h' => ?_
  obtain ⟨hread, hscanner, hdiagnostics, rfl, htree⟩ := h'
  refine ⟨⟨hread, h.after hread ?_ fun _ => ?_⟩, ?_, ?_⟩
  · rw [hscanner]
    exact h.spells.2
  · rw [hdiagnostics]
    exact h.clean nofun
  · rw [State.offset, State.offset, hscanner]
    exact h.settled.offset_lt hk'
  · rw [htree, ← h.text_eq, Scanner.tokenText, ← h.bytes_eq, ← h.kind_eq]
    exact ⟨Tree.formed_add _ _ _ _, Tree.spelled_add _ _ h.settled.token_le⟩

theorem name_faces (h : s.Faces (word :: words)) (hk : word.kind ≠ .endOfFile) :
    Ensures name s fun id s' => ReadsTo s [id] words s' ∧ s.offset < s'.offset ∧
      s'.tree.Spelled (String.ofList word.chars) id :=
  (name_identifies h hk).mono fun _ _ h' => ⟨h'.1, h'.2.1, h'.2.2.2⟩

theorem ne_end_of_name (hname : word.kind.isName = true) : word.kind ≠ .endOfFile := by
  intro heq
  rw [heq] at hname
  cases hname

theorem nameOr_identifies (h : s.Faces (word :: words)) (hname : word.kind.isName = true)
    (what : String) :
    Ensures (nameOr what) s fun id s' => ReadsTo s [id] words s' ∧ s.offset < s'.offset ∧
      s'.tree.Identifies word.kind (String.ofList word.chars) id := by
  unfold nameOr
  refine .peek (.ite (fun _ => name_identifies h (ne_end_of_name hname)) fun hnot => absurd ?_ hnot)
  rw [h.isName_eq]
  exact hname

theorem nameOr_faces (h : s.Faces (word :: words)) (hname : word.kind.isName = true)
    (what : String) :
    Ensures (nameOr what) s fun id s' => ReadsTo s [id] words s' ∧ s.offset < s'.offset ∧
      s'.tree.Spelled (String.ofList word.chars) id :=
  (nameOr_identifies h hname what).mono fun _ _ h' => ⟨h'.1, h'.2.1, h'.2.2.2⟩

theorem name?_none (h : s.Faces (word :: words)) (hword : word.kind.isName = false) :
    Ensures name? s fun id s' => id = none ∧ s' = s := by
  unfold name?
  refine .peek (.ite (fun hname => ?_) fun _ => .pure ⟨rfl, rfl⟩)
  rw [h.isName_eq, hword] at hname
  cases hname

theorem name?_identifies (h : s.Faces (word :: words)) (hname : word.kind.isName = true) :
    Ensures name? s fun r s' => ∃ id, r = some id ∧ ReadsTo s [id] words s' ∧
      s'.tree.Identifies word.kind (String.ofList word.chars) id := by
  unfold name?
  refine .peek (.ite (fun _ => .map ?_) fun hnot => absurd ?_ hnot)
  · refine (name_identifies h (ne_end_of_name hname)).mono fun id s₁ h₁ => ?_
    exact ⟨id, rfl, h₁.1, h₁.2.2⟩
  · rw [h.isName_eq]
    exact hname

/-- Nothing is skipped where no attribute stands. -/
theorem skipAttributes_none (h : s.Faces (word :: words)) (hword : word.kind ≠ .atSign) :
    Ensures skipAttributes s fun _ s' => s' = s := by
  have hnone : Ensures (isAt .atSign) s fun found s' => found = false ∧ s' = s :=
    .look ⟨by rw [h.isAt_eq, beq_eq_false_iff_ne.mpr hword], rfl⟩
  exact repeatWhile_none h.settled hnone

/-- Nothing is skipped where no effect stands. -/
theorem skipEffects_none (h : s.Faces (word :: words))
    (hword : word.kind ≠ .identifier ∧ word.kind ≠ .throwsKeyword ∧ word.kind ≠ .rethrowsKeyword) :
    Ensures skipEffects s fun _ s' => s' = s := by
  unfold skipEffects
  refine loop_ensures (I := fun _ s' => s' = s) h.settled rfl ?_
  rintro _ s₁ rfl -
  refine .peek (.ite (fun hat => ?_) fun _ => .peek (.ite (fun hat => ?_) fun _ => .peek
    (.ite (fun hat => ?_) fun _ => .pure rfl)))
  · rw [h.isOneOf_eq, Bool.and_eq_true, beq_iff_eq] at hat
    exact absurd hat.1 hword.1
  · rw [h.isAt_eq, beq_iff_eq] at hat
    exact absurd hat hword.2.1
  · rw [h.isAt_eq, beq_iff_eq] at hat
    exact absurd hat hword.2.2

/-- A node of the form has been made of what was read from `s` on, and the
    words are ahead.  The tree is the one without the node. -/
structure Makes (s : State) (t : Tree) (form : Form) (words : List Word) (id : Nat) (s' : State) :
    Prop where
  readsTo : ReadsTo s [id] words s'
  continues : t.Continues s'.tree
  formed : s'.tree.Formed form id
  lt : ∀ child ∈ form.children, child < id

theorem finish_faces (form : Form) (h : ReadsTo s ids words s') (hchildren : form.children = ids)
    (hfits : s'.tree.Fits form) :
    Ensures (finish form s.offset) s' (Makes s s'.tree form words) := by
  have hread := (finish_reads h.reads hchildren hfits).holds
  have hfaces := h.faces
  refine ⟨⟨hread, ⟨hfaces.settled, hfaces.bytes_eq, hfaces.spells, hfaces.clean⟩⟩, ?_, ?_, ?_⟩
  · exact .add s'.tree form _ _
  · exact Tree.formed_add s'.tree form _ _
  · intro child hmem
    rw [hchildren] at hmem
    exact (h.reads.grows.new hmem).2

/-- A node that is made in a round of a repetition, which has moved on. -/
theorem finish_round (form : Form) (h : ReadsTo s ids words s₂) (hmoved : Moved s₁ s₂)
    (hchildren : form.children = ids) (hfits : s₂.tree.Fits form) :
    Ensures (finish form s.offset) s₂ fun id s₃ =>
      Makes s s₂.tree form words id s₃ ∧ Moved s₁ s₃ :=
  ⟨⟨(finish_faces form h hchildren hfits).holds,
    (finish_step h.reads hmoved hchildren hfits).holds.2⟩⟩

/-- Below the limit, reading one level deeper is reading. -/
theorem guarded_ensures {α : Type} {otherwise body : Parse α} {Q : α → State → Prop}
    (hdepth : s.depth < maxDepth) (hbody : Ensures body s.deeper fun r s' => Q r s'.shallower) :
    Ensures (guarded otherwise body) s Q := by
  exact guarded_cases (fun hdeep => absurd hdepth (Nat.not_lt.mpr hdeep)) fun _ => hbody

/-- Reading one level deeper. -/
theorem guarded_faces {α : Type} {otherwise body : Parse α} (nodes : α → List Nat)
    (shows : α → Tree → Prop) (hdepth : s.depth < maxDepth)
    (hbody : Ensures body s.deeper fun r s' =>
      ReadsTo s.deeper (nodes r) words s' ∧ shows r s'.tree) :
    Ensures (guarded otherwise body) s fun r s' => ReadsTo s (nodes r) words s' ∧ shows r s'.tree := by
  refine guarded_ensures hdepth (hbody.mono fun r s' h' => ?_)
  obtain ⟨⟨hread, hfaces⟩, hshows⟩ := h'
  refine ⟨⟨.deeper hdepth hread, ?_⟩, hshows⟩
  exact ⟨hfaces.settled, hfaces.bytes_eq, hfaces.spells, hfaces.clean⟩

/-- Reading one level deeper what turns out to be there. -/
theorem guarded_some {otherwise body : Parse (Option Nat)} (shows : Tree → Nat → Prop)
    (hdepth : s.depth < maxDepth)
    (hbody : Ensures body s.deeper fun r s' =>
      ∃ id, r = some id ∧ ReadsTo s.deeper [id] words s' ∧ shows s'.tree id) :
    Ensures (guarded otherwise body) s fun r s' =>
      ∃ id, r = some id ∧ ReadsTo s [id] words s' ∧ shows s'.tree id := by
  have hguarded : Ensures (guarded otherwise body) s fun r s' =>
      ReadsTo s (Option.toList r) words s' ∧ ∃ id, r = some id ∧ shows s'.tree id := by
    refine guarded_faces Option.toList (fun r t => ∃ id, r = some id ∧ shows t id) hdepth ?_
    refine hbody.mono fun r s' h' => ?_
    obtain ⟨id, rfl, hread, hshows⟩ := h'
    exact ⟨hread, id, rfl, hshows⟩
  refine hguarded.mono fun r s' h' => ?_
  obtain ⟨hread, id, rfl, hshows⟩ := h'
  exact ⟨id, rfl, hread, hshows⟩

/-- Reading in another context. -/
theorem within_faces {α : Type} {body : Parse α} (nodes : α → List Nat) (shows : α → Tree → Prop)
    (change : Context → Context)
    (hbody : Ensures body (s.under (change s.context)) fun r s' =>
      ReadsTo (s.under (change s.context)) (nodes r) words s' ∧ shows r s'.tree) :
    Ensures (within change body) s fun r s' => ReadsTo s (nodes r) words s' ∧ shows r s'.tree := by
  obtain ⟨⟨hread, hfaces⟩, hshows⟩ := hbody.holds
  refine ⟨⟨⟨.under _ hread, ?_⟩, hshows⟩⟩
  exact ⟨hfaces.settled, hfaces.bytes_eq, hfaces.spells, hfaces.clean⟩

/-! ## Section 4: Lists -/

/-- The words of several things with commas between them. -/
def commaWords {α : Type} (wordsOf : α → Bool → List Word) : List α → (blank : Bool) → List Word
  | [], _ => []
  | [x], blank => wordsOf x blank
  | x :: next :: xs, blank =>
    wordsOf x blank ++ ⟨.comma, [','], false⟩ :: commaWords wordsOf (next :: xs) true

/-- What follows the first of several things. -/
def commaTail {α : Type} (wordsOf : α → Bool → List Word) : List α → List Word
  | [] => []
  | x :: xs => ⟨.comma, [','], false⟩ :: commaWords wordsOf (x :: xs) true

theorem commaWords_cons {α : Type} (wordsOf : α → Bool → List Word) (x : α) (xs : List α)
    (blank : Bool) : commaWords wordsOf (x :: xs) blank = wordsOf x blank ++ commaTail wordsOf xs := by
  cases xs with
  | nil => exact (List.append_nil _).symm
  | cons y xs => rfl

/-- The words are those of the things, and commas. -/
theorem mem_commaWords {α : Type} {wordsOf : α → Bool → List Word} {xs : List α} {blank : Bool}
    (h : word ∈ commaWords wordsOf xs blank) :
    word.kind = .comma ∨ ∃ x ∈ xs, ∃ blank, word ∈ wordsOf x blank := by
  induction xs generalizing blank with
  | nil => cases h
  | cons x xs ih =>
    rw [commaWords_cons, List.mem_append] at h
    rcases h with h | h
    · exact .inr ⟨x, List.mem_cons_self, blank, h⟩
    · cases xs with
      | nil => cases h
      | cons y xs =>
        rcases List.mem_cons.mp h with rfl | h
        · exact .inl rfl
        · rcases ih h with hcomma | ⟨x', hmem, hword⟩
          · exact .inl hcomma
          · exact .inr ⟨x', List.mem_cons_of_mem _ hmem, hword⟩

/-- Commas keep things apart that are legible before any soft character. -/
theorem legible_commaWords {α : Type} {wordsOf : α → Bool → List Word} {xs : List α} {blank : Bool}
    {ws : List Word} {rest : List Char}
    (hitem : ∀ x ∈ xs, ∀ blank ws, Token.Legible ws rest →
      (Token.spellOut ws rest).head?.all TypeSyntax.isSoft = true →
      Token.Legible (wordsOf x blank ++ ws) rest)
    (hws : Token.Legible ws rest)
    (hsoft : (Token.spellOut ws rest).head?.all TypeSyntax.isSoft = true) :
    Token.Legible (commaWords wordsOf xs blank ++ ws) rest := by
  induction xs generalizing blank with
  | nil => exact hws
  | cons x xs ih =>
    have hothers : Token.Legible (commaWords wordsOf xs true ++ ws) rest :=
      ih fun y hmem => hitem y (List.mem_cons_of_mem _ hmem)
    cases xs with
    | nil => exact hitem x List.mem_cons_self blank ws hws hsoft
    | cons y xs =>
      rw [commaWords, List.append_assoc]
      refine hitem x List.mem_cons_self blank _ ?_ rfl
      exact TypeSyntax.legible_punctuation (by rfl) hothers

/-- The words start with one of a kind that passes the test. -/
def StartWith (test : Kind → Bool) (words : List Word) : Prop :=
  ∃ word more, words = word :: more ∧ test word.kind = true

theorem StartWith.cons {test : Kind → Bool} (h : test word.kind = true) :
    StartWith test (word :: words) := ⟨word, words, rfl, h⟩

section lists

variable {α : Type} {wordsOf : α → Bool → List Word} {shows : α → Tree → Nat → Prop}
  {xs after : List α} {x : α} {id : Nat}

/-- Some of the things have their nodes, and the others are ahead with the
    closing words after them. -/
def Listed (wordsOf : α → Bool → List Word) (shows : α → Tree → Nat → Prop) (xs : List α)
    (closing : List Word) (s : State) (after : List α) (ids : List Nat) (s₁ : State) : Prop :=
  ∃ before blank, xs = before ++ after ∧ ReadsTo s ids (commaWords wordsOf after blank ++ closing) s₁ ∧
    List.Forall₂ (fun x id => shows x s₁.tree id) before ids

/-- All of the things have their nodes, and the closing words are ahead. -/
def ListedAll (shows : α → Tree → Nat → Prop) (xs : List α) (closing : List Word) (s : State)
    (ids : List Nat) (s₁ : State) : Prop :=
  ReadsTo s ids closing s₁ ∧ List.Forall₂ (fun x id => shows x s₁.tree id) xs ids

theorem Listed.start {blank : Bool} {closing : List Word}
    (h : s.Faces (commaWords wordsOf xs blank ++ closing)) :
    Listed wordsOf shows xs closing s xs [] s :=
  ⟨[], blank, rfl, .stay h, .nil⟩

theorem Listed.all {closing : List Word} (h : Listed wordsOf shows xs closing s [] ids s₁) :
    ListedAll shows xs closing s ids s₁ := by
  obtain ⟨before, blank, rfl, hread, hbefore⟩ := h
  rw [List.append_nil]
  exact ⟨hread, hbefore⟩

theorem Listed.mem {closing : List Word}
    (h : Listed wordsOf shows xs closing s (x :: after) ids s₁) : x ∈ xs := by
  obtain ⟨before, blank, rfl, -⟩ := h
  simp

/-- The first of the things ahead is before the others. -/
theorem Listed.next {closing : List Word}
    (h : Listed wordsOf shows xs closing s (x :: after) ids s₁) :
    ∃ blank, ReadsTo s ids (wordsOf x blank ++ (commaTail wordsOf after ++ closing)) s₁ := by
  obtain ⟨before, blank, -, hread, -⟩ := h
  rw [commaWords_cons, List.append_assoc] at hread
  exact ⟨blank, hread⟩

/-- What follows an item is a comma before the next one, or the closing token. -/
theorem startWith_commaTail {closer : Kind} (hword : word.kind = closer) (after : List α) :
    StartWith (fun k => k == .comma || k == closer) (commaTail wordsOf after ++ word :: words) := by
  cases after with
  | nil => exact .cons (by simp [hword])
  | cons y after => exact .cons (by simp)

/-- After an item, a comma is there just if another item is.  What is said
    of the node of an item has to stay true. -/
theorem accept_listed (shows : α → Tree → Nat → Prop)
    (hshows : ∀ {x t t' id}, shows x t id → Tree.Continues t t' → shows x t' id)
    (h : Listed wordsOf shows xs (word :: words) s (x :: after) ids s₁)
    (hread : ReadsTo s₁ [id] (commaTail wordsOf after ++ word :: words) s₂)
    (hid : shows x s₂.tree id) (hword : word.kind ≠ .comma) :
    Ensures (accept .comma) s₂ fun found s₃ =>
      (found = true → after ≠ [] ∧ Moved s₁ s₃ ∧
        Listed wordsOf shows xs (word :: words) s after (ids ++ [id]) s₃) ∧
      (found = false → ListedAll shows xs (word :: words) s (ids ++ [id]) s₃) := by
  obtain ⟨before, blank, rfl, h₁, hbefore⟩ := h
  have hdone : List.Forall₂ (fun x id => shows x s₂.tree id) (before ++ [x]) (ids ++ [id]) := by
    refine List.rel_append ?_ (.cons hid .nil)
    exact hbefore.imp fun _ _ hshow => hshows hshow hread.continues
  -- A comma stands behind the element exactly when another one follows.
  cases after with
  | nil =>
    have hclose : ReadsTo s₁ [id] (word :: words) s₂ := hread
    refine (accept_other hclose.faces hword).mono fun found s₃ h₃ => ?_
    obtain ⟨rfl, rfl⟩ := h₃
    exact ⟨fun hfound => absurd hfound Bool.false_ne_true, fun _ => ⟨h₁.append hclose, hdone⟩⟩
  | cons y after =>
    have hcomma : ReadsTo s₁ [id] (⟨.comma, [','], false⟩ ::
        (commaWords wordsOf (y :: after) true ++ word :: words)) s₂ := hread
    refine (accept_here hcomma.faces rfl (by decide)).mono fun found s₃ h₃ => ?_
    obtain ⟨rfl, hskip, hlt⟩ := h₃
    refine ⟨fun _ => ⟨nofun, ?_, before ++ [x], true, by simp, ?_, ?_⟩, nofun⟩
    · exact (hcomma.reads.skip hskip.reads).moved (Nat.lt_of_le_of_lt hcomma.reads.offset_le hlt)
    · exact (h₁.append hcomma).skip hskip
    · exact hdone.imp fun _ _ hshow => hshows hshow hskip.continues

/-- Items between commas are read one by one, up to the closing token. -/
theorem separatedUntil_faces {item : Parse Nat} {blank : Bool} (closer : Kind)
    (shows : α → Tree → Nat → Prop) (hcloser : closer ≠ .comma)
    (hshows : ∀ {x t t' id}, shows x t id → Tree.Continues t t' → shows x t' id)
    (hfirst : ∀ x ∈ xs, ∀ blank, StartWith (fun k => k != closer && k != .endOfFile)
      (wordsOf x blank))
    (hitem : ∀ x ∈ xs, ∀ blank words ids s₁, ReadsTo s ids (wordsOf x blank ++ words) s₁ →
      StartWith (fun k => k == .comma || k == closer) words →
      Ensures item s₁ fun id s₂ => ReadsTo s₁ [id] words s₂ ∧ shows x s₂.tree id)
    (h : s.Faces (commaWords wordsOf xs blank ++ word :: words)) (hword : word.kind = closer) :
    Ensures (separatedUntil closer do return [← item]) s
      (ListedAll shows xs (word :: words) s) := by
  unfold separatedUntil
  refine loop_ensures
    (I := fun ids s₁ => ∃ after, Listed wordsOf shows xs (word :: words) s after ids s₁)
    h.settled ⟨xs, .start h⟩ ?_
  rintro ids s₁ ⟨after, h₁⟩ -
  refine .peek (.peek ?_)
  cases after with
  | nil =>
    -- There are no items at all.
    have hat : (isAt closer s₁).1 = true := by rw [h₁.all.1.faces.isAt_eq, hword, beq_self_eq_true]
    refine .ite (fun _ => .pure h₁.all) fun hnot => absurd ?_ hnot
    rw [hat, Bool.true_or]
  | cons x after =>
    obtain ⟨blank, hread⟩ := h₁.next
    obtain ⟨first, rest, hwords, htest⟩ := hfirst x h₁.mem blank
    simp only [Bool.and_eq_true, bne_iff_ne] at htest
    have hgoes : ¬ ((isAt closer s₁).1 || (atEnd s₁).1) = true := by
      have hkind := hread.faces
      rw [hwords, List.cons_append] at hkind
      rw [hkind.isAt_eq, atEnd, hkind.isAt_eq, Bool.or_eq_true, beq_iff_eq, beq_iff_eq]
      exact not_or.mpr htest
    refine .ite (fun hstop => absurd hstop hgoes) fun _ => ?_
    have hone : Ensures (do return [← item]) s₁ fun more s₂ => ∃ id, more = [id] ∧
        ReadsTo s₁ [id] (commaTail wordsOf after ++ word :: words) s₂ ∧ shows x s₂.tree id :=
      (hitem x h₁.mem blank _ ids s₁ hread (startWith_commaTail hword after)).bind
        fun id s₂ h₂ => .pure ⟨id, rfl, h₂⟩
    refine hone.bind fun more s₂ h₂ => ?_
    obtain ⟨id, rfl, hitem, hid⟩ := h₂
    refine (accept_listed shows hshows h₁ hitem hid (hword ▸ hcloser)).bind fun found s₃ h₃ => ?_
    refine .ite (fun hfound => .pure ?_) fun hnot => .pure (h₃.2 (eq_false_of_ne_true hnot))
    exact ⟨⟨after, (h₃.1 hfound).2.2⟩, (h₃.1 hfound).2.1⟩

/-- So are items that might not be there, with the closing token. -/
theorem enclosed?_faces {item : Parse (Option Nat)} {blank : Bool} (closer : Kind)
    (shows : α → Tree → Nat → Prop) (hcloser : closer ≠ .comma ∧ closer ≠ .endOfFile)
    (hshows : ∀ {x t t' id}, shows x t id → Tree.Continues t t' → shows x t' id)
    (hfirst : ∀ x ∈ xs, ∀ blank, StartWith (fun k => k != closer) (wordsOf x blank))
    (hitem : ∀ x ∈ xs, ∀ blank words ids s₁, ReadsTo s ids (wordsOf x blank ++ words) s₁ →
      StartWith (fun k => k == .comma || k == closer) words →
      Ensures item s₁ fun r s₂ => ∃ id, r = some id ∧ ReadsTo s₁ [id] words s₂ ∧ shows x s₂.tree id)
    (h : s.Faces (commaWords wordsOf xs blank ++ word :: words)) (hword : word.kind = closer) :
    Ensures (enclosed? closer item) s fun r s' =>
      ∃ ids, r = some ids ∧ ListedAll shows xs words s ids s' := by
  unfold enclosed?
  refine (loop_ensures
    (I := fun nodes s₁ => ∃ ids after, nodes = some ids ∧
      Listed wordsOf shows xs (word :: words) s after ids s₁)
    (R := fun nodes s₁ => ∃ ids, nodes = some ids ∧ ListedAll shows xs (word :: words) s ids s₁)
    h.settled ⟨[], xs, rfl, .start h⟩ ?_).bind fun nodes s₁ h₁ => ?_
  · -- One round, at the closer or at a further element; the comma behind the element decides whether
    -- there is another round.
    rintro nodes s₁ ⟨ids, after, rfl, h₁⟩ -
    cases after with
    | nil =>
      refine .peek (.ite (fun _ => .pure ⟨ids, rfl, h₁.all⟩) fun hnot => absurd ?_ hnot)
      rw [h₁.all.1.faces.isAt_eq, hword, beq_self_eq_true]
    | cons x after =>
      obtain ⟨blank, hread⟩ := h₁.next
      obtain ⟨first, rest, hwords, htest⟩ := hfirst x h₁.mem blank
      refine .peek (.ite (fun hat => ?_) fun _ => ?_)
      · have hkind := hread.faces
        rw [hwords, List.cons_append] at hkind
        rw [hkind.isAt_eq] at hat
        exact absurd (eq_of_beq hat) (bne_iff_ne.mp htest)
      · refine (hitem x h₁.mem blank _ ids s₁ hread (startWith_commaTail hword after)).bind
          fun r s₂ h₂ => ?_
        obtain ⟨id, rfl, hitem, hid⟩ := h₂
        refine (accept_listed shows hshows h₁ hitem hid (hword ▸ hcloser.1)).bind fun found s₃ h₃ => ?_
        refine .ite (fun hfound => .pure ?_) fun hnot => .pure ?_
        · exact ⟨⟨ids ++ [id], after, rfl, (h₃.1 hfound).2.2⟩, (h₃.1 hfound).2.1⟩
        · exact ⟨ids ++ [id], rfl, h₃.2 (eq_false_of_ne_true hnot)⟩
  · obtain ⟨ids, rfl, hread, hall⟩ := h₁
    refine (accept_here hread.faces hword hcloser.2).bind fun found s₂ h₂ => ?_
    obtain ⟨rfl, hclose, -⟩ := h₂
    refine .pure ⟨ids, rfl, hread.skip hclose, ?_⟩
    exact hall.imp fun _ _ hshow => hshows hshow hclose.continues

end lists

/-- The words of several things in a row, all but the first after a blank. -/
def rowWords {α : Type} (wordsOf : α → Bool → List Word) : List α → (blank : Bool) → List Word
  | [], _ => []
  | x :: xs, blank => wordsOf x blank ++ rowWords wordsOf xs true

/-- Items in a row are read one by one, as long as the test finds one. -/
theorem gatherWhile_faces {α : Type} {wordsOf : α → Bool → List Word} {test : Parse Bool}
    {item : Parse Nat} {xs : List α} {blank : Bool} (shows : α → Tree → Nat → Prop)
    (hshows : ∀ {x t t' id}, shows x t id → Tree.Continues t t' → shows x t' id)
    (hitem : ∀ x ∈ xs, ∀ blank after ids s₁,
      ReadsTo s ids (wordsOf x blank ++ (rowWords wordsOf after true ++ words)) s₁ →
      Ensures test s₁ fun found s₂ => found = true ∧ Ensures item s₂ fun id s₃ =>
        ReadsTo s₁ [id] (rowWords wordsOf after true ++ words) s₃ ∧ s₁.offset < s₃.offset ∧
          shows x s₃.tree id)
    (hend : ∀ s₁, s₁.Faces words → Ensures test s₁ fun found s₂ => found = false ∧ s₂ = s₁)
    (h : s.Faces (rowWords wordsOf xs blank ++ words)) :
    Ensures (gatherWhile test do return [← item]) s fun ids s' =>
      ReadsTo s ids words s' ∧ List.Forall₂ (fun x id => shows x s'.tree id) xs ids := by
  unfold gatherWhile
  -- The invariant splits the elements into those already read and those the row still spells.
  refine loop_ensures
    (I := fun ids s₁ => ∃ before after blank, xs = before ++ after ∧
      ReadsTo s ids (rowWords wordsOf after blank ++ words) s₁ ∧
      List.Forall₂ (fun x id => shows x s₁.tree id) before ids)
    h.settled ⟨[], xs, blank, rfl, .stay h, .nil⟩ ?_
  rintro ids s₁ ⟨before, after, blank, rfl, h₁, hbefore⟩ -
  cases after with
  | nil =>
    refine (hend s₁ h₁.faces).bind fun found s₂ h₂ => ?_
    obtain ⟨rfl, rfl⟩ := h₂
    rw [List.append_nil]
    exact .pure ⟨h₁, hbefore⟩
  | cons x after =>
    have hmem : x ∈ before ++ x :: after := by simp
    rw [rowWords, List.append_assoc] at h₁
    refine (hitem x hmem blank after ids s₁ h₁).bind fun found s₂ h₂ => ?_
    obtain ⟨rfl, hread⟩ := h₂
    have hone : Ensures (do return [← item]) s₂ fun more s₃ => ∃ id, more = [id] ∧
        ReadsTo s₁ [id] (rowWords wordsOf after true ++ words) s₃ ∧ s₁.offset < s₃.offset ∧
          shows x s₃.tree id :=
      hread.bind fun id s₃ h₃ => .pure ⟨id, rfl, h₃⟩
    refine hone.bind fun more s₃ h₃ => ?_
    obtain ⟨id, rfl, hread, hlt, hid⟩ := h₃
    refine .pure ⟨⟨before ++ [x], after, true, by simp, h₁.append hread, ?_⟩, hread.reads.moved hlt⟩
    refine List.rel_append ?_ (.cons hid .nil)
    exact hbefore.imp fun _ _ hshow => hshows hshow hread.continues

end Grammar
end SelfCapture
