import SelfCapture.Proofs.Grammar.SourceFile
import SelfCapture.Proofs.Grammar.Wording

/-! # The first statement of a text

  What is known of reading the first statement of a text is known of the
  text: the statement is the first one of the root, and what comes after it
  only adds to what was read, `sourceFile_first`.  A text that consists of
  the words of one statement is that statement, with nothing wrong about
  it, `parse_sole`.
-/

namespace SelfCapture

open Token (Kind Word spellOut Legible)

namespace Grammar

variable {n : Nat} {s : State} {nested : Readers} {ids : List Nat} {words : List Word}

/-! ## Section 1: The start of a text -/

/-- Scanning starts at the first character, unless that is a mark. -/
theorem startOffset_eq {c : Char} {chars : List Char} {w : Window} (h : w.Holds 0 (c :: chars))
    (hlow : c.toNat < 0x80) (hc : c ≠ '#') : Scanner.startOffset w = 0 := by
  have hget := h.get?_eq hlow
  have hmark : Scanner.markLength w = 0 := by
    have hne : c ≠ Char.ofNat 0xEF := by
      rintro rfl
      exact absurd hlow (by decide)
    simp [Scanner.markLength, Window.startsWith, hget, hne]
  simp [Scanner.startOffset, hmark, Window.startsWith, hget, hc]

/-- A scanner at the start of a text that the words spell. -/
theorem holds_ofText {c : Char} {rest chars : List Char} (hlow : c.toNat < 0x80) (hc : c ≠ '#')
    (hchars : spellOut words rest = c :: chars) :
    let s := Scanner.ofText (String.ofList (spellOut words rest))
    s.window.Holds s.pos (spellOut words rest) := by
  intro s
  have hholds : s.window.Holds 0 (spellOut words rest) := Window.holds_text _
  have hpos : s.pos = 0 := startOffset_eq (hchars ▸ hholds) hlow hc
  rw [hpos]
  exact hholds

/-- The words with which a text starts are faced at its start. -/
theorem ofText_faces {c : Char} {rest chars : List Char} (hlow : c.toNat < 0x80) (hc : c ≠ '#')
    (hchars : spellOut words rest = c :: chars) (hwords : Legible words rest) :
    (State.ofText (String.ofList (spellOut words rest))).advanced.Faces words where
  settled := ofText_settled _
  bytes_eq := rfl
  spells := Scanner.scan_spells (holds_ofText hlow hc hchars) rfl hwords
  clean _ := rfl

/-- So are all words of a text, and its end after them. -/
theorem ofText_faces_all {c : Char} {chars : List Char} (hlow : c.toNat < 0x80) (hc : c ≠ '#')
    (hchars : spellOut words [] = c :: chars) (hwords : Legible words []) :
    (State.ofText (String.ofList (spellOut words []))).advanced.Faces
      (words ++ [Scanner.ending]) where
  settled := ofText_settled _
  bytes_eq := rfl
  spells := Scanner.scan_spells_all (holds_ofText hlow hc hchars) rfl hwords
  clean _ := rfl

/-! ## Section 2: The first statement of a list -/

/-- The first entry of a list has been read, and what came after it. -/
def First (s : State) (Q : Option Nat → State → Prop) (ids : List Nat) (s' : State) : Prop :=
  ∃ r s₁ more, ids = Option.toList r ++ more ∧ Reads s (Option.toList r) s₁ ∧ Q r s₁ ∧
    Reads s₁ more s' ∧ (s₁.kind = .endOfFile → more = [] ∧ s' = s₁)

theorem First.reads {Q : Option Nat → State → Prop} {s' : State} (h : First s Q ids s') :
    Reads s ids s' := by
  obtain ⟨r, s₁, more, rfl, hfirst, -, hrest, -⟩ := h
  exact hfirst.append hrest

/-- Semicolons are skipped; without one, nothing is. -/
theorem semicolons_reads (hs : s.Settled) :
    Ensures (repeatWhile (accept .semicolon) (pure ())) s fun _ s' =>
      Reads s [] s' ∧ (s.kind ≠ .semicolon → s' = s) := by
  unfold repeatWhile
  refine loop_ensures (I := fun _ s' => Reads s [] s' ∧ (s.kind ≠ .semicolon → s' = s)) hs
    ⟨.stay hs, fun _ => rfl⟩ ?_
  rintro _ s₁ ⟨h₁, hsame⟩ hs₁
  refine (accept_reads hs₁ .semicolon).bind fun found s₂ h₂ => .ite (fun hfound => ?_) fun hnot => ?_
  · obtain ⟨hkind, rfl⟩ := h₂.2.1 hfound
    refine .pure ⟨⟨h₁.append h₂.1, fun hno => ?_⟩, h₂.1.moved (hs₁.offset_lt ?_)⟩
    · rw [hsame hno] at hkind
      exact absurd hkind hno
    · rw [hkind]
      decide
  · obtain rfl := h₂.2.2 (eq_false_of_ne_true hnot)
    exact .pure ⟨h₁, hsame⟩

/-- The kind of a token with which a statement can start. -/
def startsEntry (kind : Kind) : Bool :=
  kind != .endOfFile && kind != .closeBrace && kind != .semicolon

theorem ne_of_startsEntry (h : startsEntry s.kind = true) :
    s.kind ≠ .endOfFile ∧ s.kind ≠ .closeBrace ∧ s.kind ≠ .semicolon := by
  simp only [startsEntry, Bool.and_eq_true, bne_iff_ne] at h
  exact ⟨h.1.1, h.1.2, h.2⟩

theorem listEntry_first {Q : Option Nat → State → Prop} (hkind : startsEntry s.kind = true)
    (hstatement : Ensures (nested .statement) s fun r s' => Reads s (Option.toList r) s' ∧ Q r s') :
    Ensures (listEntry nested) s fun ids s' => First s Q ids s' ∧ s.offset < s'.offset := by
  obtain ⟨hend, hbrace, -⟩ := ne_of_startsEntry hkind
  unfold listEntry
  refine .peek (.ite (fun hat => absurd (kind_eq_of_isAt hat) hbrace) fun _ => .peek ?_)
  refine hstatement.bind fun r s₁ h₁ => .peek (.peek ?_)
  extract_lets rest
  have hfirst {s₂ : State} (h₂ : Reads s₁ [] s₂) (hsame : s₁.kind = .endOfFile → s₂ = s₁) :
      First s Q (Option.toList r) s₂ :=
    ⟨r, s₁, [], (List.append_nil _).symm, h₁.1, h₁.2, h₂, fun hat => ⟨rfl, hsame hat⟩⟩
  refine .ite (fun hstuck => ?_) fun hfree => .pure ⟨?_, h₁.1.offset_lt_of_free hend hfree⟩
  · have hmore := ne_end_of_stuck hstuck
    refine (reportExpected_reads h₁.1.settled _).bind fun _ s₂ h₂ => ?_
    refine (skipReported_moves h₂ hmore).bind fun _ s₃ h₃ => .pure ⟨?_, ?_⟩
    · exact hfirst h₃.1 fun hat => absurd hat hmore
    · exact Nat.lt_of_le_of_lt h₁.1.offset_le h₃.2
  · exact hfirst (.stay h₁.1.settled) fun _ => rfl

/-- The first statement is the first entry of the list, and the others come after it. -/
theorem statementsUntil_first (hn : nested.Below n) (hs : Ready n s)
    {Q : Option Nat → State → Prop} (hkind : startsEntry s.kind = true)
    (hstatement : Ensures (nested .statement) s fun r s' => Reads s (Option.toList r) s' ∧ Q r s') :
    Ensures (statementsUntil nested (isAt .endOfFile)) s (First s Q) := by
  obtain ⟨hend, hbrace, hsemicolon⟩ := ne_of_startsEntry hkind
  unfold statementsUntil
  -- Invariant: nothing has been read, or the first statement and then anything.
  refine loop_ensures (I := fun ids s₁ => (ids = [] ∧ s₁ = s) ∨ First s Q ids s₁)
    hs.settled (.inl ⟨rfl, rfl⟩) ?_
  rintro ids s₁ (⟨rfl, rfl⟩ | h₁) hs₁
  · refine (semicolons_reads hs₁).bind fun _ s₂ h₂ => ?_
    obtain rfl := h₂.2 hsemicolon
    refine .peek (.ite (fun hat => absurd (kind_eq_of_isAt hat) hend) fun _ => .peek
      (.ite (fun hat => absurd (kind_eq_of_isAt hat) hend) fun _ => ?_))
    refine (listEntry_first hkind hstatement).bind fun more s₃ h₃ => .pure ⟨.inr h₃.1, ?_⟩
    exact h₃.1.reads.moved h₃.2
  · obtain ⟨r, first, more, rfl, hfirst, hQ, hrest, hlast⟩ := h₁
    refine (semicolons_reads hs₁).bind fun _ s₂ h₂ => ?_
    have hread := hrest.skip h₂.1
    -- If the first statement ends at the end of the text, nothing comes after it.
    have hstay : first.kind = .endOfFile → more = [] ∧ s₂ = first := by
      intro hat
      obtain ⟨rfl, rfl⟩ := hlast hat
      refine ⟨rfl, h₂.2 ?_⟩
      rw [hat]
      decide
    have hdone : First s Q (Option.toList r ++ more) s₂ :=
      ⟨r, first, more, rfl, hfirst, hQ, hread, hstay⟩
    refine .peek (.ite (fun _ => .pure hdone) fun hnot => ?_)
    refine .peek (.ite (fun _ => .pure hdone) fun _ => ?_)
    have hmore : s₂.kind ≠ .endOfFile := kind_ne_of_isAt hnot
    refine (listEntry_moves hn (hs.reads (hfirst.append hread)) hmore).bind fun others s₃ h₃ => ?_
    refine .pure ⟨.inr ⟨r, first, more ++ others, by rw [List.append_assoc], hfirst, hQ,
      hread.append h₃.1, fun hat => ?_⟩, (h₂.1.append h₃.1).moved ?_⟩
    · rw [(hstay hat).2] at hmore
      exact absurd hat hmore
    · exact Nat.lt_of_le_of_lt h₂.1.offset_le h₃.2

/-- There are no statements right before a closing brace. -/
theorem statementsUntil_none {word : Word} (h : s.Faces (word :: words))
    (hword : word.kind = .closeBrace) :
    Ensures (statementsUntil nested (isAt .closeBrace)) s fun ids s' => ids = [] ∧ s' = s := by
  unfold statementsUntil
  refine loop_ensures (I := fun ids s' => ids = [] ∧ s' = s) h.settled ⟨rfl, rfl⟩ ?_
  rintro ids s₁ ⟨rfl, rfl⟩ -
  refine (semicolons_reads h.settled).bind fun _ s₂ h₂ => ?_
  obtain rfl := h₂.2 (by rw [h.kind_eq, hword]; decide)
  refine .peek (.ite (fun _ => .pure ⟨rfl, rfl⟩) fun _ => .peek (.ite (fun _ => .pure ⟨rfl, rfl⟩)
    fun hnot => absurd ?_ hnot))
  rw [h.isAt_eq, hword, beq_self_eq_true]

/-- So braces with nothing between them are empty in every context. -/
theorem noStatements_faces {word : Word} (h : s.Faces (word :: words)) (hword : word.kind = .closeBrace)
    (change : Context → Context) :
    Ensures (within change (statementsUntil nested (isAt .closeBrace))) s fun ids s' =>
      ids = [] ∧ ReadsTo s [] (word :: words) s' := by
  have hfaces := h.under (change s.context)
  refine (within_faces (fun _ => []) (fun ids _ => ids = []) change ?_).mono fun ids s₁ h₁ =>
    ⟨h₁.2, h₁.1⟩
  refine (statementsUntil_none hfaces hword).mono fun ids s₁ h₁ => ?_
  obtain ⟨rfl, rfl⟩ := h₁
  exact ⟨.stay hfaces, rfl⟩

/-! ## Section 3: Whole texts -/

/-- The reader of the statements of a text, in which all nested phrases are read. -/
def statementReader (text : String) : Readers := reader (2 * text.toByteArray.size + 1)

/-- A text is read as its first statement and what comes after it. -/
theorem sourceFile_first (text : String) {Q : Option Nat → State → Prop}
    (hkind : startsEntry (State.ofText text).advanced.kind = true)
    (hstatement : Ensures (statement (statementReader text)) (State.ofText text).advanced
      fun r s' => Reads (State.ofText text).advanced (Option.toList r) s' ∧ Q r s') :
    Ensures sourceFile (State.ofText text) fun root final => ∃ statements s',
      First (State.ofText text).advanced Q statements s' ∧ root = s'.tree.nextId ∧
        final = s'.made (.sourceFile statements) 0 text.toByteArray.size := by
  unfold sourceFile
  refine .modify _ (.peek ?_)
  have hready : Ready ((State.ofText text).advanced.scanner.bytes.size + 1)
      (State.ofText text).advanced := ⟨ofText_settled text, Nat.lt_succ_of_le (Nat.sub_le _ _)⟩
  refine (statementsUntil_first (reader_below _) hready hkind hstatement).bind
    fun statements s' h => ⟨statements, s', h, rfl, rfl⟩

theorem parse_diagnostics_eq (text : String) :
    (SourceFile.parse text).diagnostics =
      sortDiagnostics ((sourceFile (State.ofText text)).2.diagnostics.toList ++
        (sourceFile (State.ofText text)).2.scanner.diagnostics.toList) := rfl

/-- What was recorded stays recorded. -/
theorem Keeps.diagnostics_ne {s s' : State} (h : Keeps s s') (hs : s.diagnostics ≠ #[]) :
    s'.diagnostics ≠ #[] := by
  intro hnone
  have hkept := h.diagnostics
  rw [hnone, List.prefix_nil] at hkept
  exact hs (Array.toList_eq_nil_iff.mp hkept)

/-- What is wrong with the first statement is wrong with the text. -/
theorem parse_reports_first (text : String)
    (hkind : startsEntry (State.ofText text).advanced.kind = true)
    (hstatement : Ensures (statement (statementReader text)) (State.ofText text).advanced
      fun r s' => Reads (State.ofText text).advanced (Option.toList r) s' ∧ s'.diagnostics ≠ #[]) :
    (SourceFile.parse text).diagnostics ≠ [] := by
  obtain ⟨statements, s', ⟨r, s₁, more, -, -, hwrong, hrest, -⟩, -, hfinal⟩ :=
    (sourceFile_first text hkind hstatement).holds
  rw [parse_diagnostics_eq, hfinal]
  intro hnone
  have hempty : s'.diagnostics.toList = [] := by
    have hlist := (List.mergeSort_perm _ _).symm.trans (List.Perm.of_eq hnone)
    exact (List.append_eq_nil_iff.mp (List.Perm.eq_nil hlist)).1
  exact hrest.keeps.diagnostics_ne hwrong (Array.toList_eq_nil_iff.mp hempty)

/-- A text that consists of one statement is that statement.  What is said
    of its node has to hold in later trees too. -/
theorem parse_sole {P : Tree → Nat → Prop} {c : Char} {chars : List Char} (text : String)
    (htext : text = String.ofList (spellOut words [])) (hchars : spellOut words [] = c :: chars)
    (hlow : c.toNat < 0x80) (hc : c ≠ '#') (hwords : Legible words [])
    (hstart : StartWith startsEntry words)
    (hlater : ∀ {t t' id}, P t id → Tree.Continues t t' → P t' id)
    (hstatement : ∀ s, s.depth = 0 → s.context = {} → s.Faces (words ++ [Scanner.ending]) →
      Ensures (statement (statementReader text)) s fun r s' =>
        ∃ id, r = some id ∧ ReadsTo s [id] [Scanner.ending] s' ∧ P s'.tree id) :
    let file := SourceFile.parse text
    file.diagnostics = [] ∧
      ∃ id, file.tree.form? file.root = some (.sourceFile [id]) ∧ id < file.root ∧ P file.tree id := by
  intro file
  have hfaces : (State.ofText text).advanced.Faces (words ++ [Scanner.ending]) := by
    rw [htext]
    exact ofText_faces_all hlow hc hchars hwords
  have hkind : startsEntry (State.ofText text).advanced.kind = true := by
    obtain ⟨first, others, rfl, hfirst⟩ := hstart
    rw [State.Faces.kind_eq hfaces]
    exact hfirst
  -- To the statement as it is read is added that it reads on at all.
  have hfound : Ensures (statement (statementReader text)) (State.ofText text).advanced fun r s₁ =>
      Reads (State.ofText text).advanced (Option.toList r) s₁ ∧ ∃ id, r = some id ∧
        ReadsTo (State.ofText text).advanced [id] [Scanner.ending] s₁ ∧ P s₁.tree id := by
    refine (hstatement _ rfl rfl hfaces).mono fun r s₁ h => ?_
    obtain ⟨id, rfl, hread, hP⟩ := h
    exact ⟨hread.reads, id, rfl, hread, hP⟩
  obtain ⟨statements, s', ⟨r, s₁, more, rfl, -, ⟨id, rfl, hread, hP⟩, -, hlast⟩, hroot, hfinal⟩ :=
    (sourceFile_first _ hkind hfound).holds
  obtain ⟨rfl, rfl⟩ := hlast hread.faces.kind_eq
  -- The root is made last, over the tree with the statement.
  have htree : file.tree = s'.tree.add (.sourceFile [id]) 0 text.toByteArray.size := by
    rw [show file.tree = _ from parse_tree _, hfinal]
    rfl
  have hfile : file.root = s'.tree.nextId := (parse_root _).trans hroot
  refine ⟨?_, id, ?_, ?_, ?_⟩
  · have hown : s'.diagnostics = #[] := hread.faces.clean nofun
    have hscanned : s'.scanner.diagnostics = #[] := hread.faces.spells.1.clean
    rw [show file.diagnostics = _ from parse_diagnostics_eq _, hfinal]
    show sortDiagnostics (s'.diagnostics.toList ++ s'.scanner.diagnostics.toList) = []
    rw [hown, hscanned]
    exact List.mergeSort_nil
  · rw [htree, hfile]
    exact (Tree.form?_add ..).trans (if_pos rfl)
  · rw [hfile]
    exact (hread.reads.grows.new List.mem_cons_self).2
  · rw [htree]
    exact hlater hP (.add _ _ _ _)

end Grammar
end SelfCapture
