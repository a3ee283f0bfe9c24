import SelfCapture.Proofs.Grammar.CountedDeclarations

/-! # Bodies end with their braces

  Statements, and whole texts.  In a text without diagnostics every closure,
  block and type declaration outside of string literals ends with the
  closing brace that is the partner of its opening brace, by counting the
  braces of the text (`parse_closes_bodies`).

  This takes for granted that what is skipped by line or by bracket is
  balanced by itself.  It need not be: an associated type is skipped with
  the rest of its line, even with the brace that closes the protocol.
-/

set_option synthInstance.maxSize 1000

namespace SelfCapture

namespace Grammar

open Token (Kind)

variable {q : Nat} {nested : Readers} [nested.Count]

/-! ## Section 1: Statements -/

instance : Tidy .any q (controlStatement? nested) := by
  unfold controlStatement?
  have hnone {entry : Entry} : Tidy entry q (pure none : Parse (Option Nat)) := inferInstance
  refine .onKind hnone hnone fun k _ => ?_
  split
  all_goals infer_instance

instance : Tidy .any q (plainStatement nested) := by
  unfold plainStatement
  infer_instance

/-- After the label of a statement there is a colon. -/
theorem atLabelledStatement_finds {s : State} (hs : s.Settled) :
    Ensures atLabelledStatement s fun found s' =>
      s' = s ∧ (found = true → s.advanced.kind = .colon) := by
  unfold atLabelledStatement
  refine nextIs_eq (R := fun found => found = true → s.advanced.kind = .colon) hs ?_
  refine (accept_reads hs.scan .colon).bind fun found s₁ h₁ => .ite (fun hfound => .peek ?_)
    fun _ => .pure ⟨h₁.1, fun hfound => absurd hfound Bool.false_ne_true⟩
  have hcolon := (h₁.2.1 hfound).1
  split
  all_goals exact .pure ⟨h₁.1, fun _ => hcolon⟩

theorem labelledStatement_tidy :
    Tidy .plain q (do
      if ← atLabelledStatement then
        advance
        advance
        controlStatement? nested
      else
        plainStatement nested) where
  tallies s hs hq hk := by
    refine Ensures.holds (Q := fun _ s' => Tallies q s s') ?_
    refine (atLabelledStatement_finds hs.settled).bind fun found s₁ h₁ => ?_
    obtain ⟨rfl, hcolon⟩ := h₁
    have hlabel : Tallies q s₁ s₁.advanced := .advanced hs q hk
    refine .ite (fun hfound => .modify _ (.modify _ ?_)) fun _ => ⟨?_⟩
    · have hplain : s₁.advanced.kind.isBrace = false := by rw [hcolon hfound]
      have hboth := hlabel.trans (.advanced hlabel.steady q hplain)
      have hstatement : Tidy .any q (controlStatement? nested) := inferInstance
      exact ⟨hboth.trans (hstatement.tallies s₁.advanced.advanced hboth.steady
        (Nat.le_trans hq hboth.offset_le) trivial)⟩
    · have hstatement : Tidy .any q (plainStatement nested) := inferInstance
      exact hstatement.tallies s₁ hs hq trivial

instance : Tidy .any q (anyStatement nested) := by
  unfold anyStatement
  have hother : Tidy .any q (do
      match ← controlStatement? nested with
      | some statement => return some statement
      | none => plainStatement nested) := by
    refine .seq inferInstance fun statement => ?_
    cases statement with
    | some statement => infer_instance
    | none => infer_instance
  refine .onExactly .of_any hother fun k hk => ?_
  split
  · exact directive_tidy inferInstance
  · exact .of_plain hk labelledStatement_tidy
  · exact .of_any

instance : Tidy .any q (statement nested) := by
  unfold statement
  infer_instance

/-! ## Section 2: Readers -/

instance : (phrase nested).Count where
  tidy p q hp := by
    cases p with
    | expression => exact inferInstanceAs (Tidy .any q (expression nested))
    | operand => exact inferInstanceAs (Tidy .any q (operand nested))
    | statement => exact inferInstanceAs (Tidy .any q (statement nested))
    | type => exact inferInstanceAs (Tidy .any q (type nested))
    | composition => exact inferInstanceAs (Tidy .any q (compositionType nested))
    | branch => exact absurd rfl hp
  branch q := inferInstanceAs (Tidy .plain q (branchStatement nested))
  ends q := inferInstanceAs (Ends q (type nested))

/-- A node where no further phrase may be opened. -/
theorem cutShort_spoils : Spoils q (do
    exhaust
    let pos ← position
    make .missing pos pos) where
  moves s hs hq := by
    have hcut := Moves.exhausted hs q
    have hmade : Moves q { s with exhausted := true }
        (({ s with exhausted := true } : State).made .missing s.offset s.offset) :=
      .made hcut.steady hq (Nat.le_refl _) (Nat.le_refl _)
    exact ⟨hcut.trans hmade, Or.inr rfl⟩

instance : noReader.Count where
  tidy p q _ := by
    have hnone : Spoils q (do exhaust; return (none : Option Nat)) := inferInstance
    have hmissing : Spoils q _ := cutShort_spoils
    cases p with
    | expression | operand | statement => exact @Tidy.of_spoils _ _ _ hnone
    | type | composition | branch => exact @Tidy.of_spoils _ _ _ hmissing
  branch q := @Tidy.of_any _ _ _ _ (@Tidy.of_spoils _ _ _ cutShort_spoils)
  ends q := @Ends.of_spoils _ _ cutShort_spoils

instance (count : Nat) : (reader count).Count := by
  induction count with
  | zero => exact inferInstanceAs noReader.Count
  | succ count ih => exact inferInstanceAs (phrase (reader count)).Count

/-! ## Section 3: Whole texts -/

theorem State.ofText_steady (text : String) : (State.ofText text).advanced.Steady where
  settled := ofText_settled text
  behind := Nat.zero_le _
  issue h := absurd rfl h
  ended hr := by
    have hlt := Tree.lt_nextId_of_range? hr
    exact absurd hlt (Nat.not_lt_zero _)

/-- At the first token, all tokens of the text are ahead. -/
theorem State.ofText_at {text : String} (h : Token.Kept text.toByteArray (Scanner.tokens text)) :
    (State.ofText text).advanced.At (Scanner.tokens text) [] (Scanner.tokens text) where
  split := rfl
  kept := h
  yields := Scanner.yields_tokens text
  read := nofun

/-- Without trouble, the bodies of a text end with their braces. -/
theorem sourceFile_closes {text : String}
    (hkept : Token.Kept text.toByteArray (Scanner.tokens text)) :
    Ensures sourceFile (State.ofText text) fun _ s' => s'.Troubled ∨
      (s'.tree.Angled (Scanner.tokens text) →
        ∀ id, s'.tree.ClosesBody (Scanner.tokens text) id) := by
  have hs := State.ofText_steady text
  have hread (count : Nat) :
      Ensures (statementsUntil (reader count) (isAt .endOfFile)) (State.ofText text).advanced
        fun _ s' => Tallies 0 (State.ofText text).advanced s' := by
    have htidy : Tidy .any 0 (statementsUntil (reader count) (isAt .endOfFile)) := inferInstance
    exact ⟨htidy.tallies _ hs (Nat.zero_le _) trivial⟩
  unfold sourceFile
  refine .modify _ (.peek ((hread _).bind fun statements s₁ h₁ => ⟨?_⟩))
  refine h₁.closes.imp_right fun hcloses hangled id => ?_
  have htree := Tree.Extends.add s₁.tree (.sourceFile statements) 0 text.toByteArray.size
  by_cases hold : id < s₁.tree.nextId
  · have hbody := hcloses (Or.inr (State.ofText_at hkept)) (htree.angled hangled) id (Nat.zero_le _)
    exact hbody.extends htree hold
  · -- The root is no body.
    intro form r hform hbody hr
    have hr : (s₁.tree.add (.sourceFile statements) 0 text.toByteArray.size).range? id = some r := hr
    have hlt := Tree.lt_nextId_of_range? hr
    rw [Tree.nextId_add] at hlt
    obtain rfl : id = s₁.tree.nextId := by omega
    have hroot := s₁.tree.form?_add (.sourceFile statements) 0 text.toByteArray.size
      s₁.tree.nextId
    rw [if_pos rfl] at hroot
    cases hroot.symm.trans hform
    cases hbody

end Grammar

/-- What is skipped without counting braces is balanced: lines, groups in
    parentheses, and generic parameters, which have no braces. -/
structure BracesKept (text : String) : Prop where
  kept : Token.Kept text.toByteArray (Scanner.tokens text)
  angled : (SourceFile.parse text).tree.Angled (Scanner.tokens text)

instance (text : String) : Decidable (BracesKept text) :=
  decidable_of_iff
    (Token.Kept text.toByteArray (Scanner.tokens text) ∧
      (SourceFile.parse text).tree.Angled (Scanner.tokens text))
    ⟨fun h => ⟨h.1, h.2⟩, fun h => ⟨h.kept, h.angled⟩⟩

/-- In a text without diagnostics, every closure, block and type declaration
    outside of string literals ends with the partner of its opening brace. -/
theorem parse_closes_bodies (text : String) (hclean : (SourceFile.parse text).diagnostics = [])
    (hkept : BracesKept text) (id : Nat) :
    (SourceFile.parse text).tree.ClosesBody (Scanner.tokens text) id := by
  rcases (Grammar.sourceFile_closes hkept.kept).holds with htrouble | hcloses
  · exact absurd htrouble (Grammar.parse_untroubled hclean)
  · exact hcloses hkept.angled id

/-- Imports, attributes and generic parameters are skipped. -/
theorem skipping_keeps_braces :
    (SourceFile.parse "import M\n@x(y) class C<T> \x7b\x7d").diagnostics = [] ∧
      ∀ id, (SourceFile.parse "import M\n@x(y) class C<T> \x7b\x7d").tree.ClosesBody
        (Scanner.tokens "import M\n@x(y) class C<T> \x7b\x7d") id :=
  have hclean : (SourceFile.parse "import M\n@x(y) class C<T> \x7b\x7d").diagnostics = [] := by
    decide +kernel
  ⟨hclean, parse_closes_bodies _ hclean (by decide +kernel)⟩

/-- An associated type takes the brace of its protocol with it, and the
    protocol ends with a brace that closes nothing. -/
theorem associatedtype_swallows_brace :
    (SourceFile.parse "protocol P \x7b associatedtype T \x7d\n\x7d").diagnostics = [] ∧
      ¬ ∀ id, (SourceFile.parse "protocol P \x7b associatedtype T \x7d\n\x7d").tree.ClosesBody
        (Scanner.tokens "protocol P \x7b associatedtype T \x7d\n\x7d") id := by
  have hread : (SourceFile.parse "protocol P \x7b associatedtype T \x7d\n\x7d").diagnostics = [] ∧
      (SourceFile.parse "protocol P \x7b associatedtype T \x7d\n\x7d").tree.form? 1 =
        some (.typeDecl .protocol 0 [] []) ∧
      (SourceFile.parse "protocol P \x7b associatedtype T \x7d\n\x7d").tree.range? 1 =
        some (0, 33) := by decide +kernel
  obtain ⟨hclean, hform, hrange⟩ := hread
  refine ⟨hclean, fun hall => ?_⟩
  have houtside : Tree.OutsideLiterals
      (Scanner.tokens "protocol P \x7b associatedtype T \x7d\n\x7d") 0 :=
    fun token _ _ h => absurd h.1 (Nat.not_lt_zero _)
  obtain ⟨before, brace, rest, close, hsplit, hbrace, -, hclose, hstop⟩ :=
    hall 1 _ _ hform rfl hrange houtside
  -- The partner of the only opening brace comes before the last line.
  have hpartner : ∀ row ∈ (Scanner.tokens
      "protocol P \x7b associatedtype T \x7d\n\x7d").tails,
      Token.startsWith .openBrace row = true → ∀ close ∈ Token.partner? 0 row.tail,
        close.stop ≠ 33 := by decide +kernel
  refine hpartner (brace :: rest) ?_ ?_ close hclose hstop
  · rw [List.mem_tails, hsplit]
    exact List.suffix_append before _
  · simp [Token.startsWith, hbrace]

end SelfCapture
