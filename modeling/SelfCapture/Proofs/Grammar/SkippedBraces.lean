import SelfCapture.Proofs.Grammar.Tidiness
import SelfCapture.Proofs.Grammar.Consumption

/-! # Braces in what is skipped

  What is skipped by line or by bracket passes over a stretch of tokens
  that can be told in advance: `Passes P q s s'` says that `P` relates the
  row of tokens ahead to the stretch.  A group is the stretch that `group?`
  gives, a line the one that `line` gives, and a `where` clause has no
  braces.

  From this, everything that is skipped keeps braces balanced, except for
  the clauses of generic parameters, which are left to the declarations
  they belong to.
-/

set_option synthInstance.maxSize 1000

namespace SelfCapture.Grammar

open Token (Kind)

variable {q : Nat}

/-! ## Section 1: Passing over tokens -/

/-- The reading makes no node and passes over a stretch of the row ahead. -/
structure Passes (P : List Token → List Token → Prop) (q : Nat) (s s' : State) : Prop where
  moves : Moves q s s'
  nextId_eq : s'.tree.nextId = s.tree.nextId
  passed : s'.Troubled ∨ ∀ {all before row}, s.At all before row →
    s'.Over ∨ ∃ passed rest, row = passed ++ rest ∧ s'.At all (before ++ passed) rest ∧
      P row passed

namespace Passes

variable {P P' : List Token → List Token → Prop} {s s' : State}

/-- At the end of the text nothing is passed over. -/
theorem atEnd (hs : s.Steady) (h : s.kind = .endOfFile) : Passes P q s s :=
  ⟨.refl hs q, rfl, Or.inr fun _ => Or.inl (hs.over_of_kind h)⟩

theorem stay (hs : s.Steady) (h : ∀ row, P row []) : Passes P q s s where
  moves := .refl hs q
  nextId_eq := rfl
  passed := Or.inr fun {all before row} hat => Or.inr ⟨[], row, rfl, by simpa using hat, h row⟩

/-- One token. -/
theorem single (hs : s.Steady) (hk : s.kind ≠ .endOfFile)
    (hP : ∀ rest, s.advanced.scanner.Yields rest →
      P (s.scanner.token :: rest) [s.scanner.token]) : Passes P q s s.advanced where
  moves := .advanced hs q
  nextId_eq := rfl
  passed := Or.inr fun hat => by
    obtain ⟨rest, rfl, hat₁⟩ := hat.advanced hs hk
    exact Or.inr ⟨[s.scanner.token], rest, rfl, hat₁, hP rest hat₁.yields⟩

/-- A token and what is passed over after it. -/
theorem cons (hs : s.Steady) (hk : s.kind ≠ .endOfFile) (h : Passes P' q s.advanced s')
    (hP : ∀ rest passed, s.advanced.kind ≠ .endOfFile → s.advanced.scanner.Yields rest →
      P' rest passed → P (s.scanner.token :: rest) (s.scanner.token :: passed)) :
    Passes P q s s' where
  moves := (Moves.advanced hs q).trans h.moves
  nextId_eq := h.nextId_eq
  passed := h.passed.imp_right fun hpassed => by
    intro all before row hat
    obtain ⟨rest, rfl, hat₁⟩ := hat.advanced hs hk
    by_cases hend : s.advanced.kind = .endOfFile
    · exact Or.inl (h.moves.stillOver ((Moves.advanced hs q).steady.over_of_kind hend))
    rcases hpassed hat₁ with hover | ⟨passed, rest', hrest, hat', hp⟩
    · exact Or.inl hover
    · refine Or.inr ⟨s.scanner.token :: passed, rest', by rw [hrest]; rfl, ?_,
        hP rest passed hend hat₁.yields hp⟩
      simpa using hat'

/-- A stretch that is known to be balanced. -/
theorem tallies {t : Tree} (h : Passes P q s s')
    (hP : ∀ {all before row passed rest}, s.At all before row →
      s'.At all (before ++ passed) rest → t.Angled all → row = passed ++ rest → P row passed →
      Token.Balanced passed) : TalliesIn t q s s' := by
  refine .of_moves h.moves h.nextId_eq (h.passed.imp_right fun hpassed => ?_)
  intro all before row hat hangled
  rcases hpassed hat with hover | ⟨passed, rest, hrow, hat', hp⟩
  · exact Or.inl hover
  · exact Or.inr ⟨passed, rest, hrow, hat', hP hat hat' hangled hrow hp⟩

theorem exhausted (hs : s.Steady) : Passes P q s { s with exhausted := true } :=
  ⟨.exhausted hs q, rfl, Or.inl (Or.inr rfl)⟩

end Passes

/-- One round of skipping either ends it, or takes one token. -/
def SkipsOne {β : Type} (P : β → List Token → List Token → Prop) (q : Nat) (value : β)
    (s : State) : ForInStep β → State → Prop
  | .done _, s' => Passes (P value) q s s'
  | .yield value', s' => s' = s.advanced ∧ s.kind ≠ .endOfFile ∧
    ∀ rest passed, s.advanced.kind ≠ .endOfFile → s.advanced.scanner.Yields rest →
      P value' rest passed → P value (s.scanner.token :: rest) (s.scanner.token :: passed)

theorem loop_passes {β : Type} {P : β → List Token → List Token → Prop} {init : β}
    {step : β → Parse (ForInStep β)} {s : State} (hs : s.Steady)
    (hstep : ∀ value s, s.Steady → Ensures (step value) s (SkipsOne P q value s)) :
    Ensures (loop init step) s fun _ s' => Passes (P init) q s s' := by
  have hiterate (count : Nat) (value : β) (s : State) (hs : s.Steady) :
      Ensures (iterate step count value) s fun _ s' => Passes (P value) q s s' := by
    induction count generalizing value s with
    | zero => exact ⟨.exhausted hs⟩
    | succ count ih =>
      unfold iterate
      refine (hstep value s hs).bind fun r s₁ h₁ => ?_
      cases r with
      | done => exact .pure h₁
      | yield value' =>
        obtain ⟨rfl, hk, hP⟩ := h₁
        have hnext := (Moves.advanced hs q).steady
        exact (ih value' _ hnext).mono fun _ s' h => h.cons hs hk hP
  unfold loop
  exact .peek (hiterate _ init s hs)

/-! ## Section 2: Groups and lines -/

section groups

variable {s : State}

/-- A token that is skipped before the next round. -/
theorem advance_skipsOne {β : Type} {P : β → List Token → List Token → Prop} {value : β}
    (value' : β) (hk : s.kind ≠ .endOfFile)
    (hP : ∀ rest passed, s.advanced.kind ≠ .endOfFile → s.advanced.scanner.Yields rest →
      P value' rest passed → P value (s.scanner.token :: rest) (s.scanner.token :: passed)) :
    Ensures (do advance; return .yield value') s (SkipsOne P q value s) :=
  .modify _ (.pure ⟨rfl, hk, hP⟩)

theorem skipBalanced_passes (hs : s.Steady) (opener closer : Kind) :
    Ensures (skipBalanced opener closer) s fun _ s' =>
      s.kind = opener ∧
          Passes (fun row passed => Token.group? opener closer 0 row = some passed) q s s' ∨
        s.kind ≠ opener ∧ s' = s := by
  unfold skipBalanced
  refine .peek (.ite (fun hat => ?_) fun hat => .pure (Or.inr ⟨kind_ne_of_isAt hat, rfl⟩))
  -- Invariant: the tokens passed so far leave the count that is threaded through,
  -- as it is when a row is searched for the end of its group.
  refine (loop_passes (P := fun depth row passed =>
    Token.group? opener closer depth row = some passed) hs fun depth s hs => ?_).bind
      fun _ s' h => .pure (Or.inl ⟨kind_eq_of_isAt hat, h⟩)
  refine .peek (.ite (fun hend => .pure (.atEnd hs (eq_of_beq hend))) fun hend => ?_)
  have hk : s.kind ≠ .endOfFile := fun h => hend (beq_iff_eq.mpr h)
  refine .ite (fun hopen => advance_skipsOne _ hk fun rest passed _ _ hp => ?_) fun hopen => ?_
  · exact (Token.group?_open (eq_of_beq hopen)).trans (congrArg _ hp)
  have hopen : s.kind ≠ opener := fun h => hopen (beq_iff_eq.mpr h)
  refine .ite (fun hclose => .modify _ (.pure ?_)) fun hclose =>
    advance_skipsOne _ hk fun rest passed _ _ hp => ?_
  · have hclose : s.kind = closer := eq_of_beq hclose
    by_cases hdepth : depth ≤ 1
    · rw [if_pos hdepth]
      exact .single hs hk fun rest _ => Token.group?_last hopen hclose hdepth
    · rw [if_neg hdepth]
      refine ⟨rfl, hk, fun rest passed _ _ hp => ?_⟩
      exact (Token.group?_close hopen hclose hdepth).trans (congrArg _ hp)
  · have hclose : s.kind ≠ closer := fun h => hclose (beq_iff_eq.mpr h)
    exact (Token.group?_inner hopen hclose).trans (congrArg _ hp)

/-- Groups in parentheses are known to be balanced. -/
instance : Tidy .any q skipParens where
  tallies s hs _ _ := by
    rcases (skipBalanced_passes (q := q) hs .openParen .closeParen).holds with
      ⟨hk, hpasses⟩ | ⟨-, heq⟩
    · refine hpasses.tallies fun {all before row passed rest} hat _ _ _ hgroup => ?_
      obtain ⟨rest, hrow⟩ := hat.eq_cons
      refine hat.kept.groups row hat.suffix ?_ passed hgroup
      simp [Token.startsWith, hrow, hk]
    · show Tallies q s (skipBalanced .openParen .closeParen s).2
      rw [heq]
      exact .refl hs q

/-- Braces that are counted are balanced. -/
theorem skipBraces_tidy : Tidy .any q (skipBalanced .openBrace .closeBrace) where
  tallies s hs _ _ := by
    rcases (skipBalanced_passes (q := q) hs .openBrace .closeBrace).holds with
      ⟨hk, hpasses⟩ | ⟨-, heq⟩
    · refine hpasses.tallies fun {all before row passed rest} hat _ _ _ hgroup => ?_
      obtain ⟨rest, rfl⟩ := hat.eq_cons
      exact Token.balanced_group hk hgroup
    · rw [heq]
      exact .refl hs q

theorem skipLine_passes (hs : s.Steady) :
    Ensures skipLine s fun _ s' => Passes (fun row passed => passed = Token.line row) q s s' := by
  unfold skipLine
  refine loop_passes (P := fun _ row passed => passed = Token.line row) hs fun _ s hs => ?_
  refine .peek (.ite (fun hend => .pure (.atEnd hs (kind_eq_of_isAt hend))) fun hend => ?_)
  have hk : s.kind ≠ .endOfFile := kind_ne_of_isAt hend
  refine .modify _ (.peek (.pure ?_))
  -- The token after the one that is skipped tells whether the line goes on.
  split
  · rename_i hbreak
    have hbreak : s.advanced.scanner.token.afterLineBreak = true := hbreak
    refine .single hs hk fun rest hrest => ?_
    obtain ⟨rest, rfl⟩ := hrest.eq_cons
    simp [Token.line, Token.onSameLine, hbreak]
  · rename_i hbreak
    have hbreak : ¬ s.advanced.scanner.token.afterLineBreak = true := hbreak
    refine ⟨rfl, hk, fun rest passed hnext hrest hp => ?_⟩
    obtain ⟨rest, rfl⟩ := hrest.eq_cons
    simp [hp, Token.line, Token.onSameLine, hbreak, hnext]

/-- A line that is known to be balanced. -/
theorem skipLine_tallies (hs : s.Steady)
    (hline : ∀ {all before row}, s.At all before row →
      Token.startsSkippedLine s.scanner.bytes row = true) : Tallies q s (skipLine s).2 := by
  refine (skipLine_passes hs).holds.tallies fun {all before row passed rest} hat _ _ _ hpassed => ?_
  rw [hpassed]
  exact hat.kept.lines row hat.suffix (hline hat)

end groups

/-! ## Section 3: Attributes, effects and closing brackets -/

instance : Tidy .any q skipAttachedParens := by
  unfold skipAttachedParens
  infer_instance

instance : Tidy .plain q skipAttribute := by
  unfold skipAttribute
  dsimp only
  infer_instance

instance : Tidy .any q skipAttributes := by
  unfold skipAttributes
  infer_instance

instance : Tidy .any q skipEffects := by
  unfold skipEffects
  infer_instance

instance : Tidy .any q skipVariadicMark := by
  unfold skipVariadicMark
  infer_instance

instance (opener closer : Kind) : Steps q (skipToCloser opener closer) := by
  unfold skipToCloser
  infer_instance

/-- A closing bracket that is not there is reported before anything is skipped. -/
instance (opener closer : Kind) [IsFalse closer.isBrace] (what : String) :
    Tidy .any q (closeList opener closer what) := by
  unfold closeList
  dsimp only
  infer_instance

/-! ## Section 4: Before declarations -/

instance : Spots .plain atModifierWord := inferInstanceAs (Spots .plain (isOneOf _))

instance : Tidy .any q skipModifier := by
  unfold skipModifier
  refine .onKind (inferInstanceAs (Tidy _ q (pure false)))
    (inferInstanceAs (Tidy _ q (pure false))) fun k _ => ?_
  split
  all_goals infer_instance

instance : Tidy .any q skipModifiers := by
  unfold skipModifiers
  infer_instance

/-- A `where` clause ends before the next brace. -/
theorem skipWhereClause_passes {s : State} (hs : s.Steady) :
    Ensures skipWhereClause s fun _ s' =>
      Passes (fun _ passed => Token.BraceFree passed) q s s' := by
  unfold skipWhereClause
  refine (accept_reads hs.settled .whereKeyword).bind fun found s₁ h₁ => ?_
  refine .ite (fun hfound => ?_) fun hfound => ?_
  · obtain ⟨hk, rfl⟩ := h₁.2.1 hfound
    have hword : s.kind.isBrace = false := by rw [hk]
    refine .mono (P := fun _ s' => Passes (fun _ passed => Token.BraceFree passed) q s.advanced s')
      (loop_passes (P := fun _ _ passed => Token.BraceFree passed) (Moves.advanced hs q).steady ?_)
      fun _ s' h => h.cons hs (hk ▸ by decide) fun _ _ _ _ => .cons hword
    -- Each round ends at a brace or passes one token that is none.
    intro _ s hs
    refine .peek ?_
    split
    · exact .pure (.stay hs fun _ => .nil)
    · exact .pure (.stay hs fun _ => .nil)
    · exact .pure (.stay hs fun _ => .nil)
    · rename_i hend hopen hclose
      have hfree : s.kind.isBrace = false := Kind.isBrace_eq_false hopen hclose
      refine .peek (.branch (P := fun _ s₁ => s₁ = s) (fun _ => ⟨Looks.state_eq s hs.settled⟩)
        (fun _ => .pure rfl) ?_)
      rintro nextDeclaration s rfl
      refine .ite (fun _ => .pure (.stay hs fun _ => .nil)) fun _ => ?_
      exact advance_skipsOne () hend fun _ _ _ _ => .cons hfree
  · obtain rfl := h₁.2.2 (Bool.not_eq_true _ ▸ hfound)
    exact .pure (.stay hs fun _ => .nil)

instance : Tidy .any q skipWhereClause where
  tallies _ hs _ _ :=
    (skipWhereClause_passes hs).holds.tallies fun _ _ _ _ hfree => .of_braceFree hfree

end SelfCapture.Grammar
