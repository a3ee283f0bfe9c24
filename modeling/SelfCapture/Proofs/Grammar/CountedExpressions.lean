import SelfCapture.Proofs.Grammar.CountedRules
import SelfCapture.Proofs.Grammar.Fullness

/-! # Expressions that count braces

  The rules for expressions.  What is read in the windows of a string
  literal counts for nothing: the literal is one token, and the bodies of
  closures in it are inside of it.  They are left out of `ClosesBody`, so
  of the windows it only has to be known that their nodes are within the
  literal.
-/

set_option synthInstance.maxSize 1000

namespace SelfCapture.Grammar

open Token (Kind)

variable {q : Nat} {nested : Readers} [nested.Count]

/-! ## Section 1: String literals -/

/-- What reading windows between two offsets leaves in place. -/
structure Windows (low high : Nat) (s s' : State) : Prop where
  bytes_eq : s'.scanner.bytes = s.scanner.bytes
  diagnostics_le : s.diagnostics.size ≤ s'.diagnostics.size
  exhausted_imp : s.exhausted = true → s'.exhausted = true
  tree : s.tree.Extends s'.tree
  issue : s'.lastIssueAt ≠ none → s'.Troubled
  ended : ∀ {id : Nat} {r : Nat × Nat}, s'.tree.range? id = some r → r.1 ≤ high ∧ r.2 ≤ high
  inside : ∀ {id : Nat} {r : Nat × Nat}, s.tree.nextId ≤ id → s'.tree.range? id = some r →
    low < r.1 ∧ r.1 < high

theorem windowArguments_steps (nested : Readers) [nested.Count] :
    Steps q (windowArguments nested) := by
  unfold windowArguments interpolatedArgument unrestricted gatherWhile
  dsimp only
  infer_instance

/-- At the start of a window all nodes are those of what comes before it. -/
theorem entered_steady {s : State} {low : Nat} {segment : Segment}
    (hissue : s.lastIssueAt ≠ none → s.Troubled)
    (hended : ∀ {id : Nat} {r : Nat × Nat}, s.tree.range? id = some r → r.1 ≤ low ∧ r.2 ≤ low)
    (hoffset : low ≤ (s.entered segment).offset) : (s.entered segment).Steady where
  settled := s.entered_settled segment
  behind := s.entered_behind segment
  issue := hissue
  ended hr := ⟨Nat.le_trans (hended hr).1 hoffset, Nat.le_trans (hended hr).2 hoffset⟩

theorem interpolations_windows {segments : List Segment} {s : State} {low high : Nat}
    (hinside : Token.Inside low segments high) (hhigh : high ≤ s.scanner.bytes.size)
    (hissue : s.lastIssueAt ≠ none → s.Troubled)
    (hended : ∀ {id : Nat} {r : Nat × Nat}, s.tree.range? id = some r → r.1 ≤ low ∧ r.2 ≤ low) :
    Ensures (interpolations nested segments) s fun _ s' => Windows low high s s' := by
  induction segments generalizing s low with
  | nil =>
    have hle : low ≤ high := hinside
    apply Ensures.pure
    refine ⟨rfl, Nat.le_refl _, id, .refl _, hissue, ?_, ?_⟩
    · intro id r hr
      exact ⟨Nat.le_trans (hended hr).1 hle, Nat.le_trans (hended hr).2 hle⟩
    · intro id r hid hr
      exact absurd (Tree.lt_nextId_of_range? hr) (Nat.not_lt_of_le hid)
  | cons segment rest ih =>
    obtain ⟨hstart, hle, hrest⟩ := hinside
    have hstop : segment.stop < high := hrest.le
    have hoffset := s.le_offset_entered hle (by omega)
    have hsteady := entered_steady hissue hended (Nat.le_trans (Nat.le_of_lt hstart) hoffset)
    have hread := (windowArguments_steps nested).moves _ hsteady hoffset
    refine interpolations_cons (P := fun _ s₁ => Moves segment.start (s.entered segment) s₁)
      ⟨hread⟩ fun arguments s₁ h₁ => ?_
    -- What was read in this window ends before the next one.
    have hlast : s₁.offset ≤ segment.stop := by
      have hend := s.stop_entered_le segment
      rw [← h₁.stop_eq] at hend
      exact Nat.le_trans h₁.steady.settled.token_pos_le hend
    have hended₁ {id : Nat} {r : Nat × Nat} (hr : s₁.tree.range? id = some r) :
        r.1 ≤ segment.stop + 1 ∧ r.2 ≤ segment.stop + 1 := by
      have hle := h₁.steady.ended hr
      omega
    have hsize : high ≤ s₁.scanner.bytes.size := by
      rw [h₁.bytes_eq]
      exact hhigh
    refine (ih hrest hsize h₁.steady.issue hended₁).mono fun others s₂ h₂ => ?_
    refine
      { bytes_eq := h₂.bytes_eq.trans h₁.bytes_eq
        diagnostics_le := Nat.le_trans h₁.diagnostics_le h₂.diagnostics_le
        exhausted_imp := fun hs => h₂.exhausted_imp (h₁.exhausted_imp hs)
        tree := Tree.Extends.trans h₁.tree h₂.tree
        issue := h₂.issue
        ended := h₂.ended
        inside := ?_ }
    intro id r hid hr
    by_cases hnew : s₁.tree.nextId ≤ id
    · have hbounds := h₂.inside hnew hr
      omega
    · rw [h₂.tree.range_eq (Nat.lt_of_not_le hnew)] at hr
      have hfirst := h₁.starts hid hr
      have hbounds := h₁.steady.ended hr
      omega

/-- A literal is one token, whatever has been read in it. -/
theorem Windows.tallies {s s₁ : State} (hs : s.Steady) (hk : s.kind = .stringLiteral)
    (h : Windows s.offset s.scanner.token.stop s s₁) :
    Tallies s.offset s (s₁.returned s).advanced := by
  have hsettled : (s₁.returned s).Settled := hs.settled.restore h.bytes_eq
  have hback : (s₁.returned s).scanner =
      { s.scanner with diagnostics := (s₁.returned s).scanner.diagnostics } := by
    simp only [State.returned, Scanner.restore, Scanner.save, h.bytes_eq]
  -- Only the diagnostics of the scanner may differ from those at the literal.
  have hpos : (s₁.returned s).advanced.scanner.pos = s.advanced.scanner.pos := by
    rw [State.advanced, hback]
    rfl
  have htoken : (s₁.returned s).advanced.scanner.token = s.advanced.scanner.token := by
    rw [State.advanced, hback]
    rfl
  have hend : s.scanner.token.stop ≤ (s₁.returned s).advanced.offset := by
    rw [State.offset, htoken]
    exact State.advanced_behind hs.settled
  have hmoves : Moves s.offset s (s₁.returned s).advanced :=
    { bytes_eq := h.bytes_eq
      stop_eq := rfl
      diagnostics_le := h.diagnostics_le
      exhausted_imp := h.exhausted_imp
      tree := h.tree
      steady :=
        ⟨hsettled.scan, State.advanced_behind hsettled, h.issue, fun hr =>
          ⟨Nat.le_trans (h.ended hr).1 hend, Nat.le_trans (h.ended hr).2 hend⟩⟩
      offset_le := Nat.le_trans hs.settled.token_le hend
      previousStop_le := Nat.le_trans hs.behind hs.settled.token_le
      starts := fun hid hr => Nat.le_of_lt (h.inside hid hr).1 }
  have hne : s.kind ≠ .endOfFile := hk ▸ by decide
  refine ⟨hmoves, Or.inr fun {all before row} hat _ => ?_, Or.inr fun {all before row} hat _ => ?_⟩
  · obtain ⟨rest, rfl, hat₁⟩ := hat.advanced hs hne
    refine Or.inr ⟨[s.scanner.token], rest, rfl, hat₁.congr h.bytes_eq hpos rfl htoken rfl, ?_⟩
    apply Token.Balanced.plain
    rw [show s.scanner.token.kind = .stringLiteral from hk]
  · -- The new nodes are inside the literal.
    intro id hid form r _ _ hr houtside
    rcases hat with hover | hat
    · exact absurd (hs.kind_of_over hover) hne
    · obtain ⟨rest, hrow⟩ := hat.eq_cons
      have hmem : s.scanner.token ∈ all := by
        rw [hat.split, hrow]
        simp
      exact absurd (h.inside hid hr) (houtside _ hmem hk)

theorem stringParts_tallies {s : State} (hs : s.Steady) (hk : s.kind = .stringLiteral) :
    Ensures (guarded (pure []) (interpolatedParts nested s.scanner.segments)) s fun _ s' =>
      Tallies s.offset s s'.advanced := by
  refine guarded_cases (fun _ => ?_) fun _ => ?_
  · obtain ⟨hread, htrouble⟩ :=
      (giveUp_spoils (pure ([] : List Nat))).moves s hs (Nat.le_refl s.offset)
    exact ⟨.then_moves hread htrouble (.advanced hread.steady _)⟩
  · have hdeeper : s.deeper.Steady := ⟨hs.settled, hs.behind, hs.issue, hs.ended⟩
    have hhigh : s.scanner.token.stop ≤ s.scanner.bytes.size :=
      Nat.le_trans hs.settled.token_stop_le hs.settled.stop_le
    have hwindows : Ensures (interpolations nested s.scanner.segments) s.deeper fun _ s₁ =>
        Windows s.offset s.scanner.token.stop s.deeper s₁ :=
      interpolations_windows hs.settled.inside hhigh hdeeper.issue hdeeper.ended
    have hparts : Ensures (interpolatedParts nested s.scanner.segments) s.deeper fun _ s₁ =>
        Tallies s.offset s.deeper s₁.advanced := by
      unfold interpolatedParts
      exact .peek (hwindows.bind fun parts s₁ h₁ => .modify _ (.pure (h₁.tallies hdeeper hk)))
    refine hparts.mono fun parts s₁ h₁ => ?_
    have hstart : Tallies s.offset s s.deeper :=
      (Tallies.refl hs s.offset).surround s.context (s.depth + 1)
    exact (hstart.trans h₁).surround s₁.context (s₁.depth - 1)

instance : Tidy (.exactly .stringLiteral) q (stringExpression nested) where
  tallies s hs hq hk := by
    have hplain : s.kind.isBrace = false := by rw [show s.kind = .stringLiteral from hk]
    have hstring : Ensures (stringExpression nested) s fun _ s' => Tallies s.offset s s' := by
      unfold stringExpression
      refine .peek (.peek (.branch (P := fun _ s₁ => Tallies s.offset s s₁.advanced)
        (fun _ => .pure (.advanced hs s.offset hplain))
        (fun _ => stringParts_tallies hs hk) fun parts s₁ h₁ => .modify _ ?_))
      have hfinish : Tidy .any s.offset (finish (.stringLiteral parts) s.offset) := inferInstance
      exact ⟨h₁.trans (hfinish.tallies _ h₁.steady h₁.offset_le trivial)⟩
    exact hstring.holds.mono hq

/-! ## Section 2: Primary expressions -/

/-- Tokens that are told by their kind, and are no braces. -/
theorem kindTest_spots {f : Kind → Bool} (hf : ∀ k, f k = true → k.isBrace = false) :
    Spots .plain (do return f (← kind) && !(← afterBlank)) where
  state_eq _ _ := rfl
  admits s _ h := hf s.kind (Bool.and_eq_true_iff.mp h).1

/-- A mark right after the token before it. -/
instance : Spots .plain
    (do return ((← isAt .question) || (← isAt .exclamation)) && !(← afterBlank)) := by
  refine kindTest_spots (f := fun k => k == .question || k == .exclamation) fun k hk => ?_
  rcases Bool.or_eq_true_iff.mp hk with hk | hk
  · rw [eq_of_beq hk]
  · rw [eq_of_beq hk]

instance : Spots .plain (do return gluesToOperator (← kind) && !(← afterBlank)) := by
  refine kindTest_spots fun k hk => ?_
  cases k <;> first | rfl | cases hk

instance : Tidy .plain q skipOperator := by
  unfold skipOperator
  infer_instance

instance : Tidy .plain q operatorNode := by
  unfold operatorNode
  infer_instance

instance : Tidy .any q skipMark := by
  unfold skipMark
  infer_instance

instance : Tidy .plain q (castNode nested) := by
  unfold castNode
  dsimp only
  infer_instance

instance : Tidy .plain q implicitMember := by
  unfold implicitMember
  infer_instance

instance : Tidy .plain q poundExpression := by
  unfold poundExpression
  dsimp only
  infer_instance

instance : Tidy .plain q (bindingExpression nested) := by
  unfold bindingExpression
  infer_instance

instance : Tidy .plain q literal := by
  unfold literal
  infer_instance

instance {entry : Entry} (statement : Parse Nat) [Tidy entry q statement] :
    Tidy entry q (statementExpression statement) := by
  unfold statementExpression
  infer_instance

instance : Tidy .any q (plainPrimary nested) := by
  unfold plainPrimary
  refine .onExactly (inferInstanceAs (Tidy _ q (some <$> closure nested)))
    (inferInstanceAs (Tidy _ q (some <$> missing "Expression"))) fun k hk => ?_
  split
  all_goals first | infer_instance | exact .of_plain hk inferInstance | cases hk

instance : Tidy .any q (primary nested) := by
  unfold primary
  infer_instance

/-! ## Section 3: Suffixes -/

instance : Tidy .any q (typeList nested) := by
  unfold typeList
  infer_instance

instance : Tidy .plain q (specialization nested) := by
  unfold specialization
  refine attempt_tidy (.seq inferInstance fun _ => .seq inferInstance fun types => ?_)
  cases types with
  | none => infer_instance
  | some types => infer_instance

instance : Spots .opening atTrailingClosure where
  state_eq _ hs := (atTrailingClosure_eq hs).holds.1
  admits _ hs := (atTrailingClosure_eq hs).holds.2

instance (pos : Nat) (base : Option Nat) : Tidy .plain pos (memberSuffix pos base) := by
  unfold memberSuffix
  infer_instance

instance (pos : Nat) (callee : Option Nat) : Tidy .plain pos (callSuffix nested pos callee) := by
  unfold callSuffix
  infer_instance

instance (pos : Nat) (callee : Option Nat) :
    Tidy .opening pos (trailingSuffix nested pos callee) := by
  unfold trailingSuffix
  infer_instance

instance (pos : Nat) (base : Option Nat) :
    Tidy .plain pos (subscriptSuffix nested pos base) := by
  unfold subscriptSuffix
  infer_instance

instance (pos : Nat) (operand : Option Nat) : Tidy .plain pos (operatorSuffix pos operand) := by
  unfold operatorSuffix
  infer_instance

instance (pos : Nat) (base : Option Nat) : Tidy .plain pos (genericSuffix nested pos base) := by
  unfold genericSuffix
  refine .seq inferInstance fun arguments => ?_
  cases arguments with
  | none => infer_instance
  | some arguments => infer_instance

/-- A brace after an expression opens a trailing closure, or is left alone. -/
instance (pos : Nat) (expression : Option Nat) : Tidy .any pos (suffix? nested pos expression) := by
  unfold suffix?
  have hnone : Tidy .any pos (pure none : Parse (Option Nat)) := inferInstance
  refine .onKind (inferInstanceAs (Tidy _ pos (do
      if ← atTrailingClosure then
        if takesTrailingClosure (← formOf expression) then
          some <$> trailingSuffix nested pos expression
        else
          return none
      else
        return none))) hnone fun k _ => ?_
  split
  all_goals infer_instance

instance : Tidy .any q (suffixedExpression nested) := by
  unfold suffixedExpression
  refine .fromHere fun pos => .seq inferInstance fun base => loop_tidy fun expression => ?_
  refine .seq inferInstance fun extended => ?_
  cases extended with
  | none => infer_instance
  | some extended => infer_instance

/-! ## Section 4: Prefixes and sequences -/

instance : Tidy .any q (prefixedExpression nested) := by
  unfold prefixedExpression
  refine .fromHere fun pos => ?_
  have hsuffixed : Tidy .any pos (suffixedExpression nested) := inferInstance
  refine .onKind .of_any hsuffixed fun k _ => ?_
  split
  all_goals infer_instance

instance : Tidy .plain q (ternaryPart nested) := by
  unfold ternaryPart
  infer_instance

instance : Tidy .plain q (infixPart nested) := by
  unfold infixPart
  infer_instance

instance : Tidy .any q (sequencePart nested) := by
  unfold sequencePart
  have hnone {entry : Entry} : Tidy entry q (pure [] : Parse (List Nat)) := inferInstance
  refine .onKind hnone hnone fun k _ => ?_
  split
  all_goals infer_instance

instance : Tidy .any q (sequenceExpression nested) := by
  unfold sequenceExpression
  infer_instance

instance : Tidy .any q missingExpression := by
  unfold missingExpression
  infer_instance

instance : Tidy .any q (expression nested) := by
  unfold expression
  infer_instance

instance : Tidy .any q (operand nested) := by
  unfold operand
  infer_instance

end SelfCapture.Grammar
