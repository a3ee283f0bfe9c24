import SelfCapture.Grammar.Expression
import SelfCapture.Proofs.Grammar.Closure
import SelfCapture.Proofs.Grammar.Control
import SelfCapture.Proofs.Grammar.TypeName

/-! # Expressions are derivations

  The expressions inside a string literal are read in windows of their own.
  A window lies inside the literal, so it starts with fewer bytes ahead
  than the literal does, although the scanner goes back in the text.

  A suffix takes the expression before it into a new node; what is read
  from the start of the expression on is then again a derivation.
-/

namespace SelfCapture.Grammar

open Token (Kind)

variable {n : Nat} {s s' : State} {nested : Readers} {ids : List Nat}

/-! ## Section 1: Operators -/

theorem ne_end_of_gluesToOperator (h : gluesToOperator s.kind = true) : s.kind ≠ .endOfFile := by
  intro hend
  rw [hend] at h
  cases h

theorem skipOperator_moves (hs : s.Settled) (hk : s.kind ≠ .endOfFile) :
    Ensures skipOperator s fun _ s' => Reads s [] s' ∧ s.offset < s'.offset := by
  unfold skipOperator
  refine .peek ((advance_moves hs hk).bind fun _ s₁ h₁ => ?_)
  refine .ite (fun _ => ?_) (fun _ => .pure h₁)
  refine (repeatWhile_reads h₁.1.settled fun s₂ h₂ => .look ⟨.stay h₂.settled, fun hglue => ?_⟩).mono
    fun _ s₂ h₂ => ⟨h₁.1.append h₂, h₂.offset_lt h₁.2⟩
  exact advance_moves h₂.settled
    (ne_end_of_gluesToOperator (Bool.and_eq_true_iff.mp hglue).1)

theorem operatorNode_moves (hs : s.Settled) (hk : s.kind ≠ .endOfFile) :
    Ensures operatorNode s fun id s' => Reads s [id] s' ∧ s.offset < s'.offset := by
  unfold operatorNode
  refine .peek (.peek ((skipOperator_moves hs hk).bind fun _ s₁ h₁ => ?_))
  exact finish_moves h₁.1 h₁.2 (by simp) trivial

/-- At the end of the text there is no operator to be put together. -/
theorem skipOperator_reads (hs : s.Settled) : Ensures skipOperator s fun _ s' => Reads s [] s' := by
  by_cases hk : s.kind = .endOfFile
  · unfold skipOperator
    refine .peek ((advance_skips hs).bind fun _ s₁ h₁ => .ite (fun hangle => ?_) (fun _ => .pure h₁))
    rw [show (kind s).1 = .endOfFile from hk] at hangle
    cases hangle
  · exact (skipOperator_moves hs hk).mono fun _ _ h => h.1

theorem isInfixHere_eq (hs : s.Settled) : Ensures isInfixHere s fun _ s' => s' = s := by
  unfold isInfixHere
  refine .peek (.ite (fun _ => .pure rfl) (fun _ => .peek ?_))
  have hlook : Ensures (lookAhead do
      skipOperator
      return !(← afterBlank) && !closesOperand (← kind)) s fun _ s' => s' = s := by
    refine (lookAhead_eq (R := fun _ => True) ?_).mono fun _ _ h => h.1
    exact (skipOperator_reads hs).bind fun _ s₁ h₁ => .look ⟨h₁, trivial⟩
  exact hlook.bind fun _ _ h => .pure h

theorem skipMark_reads (hs : s.Settled) : Ensures skipMark s fun _ s' => Reads s [] s' := by
  unfold skipMark
  refine .peek (.peek (.peek ?_))
  exact .ite (fun _ => advance_skips hs) (fun _ => .pure (.stay hs))

theorem castNode_moves (hn : nested.Below n) (hs : Ready (n + 1) s) (hk : s.kind ≠ .endOfFile) :
    Ensures (castNode nested) s fun id s' => Reads s [id] s' ∧ s.offset < s'.offset := by
  unfold castNode
  refine .peek (.peek ((advance_moves hs.settled hk).bind fun _ s₁ h₁ => ?_))
  refine .ifThen (P := fun s₂ => Reads s₁ [] s₂) (fun _ => skipMark_reads h₁.1.settled)
    (fun _ => .stay h₁.1.settled) fun s₂ h₂ => ?_
  refine (hn.type ((hs.moved h₁.1 h₁.2).reads h₂)).bind fun type s₃ h₃ => ?_
  have hrest := h₂.append h₃
  exact finish_moves (h₁.1.append hrest) (hrest.offset_lt h₁.2) (by simp) trivial

/-! ## Section 2: String literals -/

/-- An argument in a window, with a step forward where none is read. -/
def interpolatedArgument (nested : Readers) : Parse (List Nat) := do
  let before ← position
  let argument ← argument nested
  unless ← accept .comma do
    if (← position) == before then advance
  return [argument]

/-- The arguments in one window. -/
def windowArguments (nested : Readers) : Parse (List Nat) :=
  unrestricted (gatherWhile (return !(← atEnd)) (interpolatedArgument nested))

/-- The windows are read one after the other, each from its own first token. -/
theorem interpolations_cons {segment : Segment} {rest : List Segment}
    {P Q : List Nat → State → Prop}
    (hwindow : Ensures (windowArguments nested) (s.entered segment) P)
    (hrest : ∀ arguments s₁, P arguments s₁ →
      Ensures (interpolations nested rest) s₁ fun others s₂ => Q (arguments ++ others) s₂) :
    Ensures (interpolations nested (segment :: rest)) s Q := by
  unfold interpolations
  refine .modify _ (.modify _ (hwindow.bind fun arguments s₁ h₁ => ?_))
  exact (hrest arguments s₁ h₁).bind fun others s₂ h₂ => .pure h₂

theorem interpolatedArgument_moves (hn : nested.Below n) (hs : Ready n s)
    (hk : s.kind ≠ .endOfFile) :
    Ensures (interpolatedArgument nested) s fun ids s' =>
      Reads s ids s' ∧ s.offset < s'.offset := by
  unfold interpolatedArgument
  refine .peek ((argument_reads hn hs).bind fun argument s₁ h₁ => ?_)
  refine (accept_moves h₁.settled (by decide)).bind fun comma s₂ h₂ => ?_
  have hread : Reads s [argument] s₂ := h₁.append h₂.1
  extract_lets rest
  have hrest : ∀ s₃, Reads s [argument] s₃ → s.offset < s₃.offset →
      Ensures (rest ()) s₃ fun ids s' => Reads s ids s' ∧ s.offset < s'.offset :=
    fun s₃ h₃ hlt => .pure ⟨h₃, hlt⟩
  refine .ite (fun hcomma => hrest s₂ hread ?_) (fun _ => .peek (.ite (fun hstuck => ?_)
    (fun hfree => hrest s₂ hread ?_)))
  · exact Nat.lt_of_le_of_lt h₁.offset_le (h₂.2 hcomma)
  · have hk₂ := hread.ne_end_of_offset_eq hk (eq_of_beq hstuck)
    refine (advance_moves hread.settled hk₂).bind fun _ s₃ h₃ => ?_
    exact hrest s₃ (hread.append h₃.1) (Nat.lt_of_le_of_lt hread.offset_le h₃.2)
  · exact hread.offset_lt_of_ne fun heq => hfree (beq_iff_eq.mpr heq)

/-- The expressions of a literal, window by window. -/
theorem interpolations_derives (hn : nested.Below n) {segments : List Segment} {low high : Nat}
    (hinside : Token.Inside low segments high) (hhigh : high ≤ s.scanner.bytes.size)
    (hbound : s.scanner.bytes.size - low ≤ n) :
    Ensures (interpolations nested segments) s fun ids s' =>
      Derives (.windows segments) s ids s' := by
  induction segments generalizing s low with
  | nil => exact .pure (.noWindow s)
  | cons segment rest ih =>
    obtain ⟨hstart, hle, hrest⟩ := hinside
    have hstop : segment.stop < high := hrest.le
    have hoffset := s.le_offset_entered hle (by omega)
    -- In the window less is ahead than from `low` on.
    have hready : Ready n (s.entered segment) := by
      refine ⟨s.entered_settled segment, ?_⟩
      have hsize : (s.entered segment).scanner.bytes.size = s.scanner.bytes.size := rfl
      rw [State.ahead, hsize]
      omega
    have hwindow := hready.under {}
    refine interpolations_cons (unrestricted_reads (gatherWhile_reads hwindow.settled
      fun ids s₁ h₁ => ?_)) fun arguments s₁ h₁ => ?_
    · refine .peek (.pure ⟨.stay h₁.settled, fun hmore => ?_⟩)
      exact interpolatedArgument_moves hn (hwindow.reads h₁) (ne_end_of_stuck (b := true) hmore)
    · have hbytes := h₁.keeps.bytes_eq
      have hsize : s₁.scanner.bytes.size = s.scanner.bytes.size := by
        rw [hbytes]
        rfl
      -- The rest is read from where the window was left, in the same text.
      exact (ih hrest (hsize ▸ hhigh) (by omega)).mono fun others s₂ h₂ => .window h₁ h₂

/-- Back at the literal, the scanner is where it was. -/
theorem interpolatedParts_derives (hn : nested.Below n) (hs : Ready (n + 1) s) :
    Ensures (interpolatedParts nested s.scanner.segments) s fun ids s' =>
      ∃ s₁, Derives (.windows s.scanner.segments) s ids s₁ ∧ s' = s₁.returned s := by
  unfold interpolatedParts
  have hhigh : s.scanner.token.stop ≤ s.scanner.bytes.size :=
    Nat.le_trans hs.settled.token_stop_le hs.settled.stop_le
  have hbound : s.scanner.bytes.size - s.scanner.token.pos ≤ n := Nat.le_of_lt_succ hs.ahead_lt
  refine .peek ((interpolations_derives hn hs.settled.inside hhigh hbound).bind
    fun parts s₁ h₁ => .modify _ (.pure ?_))
  exact ⟨s₁, h₁, rfl⟩

/-- The parts of a literal with the token that the literal is. -/
theorem stringParts_reads (hn : nested.Below n) (hs : Ready (n + 1) s) :
    Ensures (guarded (pure []) (interpolatedParts nested s.scanner.segments)) s fun parts s' =>
      Reads s parts s'.advanced := by
  refine guarded_cases (fun _ => ?_) fun hdepth => ?_
  · have hskip : Ensures (giveUp (pure ([] : List Nat))) s fun parts s₁ => Reads s parts s₁ :=
      giveUp_reads hs.settled fun _ h₁ => .pure (.stay h₁.settled)
    exact hskip.mono fun _ _ h₁ => h₁.skip (.advance h₁.settled)
  · refine (interpolatedParts_derives hn hs.deeper).mono fun parts s₁ h₁ => ?_
    obtain ⟨s₂, h₂, rfl⟩ := h₁
    exact .deeper hdepth (.interpolate hs.settled h₂)

theorem stringExpression_reads (hn : nested.Below n) (hs : Ready (n + 1) s) :
    Ensures (stringExpression nested) s fun id s' => Reads s [id] s' := by
  unfold stringExpression
  refine .peek (.peek ?_)
  refine .branch (P := fun parts s₁ => Reads s parts s₁.advanced)
    (fun _ => .pure (.advance hs.settled)) (fun _ => stringParts_reads hn hs) fun parts s₁ h₁ => ?_
  exact .modify _ (finish_reads h₁ (by simp) trivial)

/-! ## Section 3: Primary expressions -/

theorem implicitMember_reads (hs : s.Settled) :
    Ensures implicitMember s fun id s' => Reads s [id] s' := by
  unfold implicitMember
  refine .peek ((advance_reads hs).bind fun _ s₁ h₁ => ?_)
  refine (nameOr_reads h₁.2.settled _).bind fun name s₂ h₂ => ?_
  exact finish_reads (h₁.2.append h₂) (by simp) trivial

theorem poundExpression_reads (hs : s.Settled) :
    Ensures poundExpression s fun id s' => Reads s [id] s' := by
  unfold poundExpression
  refine .peek ((advance_reads hs).bind fun _ s₁ h₁ => .peek (.peek (.peek ?_)))
  refine .branch (P := fun _ s₂ => Reads s [] s₂) (fun _ => ?_) (fun _ => ?_) fun _ s₂ h₂ => ?_
  · exact (advance_reads h₁.2.settled).mono fun _ _ h => h₁.2.append h.2
  · exact (reportExpected_reads h₁.2.settled _).mono fun _ _ h => h₁.2.append h.1
  · refine .ifThen (P := fun s₃ => Reads s [] s₃) (fun _ => ?_) (fun _ => h₂)
      fun s₃ h₃ => finish_reads h₃ (by simp) trivial
    exact (skipParens_reads h₂.settled).mono fun _ _ h => h₂.append h

theorem bindingExpression_reads (hn : nested.Below n) (hs : Ready (n + 1) s)
    (hk : s.kind ≠ .endOfFile) :
    Ensures (bindingExpression nested) s fun id s' => Reads s [id] s' := by
  unfold bindingExpression
  refine .peek ((advance_moves hs.settled hk).bind fun _ s₁ h₁ => ?_)
  refine (hn.operand (hs.moved h₁.1 h₁.2)).bind fun pattern s₂ h₂ => ?_
  exact finish_reads (h₁.1.append h₂) (by simp) trivial

theorem literal_reads (hs : s.Settled) : Ensures literal s fun id s' => Reads s [id] s' := by
  unfold literal
  refine .peek (.peek ((advance_reads hs).bind fun _ s₁ h₁ => ?_))
  exact finish_reads h₁.2 (by simp) trivial

theorem statementExpression_reads {statement : Parse Nat} (hs : s.Settled)
    (h : Ensures statement s.deeper fun id s' => Reads s.deeper [id] s') :
    Ensures (statementExpression statement) s fun r s' => Reads s r.toList s' :=
  guarded_reads hs (fun _ h₁ => .pure (.stay h₁.settled)) (.map h)

theorem plainPrimary_reads (hn : nested.Below n) (hs : Ready (n + 1) s) :
    Ensures (plainPrimary nested) s fun r s' => Reads s r.toList s' := by
  have hname : Ensures (some <$> name) s fun r s' => Reads s r.toList s' :=
    .map ((name_reads hs.settled).mono fun _ _ h => h.1)
  have hliteral : Ensures (some <$> literal) s fun r s' => Reads s r.toList s' :=
    .map (literal_reads hs.settled)
  unfold plainPrimary
  refine .peek ?_
  split
  · exact hname
  · exact hname
  · exact hname
  · exact hname
  · exact hname
  · exact hliteral
  · exact hliteral
  · exact hliteral
  · exact hliteral
  · exact hliteral
  · exact .map (stringExpression_reads hn hs)
  · exact .map (implicitMember_reads hs.settled)
  · exact .map (tupleExpression_reads hn hs (ne_end_of_kind ‹_› (by decide)))
  · exact .map (collectionExpression_reads hn hs (ne_end_of_kind ‹_› (by decide)))
  · rename_i hk
    exact .map ((closure_moves hn hs hk).mono fun _ _ h => h.1)
  · exact .map (poundExpression_reads hs.settled)
  · refine statementExpression_reads hs.settled ?_
    exact branchStatement_reads hn hs.deeper (ne_end_of_kind ‹_› (by decide))
  · refine statementExpression_reads hs.settled ?_
    exact switchStatement_reads hn hs.deeper (ne_end_of_kind ‹_› (by decide))
  · refine statementExpression_reads hs.settled ?_
    exact doStatement_reads hn hs.deeper (ne_end_of_kind ‹_› (by decide))
  · exact .map (bindingExpression_reads hn hs (ne_end_of_kind ‹_› (by decide)))
  · exact .map (bindingExpression_reads hn hs (ne_end_of_kind ‹_› (by decide)))
  · refine .map ((castNode_moves hn hs (ne_end_of_kind ‹_› (by decide))).mono fun _ _ h => h.1)
  · exact .map (missing_reads hs.settled _)

theorem primary_reads (hn : nested.Below n) (hs : Ready (n + 1) s) :
    Ensures (primary nested) s fun r s' => Reads s r.toList s' := by
  unfold primary
  refine (skipAttributes_reads hs.settled).bind fun _ s₁ h₁ => ?_
  exact (plainPrimary_reads hn (hs.reads h₁)).mono fun _ _ h => h₁.append h

/-! ## Section 4: Suffixes -/

theorem typeList_reads (hn : nested.Below n) (hs : Ready n s) :
    Ensures (typeList nested) s fun r s' => Reads s (r.getD []) s' := by
  unfold typeList
  refine loop_ensures (I := Collected s) hs.settled (Derives.stay hs.settled)
    fun types s₁ hI _ => ?_
  cases types with
  | none => exact hI.elim
  | some ids =>
    refine .peek (.ite (fun _ => ?_) (fun _ => .pure hI.forget))
    exact (hn.type (hs.reads hI)).bind fun type s₂ h₂ => comma_advances? hI h₂

/-- Generic arguments that are taken have been left behind; otherwise
    nothing has been read. -/
theorem specialization_moves (hn : nested.Below n) (hs : Ready (n + 1) s)
    (hk : s.kind ≠ .endOfFile) :
    Ensures (specialization nested) s fun r s' =>
      r.elim (s' = s) fun ids => Reads s ids s' ∧ s.offset < s'.offset := by
  unfold specialization
  refine attempt_ensures ?_
  refine (advance_moves hs.settled hk).bind fun _ s₁ h₁ => ?_
  refine (typeList_reads hn (hs.moved h₁.1 h₁.2)).bind fun types s₂ h₂ => ?_
  have hread := h₁.1.append h₂
  cases types with
  | none => exact .pure hread
  | some types =>
    refine (accept_reads h₂.settled _).bind fun _ s₃ h₃ => ?_
    have hall := h₂.skip h₃.1
    -- What is not taken is undone by the attempt, so its nodes may be dropped.
    have hnone : Reads s [] s₃ := (h₁.1.append hall).forget
    refine .ite (fun _ => .peek (.peek (.ite (fun _ => .pure ?_) (fun _ => .pure hnone))))
      (fun _ => .pure hnone)
    exact ⟨h₁.1.append hall, hall.offset_lt h₁.2⟩

theorem atTrailingClosure_eq (hs : s.Settled) :
    Ensures atTrailingClosure s fun found s' => s' = s ∧ (found = true → s.kind = .openBrace) := by
  unfold atTrailingClosure
  refine .peek (.peek (.ite (fun hat => ?_) (fun _ => .pure ⟨rfl, nofun⟩)))
  have hk : s.kind = .openBrace := kind_eq_of_isAt (Bool.and_eq_true_iff.mp hat).1
  exact (opensObservers_eq hs).bind fun _ s₁ h₁ => .pure ⟨h₁, fun _ => hk⟩

instance (node : Option Nat) : Peeks (formOf node) := ⟨fun _ => rfl⟩

section suffixes

variable {s₁ : State} {base : Option Nat}

theorem memberSuffix_moves (h₁ : Reads s base.toList s₁) (hk : s₁.kind ≠ .endOfFile) :
    Ensures (memberSuffix s.offset base) s₁ fun id s' => Reads s [id] s' ∧ Moved s₁ s' := by
  unfold memberSuffix
  refine (advance_moves h₁.settled hk).bind fun _ s₂ h₂ => .peek (.peek ?_)
  refine .branch (P := fun member s₃ => Reads s₂ [member] s₃)
    (fun _ => (name_reads h₂.1.settled).mono fun _ _ h => h.1)
    (fun _ => missing_reads h₂.1.settled _) fun member s₃ h₃ => ?_
  have hstep := h₂.1.append h₃
  have hmoved := hstep.moved (h₃.offset_lt h₂.2)
  exact finish_step (h₁.append hstep) hmoved (by simp) trivial

theorem callSuffix_moves (hn : nested.Below n) (hs : Ready (n + 1) s)
    (h₁ : Reads s base.toList s₁) (hk : s₁.kind ≠ .endOfFile) :
    Ensures (callSuffix nested s.offset base) s₁ fun id s' => Reads s [id] s' ∧ Moved s₁ s' := by
  unfold callSuffix
  have hs₁ := hs.reads h₁
  refine (argumentList_moves hn hs₁ hk _ _ _).bind fun arguments s₂ h₂ => ?_
  refine (atTrailingClosure_eq h₂.1.settled).bind fun found s₃ h₃ => ?_
  obtain ⟨rfl, hbrace⟩ := h₃
  refine .ite (fun hfound => ?_) (fun _ => ?_)
  · have hs₃ := (hs₁.moved h₂.1 h₂.2).succ
    refine (trailingClosures_moves hn hs₃ (hbrace hfound)).bind fun trailing s₄ h₄ => ?_
    obtain ⟨trailing, additional⟩ := trailing
    have hstep := h₂.1.append h₄.1
    have hmoved := hstep.moved (h₄.1.offset_lt h₂.2)
    -- The first trailing closure is one, so the node fits.
    exact finish_step (h₁.append hstep) hmoved (by simp) h₄.2.2
  · exact finish_step (h₁.append h₂.1) (h₂.1.moved h₂.2) (by simp) trivial

theorem trailingSuffix_moves (hn : nested.Below n) (hs : Ready (n + 1) s)
    (h₁ : Reads s base.toList s₁) (hk : s₁.kind = .openBrace) :
    Ensures (trailingSuffix nested s.offset base) s₁ fun id s' =>
      Reads s [id] s' ∧ Moved s₁ s' := by
  unfold trailingSuffix
  refine (trailingClosures_moves hn (hs.reads h₁) hk).bind fun trailing s₂ h₂ => ?_
  obtain ⟨trailing, additional⟩ := trailing
  have hmoved := h₂.1.moved h₂.2.1
  exact finish_step (h₁.append h₂.1) hmoved (by simp) h₂.2.2

theorem subscriptSuffix_moves (hn : nested.Below n) (hs : Ready (n + 1) s)
    (h₁ : Reads s base.toList s₁) (hk : s₁.kind ≠ .endOfFile) :
    Ensures (subscriptSuffix nested s.offset base) s₁ fun id s' =>
      Reads s [id] s' ∧ Moved s₁ s' := by
  unfold subscriptSuffix
  refine (argumentList_moves hn (hs.reads h₁) hk _ _ _).bind fun arguments s₂ h₂ => ?_
  exact finish_step (h₁.append h₂.1) (h₂.1.moved h₂.2) (by simp) trivial

theorem operatorSuffix_moves (h₁ : Reads s base.toList s₁) (hk : s₁.kind ≠ .endOfFile) :
    Ensures (operatorSuffix s.offset base) s₁ fun id s' => Reads s [id] s' ∧ Moved s₁ s' := by
  unfold operatorSuffix
  refine .peek ((advance_moves h₁.settled hk).bind fun _ s₂ h₂ => ?_)
  exact finish_step (h₁.append h₂.1) (h₂.1.moved h₂.2) (by simp) trivial

/-- What trying to read a suffix establishes: the extended expression
    further on in the text, or nothing has been read. -/
def Extends (s s₁ : State) (r : Option Nat) (s' : State) : Prop :=
  r.elim (s' = s₁) fun id => Reads s [id] s' ∧ Moved s₁ s'

theorem genericSuffix_extends (hn : nested.Below n) (hs : Ready (n + 1) s)
    (h₁ : Reads s base.toList s₁) (hk : s₁.kind ≠ .endOfFile) :
    Ensures (genericSuffix nested s.offset base) s₁ (Extends s s₁) := by
  unfold genericSuffix
  refine (specialization_moves hn (hs.reads h₁) hk).bind fun r s₂ h₂ => ?_
  cases r with
  | none => exact .pure h₂
  | some arguments => exact .map (finish_step (h₁.append h₂.1) (h₂.1.moved h₂.2) (by simp) trivial)

theorem suffix?_extends (hn : nested.Below n) (hs : Ready (n + 1) s)
    (h₁ : Reads s base.toList s₁) :
    Ensures (suffix? nested s.offset base) s₁ (Extends s s₁) := by
  have hnone : Ensures (pure none) s₁ (Extends s s₁) := .pure rfl
  unfold suffix?
  refine .peek ?_
  split
  · exact .map (memberSuffix_moves h₁ (ne_end_of_kind ‹_› (by decide)))
  · refine .peek (.ite (fun _ => hnone) (fun _ => .map ?_))
    exact callSuffix_moves hn hs h₁ (ne_end_of_kind ‹_› (by decide))
  · refine (atTrailingClosure_eq h₁.settled).bind fun found s₂ h₂ => ?_
    obtain ⟨rfl, hbrace⟩ := h₂
    -- Not every expression takes a trailing closure.
    refine .ite (fun hfound => .peek (.ite (fun _ => .map ?_) (fun _ => hnone))) (fun _ => hnone)
    exact trailingSuffix_moves hn hs h₁ (hbrace hfound)
  · refine .peek (.ite (fun _ => hnone) (fun _ => .map ?_))
    exact subscriptSuffix_moves hn hs h₁ (ne_end_of_kind ‹_› (by decide))
  · refine .peek (.ite (fun _ => hnone) (fun _ => .map ?_))
    exact operatorSuffix_moves h₁ (ne_end_of_kind ‹_› (by decide))
  · refine .peek (.ite (fun _ => hnone) (fun _ => .map ?_))
    exact operatorSuffix_moves h₁ (ne_end_of_kind ‹_› (by decide))
  · refine .peek (.peek (.ite (fun _ => .map ?_) (fun _ => hnone)))
    exact operatorSuffix_moves h₁ (ne_end_of_kind ‹_› (by decide))
  · refine .peek (.ite (fun _ => hnone) (fun _ => ?_))
    exact genericSuffix_extends hn hs h₁ (ne_end_of_kind ‹_› (by decide))
  · exact hnone

end suffixes

theorem suffixedExpression_reads (hn : nested.Below n) (hs : Ready (n + 1) s) :
    Ensures (suffixedExpression nested) s fun r s' => Reads s r.toList s' := by
  unfold suffixedExpression
  refine .peek ((primary_reads hn hs).bind fun base s₁ h₁ => ?_)
  refine loop_ensures (I := fun r s' => Reads s (Option.toList r) s') h₁.settled h₁
    fun expression s₂ h₂ _ => ?_
  refine (suffix?_extends hn hs h₂).bind fun r s₃ h₃ => ?_
  cases r with
  | none =>
    rw [show s₃ = s₂ from h₃]
    exact .pure h₂
  | some extended => exact .pure h₃

/-! ## Section 5: Prefixes and sequences -/

/-- `try` or `await` before an operand. -/
theorem markedOperand_reads (hn : nested.Below n) (hs : Ready (n + 1) s)
    (hk : s.kind ≠ .endOfFile) (token : Kind) :
    Ensures
      (do
        advance
        if token == .tryKeyword then skipMark
        let operand ← nested .operand
        some <$> finish (.prefixOp token operand) s.offset)
      s fun r s' => Reads s r.toList s' := by
  refine (advance_moves hs.settled hk).bind fun _ s₁ h₁ => ?_
  refine .ifThen (P := fun s₂ => Reads s₁ [] s₂) (fun _ => skipMark_reads h₁.1.settled)
    (fun _ => .stay h₁.1.settled) fun s₂ h₂ => ?_
  refine (hn.operand ((hs.moved h₁.1 h₁.2).reads h₂)).bind fun operand s₃ h₃ => .map ?_
  exact finish_reads (h₁.1.append (h₂.append h₃)) (by simp) trivial

/-- An operator before an operand, or an operator that stands alone. -/
theorem operatorOperand_reads (hn : nested.Below n) (hs : Ready (n + 1) s)
    (hk : s.kind ≠ .endOfFile) (token : Kind) :
    Ensures
      (do
        if ← beforeBlank then
          skipOperator
          some <$> finish (.identifier token) s.offset
        else
          advance
          let operand ← nested .operand
          some <$> finish (.prefixOp token operand) s.offset)
      s fun r s' => Reads s r.toList s' := by
  refine .peek (.ite (fun _ => ?_) (fun _ => ?_))
  · refine (skipOperator_moves hs.settled hk).bind fun _ s₁ h₁ => .map ?_
    exact finish_reads h₁.1 (by simp) trivial
  · refine (advance_moves hs.settled hk).bind fun _ s₁ h₁ => ?_
    refine (hn.operand (hs.moved h₁.1 h₁.2)).bind fun operand s₂ h₂ => .map ?_
    exact finish_reads (h₁.1.append h₂) (by simp) trivial

theorem prefixedExpression_reads (hn : nested.Below n) (hs : Ready (n + 1) s) :
    Ensures (prefixedExpression nested) s fun r s' => Reads s r.toList s' := by
  unfold prefixedExpression
  refine .peek (.peek ?_)
  split
  · exact markedOperand_reads hn hs (ne_end_of_kind ‹_› (by decide)) _
  · exact markedOperand_reads hn hs (ne_end_of_kind ‹_› (by decide)) _
  · exact operatorOperand_reads hn hs (ne_end_of_kind ‹_› (by decide)) _
  · exact operatorOperand_reads hn hs (ne_end_of_kind ‹_› (by decide)) _
  · exact operatorOperand_reads hn hs (ne_end_of_kind ‹_› (by decide)) _
  · exact operatorOperand_reads hn hs (ne_end_of_kind ‹_› (by decide)) _
  · exact operatorOperand_reads hn hs (ne_end_of_kind ‹_› (by decide)) _
  · refine (advance_moves hs.settled (ne_end_of_kind ‹_› (by decide))).bind fun _ s₁ h₁ => ?_
    refine (suffixedExpression_reads hn (hs.reads h₁.1)).bind fun operand s₂ h₂ => .map ?_
    exact finish_reads (h₁.1.append h₂) (by simp) trivial
  · exact suffixedExpression_reads hn hs

theorem ternaryPart_moves (hn : nested.Below n) (hs : Ready (n + 1) s)
    (hk : s.kind ≠ .endOfFile) :
    Ensures (ternaryPart nested) s fun ids s' => Reads s ids s' ∧ s.offset < s'.offset := by
  unfold ternaryPart
  refine .peek ((advance_moves hs.settled hk).bind fun _ s₁ h₁ => ?_)
  have hs₁ := hs.moved h₁.1 h₁.2
  refine (within_reads _ (hn.expression (hs₁.under _))).bind fun whenTrue s₂ h₂ => ?_
  refine (expect_reads h₂.settled (by decide) _).bind fun _ s₃ h₃ => ?_
  have hthen := h₂.append h₃.1
  have hlt := hthen.offset_lt h₁.2
  refine (finish_moves (h₁.1.append hthen) hlt (by simp) (by trivial)).bind fun ternary s₄ h₄ => ?_
  -- The part after the colon stands beside the ternary node, not in it.
  refine (prefixedExpression_reads hn (hs.reads h₄.1)).bind fun whenFalse s₅ h₅ => .pure ?_
  exact ⟨h₄.1.append h₅, h₅.offset_lt h₄.2⟩

theorem infixPart_moves (hn : nested.Below n) (hs : Ready (n + 1) s) (hk : s.kind ≠ .endOfFile) :
    Ensures (infixPart nested) s fun ids s' => Reads s ids s' ∧ s.offset < s'.offset := by
  unfold infixPart
  refine (operatorNode_moves hs.settled hk).bind fun operator s₁ h₁ => ?_
  refine (prefixedExpression_reads hn (hs.reads h₁.1)).bind fun operand s₂ h₂ => .pure ?_
  exact ⟨h₁.1.append h₂, h₂.offset_lt h₁.2⟩

/-- A part that continues a sequence has been left behind. -/
theorem sequencePart_moves (hn : nested.Below n) (hs : Ready (n + 1) s) :
    Ensures (sequencePart nested) s fun ids s' =>
      Reads s ids s' ∧ (ids.isEmpty = false → s.offset < s'.offset) := by
  -- A round either reads nothing, which ends the sequence, or gets further.
  have hnone : Ensures (pure []) s fun (ids : List Nat) s' =>
      Reads s ids s' ∧ (ids.isEmpty = false → s.offset < s'.offset) :=
    .pure ⟨.stay hs.settled, nofun⟩
  have hcast : s.kind ≠ .endOfFile → Ensures (do return [← castNode nested]) s fun ids s' =>
      Reads s ids s' ∧ (ids.isEmpty = false → s.offset < s'.offset) := fun hk =>
    (castNode_moves hn hs hk).bind fun _ _ h => .pure ⟨h.1, fun _ => h.2⟩
  unfold sequencePart
  refine .peek ?_
  split
  · refine .peek (.ite (fun _ => ?_) (fun _ => hnone))
    have hpart := ternaryPart_moves hn hs (ne_end_of_kind ‹_› (by decide))
    exact hpart.mono fun _ _ h => ⟨h.1, fun _ => h.2⟩
  · exact hcast (ne_end_of_kind ‹_› (by decide))
  · exact hcast (ne_end_of_kind ‹_› (by decide))
  · have hpart := infixPart_moves hn hs (ne_end_of_kind ‹_› (by decide))
    exact hpart.mono fun _ _ h => ⟨h.1, fun _ => h.2⟩
  · refine .ite (fun hbinary => ?_) (fun _ => hnone)
    have hk : s.kind ≠ .endOfFile := by
      intro hend
      rw [show (kind s).1 = .endOfFile from hend] at hbinary
      cases hbinary
    refine (isInfixHere_eq hs.settled).bind fun _ s₁ h₁ => ?_
    subst h₁
    refine .ite (fun _ => ?_) (fun _ => hnone)
    exact (infixPart_moves hn hs hk).mono fun _ _ h => ⟨h.1, fun _ => h.2⟩

theorem sequenceExpression_reads (hn : nested.Below n) (hs : Ready (n + 1) s) :
    Ensures (sequenceExpression nested) s fun r s' => Reads s r.toList s' := by
  unfold sequenceExpression
  refine .peek ((prefixedExpression_reads hn hs).bind fun first s₁ h₁ => ?_)
  have hs₁ := hs.reads h₁
  refine (loop_ensures (I := fun nodes s' => Reads s₁ nodes s')
    (R := fun nodes s' => Reads s₁ nodes s') hs₁.settled (.stay hs₁.settled)
    fun nodes s₂ h₂ _ => ?_).bind fun others s₂ h₂ => ?_
  · refine (sequencePart_moves hn (hs₁.reads h₂)).bind fun more s₃ h₃ => .pure ?_
    split
    · rename_i hempty
      rw [List.isEmpty_iff.mp hempty] at h₃
      exact h₂.skip h₃.1
    · rename_i hmore
      exact ⟨h₂.append h₃.1, h₃.1.moved (h₃.2 (Bool.not_eq_true _ ▸ hmore))⟩
  · refine .ite (fun hempty => .pure ?_) (fun _ => .map ?_)
    · rw [List.isEmpty_iff.mp hempty] at h₂
      exact h₁.skip h₂
    · exact finish_reads (h₁.append h₂) (by simp) trivial

theorem missingExpression_reads (hs : s.Settled) :
    Ensures missingExpression s fun r s' => Reads s r.toList s' :=
  .map (missing_reads hs _)

theorem expression_reads (hn : nested.Below n) (hs : Ready (n + 1) s) :
    Ensures (expression nested) s fun r s' => Reads s r.toList s' :=
  guarded_reads hs.settled (fun _ h₁ => missingExpression_reads h₁.settled)
    (sequenceExpression_reads hn hs.deeper)

theorem operand_reads (hn : nested.Below n) (hs : Ready (n + 1) s) :
    Ensures (operand nested) s fun r s' => Reads s r.toList s' :=
  guarded_reads hs.settled (fun _ h₁ => missingExpression_reads h₁.settled)
    (prefixedExpression_reads hn hs.deeper)

end SelfCapture.Grammar
