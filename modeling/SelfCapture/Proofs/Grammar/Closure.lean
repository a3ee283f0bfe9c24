import SelfCapture.Grammar.Closure
import SelfCapture.Proofs.Grammar.Nested

/-! # Closures are derivations

  A signature is read tentatively: when it does not work out, the nodes
  made for it are dropped.  A closure starts at a brace, also the labelled
  ones after the first, because their rule is only used after looking two
  tokens ahead.
-/

namespace SelfCapture.Grammar

open Token (Kind)

variable {n : Nat} {s s' : State} {nested : Readers} {ids : List Nat}

/-! ## Section 1: Lists that may fail -/

/-- A list that has not failed so far, with the nodes read for it. -/
def Collected (s : State) : Option (List Nat) → State → Prop
  | some ids, s' => Reads s ids s'
  | none, _ => False

/-- What follows an item of a list that may fail: a comma, after which the
    list goes on, or its end. -/
theorem comma_advances? {node : Nat} {s₁ s₂ : State} (h₁ : Reads s ids s₁)
    (h₂ : Reads s₁ [node] s₂) :
    Ensures
      (do
        if ← accept .comma then return .yield (some (ids ++ [node]))
        else return .done (some (ids ++ [node])))
      s₂ (Advances (Collected s) (fun nodes s' => Reads s (nodes.getD []) s') s₁) := by
  refine (accept_moves h₂.settled (by decide)).bind fun found s₃ h₃ => ?_
  have hstep : Reads s₁ [node] s₃ := h₂.append h₃.1
  refine .ite (fun hfound => .pure ?_) (fun _ => .pure (h₁.append hstep))
  exact ⟨h₁.append hstep, hstep.moved (Nat.lt_of_le_of_lt h₂.offset_le (h₃.2 hfound))⟩

/-- A list that could not be completed leaves no nodes. -/
theorem enclosed?_reads {closer : Kind} {item : Parse (Option Nat)} (hs : s.Settled)
    (hitem : ∀ ids s₁, Reads s ids s₁ → Ensures item s₁ fun r s₂ => Reads s₁ r.toList s₂) :
    Ensures (enclosed? closer item) s fun r s' => Reads s (r.getD []) s' := by
  unfold enclosed?
  have hinit : Collected s (some []) s := .stay hs
  -- The loop is left as soon as an item fails, so it never goes on without a list.
  refine (loop_ensures (I := Collected s) (R := fun nodes s' => Reads s (nodes.getD []) s')
    hs hinit fun nodes s₁ hI _ => ?_).bind fun nodes s₁ h₁ => ?_
  · cases nodes with
    | none => exact hI.elim
    | some ids =>
      refine .peek (.ite (fun _ => .pure hI) (fun _ => ?_))
      refine (hitem ids s₁ hI).bind fun r s₂ h₂ => ?_
      cases r with
      | none => exact .pure (hI.append h₂).forget
      | some node => exact comma_advances? hI h₂
  · cases nodes with
    | none => exact .pure h₁
    | some ids =>
      refine (accept_reads h₁.settled closer).bind fun _ s₂ h₂ => ?_
      have hall := h₁.skip h₂.1
      exact .ite (fun _ => .pure hall) (fun _ => .pure hall.forget)

/-! ## Section 2: Captures -/

instance : Peeks ownership := by
  unfold ownership
  infer_instance

instance (node : Option Nat) : Peeks (isMissing node) := by
  cases node with
  | none => exact ⟨fun _ => rfl⟩
  | some id => exact ⟨fun _ => rfl⟩

theorem ownershipDetail_reads (hs : s.Settled) :
    Ensures ownershipDetail s fun _ s' => Reads s [] s' := by
  unfold ownershipDetail
  refine .peek (.peek (.ite (fun _ => ?_) (fun _ => .pure (.stay hs))))
  refine (advance_reads hs).bind fun _ s₁ h₁ => .peek (.ite (fun _ => ?_) (fun _ => .pure h₁.2))
  refine (advance_reads h₁.2.settled).bind fun _ s₂ h₂ => ?_
  exact (accept_reads h₂.2.settled _).mono fun _ s₃ h₃ => (h₁.2.append h₂.2).append h₃.1

theorem captureName_reads (hs : s.Settled) :
    Ensures captureName s fun r s' => Reads s r.toList s' :=
  nameBefore_reads hs .equals

theorem captureItem_reads (hn : nested.Below n) (hs : Ready n s) :
    Ensures (captureItem nested) s fun r s' => Reads s r.toList s' := by
  unfold captureItem
  refine .peek (.peek ?_)
  extract_lets rest
  have hrest : ∀ acceptable s₁, Reads s [] s₁ →
      Ensures (rest acceptable) s₁ fun r s' => Reads s r.toList s' := by
    intro acceptable s₁ h₁
    refine .ite (fun _ => ?_) (fun _ => .pure h₁)
    refine (captureName_reads h₁.settled).bind fun name s₂ h₂ => ?_
    have hname := h₁.append h₂
    refine (hn.expression (hs.reads hname)).bind fun expression s₃ h₃ => ?_
    -- An item without an expression is none; its name is not used.
    refine .peek (.ite (fun _ => .pure (hname.append h₃).forget) (fun _ => .map ?_))
    exact finish_reads (hname.append h₃) (by simp) trivial
  refine .ite (fun _ => hrest true s (.stay hs.settled)) (fun _ => ?_)
  refine (advance_reads hs.settled).bind fun _ s₁ h₁ => ?_
  refine (ownershipDetail_reads h₁.2.settled).bind fun acceptable s₂ h₂ => ?_
  exact hrest acceptable s₂ (h₁.2.append h₂)

theorem captureList_reads (hn : nested.Below n) (hs : Ready n s) :
    Ensures (captureList nested) s fun r s' => Reads s (r.getD []) s' := by
  unfold captureList
  refine .peek (.ite (fun _ => ?_) (fun _ => .pure (.stay hs.settled)))
  refine (advance_reads hs.settled).bind fun _ s₁ h₁ => ?_
  have hs₁ := hs.reads h₁.2
  refine (enclosed?_reads hs₁.settled fun ids s₂ h₂ => ?_).mono fun _ _ h => h₁.2.append h
  exact captureItem_reads hn (hs₁.reads h₂)

/-! ## Section 3: Parameters -/

theorem closureParameter_reads (hn : nested.Below n) (hs : Ready n s) :
    Ensures (closureParameter nested) s fun r s' => Reads s r.toList s' := by
  unfold closureParameter
  refine .peek ((skipAttributes_reads hs.settled).bind fun _ s₁ h₁ => .peek ?_)
  refine .ite (fun _ => ?_) (fun _ => .pure h₁)
  refine (name_reads h₁.settled).bind fun first s₂ h₂ => ?_
  refine (name?_reads h₂.1.settled).bind fun second s₃ h₃ => ?_
  have hnames := (h₁.append h₂.1).append h₃
  refine (typeClause_reads hn (hs.reads hnames)).bind fun type s₄ h₄ => ?_
  refine (skipVariadicMark_reads h₄.settled).bind fun _ s₅ h₅ => .map ?_
  exact finish_reads ((hnames.append h₄).append h₅) (by simp) trivial

instance : Peeks atBareParameter := by
  unfold atBareParameter
  infer_instance

theorem bareParameters_reads (hs : s.Settled) :
    Ensures bareParameters s fun r s' => Reads s (r.getD []) s' := by
  unfold bareParameters
  refine loop_ensures (I := Collected s) hs (Derives.stay hs) fun names s₁ hI hs₁ => ?_
  cases names with
  | none => exact hI.elim
  | some ids =>
    refine .peek (.ite (fun _ => ?_) (fun _ => .pure hI.forget))
    exact (name_reads hs₁).bind fun name s₂ h₂ => comma_advances? hI h₂.1

theorem closureParameters_reads (hn : nested.Below n) (hs : Ready n s) :
    Ensures (closureParameters nested) s fun r s' =>
      Reads s (r.elim [] ClosureParameters.nodes) s' := by
  unfold closureParameters
  refine .peek (.ite (fun _ => ?_) (fun _ => .peek (.ite (fun _ => ?_) (fun _ => ?_))))
  · refine (advance_reads hs.settled).bind fun _ s₁ h₁ => ?_
    have hs₁ := hs.reads h₁.2
    refine (enclosed?_reads hs₁.settled fun ids s₂ h₂ => ?_).bind fun r s₂ h₂ => .pure ?_
    · exact closureParameter_reads hn (hs₁.reads h₂)
    · cases r with
      | none => exact h₁.2.append h₂
      | some parameters => exact h₁.2.append h₂
  · refine (bareParameters_reads hs.settled).bind fun r s₁ h₁ => .pure ?_
    cases r with
    | none => exact h₁
    | some names => exact h₁
  · exact .pure (.stay hs.settled)

/-! ## Section 4: Signatures -/

/-- The nodes of a signature. -/
def Signature.nodes (signature : Signature) : List Nat :=
  signature.captures ++ signature.parameters.nodes ++ signature.result.toList

theorem closureSignature_reads (hn : nested.Below n) (hs : Ready n s) :
    Ensures (closureSignature nested) s fun r s' => Reads s (r.elim [] Signature.nodes) s' := by
  unfold closureSignature
  refine (skipAttributes_reads hs.settled).bind fun _ s₁ h₁ => ?_
  refine (captureList_reads hn (hs.reads h₁)).bind fun captures s₂ h₂ => ?_
  have hcaptures := h₁.append h₂
  cases captures with
  | none => exact .pure hcaptures.forget
  | some captures =>
    refine (closureParameters_reads hn (hs.reads hcaptures)).bind fun parameters s₃ h₃ => ?_
    have hparameters := hcaptures.append h₃
    cases parameters with
    | none => exact .pure hparameters.forget
    | some parameters =>
      refine (skipEffects_reads h₃.settled).bind fun _ s₄ h₄ => ?_
      refine (accept_reads h₄.settled _).bind fun _ s₅ h₅ => ?_
      have hhead := (hparameters.append h₄).append h₅.1
      refine .branch (P := fun result s₆ => Reads s₅ (Option.toList result) s₆)
        (fun _ => .map (hn.type (hs.reads hhead))) (fun _ => .pure (.stay hhead.settled))
        fun result s₆ h₆ => ?_
      refine (accept_reads h₆.settled _).bind fun _ s₇ h₇ => ?_
      have hall := (hhead.append h₆).append h₇.1
      -- Without `in` what was read was no signature.
      refine .ite (fun _ => .pure ?_) (fun _ => .pure hall.forget)
      simpa [Signature.nodes] using hall

theorem optionalSignature_reads (hn : nested.Below n) (hs : Ready n s) :
    Ensures (optionalSignature nested) s fun signature s' => Reads s signature.nodes s' := by
  unfold optionalSignature
  have hbody := (closureSignature_reads hn hs).mono fun r s₁ h₁ =>
    show r.elim (Reads s [] s₁) fun signature => Reads s signature.nodes s₁ by
      cases r with
      | none => exact h₁
      | some signature => exact h₁
  refine (attempt_ensures hbody).bind fun r s₁ h₁ => .pure ?_
  cases r with
  | none =>
    -- A failed attempt has been undone.
    rw [show s₁ = s from h₁]
    exact .stay hs.settled
  | some signature => exact h₁

/-! ## Section 5: Closures -/

/-- A closure is left behind, and its node is a closure. -/
theorem closure_moves (hn : nested.Below n) (hs : Ready (n + 1) s) (hk : s.kind = .openBrace) :
    Ensures (closure nested) s fun id s' =>
      Reads s [id] s' ∧ s.offset < s'.offset ∧ s'.tree.isClosure id = true := by
  unfold closure
  have hend : s.kind ≠ .endOfFile := by
    rw [hk]
    decide
  refine .peek ((advance_reads hs.settled).bind fun _ s₁ h₁ => ?_)
  obtain ⟨rfl, h₁⟩ := h₁
  have hlt := hs.settled.offset_lt hend
  have hs₁ := hs.moved h₁ hlt
  refine (optionalSignature_reads hn hs₁).bind fun signature s₂ h₂ => ?_
  have hs₂ := (hs₁.reads h₂).under {}
  have hbody := (statementsUntil_reads hn hs₂ (isAt .closeBrace)).mono fun _ _ h => h.1
  refine (unrestricted_reads hbody).bind fun statements s₃ h₃ => ?_
  refine (expect_reads h₃.settled (by decide) _).bind fun _ s₄ h₄ => ?_
  have hparts := (h₂.append h₃).append h₄.1
  have hchildren : (Form.closure signature.captures signature.parameters signature.result
      statements).children = signature.nodes ++ statements ++ [] := by
    simp [Signature.nodes]
  rw [← hchildren] at hparts
  -- The parts were read from the token after the brace on.
  refine ⟨.closure hs.settled hk hparts, hparts.offset_lt hlt, ?_⟩
  show (s₄.tree.add _ _ _).isClosure s₄.tree.nextId = true
  rw [Tree.isClosure, Tree.form?_add, if_pos rfl]

/-- Where a further trailing closure is found, its brace is two tokens on. -/
theorem atLabelledClosure_eq (hs : s.Settled) :
    Ensures atLabelledClosure s fun found s' => s' = s ∧
      (found = true → s.kind ≠ .endOfFile ∧ s.advanced.advanced.kind = .openBrace) := by
  unfold atLabelledClosure
  refine .peek (.ite (fun hname => ?_) (fun _ => .pure ⟨rfl, nofun⟩))
  have hk : s.kind ≠ .endOfFile := by
    simp only [Bool.and_eq_true] at hname
    exact ne_end_of_isName hname.1.1
  refine lookAhead_eq ?_
  refine (advance_reads hs).bind fun _ s₁ h₁ => ?_
  refine (accept_reads h₁.2.settled _).bind fun colon s₂ h₂ => ?_
  have hread := h₁.2.append h₂.1
  refine .ite (fun hcolon => .look ⟨hread, fun hbrace => ⟨hk, ?_⟩⟩) (fun _ => .pure ⟨hread, nofun⟩)
  have hstate := (h₂.2.1 hcolon).2
  rw [hstate, h₁.1] at hbrace
  exact kind_eq_of_isAt hbrace

theorem labelledClosure_moves (hn : nested.Below n) (hs : Ready (n + 1) s)
    (hk : s.kind ≠ .endOfFile) (hbrace : s.advanced.advanced.kind = .openBrace) :
    Ensures (labelledClosure nested) s fun id s' => Reads s [id] s' ∧ s.offset < s'.offset := by
  unfold labelledClosure
  refine .peek ((name_reads hs.settled).bind fun label s₁ h₁ => ?_)
  have hlt : s.offset < s₁.offset := by
    rw [State.offset, State.offset, h₁.2]
    exact hs.settled.offset_lt hk
  refine (advance_reads h₁.1.settled).bind fun _ s₂ h₂ => ?_
  have hk₂ : s₂.kind = .openBrace := by
    rw [h₂.1, State.kind, State.advanced, h₁.2]
    exact hbrace
  have hs₂ := (hs.moved h₁.1 hlt).reads h₂.2
  refine (closure_moves hn hs₂.succ hk₂).bind fun expression s₃ h₃ => ?_
  have hrest := h₂.2.append h₃.1
  exact finish_moves (h₁.1.append hrest) (hrest.offset_lt hlt) (by simp) trivial

theorem trailingClosures_moves (hn : nested.Below n) (hs : Ready (n + 1) s)
    (hk : s.kind = .openBrace) :
    Ensures (trailingClosures nested) s fun r s' =>
      Reads s (r.1 :: r.2) s' ∧ s.offset < s'.offset ∧ s'.tree.isClosure r.1 = true := by
  unfold trailingClosures
  refine (closure_moves hn hs hk).bind fun first s₁ h₁ => ?_
  have hs₁ := hs.moved h₁.1 h₁.2.1
  refine (gatherWhile_reads hs₁.settled fun ids s₂ h₂ => ?_).bind fun additional s₂ h₂ => .pure ?_
  · refine (atLabelledClosure_eq h₂.settled).mono fun found s₃ h₃ => ?_
    obtain ⟨rfl, hfound⟩ := h₃
    refine ⟨.stay h₂.settled, fun htrue => ?_⟩
    obtain ⟨hk₃, hbrace⟩ := hfound htrue
    exact (labelledClosure_moves hn (hs₁.reads h₂).succ hk₃ hbrace).bind fun id s₄ h₄ => .pure h₄
  · refine ⟨h₁.1.append h₂, h₂.offset_lt h₁.2.1, ?_⟩
    -- The first closure is still one after the others have been made.
    exact h₂.grows.isClosure h₁.2.2

end SelfCapture.Grammar
