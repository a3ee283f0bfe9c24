import SelfCapture.Grammar.TypeName
import SelfCapture.Proofs.Grammar.Nested

/-! # Types are derivations

  A type may consume nothing, when none starts at the current token.  Types
  nested in it come after a bracket, a dot, a name or a specifier.
-/

namespace SelfCapture.Grammar

open Token (Kind)

variable {n : Nat} {s s' : State} {nested : Readers} {ids : List Nat}

/-! ## Section 1: Where a type starts -/

theorem typeFollows_eq (hs : s.Settled) : Ensures typeFollows s fun _ s' => s' = s := by
  unfold typeFollows
  refine (nextIs_eq (R := fun _ => True) hs ?_).mono fun _ _ h => h.1
  exact .look ⟨.stay hs.scan, trivial⟩

theorem atSpecifier_eq (hs : s.Settled) : Ensures atSpecifier s fun _ s' => s' = s := by
  unfold atSpecifier
  refine .peek (.ite (fun _ => .pure rfl) (fun _ => .peek ?_))
  exact .ite (fun _ => typeFollows_eq hs) (fun _ => .pure rfl)

theorem atOpaque_eq (hs : s.Settled) : Ensures atOpaque s fun _ s' => s' = s := by
  unfold atOpaque
  exact .peek (.ite (fun _ => typeFollows_eq hs) (fun _ => .pure rfl))

/-! ## Section 2: Parts of types -/

theorem typeAttribute_moves (hs : s.Settled) (hk : s.kind ≠ .endOfFile) :
    Ensures typeAttribute s fun id s' => Reads s [id] s' ∧ s.offset < s'.offset := by
  unfold typeAttribute
  refine .peek ((advance_moves hs hk).bind fun _ s₁ h₁ => ?_)
  refine (nameOr_reads h₁.1.settled _).bind fun name s₂ h₂ => ?_
  refine (skipAttachedParens_reads h₂.settled).bind fun _ s₃ h₃ => ?_
  have hrest := h₂.append h₃
  exact finish_moves (h₁.1.append hrest) (hrest.offset_lt h₁.2) (by simp) trivial

theorem genericArguments_reads (hn : nested.Below n) (hs : Ready n s) :
    Ensures (genericArguments nested) s fun ids s' => Reads s ids s' := by
  unfold genericArguments
  refine .peek (.peek (.ite (fun _ => ?_) (fun _ => .pure (.stay hs.settled))))
  refine (advance_reads hs.settled).bind fun _ s₁ h₁ => ?_
  have hs₁ := hs.reads h₁.2
  refine (separatedUntil_reads hs₁.settled fun ids s₂ h₂ => ?_).bind fun arguments s₂ h₂ => ?_
  · exact (hn.type (hs₁.reads h₂)).bind fun _ _ h => .pure h
  · refine (expect_reads h₂.settled (by decide) _).bind fun _ s₃ h₃ => .pure ?_
    simpa using (h₁.2.append h₂).append h₃.1

theorem atElementLabel_eq (hs : s.Settled) : Ensures atElementLabel s fun _ s' => s' = s := by
  unfold atElementLabel
  refine .peek (.ite (fun _ => ?_) (fun _ => .pure rfl))
  refine (lookAhead_eq (R := fun _ => True) ?_).mono fun _ _ h => h.1
  refine (advance_reads hs).bind fun _ s₁ h₁ => .peek ?_
  refine .ite (fun _ => .pure ⟨h₁.2, trivial⟩) (fun _ => .peek ?_)
  refine .ite (fun _ => ?_) (fun _ => .pure ⟨h₁.2, trivial⟩)
  refine (advance_reads h₁.2.settled).bind fun _ s₂ h₂ => .look ?_
  exact ⟨h₁.2.append h₂.2, trivial⟩

theorem elementLabels_reads (hs : s.Settled) :
    Ensures elementLabels s fun r s' => Reads s (r.1.toList ++ r.2.toList) s' := by
  unfold elementLabels
  refine (atElementLabel_eq hs).bind fun _ s₁ h₁ => ?_
  subst h₁
  refine .ite (fun _ => ?_) (fun _ => .pure (.stay hs))
  refine (name_reads hs).bind fun first s₂ h₂ => .peek ?_
  refine .branch (P := fun second s₃ => Reads s₂ (Option.toList second) s₃)
    (fun _ => .pure (.stay h₂.1.settled)) (fun _ => ?_) fun second s₃ h₃ => ?_
  · exact .map ((name_reads h₂.1.settled).mono fun _ _ h => h.1)
  · refine (advance_reads h₃.settled).bind fun _ s₄ h₄ => .pure ?_
    simpa using (h₂.1.append h₃).append h₄.2

theorem tupleTypeElement_reads (hn : nested.Below n) (hs : Ready n s) :
    Ensures (tupleTypeElement nested) s fun id s' => Reads s [id] s' := by
  unfold tupleTypeElement
  refine .peek ((elementLabels_reads hs.settled).bind fun labels s₁ h₁ => ?_)
  obtain ⟨first, second⟩ := labels
  refine (hn.type (hs.reads h₁)).bind fun type s₂ h₂ => ?_
  refine (skipVariadicMark_reads h₂.settled).bind fun _ s₃ h₃ => ?_
  refine (accept_reads h₃.settled _).bind fun _ s₄ h₄ => ?_
  have hread := ((h₁.append h₂).append h₃).append h₄.1
  extract_lets rest
  have hrest : ∀ s₅, Reads s₄ [] s₅ → Ensures (rest ()) s₅ fun id s' => Reads s [id] s' :=
    fun s₅ h₅ => finish_reads (hread.append h₅) (by simp) trivial
  refine .ite (fun _ => ?_) (fun _ => hrest s₄ (.stay hread.settled))
  -- The default value leaves no node behind.
  exact (hn.expression (hs.reads hread)).bind fun _ s₅ h₅ => hrest s₅ h₅.forget

theorem tupleTypeElements_moves (hn : nested.Below n) (hs : Ready (n + 1) s)
    (hk : s.kind ≠ .endOfFile) :
    Ensures (tupleTypeElements nested) s fun ids s' => Reads s ids s' ∧ s.offset < s'.offset := by
  unfold tupleTypeElements
  refine (advance_moves hs.settled hk).bind fun _ s₁ h₁ => ?_
  have hs₁ := hs.moved h₁.1 h₁.2
  refine (separatedUntil_reads hs₁.settled fun ids s₂ h₂ => ?_).bind fun elements s₂ h₂ => ?_
  · exact (tupleTypeElement_reads hn (hs₁.reads h₂)).bind fun _ _ h => .pure h
  · refine (closeList_reads h₂.settled _ _ _).bind fun _ s₃ h₃ => .pure ?_
    have hrest : Reads s₁ elements s₃ := by simpa using h₂.append h₃
    exact ⟨h₁.1.append hrest, hrest.offset_lt h₁.2⟩

theorem tupleType_reads (hn : nested.Below n) (hs : Ready (n + 1) s) (hk : s.kind ≠ .endOfFile) :
    Ensures (tupleType nested) s fun id s' => Reads s [id] s' := by
  unfold tupleType
  refine .peek ((tupleTypeElements_moves hn hs hk).bind fun elements s₁ h₁ => ?_)
  exact finish_reads h₁.1 (by simp) trivial

theorem tupleOrFunctionType_reads (hn : nested.Below n) (hs : Ready (n + 1) s)
    (hk : s.kind ≠ .endOfFile) :
    Ensures (tupleOrFunctionType nested) s fun id s' => Reads s [id] s' := by
  unfold tupleOrFunctionType
  refine .peek ((tupleTypeElements_moves hn hs hk).bind fun elements s₁ h₁ => ?_)
  have hs₁ := hs.moved h₁.1 h₁.2
  refine (skipEffects_reads h₁.1.settled).bind fun _ s₂ h₂ => ?_
  refine (accept_reads h₂.settled _).bind fun _ s₃ h₃ => ?_
  have hhead := h₂.append h₃.1
  -- An arrow makes it a function type; effects without an arrow are an issue.
  refine .ite (fun _ => ?_) (fun _ => .ite (fun _ => ?_) (fun _ => ?_))
  · refine (hn.type (hs₁.reads hhead)).bind fun result s₄ h₄ => ?_
    exact finish_reads (h₁.1.append (hhead.append h₄)) (by simp) trivial
  · refine (reportExpected_reads hhead.settled _).bind fun _ s₄ h₄ => ?_
    exact finish_reads (h₁.1.append (hhead.append h₄.1)) (by simp) trivial
  · exact finish_reads (h₁.1.append hhead) (by simp) trivial

theorem collectionType_reads (hn : nested.Below n) (hs : Ready (n + 1) s)
    (hk : s.kind ≠ .endOfFile) :
    Ensures (collectionType nested) s fun id s' => Reads s [id] s' := by
  unfold collectionType
  refine .peek ((advance_moves hs.settled hk).bind fun _ s₁ h₁ => ?_)
  have hs₁ := hs.moved h₁.1 h₁.2
  refine (hn.type hs₁).bind fun element s₂ h₂ => ?_
  refine (accept_reads h₂.settled _).bind fun _ s₃ h₃ => ?_
  have hhead := h₂.append h₃.1
  extract_lets rest
  have hrest : ∀ value s₄, Reads s₃ value s₄ →
      Ensures (rest value) s₄ fun id s' => Reads s [id] s' := by
    intro value s₄ h₄
    refine (expect_reads h₄.settled (by decide) _).bind fun _ s₅ h₅ => ?_
    exact finish_reads (h₁.1.append (hhead.append (h₄.append h₅.1))) (by simp) trivial
  refine .ite (fun _ => ?_) (fun _ => hrest [] s₃ (.stay hhead.settled))
  exact (hn.type (hs₁.reads hhead)).bind fun value s₄ h₄ => hrest [value] s₄ h₄

/-! ## Section 3: Types -/

/-- A name with its generic arguments. -/
theorem namedType_reads (hn : nested.Below n) (hs : Ready (n + 1) s) (hk : s.kind ≠ .endOfFile) :
    Ensures
      (do
        let name ← name
        let generics ← genericArguments nested
        finish (.typeRef none name generics) s.offset)
      s fun id s' => Reads s [id] s' := by
  refine (name_moves hs.settled hk).bind fun name s₁ h₁ => ?_
  refine (genericArguments_reads hn (hs.moved h₁.1 h₁.2)).bind fun generics s₂ h₂ => ?_
  exact finish_reads (h₁.1.append h₂) (by simp) trivial

theorem primaryType_reads (hn : nested.Below n) (hs : Ready (n + 1) s) :
    Ensures (primaryType nested) s fun id s' => Reads s [id] s' := by
  unfold primaryType
  refine .peek (.peek ?_)
  split
  · rename_i hk
    have hk := ne_end_of_kind hk (by decide)
    refine (atOpaque_eq hs.settled).bind fun _ s₁ h₁ => ?_
    subst h₁
    refine .ite (fun _ => .peek ?_) (fun _ => namedType_reads hn hs hk)
    refine (advance_moves hs.settled hk).bind fun _ s₂ h₂ => ?_
    refine (hn.composition (hs.moved h₂.1 h₂.2)).bind fun base s₃ h₃ => ?_
    exact finish_reads (h₂.1.append h₃) (by simp) trivial
  · rename_i hk
    exact namedType_reads hn hs (ne_end_of_kind hk (by decide))
  · rename_i hk
    exact tupleOrFunctionType_reads hn hs (ne_end_of_kind hk (by decide))
  · rename_i hk
    exact collectionType_reads hn hs (ne_end_of_kind hk (by decide))
  · exact missing_reads hs.settled _

/-- The mark after a type, `?` or `!`. -/
theorem optionalMark_advances {type : Nat} {s₁ : State} (h₁ : Reads s [type] s₁)
    (hk : s₁.kind ≠ .endOfFile) :
    Ensures
      (do
        if ← afterBlank then
          return .done type
        else
          let implicitlyUnwrapped ← isAt .exclamation
          advance
          return .yield (← finish (.optionalType type implicitlyUnwrapped) s.offset))
      s₁ (Advances (fun type s' => Reads s [type] s') (fun type s' => Reads s [type] s') s₁) := by
  refine .peek (.ite (fun _ => .pure h₁) (fun _ => .peek ?_))
  refine (advance_moves h₁.settled hk).bind fun _ s₂ h₂ => ?_
  refine (finish_step (h₁.append h₂.1) (h₂.1.moved h₂.2) (by simp) (by trivial)).bind ?_
  exact fun _ _ h => .pure h

theorem suffixedType_reads (hn : nested.Below n) (hs : Ready (n + 1) s) :
    Ensures (suffixedType nested) s fun id s' => Reads s [id] s' := by
  unfold suffixedType
  refine .peek ((primaryType_reads hn hs).bind fun base s₁ h₁ => ?_)
  refine loop_ensures (I := fun type s' => Reads s [type] s') h₁.settled h₁
    fun type s₂ h₂ hs₂ => .peek ?_
  split
  · rename_i hk
    exact optionalMark_advances h₂ (ne_end_of_kind hk (by decide))
  · rename_i hk
    exact optionalMark_advances h₂ (ne_end_of_kind hk (by decide))
  · rename_i hk
    have hk := ne_end_of_kind hk (by decide)
    refine .peek (.ite (fun _ => .pure h₂) (fun _ => ?_))
    refine (advance_moves hs₂ hk).bind fun _ s₃ h₃ => .peek ?_
    have hdot : Reads s [type] s₃ := h₂.append h₃.1
    -- The new node takes in the type before the dot, so the round itself is no derivation.
    refine .ite (fun _ => ?_) (fun _ => ?_)
    · refine (name_reads h₃.1.settled).bind fun name s₄ h₄ => ?_
      have hs₄ := hs.moved (hdot.append h₄.1) (Nat.lt_of_le_of_lt h₂.offset_le
        (h₄.1.offset_lt h₃.2))
      refine (genericArguments_reads hn hs₄).bind fun generics s₅ h₅ => ?_
      have hmember := h₄.1.append h₅
      have hmoved := (h₃.1.append hmember).moved (hmember.offset_lt h₃.2)
      refine (finish_step (hdot.append hmember) hmoved (by simp) (by trivial)).bind ?_
      exact fun _ _ h => .pure h
    · refine (reportExpected_reads h₃.1.settled _).bind fun _ s₄ h₄ => .pure ?_
      exact hdot.append h₄.1
  · exact .pure h₂

theorem compositionType_reads (hn : nested.Below n) (hs : Ready (n + 1) s) :
    Ensures (compositionType nested) s fun id s' => Reads s [id] s' := by
  unfold compositionType
  refine .peek ((suffixedType_reads hn hs).bind fun first s₁ h₁ => .peek ?_)
  refine .ite (fun _ => ?_) (fun _ => .pure h₁)
  have hs₁ := hs.reads h₁
  refine (gatherWhile_reads hs₁.settled fun ids s₂ h₂ => ?_).bind fun others s₂ h₂ => ?_
  · refine (accept_moves h₂.settled (by decide)).mono fun found s₃ h₃ => ⟨h₃.1, fun hfound => ?_⟩
    refine (suffixedType_reads hn ((hs₁.reads h₂).reads h₃.1)).bind fun id s₄ h₄ => .pure ?_
    exact ⟨h₄, h₄.offset_lt (h₃.2 hfound)⟩
  · exact finish_reads (h₁.append h₂) (by simp) trivial

theorem attributedType_reads (hn : nested.Below n) (hs : Ready (n + 1) s) :
    Ensures (attributedType nested) s fun id s' => Reads s [id] s' := by
  unfold attributedType
  refine .peek ((gatherWhile_reads hs.settled fun ids s₁ h₁ => .look ⟨.stay h₁.settled, ?_⟩).bind
    fun attributes s₁ h₁ => ?_)
  · intro hat
    have hk := ne_end_of_isAt hat (by decide)
    exact (typeAttribute_moves h₁.settled hk).bind fun id s₂ h₂ => .pure h₂
  · refine (atSpecifier_eq h₁.settled).bind fun _ s₂ h₂ => ?_
    subst h₂
    refine .branch (P := fun specifier s₃ => Reads s₂ (Option.toList specifier) s₃) (fun _ => ?_)
      (fun _ => .pure (.stay h₁.settled)) fun specifier s₃ h₃ => ?_
    · exact .map ((name_reads h₁.settled).mono fun _ _ h => h.1)
    · have hhead := h₁.append h₃
      refine (compositionType_reads hn (hs.reads hhead)).bind fun base s₄ h₄ => ?_
      refine .ite (fun hplain => .pure ?_) (fun _ => ?_)
      · -- Without an attribute or a specifier the base is all that was read.
        simp only [Bool.and_eq_true, List.isEmpty_iff, Option.isNone_iff_eq_none] at hplain
        rw [hplain.1, hplain.2] at hhead
        exact hhead.append h₄
      · exact finish_reads (hhead.append h₄) (by simp) trivial

theorem type_reads (hn : nested.Below n) (hs : Ready (n + 1) s) :
    Ensures (type nested) s fun id s' => Reads s [id] s' :=
  guarded_reads hs.settled (fun _ h₁ => missing_reads h₁.settled _)
    (attributedType_reads hn hs.deeper)

end SelfCapture.Grammar
