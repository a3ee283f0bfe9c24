import SelfCapture.Proofs.Grammar.SourceFile

/-! # Speculation

  The grammar reads ahead in two ways: a look-ahead always comes back, and
  an attempt comes back when it has no result.  Coming back restores counts
  and a few fields, while the depth and the parents of earlier nodes are
  left as the reading made them.

  What is read ahead is a derivation, like everything that the grammar
  reads, and `Derives.rewind_eq` undoes a derivation.  So coming back gives
  the whole state back, from every state in which a token has been read;
  and these are the only states in which the grammar reads.
-/

namespace SelfCapture.Grammar

open Token (Kind)

variable {s : State}

/-! ## Section 1: Look-aheads -/

/-- The tests of the grammar that look ahead.  Apart from that they look at
    the current token only. -/
inductive LooksAhead : Parse Bool → Prop where
  /-- The colon after a label, or the equals sign after the name of a capture. -/
  | nextToken (k : Kind) : LooksAhead (nextIs (isAt k))
  | typeFollows : LooksAhead typeFollows
  | elementLabel : LooksAhead atElementLabel
  | infixOperator : LooksAhead isInfixHere
  | labelledClosure : LooksAhead atLabelledClosure
  | labelledStatement : LooksAhead atLabelledStatement
  | directive : LooksAhead atDirective
  | declarationKeyword : LooksAhead atDeclarationKeyword
  | classModifier : LooksAhead classIsModifier
  | modifier : LooksAhead modifierPrecedesDeclaration
  | declaration : LooksAhead atDeclaration
  | observers : LooksAhead opensObservers
  | accessors : LooksAhead opensAccessors

theorem nextIsAt_eq (hs : s.Settled) (k : Kind) :
    Ensures (nextIs (isAt k)) s fun _ s' => s' = s := by
  refine (nextIs_eq (R := fun _ => True) hs ?_).mono fun _ _ h => h.1
  exact .look ⟨.stay hs.scan, trivial⟩

/-- A look-ahead leaves the state as it is. -/
theorem LooksAhead.keeps {test : Parse Bool} (h : LooksAhead test) (hs : s.Settled) :
    Ensures test s fun _ s' => s' = s := by
  cases h with
  | nextToken k => exact nextIsAt_eq hs k
  | typeFollows => exact typeFollows_eq hs
  | elementLabel => exact atElementLabel_eq hs
  | infixOperator => exact isInfixHere_eq hs
  | labelledClosure => exact (atLabelledClosure_eq hs).mono fun _ _ h => h.1
  | labelledStatement => exact atLabelledStatement_eq hs
  | directive => exact atDirective_eq hs
  | declarationKeyword => exact atDeclarationKeyword_eq hs
  | classModifier => exact classIsModifier_eq hs
  | modifier => exact modifierPrecedesDeclaration_eq hs
  | declaration => exact atDeclaration_eq hs
  | observers => exact opensObservers_eq hs
  | accessors => exact opensAccessors_eq hs

/-! ## Section 2: Attempts -/

/-- An allowance of twice the bytes ahead is enough for what is nested in a phrase. -/
theorem reader_below_ahead {count n : Nat} (h : 2 * n ≤ count) : (reader count).Below n := by
  intro phrase s hs hstart
  refine reader_serves count phrase hs.settled hstart ?_
  have hcost := phrase.cost_le s
  have hlt := hs.ahead_lt
  omega

/-- After the brace of a closure, a signature that does not work out is undone. -/
theorem signature_undone {count : Nat} (hs : s.Settled) (hk : s.kind = .openBrace)
    (hcount : 2 * s.ahead ≤ count) :
    Ensures (attempt (closureSignature (reader count))) s.advanced fun r s' =>
      r = none → s' = s.advanced := by
  have hend : s.kind ≠ .endOfFile := by
    rw [hk]
    decide
  have hready : Ready s.ahead s.advanced :=
    Ready.moved ⟨hs, Nat.lt_succ_self _⟩ (.advance hs) (hs.offset_lt hend)
  have hbody := closureSignature_reads (reader_below_ahead hcount) hready
  refine (attempt_ensures (Q := fun _ _ => True) (hbody.mono fun r s₁ h₁ => ?_)).mono
    fun r s₁ h₁ hnone => ?_
  · cases r with
    | none => exact h₁
    | some _ => exact trivial
  · subst hnone
    exact h₁

/-- Generic arguments that turn out to be a comparison are undone. -/
theorem specialization_undone {count : Nat} (hs : s.Settled) (hk : s.kind = .lessThan)
    (hcount : 2 * s.ahead ≤ count) :
    Ensures (specialization (reader count)) s fun r s' => r = none → s' = s := by
  have hend : s.kind ≠ .endOfFile := by
    rw [hk]
    decide
  refine (specialization_moves (reader_below_ahead hcount) ⟨hs, Nat.lt_succ_self _⟩ hend).mono
    fun r s₁ h₁ hnone => ?_
  subst hnone
  exact h₁

/-! ## Section 3: All speculation -/

/-- Speculation leaves no trace.  From every state in which a token has been
    read, a look-ahead gives the whole state back; and so does an attempt
    without a result, wherever the grammar makes one: at the signature of a
    closure and at generic arguments, with whatever is nested in them.  The
    allowance `count` for nested phrases is what reading a phrase at `s`
    starts with. -/
theorem speculation_leaves_no_trace :
    (∀ (test : Parse Bool) (s : State), LooksAhead test → s.Settled → (test.run s).2 = s) ∧
    ∀ (count : Nat) (s : State), s.Settled → 2 * s.ahead ≤ count →
      (s.kind = .openBrace →
        ((attempt (closureSignature (reader count))).run s.advanced).1 = none →
        ((attempt (closureSignature (reader count))).run s.advanced).2 = s.advanced) ∧
      (s.kind = .lessThan →
        ((specialization (reader count)).run s).1 = none →
        ((specialization (reader count)).run s).2 = s) := by
  refine ⟨fun test s htest hs => (htest.keeps hs).holds, ?_⟩
  intro count s hs hcount
  exact ⟨fun hk => (signature_undone hs hk hcount).holds,
    fun hk => (specialization_undone hs hk hcount).holds⟩

/-- What looks like a capture list, with an interpolated string in it, is
    read and undone when no `in` follows. -/
theorem speculation_undone_after_captures :
    let s := (State.ofText "\x7b[x = \"\\(y)\"] z\x7d").advanced
    let signature := attempt (closureSignature (reader 40))
    (s.Settled ∧ 2 * s.ahead ≤ 40 ∧ s.kind = .openBrace ∧ (signature.run s.advanced).1.isNone) ∧
      (signature.run s.advanced).2 = s.advanced := by
  intro s signature
  have hs : s.Settled := ofText_settled _
  have hahead : 2 * s.ahead ≤ 40 := by decide +kernel
  have hk : s.kind = .openBrace := by decide +kernel
  have hnone : (signature.run s.advanced).1.isNone := by decide +kernel
  refine ⟨⟨hs, hahead, hk, hnone⟩, ?_⟩
  exact (speculation_leaves_no_trace.2 40 s hs hahead).1 hk (Option.isNone_iff_eq_none.mp hnone)

end SelfCapture.Grammar
