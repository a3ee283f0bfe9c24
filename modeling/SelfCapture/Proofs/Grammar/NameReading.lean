import SelfCapture.Grammar.SourceFile
import SelfCapture.Proofs.Grammar.FirstStatement
import SelfCapture.Proofs.Grammar.TypeReading

/-! # Names are read back

  A name that stands alone is read as the identifier that it is, both where
  an expression is expected and where a type is, `reader_readNames`.

  An expression goes on as long as a suffix or an operator follows it, and
  a type as long as a mark, a member or an ampersand does.  So what comes
  after the name has to be of a kind that ends what is read.
-/

namespace SelfCapture

open Token (Kind Word)

namespace Grammar

variable {s : State} {nested : Readers} {word : Word} {words : List Word}
  {Q : Option Nat → State → Prop}

/-! ## Section 1: Expressions -/

/-- Kinds of tokens before which an expression ends. -/
def endsExpression : Kind → Bool
  | .comma | .closeParen | .closeBracket | .closeBrace | .endOfFile => true
  | _ => false

theorem suffix?_none (h : s.Faces words) (hwords : StartWith endsExpression words) (pos : Nat)
    (base : Option Nat) :
    Ensures (suffix? nested pos base) s fun r s' => r = none ∧ s' = s := by
  obtain ⟨word, more, rfl, hword⟩ := hwords
  unfold suffix?
  apply Ensures.peek
  rw [show (kind s).1 = word.kind from h.kind_eq]
  -- Every kind of token that goes on with an expression is excluded.
  revert hword
  cases word.kind <;> intro hword <;> first | exact .pure ⟨rfl, rfl⟩ | cases hword

theorem sequencePart_none (h : s.Faces words) (hwords : StartWith endsExpression words) :
    Ensures (sequencePart nested) s fun more s' => more = [] ∧ s' = s := by
  obtain ⟨word, more, rfl, hword⟩ := hwords
  unfold sequencePart
  apply Ensures.peek
  rw [show (kind s).1 = word.kind from h.kind_eq]
  revert hword
  cases word.kind <;> intro hword <;> first | exact .pure ⟨rfl, rfl⟩ | cases hword

/-- An expression is a single operand if it ends after that. -/
theorem sequenceExpression_operand
    (hoperand : Ensures (prefixedExpression nested) s fun r s' => Q r s' ∧ s'.Faces words)
    (hwords : StartWith endsExpression words) :
    Ensures (sequenceExpression nested) s Q := by
  unfold sequenceExpression
  refine .peek (hoperand.bind fun first s₁ h₁ => ?_)
  refine (loop_ensures (I := fun nodes s₂ => nodes = [] ∧ s₂ = s₁)
    (R := fun nodes s₂ => nodes = [] ∧ s₂ = s₁) h₁.2.settled ⟨rfl, rfl⟩ ?_).bind fun others s₂ h₂ => ?_
  · rintro nodes s₂ ⟨rfl, rfl⟩ -
    refine (sequencePart_none h₁.2 hwords).bind fun more s₃ h₃ => ?_
    obtain ⟨rfl, rfl⟩ := h₃
    exact .pure ⟨rfl, rfl⟩
  · obtain ⟨rfl, rfl⟩ := h₂
    exact .pure h₁.1

/-- Kinds of names that are expressions by themselves wherever they stand. -/
def namesValue (kind : Kind) : Bool := kind == .identifier || kind == .selfKeyword

theorem eq_of_namesValue {kind : Kind} (h : namesValue kind = true) :
    kind = .identifier ∨ kind = .selfKeyword := by
  rw [namesValue, Bool.or_eq_true, beq_iff_eq, beq_iff_eq] at h
  exact h

/-- The identifier of the word has been made, and the words after it are ahead. -/
def FindsName (s : State) (word : Word) (words : List Word) (id : Nat) (s' : State) : Prop :=
  ReadsTo s [id] words s' ∧ s'.tree.Identifies word.kind (String.ofList word.chars) id

theorem primary_name (h : s.Faces (word :: words)) (hword : namesValue word.kind = true) :
    Ensures (primary nested) s fun r s' => ∃ id, r = some id ∧ FindsName s word words id s' := by
  have hkind := eq_of_namesValue hword
  have hattribute : word.kind ≠ .atSign := by
    rcases hkind with hk | hk <;> rw [hk] <;> decide
  have hend : word.kind ≠ .endOfFile := by
    rcases hkind with hk | hk <;> rw [hk] <;> decide
  have hname : Ensures (some <$> name) s fun r s' =>
      ∃ id, r = some id ∧ FindsName s word words id s' :=
    .map ((name_identifies h hend).mono fun id s₁ h₁ => ⟨id, rfl, h₁.1, h₁.2.2⟩)
  unfold primary
  refine (skipAttributes_none h hattribute).bind fun _ s₁ h₁ => ?_
  subst h₁
  unfold plainPrimary
  apply Ensures.peek
  rw [show (kind s₁).1 = word.kind from h.kind_eq]
  rcases hkind with hk | hk
  · rw [hk]
    exact hname
  · rw [hk]
    exact hname

/-- An operand that starts with a name has no prefix operator. -/
theorem prefixedExpression_name (h : s.Faces (word :: words)) (hword : namesValue word.kind = true) :
    Ensures (suffixedExpression nested) s Q → Ensures (prefixedExpression nested) s Q := by
  intro hsuffixed
  unfold prefixedExpression
  refine .peek (.peek ?_)
  rw [show (kind s).1 = word.kind from h.kind_eq]
  rcases eq_of_namesValue hword with hk | hk
  · rw [hk]
    exact hsuffixed
  · rw [hk]
    exact hsuffixed

theorem suffixedExpression_name (h : s.Faces (word :: words)) (hword : namesValue word.kind = true)
    (hwords : StartWith endsExpression words) :
    Ensures (suffixedExpression nested) s fun r s' =>
      ∃ id, r = some id ∧ FindsName s word words id s' := by
  unfold suffixedExpression
  refine .peek ((primary_name h hword).bind fun base s₁ h₁ => ?_)
  obtain ⟨id, rfl, hname⟩ := h₁
  refine loop_ensures (I := fun base s₂ => base = some id ∧ s₂ = s₁) hname.1.faces.settled
    ⟨rfl, rfl⟩ ?_
  rintro base s₂ ⟨rfl, rfl⟩ -
  refine (suffix?_none hname.1.faces hwords s.offset _).bind fun r s₃ h₃ => ?_
  obtain ⟨rfl, rfl⟩ := h₃
  exact .pure ⟨id, rfl, hname⟩

/-- A name is a whole expression if nothing goes on with it. -/
theorem expression_name (h : s.Faces (word :: words)) (hword : namesValue word.kind = true)
    (hwords : StartWith endsExpression words) (hdepth : s.depth < maxDepth) :
    Ensures (expression nested) s fun r s' => ∃ id, r = some id ∧ FindsName s word words id s' := by
  have hdeeper := h.deeper
  have hoperand : Ensures (prefixedExpression nested) s.deeper fun r s' =>
      (∃ id, r = some id ∧ FindsName s.deeper word words id s') ∧ s'.Faces words := by
    apply prefixedExpression_name hdeeper hword
    refine (suffixedExpression_name hdeeper hword hwords).mono fun r s₁ h₁ => ⟨h₁, ?_⟩
    obtain ⟨id, -, hname⟩ := h₁
    exact hname.1.faces
  refine guarded_some (fun t id => t.Identifies word.kind (String.ofList word.chars) id) hdepth ?_
  exact sequenceExpression_operand hoperand hwords

end Grammar

/-! ## Section 2: Types -/

/-- The node is a type that is only a name. -/
def Tree.NamesType (t : Tree) (word : Word) (id : Nat) : Prop :=
  ∃ name, t.Formed (.typeRef none name []) id ∧
    t.Identifies word.kind (String.ofList word.chars) name

theorem Tree.NamesType.later {t t' : Tree} {word : Word} {id : Nat} (h : t.NamesType word id)
    (ht : t.Continues t') : t'.NamesType word id := by
  obtain ⟨name, hform, hname⟩ := h
  exact ⟨name, hform.later ht, hname.later ht⟩

namespace Grammar

variable {s : State} {nested : Readers} {word : Word} {words : List Word}

/-- Kinds of tokens before which a type ends that is only a name. -/
def endsTypeName : Kind → Bool
  | .comma | .closeParen | .closeBracket | .openBrace | .endOfFile => true
  | _ => false

/-- The type has been made, and the words after it are ahead. -/
def FindsTypeName (s : State) (word : Word) (words : List Word) (id : Nat) (s' : State) : Prop :=
  ReadsTo s [id] words s' ∧ s'.tree.NamesType word id

/-- A name is no modifier of a type if no type comes after it. -/
theorem alone_name (texts : List String) (hword : word.kind = .identifier)
    (hwords : StartWith endsTypeName words) : Alone texts (word :: words) := by
  refine ⟨word, words, rfl, by rw [hword]; rfl, fun _ _ => hwords.mono ?_⟩
  intro kind hkind
  cases kind <;> first | rfl | cases hkind

theorem genericArguments_none (h : s.Faces words) (hwords : StartWith endsTypeName words) :
    Ensures (genericArguments nested) s fun ids s' => ids = [] ∧ s' = s := by
  obtain ⟨next, more, rfl, hnext⟩ := hwords
  unfold genericArguments
  refine .peek (.peek (.ite (fun hat => ?_) fun _ => .pure ⟨rfl, rfl⟩))
  rw [h.isAt_eq, Bool.and_eq_true, beq_iff_eq] at hat
  rw [hat.1] at hnext
  cases hnext

theorem primaryType_name (h : s.Faces (word :: words)) (hword : word.kind = .identifier)
    (hwords : StartWith endsTypeName words) :
    Ensures (primaryType nested) s (FindsTypeName s word words) := by
  unfold primaryType
  refine .peek (.peek ?_)
  rw [show (kind s).1 = .identifier from h.kind_eq.trans hword]
  refine (atOpaque_plain h (alone_name _ hword hwords)).bind fun found s₁ h₁ => ?_
  obtain ⟨rfl, rfl⟩ := h₁
  refine .ite (fun hopaque => absurd hopaque Bool.false_ne_true) fun _ => ?_
  refine (name_identifies h (by rw [hword]; decide)).bind fun name s₂ h₂ => ?_
  refine (genericArguments_none h₂.1.faces hwords).bind fun generics s₃ h₃ => ?_
  obtain ⟨rfl, rfl⟩ := h₃
  have hmade := finish_faces (.typeRef none name []) h₂.1 (by simp) trivial
  exact hmade.mono fun id s₄ h₄ => ⟨h₄.readsTo, name, h₄.formed, h₂.2.2.later h₄.continues⟩

/-- A type is what it starts with if nothing goes on with it. -/
theorem compositionType_primary {P : Nat → State → Prop}
    (hprimary : Ensures (primaryType nested) s fun id s' => ReadsTo s [id] words s' ∧ P id s')
    (hwords : StartWith endsTypeName words) :
    Ensures (compositionType nested) s fun id s' => ReadsTo s [id] words s' ∧ P id s' := by
  have hsuffixed : Ensures (suffixedType nested) s fun id s' => ReadsTo s [id] words s' ∧ P id s' := by
    unfold suffixedType
    refine .peek (hprimary.bind fun base s₁ h₁ => ?_)
    refine loop_ensures (I := fun type s₂ => type = base ∧ s₂ = s₁) h₁.1.faces.settled ⟨rfl, rfl⟩ ?_
    rintro type s₂ ⟨rfl, rfl⟩ -
    obtain ⟨next, more, rfl, hnext⟩ := hwords
    apply Ensures.peek
    rw [show (kind s₂).1 = next.kind from h₁.1.faces.kind_eq]
    -- Neither a mark nor a member comes next.
    revert hnext
    cases next.kind <;> intro hnext <;> first | exact .pure h₁ | cases hnext
  unfold compositionType
  refine .peek (hsuffixed.bind fun first s₁ h₁ => .peek (.ite (fun hat => ?_) fun _ => .pure h₁))
  obtain ⟨next, more, rfl, hnext⟩ := hwords
  rw [h₁.1.faces.isAt_eq, beq_iff_eq] at hat
  rw [hat] at hnext
  cases hnext

/-- Without attributes and a specifier, a type is its base. -/
theorem type_plain {P : Nat → Tree → Prop} {more : List Word} (h : s.Faces more)
    (halone : Alone typeSpecifiers more) (hdepth : s.depth < maxDepth)
    (hbase : Ensures (compositionType nested) s.deeper fun id s' =>
      ReadsTo s.deeper [id] words s' ∧ P id s'.tree) :
    Ensures (Grammar.type nested) s fun id s' => ReadsTo s [id] words s' ∧ P id s'.tree := by
  have hfaces := h.deeper
  have hattribute : Ensures (isAt .atSign) s.deeper fun found s' => found = false ∧ s' = s.deeper := by
    obtain ⟨first, others, rfl, hstart, -⟩ := halone
    refine .look ⟨?_, rfl⟩
    rw [hfaces.isAt_eq, beq_eq_false_iff_ne]
    intro hat
    rw [hat] at hstart
    cases hstart
  refine guarded_faces (fun id => [id]) P hdepth ?_
  unfold attributedType
  refine .peek ((gatherWhile_none hfaces.settled hattribute).bind fun attributes s₁ h₁ => ?_)
  obtain ⟨rfl, rfl⟩ := h₁
  refine (atSpecifier_plain hfaces halone).bind fun found s₂ h₂ => ?_
  obtain ⟨rfl, rfl⟩ := h₂
  show Ensures (compositionType nested >>= fun base => pure base) s.deeper _
  exact hbase.bind fun base s₃ h₃ => .pure h₃

/-- A name is a whole type if nothing goes on with it. -/
theorem type_name (h : s.Faces (word :: words)) (hword : word.kind = .identifier)
    (hwords : StartWith endsTypeName words) (hdepth : s.depth < maxDepth) :
    Ensures (Grammar.type nested) s (FindsTypeName s word words) := by
  refine type_plain (P := fun id t => t.NamesType word id) h (alone_name _ hword hwords) hdepth ?_
  exact compositionType_primary (primaryType_name h.deeper hword hwords) hwords

/-! ## Section 3: Nested names -/

/-- The readers of nested phrases read back names that stand alone. -/
structure Readers.ReadNames (nested : Readers) : Prop where
  expression : ∀ {word : Word} {words : List Word} {s : State}, s.Faces (word :: words) →
    namesValue word.kind = true → StartWith endsExpression words → s.depth < maxDepth →
    Ensures (nested .expression) s fun r s' => ∃ id, r = some id ∧ FindsName s word words id s'
  type : ∀ {word : Word} {words : List Word} {s : State}, s.Faces (word :: words) →
    word.kind = .identifier → StartWith endsTypeName words → s.depth < maxDepth →
    Ensures (nested .type) s (FindsTypeName s word words)

/-- One more phrase is enough for a name. -/
theorem reader_readNames (count : Nat) : (reader (count + 1)).ReadNames where
  expression h hword hwords hdepth := expression_name h hword hwords hdepth
  type h hword hwords hdepth := type_name h hword hwords hdepth

/-- What is nested in the statements of a text reads back names, and so do
    the phrases nested in it. -/
theorem statementReader_readNames {c : Char} {chars : List Char} {text : String}
    (htext : text = String.ofList (c :: chars)) :
    ∃ inner : Readers, inner.ReadNames ∧ ∀ p, statementReader text p = phrase inner p := by
  have hsize : 0 < text.toByteArray.size := by
    rw [htext, String.toByteArray_ofList, Text.size_utf8Encode_cons]
    exact Nat.add_pos_left c.utf8Size_pos _
  obtain ⟨count, hcount⟩ : ∃ count, 2 * text.toByteArray.size = count + 1 :=
    ⟨2 * text.toByteArray.size - 1, by omega⟩
  refine ⟨reader (count + 1), reader_readNames count, fun p => ?_⟩
  rw [statementReader, hcount]
  rfl

end Grammar
end SelfCapture
