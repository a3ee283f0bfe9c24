import SelfCapture.Check.SelfUse
import SelfCapture.Proofs.Grammar.ClosureSyntax

/-! # Closure signatures are read back

  A trailing closure with a signature and no statements is read as a call
  whose closure has the captures and the parameters that are written,
  `parse_signature`.

  That there is a signature shows only at the `in`.  The brackets of the
  captures could as well be a collection, and a captured value is read by
  the rule for expressions.  So the words are followed up to the `in`,
  where the attempt to read a signature succeeds.
-/

namespace SelfCapture

open Token (Kind Name Word spellOut Legible)

/-! ## Section 1: What the nodes show -/

namespace Tree

/-- The node is the name. -/
def NamesBinding (t : Tree) (name : BindingName) (id : Nat) : Prop :=
  t.Identifies name.kind name.text id

/-- The node is the item of a capture list. -/
def ShowsCapture (t : Tree) (item : CaptureSyntax) (id : Nat) : Prop :=
  ∃ binding value, t.Formed (.captureItem item.specifier.ownership binding (some value)) id ∧
    Option.Rel t.NamesBinding item.binding binding ∧ t.NamesBinding item.value value

/-- The parameters are the names; without a name there are none. -/
def ShowsParameters (t : Tree) (names : List BindingName) (parameters : ClosureParameters) : Prop :=
  match names with
  | [] => parameters = .absent
  | names => ∃ ids, parameters = .shorthand ids ∧ List.Forall₂ t.NamesBinding names ids

/-- The node is the closure with the signature and without statements. -/
def ShowsClosure (t : Tree) (signature : SignatureSyntax) (id : Nat) : Prop :=
  ∃ captures parameters, t.Formed (.closure captures parameters none []) id ∧
    List.Forall₂ t.ShowsCapture signature.captures captures ∧
    t.ShowsParameters signature.parameters parameters

/-- The node is the call with the closure after it. -/
def ShowsCall (t : Tree) (signature : SignatureSyntax) (id : Nat) : Prop :=
  ∃ callee closure, t.Formed (.call (some callee) [] (some closure) []) id ∧
    t.Identifies .identifier "f" callee ∧ t.ShowsClosure signature closure

variable {t t' : Tree} {id : Nat}

theorem optionRel_later {binding : Option BindingName} {node : Option Nat}
    (h : Option.Rel t.NamesBinding binding node) (ht : Continues t t') :
    Option.Rel t'.NamesBinding binding node := by
  cases h with
  | none => exact .none
  | some hname => exact .some (Identifies.later hname ht)

theorem ShowsCapture.later {item : CaptureSyntax} (h : t.ShowsCapture item id)
    (ht : Continues t t') : t'.ShowsCapture item id := by
  obtain ⟨binding, value, hform, hbinding, hvalue⟩ := h
  exact ⟨binding, value, hform.later ht, optionRel_later hbinding ht, Identifies.later hvalue ht⟩

theorem ShowsParameters.later {names : List BindingName} {parameters : ClosureParameters}
    (h : t.ShowsParameters names parameters) (ht : Continues t t') :
    t'.ShowsParameters names parameters := by
  cases names with
  | nil => exact h
  | cons name names =>
    obtain ⟨ids, rfl, hnames⟩ := h
    exact ⟨ids, rfl, hnames.imp fun _ _ hname => Identifies.later hname ht⟩

theorem ShowsClosure.later {signature : SignatureSyntax} (h : t.ShowsClosure signature id)
    (ht : Continues t t') : t'.ShowsClosure signature id := by
  obtain ⟨captures, parameters, hform, hcaptures, hparameters⟩ := h
  exact ⟨captures, parameters, hform.later ht, hcaptures.imp fun _ _ hitem => hitem.later ht,
    hparameters.later ht⟩

theorem ShowsClosure.isClosure {signature : SignatureSyntax} (h : t.ShowsClosure signature id) :
    t.isClosure id = true := by
  obtain ⟨captures, parameters, hform, -⟩ := h
  rw [Tree.isClosure, hform.2 t (.refl t)]

theorem ShowsCall.later {signature : SignatureSyntax} (h : t.ShowsCall signature id)
    (ht : Continues t t') : t'.ShowsCall signature id := by
  obtain ⟨callee, closure, hform, hcallee, hclosure⟩ := h
  exact ⟨callee, closure, hform.later ht, hcallee.later ht, hclosure.later ht⟩

end Tree

namespace Grammar

variable {s : State} {nested : Readers} {word : Word} {words : List Word} {blank : Bool}

/-! ## Section 2: Captures -/

theorem startWith_bindingWords (item : CaptureSyntax) (blank : Bool) :
    ∃ (name : BindingName) (more : List Word),
      item.bindingWords blank = name.word blank :: more := by
  unfold CaptureSyntax.bindingWords
  cases item.binding with
  | none => exact ⟨item.value, _, rfl⟩
  | some name => exact ⟨name, _, rfl⟩

theorem ownership_faces {item : CaptureSyntax} (h : s.Faces (item.words blank ++ words)) :
    Ensures ownership s fun r s' => r = item.specifier.ownership ∧ s' = s := by
  have hanswer {name : Name} {more : List Word} (h : s.Faces (name.word blank :: more))
      (text : String) :
      (isWord text s).1 = (name.kind == .identifier && name.text == text) := h.isWord_eq text
  -- All forms of `unowned` begin with the same word.
  have hunowned {more : List Word} (h : s.Faces (CaptureSpecifier.unownedName.word blank :: more)) :
      Ensures ownership s fun r s' => r = .unowned ∧ s' = s := by
    unfold ownership
    refine .peek (.ite (fun hword => ?_) fun _ => .peek (.ite (fun _ => .pure ⟨rfl, rfl⟩)
      fun hno => absurd ?_ hno))
    · rw [hanswer h] at hword
      exact absurd hword (by decide)
    · rw [hanswer h]
      decide
  unfold CaptureSyntax.words at h
  cases hspecifier : item.specifier with
  | plain =>
    rw [hspecifier] at h
    -- The first name is that of the capture, which is neither of the two words.
    obtain ⟨name, more, hname⟩ := startWith_bindingWords item blank
    have hfaces : s.Faces (name.word blank :: (more ++ words)) := by
      rw [← List.cons_append, ← hname]
      exact h
    unfold ownership
    refine .peek (.ite (fun hword => ?_) fun _ => .peek (.ite (fun hword => ?_)
      fun _ => .pure ⟨rfl, rfl⟩))
    · rw [hanswer hfaces, Bool.and_eq_true, beq_iff_eq, beq_iff_eq] at hword
      exact absurd hword.2 name.free.1
    · rw [hanswer hfaces, Bool.and_eq_true, beq_iff_eq, beq_iff_eq] at hword
      exact absurd hword.2 name.free.2
  | weak =>
    rw [hspecifier] at h
    unfold ownership
    refine .peek (.ite (fun _ => .pure ⟨rfl, rfl⟩) fun hno => absurd ?_ hno)
    rw [hanswer h]
    decide
  | unowned | unownedSafe | unownedUnsafe =>
    rw [hspecifier] at h
    exact hunowned h

theorem ownershipDetail_faces {specifier : CaptureSpecifier}
    (h : s.Faces (specifier.detailWords ++ words)) (hwords : StartWith namesValue words) :
    Ensures ownershipDetail s fun ok s' => ok = true ∧ ReadsTo s [] words s' := by
  have hdetail {name : Name} (hname : (name.kind == .identifier &&
      ["safe", "unsafe"].contains name.text) = true)
      (h : s.Faces (⟨.openParen, ['('], false⟩ :: name.word false ::
        ⟨.closeParen, [')'], false⟩ :: words)) :
      Ensures ownershipDetail s fun ok s' => ok = true ∧ ReadsTo s [] words s' := by
    unfold ownershipDetail
    refine .peek (.peek (.ite (fun _ => ?_) fun hno => absurd ?_ hno))
    · refine (advance_faces h (by decide)).bind fun _ s₁ h₁ => .peek (.ite (fun _ => ?_)
        fun hno => absurd ?_ hno)
      · refine (advance_faces h₁.1.faces (name.kind_ne rfl)).bind fun _ s₂ h₂ => ?_
        refine (accept_here h₂.1.faces rfl (by decide)).mono fun ok s₃ h₃ => ⟨h₃.1, ?_⟩
        exact (h₁.1.skip h₂.1).skip h₃.2.1
      · rw [h₁.1.faces.isOneOf_eq]
        exact hname
    · rw [h.isAt_eq, h.afterBlank_eq]
      rfl
  cases specifier with
  | plain | weak | unowned =>
    -- A name follows, and no parenthesis.
    have hfaces : s.Faces words := h
    obtain ⟨next, more, rfl, hnext⟩ := hwords
    unfold ownershipDetail
    refine .peek (.peek (.ite (fun hat => ?_) fun _ => .pure ⟨rfl, .stay hfaces⟩))
    rw [hfaces.isAt_eq, Bool.and_eq_true, beq_iff_eq] at hat
    rw [hat.1] at hnext
    cases hnext
  | unownedSafe => exact hdetail (by decide) h
  | unownedUnsafe => exact hdetail (by decide) h

theorem captureName_faces {item : CaptureSyntax} (h : s.Faces (item.bindingWords blank ++ words))
    (hwords : StartWith endsExpression words) :
    Ensures captureName s fun r s' => Option.Rel s'.tree.NamesBinding item.binding r ∧
      ∃ blank, ReadsTo s r.toList (item.value.word blank :: words) s' := by
  -- The sign after the name decides which of the two the name is.
  have hnext {name : Name} {next : Word} {more : List Word}
      (h : s.Faces (name.word blank :: next :: more)) :
      Ensures (nextIs (isAt .equals)) s fun found s' => s' = s ∧ found = (next.kind == .equals) :=
    nextIs_eq (R := fun found => found = (next.kind == .equals)) h.settled
      (.look ⟨.stay h.advanced.settled, h.advanced.isAt_eq _⟩)
  obtain ⟨name, more, hname⟩ := startWith_bindingWords item blank
  have hisName : (isName s).1 = true := by
    have hfaces := h
    rw [hname, List.cons_append] at hfaces
    rw [hfaces.isName_eq]
    exact name.isName_kind
  unfold captureName
  refine .peek (.ite (fun _ => ?_) fun hno => absurd hisName hno)
  unfold CaptureSyntax.bindingWords at h
  cases hbinding : item.binding with
  | none =>
    rw [hbinding] at h
    obtain ⟨next, more, rfl, hkind⟩ := hwords
    refine (hnext h).bind fun found s₁ h₁ => ?_
    obtain ⟨rfl, rfl⟩ := h₁
    refine .ite (fun hequals => ?_) fun _ => .pure ⟨.none, blank, .stay h⟩
    rw [eq_of_beq hequals] at hkind
    cases hkind
  | some name =>
    rw [hbinding] at h
    refine (hnext h).bind fun found s₁ h₁ => ?_
    obtain ⟨rfl, rfl⟩ := h₁
    refine .ite (fun _ => ?_) fun hno => absurd rfl hno
    refine (name_identifies h (name.kind_ne rfl)).bind fun id s₂ h₂ => ?_
    refine (advance_faces h₂.1.faces (by decide)).bind fun _ s₃ h₃ => .pure ⟨?_, true, ?_⟩
    · exact .some (h₂.2.2.later h₃.1.continues)
    · exact h₂.1.skip h₃.1

/-- An item that is followed by a comma or the end of the list. -/
theorem captureItem_faces (hn : nested.ReadNames) {item : CaptureSyntax}
    (hdepth : s.depth < maxDepth) (h : s.Faces (item.words blank ++ words))
    (hwords : StartWith endsExpression words) :
    Ensures (captureItem nested) s fun r s' =>
      ∃ id, r = some id ∧ ReadsTo s [id] words s' ∧ s'.tree.ShowsCapture item id := by
  unfold captureItem
  refine .peek ((ownership_faces h).bind fun ownership s₁ h₁ => ?_)
  obtain ⟨rfl, rfl⟩ := h₁
  extract_lets rest
  -- What comes after the specifier is read alike with any of them.
  have hrest : ∀ blank s₂, ReadsTo s₁ [] (item.bindingWords blank ++ words) s₂ →
      Ensures (rest true) s₂ fun r s' =>
        ∃ id, r = some id ∧ ReadsTo s₁ [id] words s' ∧ s'.tree.ShowsCapture item id := by
    intro blank s₂ h₂
    refine .ite (fun _ => ?_) fun hno => absurd rfl hno
    refine (captureName_faces h₂.faces hwords).bind fun binding s₃ h₃ => ?_
    obtain ⟨hbinding, blank', hread⟩ := h₃
    have hname := h₂.append hread
    have hlevel : s₃.depth < maxDepth := hname.depth_eq.trans_lt hdepth
    refine (hn.expression hread.faces item.value.value hwords hlevel).bind fun r s₄ h₄ => ?_
    obtain ⟨value, rfl, hvalue, hidentifies⟩ := h₄
    have hthere : ¬ (isMissing (some value) s₄).1 = true := by
      show ¬ (s₄.tree.form? value == some .missing) = true
      rw [hidentifies.1.2 _ (.refl _)]
      simp
    refine .peek (.ite (fun hmissing => absurd hmissing hthere) fun _ => .map ?_)
    have hmade := finish_faces (.captureItem item.specifier.ownership binding (some value))
      (hname.append hvalue) (by simp) trivial
    refine hmade.mono fun id s₅ h₅ => ⟨id, rfl, h₅.readsTo, binding, value, h₅.formed, ?_, ?_⟩
    · exact Tree.optionRel_later (Tree.optionRel_later hbinding hvalue.continues) h₅.continues
    · exact hidentifies.later h₅.continues
  have hkeyword : (item.specifier.ownership == .strong) = item.specifier.keyword.isNone := by
    cases item.specifier <;> rfl
  unfold CaptureSyntax.words at h
  cases hspecifier : item.specifier.keyword with
  | none =>
    rw [hspecifier] at h hkeyword
    refine .ite (fun _ => hrest blank s₁ (.stay h)) fun hno => absurd hkeyword hno
  | some keyword =>
    rw [hspecifier] at h hkeyword
    rw [List.cons_append, List.append_assoc] at h
    refine .ite (fun hstrong => absurd (hkeyword.symm.trans hstrong) nofun) fun _ => ?_
    refine (advance_faces h (keyword.kind_ne rfl)).bind fun _ s₂ h₂ => ?_
    have hstart : StartWith namesValue (item.bindingWords true ++ words) := by
      obtain ⟨name, more, hname⟩ := startWith_bindingWords item true
      rw [hname]
      exact .cons name.value
    refine (ownershipDetail_faces h₂.1.faces hstart).bind fun acceptable s₃ h₃ => ?_
    obtain ⟨rfl, hdetail⟩ := h₃
    exact hrest true s₃ (h₂.1.skip hdetail)

theorem endsExpression_of_comma {closer : Kind} (hcloser : endsExpression closer = true)
    (h : StartWith (fun kind => kind == .comma || kind == closer) words) :
    StartWith endsExpression words := by
  refine h.mono fun kind hkind => ?_
  rw [Bool.or_eq_true, beq_iff_eq, beq_iff_eq] at hkind
  rcases hkind with rfl | rfl
  · rfl
  · exact hcloser

theorem startWith_words (item : CaptureSyntax) (blank : Bool) :
    StartWith namesValue (item.words blank) := by
  unfold CaptureSyntax.words
  cases hkeyword : item.specifier.keyword with
  | none =>
    obtain ⟨name, more, hname⟩ := startWith_bindingWords item blank
    rw [hname]
    exact .cons name.value
  | some keyword =>
    refine .cons ?_
    show namesValue keyword.kind = true
    cases hspecifier : item.specifier <;> rw [hspecifier] at hkeyword <;> cases hkeyword <;>
      decide

/-- The capture list, if there are captures. -/
theorem captureList_faces (hn : nested.ReadNames) {captures : List CaptureSyntax}
    (hdepth : s.depth < maxDepth) (h : s.Faces (SignatureSyntax.captureWords captures ++ words))
    (hwords : StartWith (fun kind => kind != .openBracket) words) :
    Ensures (captureList nested) s fun r s' => ∃ ids, r = some ids ∧ ReadsTo s ids words s' ∧
      List.Forall₂ s'.tree.ShowsCapture captures ids := by
  unfold captureList
  cases captures with
  | nil =>
    -- No brackets are written, and what follows opens none.
    have hfaces : s.Faces words := h
    obtain ⟨next, more, rfl, hnext⟩ := hwords
    refine .peek (.ite (fun hat => ?_) fun _ => .pure ⟨[], rfl, .stay hfaces, .nil⟩)
    rw [hfaces.isAt_eq] at hat
    exact absurd (eq_of_beq hat) (bne_iff_ne.mp hnext)
  | cons item captures =>
    simp only [SignatureSyntax.captureWords, List.cons_append, List.append_assoc,
      List.nil_append] at h
    refine .peek (.ite (fun _ => ?_) fun hno => absurd ?_ hno)
    · refine (advance_faces h (by decide)).bind fun _ s₁ h₁ => ?_
      refine (enclosed?_faces .closeBracket (fun item t id => t.ShowsCapture item id) (by decide)
        (fun hshows ht => hshows.later ht) ?_ ?_ h₁.1.faces rfl).mono fun r s₂ h₂ => ?_
      · intro item _ blank
        refine (startWith_words item blank).mono fun kind hkind => ?_
        rcases eq_of_namesValue hkind with rfl | rfl <;> rfl
      · intro item _ blank words ids s₂ h₂ hnext
        have hlevel : s₂.depth < maxDepth := (h₁.1.append h₂).depth_eq.trans_lt hdepth
        exact captureItem_faces hn hlevel h₂.faces (endsExpression_of_comma rfl hnext)
      · obtain ⟨ids, rfl, hread, hitems⟩ := h₂
        exact ⟨ids, rfl, h₁.1.append hread, hitems⟩
    · rw [h.isAt_eq]
      rfl

/-! ## Section 3: The signature -/

theorem atBareParameter_eq (h : s.Faces (word :: words)) :
    (atBareParameter s).1 = namesValue word.kind := by
  show ((isAt .identifier s).1 || (isAt .selfKeyword s).1) = namesValue word.kind
  rw [h.isAt_eq, h.isAt_eq]
  rfl

theorem bareParameters_faces {name : BindingName} {names : List BindingName}
    (h : s.Faces (commaWords BindingName.words (name :: names) blank ++ word :: words))
    (hword : word.kind ≠ .comma) :
    Ensures bareParameters s fun r s' => ∃ ids, r = some ids ∧
      ListedAll (fun name t id => t.NamesBinding name id) (name :: names) (word :: words) s ids
        s' := by
  unfold bareParameters
  -- As long as names are read, there is another one ahead.
  refine loop_ensures
    (I := fun nodes s₁ => ∃ ids next after, nodes = some ids ∧
      Listed BindingName.words (fun name t id => t.NamesBinding name id) (name :: names)
        (word :: words) s (next :: after) ids s₁)
    h.settled ⟨[], name, names, rfl, .start h⟩ ?_
  rintro nodes s₁ ⟨ids, next, after, rfl, h₁⟩ -
  obtain ⟨blank, hread⟩ := h₁.next
  have hfaces : s₁.Faces (next.word blank ::
      (commaTail BindingName.words after ++ word :: words)) := hread.faces
  refine .peek (.ite (fun _ => ?_) fun hno => absurd ?_ hno)
  · refine (name_identifies hfaces (next.kind_ne rfl)).bind fun id s₂ h₂ => ?_
    refine (accept_listed (fun name t id => t.NamesBinding name id)
      (fun hname ht => Tree.Identifies.later hname ht) h₁ h₂.1 h₂.2.2 hword).bind fun found s₃ h₃ => ?_
    refine .ite (fun hfound => .pure ?_) fun hnot => .pure ?_
    · obtain ⟨hmore, hmoved, hlisted⟩ := h₃.1 hfound
      cases after with
      | nil => exact absurd rfl hmore
      | cons other after => exact ⟨⟨ids ++ [id], other, after, rfl, hlisted⟩, hmoved⟩
    · exact ⟨ids ++ [id], rfl, h₃.2 (eq_false_of_ne_true hnot)⟩
  · rw [atBareParameter_eq hfaces]
    exact next.value

theorem closureParameters_faces {names : List BindingName}
    (h : s.Faces (commaWords BindingName.words names blank ++ word :: words))
    (hword : word.kind = .inKeyword) :
    Ensures (closureParameters nested) s fun r s' => ∃ parameters, r = some parameters ∧
      ReadsTo s parameters.nodes (word :: words) s' ∧ s'.tree.ShowsParameters names parameters := by
  unfold closureParameters
  cases names with
  | nil =>
    -- The `in` follows at once.
    have hfaces : s.Faces (word :: words) := h
    refine .peek (.ite (fun hat => ?_) fun _ => .peek (.ite (fun hat => ?_) fun _ => .pure ?_))
    · rw [hfaces.isAt_eq, hword] at hat
      cases hat
    · rw [atBareParameter_eq hfaces, hword] at hat
      cases hat
    · exact ⟨.absent, rfl, .stay hfaces, rfl⟩
  | cons name names =>
    have hfaces : s.Faces
        (name.word blank :: (commaTail BindingName.words names ++ word :: words)) := by
      rw [commaWords_cons, List.append_assoc] at h
      exact h
    refine .peek (.ite (fun hat => ?_) fun _ => .peek (.ite (fun _ => ?_) fun hno => absurd ?_ hno))
    · rw [hfaces.isAt_eq, beq_iff_eq] at hat
      exact absurd hat (name.kind_ne rfl)
    · refine (bareParameters_faces h (by rw [hword]; decide)).bind fun r s₁ h₁ => .pure ?_
      obtain ⟨ids, rfl, hread, hnames⟩ := h₁
      exact ⟨.shorthand ids, rfl, hread, ids, rfl, hnames⟩
    · rw [atBareParameter_eq hfaces]
      exact name.value

/-- What is found of a signature: its captures and its parameters. -/
def FindsSignature (s : State) (signature : SignatureSyntax) (words : List Word)
    (found : Signature) (s' : State) : Prop :=
  found.result = none ∧ ReadsTo s (found.captures ++ found.parameters.nodes) words s' ∧
    List.Forall₂ s'.tree.ShowsCapture signature.captures found.captures ∧
    s'.tree.ShowsParameters signature.parameters found.parameters

/-- A signature has at least two words, and its second one opens nothing. -/
theorem inner_head (signature : SignatureSyntax) :
    ∃ first rest, signature.inner = first :: rest ∧ first.kind ≠ .atSign ∧
      StartWith (fun kind => kind != .openBrace && kind != .openParen) rest := by
  obtain ⟨captures, parameters, hsome⟩ := signature
  cases captures with
  | cons item captures =>
    refine ⟨⟨.openBracket, ['['], true⟩, _, rfl, by decide, ?_⟩
    rw [commaWords_cons]
    refine ((((startWith_words item false).mono ?_).append _).append _).append _
    intro kind hkind
    rcases eq_of_namesValue hkind with rfl | rfl <;> rfl
  | nil =>
    cases parameters with
    | nil => exact absurd hsome (by simp)
    | cons name names =>
      cases names with
      | nil => exact ⟨name.word true, _, rfl, name.kind_ne rfl, .cons (by decide)⟩
      | cons other names => exact ⟨name.word true, _, rfl, name.kind_ne rfl, .cons (by decide)⟩

theorem kind_in : SignatureSyntax.inName.kind = .inKeyword := by decide

theorem closureSignature_faces (hn : nested.ReadNames) (hdepth : s.depth < maxDepth)
    {signature : SignatureSyntax} (h : s.Faces (signature.inner ++ words)) :
    Ensures (closureSignature nested) s fun r s' =>
      ∃ found, r = some found ∧ FindsSignature s signature words found s' := by
  have hattribute : Ensures skipAttributes s fun _ s' => s' = s := by
    obtain ⟨first, rest, hinner, hfirst, -⟩ := inner_head signature
    rw [hinner] at h
    exact skipAttributes_none h hfirst
  have hstart : StartWith (fun kind => kind != .openBracket)
      (commaWords BindingName.words signature.parameters true ++
        SignatureSyntax.inName.word true :: words) := by
    cases signature.parameters with
    | nil => exact .cons (bne_iff_ne.mpr (SignatureSyntax.inName.kind_ne rfl))
    | cons name names =>
      rw [commaWords_cons]
      exact .cons (bne_iff_ne.mpr (name.kind_ne rfl))
  simp only [SignatureSyntax.inner, List.append_assoc, List.cons_append, List.nil_append] at h
  unfold closureSignature
  refine hattribute.bind fun _ s₁ h₁ => ?_
  subst h₁
  refine (captureList_faces hn hdepth h hstart).bind fun r s₂ h₂ => ?_
  obtain ⟨captures, rfl, hcaptures, hitems⟩ := h₂
  refine (closureParameters_faces hcaptures.faces kind_in).bind fun r s₃ h₃ => ?_
  obtain ⟨parameters, rfl, hparameters, hnames⟩ := h₃
  -- Neither effects nor a result stand before the `in`.
  have heffect : SignatureSyntax.inName.kind ≠ .identifier ∧
      SignatureSyntax.inName.kind ≠ .throwsKeyword ∧
      SignatureSyntax.inName.kind ≠ .rethrowsKeyword := by decide
  refine (skipEffects_none hparameters.faces heffect).bind fun _ s₄ h₄ => ?_
  subst h₄
  refine (accept_other hparameters.faces (SignatureSyntax.inName.kind_ne rfl)).bind
    fun arrow s₅ h₅ => ?_
  obtain ⟨rfl, rfl⟩ := h₅
  refine .ite (fun harrow => absurd harrow Bool.false_ne_true) fun _ => .peek ?_
  refine (accept_here hparameters.faces kind_in (by decide)).bind fun found s₆ h₆ => ?_
  obtain ⟨rfl, hin, -⟩ := h₆
  refine .pure ⟨{ captures, parameters }, rfl, rfl, ?_, ?_, ?_⟩
  · exact (hcaptures.append hparameters).skip hin
  · exact hitems.imp fun _ _ hshows => (hshows.later hparameters.continues).later hin.continues
  · exact hnames.later hin.continues

/-- The attempt to read a signature succeeds. -/
theorem optionalSignature_faces (hn : nested.ReadNames) (hdepth : s.depth < maxDepth)
    {signature : SignatureSyntax} (h : s.Faces (signature.inner ++ words)) :
    Ensures (optionalSignature nested) s (FindsSignature s signature words) := by
  unfold optionalSignature
  refine (attempt_some (closureSignature_faces hn hdepth h)).bind fun r s₁ h₁ => .pure ?_
  obtain ⟨found, rfl, hfound⟩ := h₁
  exact hfound

/-! ## Section 4: The closure -/

theorem closure_faces (hn : nested.ReadNames) (hdepth : s.depth < maxDepth)
    {signature : SignatureSyntax}
    (h : s.Faces (⟨.openBrace, ['\x7b'], blank⟩ ::
      (signature.inner ++ ⟨.closeBrace, ['\x7d'], true⟩ :: words))) :
    Ensures (closure nested) s fun id s' => ReadsTo s [id] words s' ∧ s.offset < s'.offset ∧
      s'.tree.ShowsClosure signature id := by
  unfold closure
  have hadvance : Ensures advance s fun _ s' => s' = s.advanced := ⟨rfl⟩
  refine .peek (hadvance.bind fun _ s₁ h₁ => ?_)
  subst h₁
  have hsame : s.advanced.depth < maxDepth := hdepth
  refine (optionalSignature_faces hn hsame h.advanced).bind fun found s₂ h₂ => ?_
  obtain ⟨hresult, hread, hcaptures, hparameters⟩ := h₂
  refine (noStatements_faces hread.faces rfl fun _ => {}).bind fun statements s₃ h₃ => ?_
  obtain ⟨rfl, hempty⟩ := h₃
  refine (expect_here hempty.faces rfl (by decide) _).bind fun _ s₄ h₄ => ?_
  have hclose := hempty.skip h₄.2.1
  have hparts := hread.skip hclose
  -- The parts of the closure were read from the token after the brace on.
  have hchildren : (Form.closure found.captures found.parameters found.result []).children =
      found.captures ++ found.parameters.nodes := by
    simp [hresult]
  have hderives := hparts.reads
  rw [← hchildren] at hderives
  have hmade := Derives.closure h.settled h.kind_eq hderives
  have hadd := Tree.Continues.add s₄.tree
    (.closure found.captures found.parameters found.result []) s.offset (max s₄.previousStop s.offset)
  refine ⟨⟨hmade, ?_⟩, ?_, found.captures, found.parameters, ?_, ?_, ?_⟩
  · have hfaces := hparts.faces
    exact ⟨hfaces.settled, hfaces.bytes_eq, hfaces.spells, hfaces.clean⟩
  · refine hderives.offset_lt (h.settled.offset_lt ?_)
    rw [h.kind_eq]
    exact nofun
  · rw [hresult]
    exact Tree.formed_add _ _ _ _
  · exact hcaptures.imp fun _ _ hshows => (hshows.later hclose.continues).later hadd
  · exact (hparameters.later hclose.continues).later hadd

/-! ## Section 5: The call -/

/-- No observers are opened if the second token in the braces opens nothing. -/
theorem opensObservers_none {brace first : Word} (h : s.Faces (brace :: first :: words))
    (hbrace : brace.kind ≠ .endOfFile)
    (hwords : StartWith (fun kind => kind != .openBrace && kind != .openParen) words) :
    Ensures opensObservers s fun found s' => s' = s ∧ found = false := by
  unfold opensObservers
  refine lookAhead_eq (R := fun found => found = false) ?_
  refine (advance_faces h hbrace).bind fun _ s₁ h₁ => .peek (.ite (fun hword => ?_)
    fun _ => .pure ⟨h₁.1.reads, rfl⟩)
  obtain ⟨next, more, rfl, hnext⟩ := hwords
  simp only [Bool.and_eq_true, bne_iff_ne] at hnext
  have hfirst : first.kind ≠ .endOfFile := by
    rw [h₁.1.faces.isOneOf_eq, Bool.and_eq_true, beq_iff_eq] at hword
    rw [hword.1]
    decide
  refine (advance_faces h₁.1.faces hfirst).bind fun _ s₂ h₂ => .peek (.peek (.pure ⟨?_, ?_⟩))
  · exact (h₁.1.skip h₂.1).reads
  · rw [h₂.1.faces.isAt_eq, h₂.1.faces.isAt_eq, beq_eq_false_iff_ne.mpr hnext.1,
      beq_eq_false_iff_ne.mpr hnext.2]
    rfl

theorem atTrailingClosure_here {first : Word} (hcontext : s.context = {})
    (h : s.Faces (⟨.openBrace, ['\x7b'], blank⟩ :: first :: words))
    (hwords : StartWith (fun kind => kind != .openBrace && kind != .openParen) words) :
    Ensures atTrailingClosure s fun found s' => found = true ∧ s' = s := by
  unfold atTrailingClosure
  refine .peek (.peek (.ite (fun _ => ?_) fun hno => absurd ?_ hno))
  · refine (opensObservers_none h nofun hwords).bind fun found s₁ h₁ => .pure ?_
    obtain ⟨rfl, rfl⟩ := h₁
    exact ⟨rfl, rfl⟩
  · rw [h.isAt_eq]
    show (true && !s.context.noTrailingClosure) = true
    rw [hcontext]
    rfl

/-- At the end of the text no further closure follows. -/
theorem trailingClosures_faces (hn : nested.ReadNames) (hdepth : s.depth < maxDepth)
    {signature : SignatureSyntax}
    (h : s.Faces (⟨.openBrace, ['\x7b'], blank⟩ ::
      (signature.inner ++ [⟨.closeBrace, ['\x7d'], true⟩, Scanner.ending]))) :
    Ensures (trailingClosures nested) s fun r s' => r.2 = [] ∧ ReadsTo s [r.1] [Scanner.ending] s' ∧
      s.offset < s'.offset ∧ s'.tree.ShowsClosure signature r.1 := by
  unfold trailingClosures
  refine (closure_faces hn hdepth h).bind fun first s₁ h₁ => ?_
  have hlabel : Ensures atLabelledClosure s₁ fun found s' => found = false ∧ s' = s₁ := by
    unfold atLabelledClosure
    refine .peek (.ite (fun hname => ?_) fun _ => .pure ⟨rfl, rfl⟩)
    rw [show (kind s₁).1 = .endOfFile from h₁.1.faces.kind_eq] at hname
    exact absurd hname (by decide)
  refine (gatherWhile_none h₁.1.reads.settled hlabel).bind fun others s₂ h₂ => .pure ?_
  obtain ⟨rfl, rfl⟩ := h₂
  exact ⟨rfl, h₁⟩

/-- The call has been made, and the text is at its end. -/
def FindsCall (s : State) (signature : SignatureSyntax) (r : Option Nat) (s' : State) : Prop :=
  ∃ id, r = some id ∧ ReadsTo s [id] [Scanner.ending] s' ∧ s'.tree.ShowsCall signature id

theorem kind_callee : SignatureSyntax.calleeName.kind = .identifier := by decide

theorem suffix?_closure (hn : nested.ReadNames) {signature : SignatureSyntax} {callee : Nat}
    {s₁ : State}
    (hcontext : s₁.context = {}) (hdepth : s₁.depth < maxDepth)
    (h : ReadsTo s [callee] (⟨.openBrace, ['\x7b'], blank⟩ ::
      (signature.inner ++ [⟨.closeBrace, ['\x7d'], true⟩, Scanner.ending])) s₁)
    (hcallee : s₁.tree.Identifies .identifier "f" callee) :
    Ensures (suffix? nested s.offset (some callee)) s₁ fun r s' =>
      FindsCall s signature r s' ∧ Moved s₁ s' := by
  obtain ⟨first, rest, hinner, -, hrest⟩ := inner_head signature
  -- The second word in the braces opens nothing, so these are no observers.
  have htrailing : Ensures atTrailingClosure s₁ fun found s' => found = true ∧ s' = s₁ := by
    have hfaces := h.faces
    rw [hinner, List.cons_append] at hfaces
    exact atTrailingClosure_here hcontext hfaces (hrest.append _)
  have htakes : takesTrailingClosure (formOf (some callee) s₁).1 = true := by
    show takesTrailingClosure (s₁.tree.form? callee) = true
    rw [hcallee.1.2 _ (.refl _)]
    rfl
  have hcall : Ensures (trailingSuffix nested s.offset (some callee)) s₁ fun id s' =>
      FindsCall s signature (some id) s' ∧ Moved s₁ s' := by
    unfold trailingSuffix
    refine (trailingClosures_faces hn hdepth h.faces).bind fun closures s₂ h₂ => ?_
    obtain ⟨closure, others⟩ := closures
    obtain ⟨rfl, hread, hlt, hclosure⟩ := h₂
    have hmade := finish_round (.call (some callee) [] (some closure) []) (h.append hread)
      (hread.reads.moved hlt) (by simp) hclosure.isClosure
    refine hmade.mono fun id s₃ h₃ =>
      ⟨⟨id, rfl, h₃.1.readsTo, callee, closure, h₃.1.formed, ?_, ?_⟩, h₃.2⟩
    · exact (hcallee.later hread.continues).later h₃.1.continues
    · exact hclosure.later h₃.1.continues
  unfold suffix?
  apply Ensures.peek
  rw [show (kind s₁).1 = .openBrace from h.faces.kind_eq]
  refine htrailing.bind fun found s₂ h₂ => ?_
  obtain ⟨rfl, rfl⟩ := h₂
  refine .ite (fun _ => .peek (.ite (fun _ => .map hcall) fun hno => absurd htakes hno))
    fun hno => absurd rfl hno

theorem suffixedExpression_call (hn : nested.ReadNames) {signature : SignatureSyntax}
    (hcontext : s.context = {}) (hdepth : s.depth < maxDepth)
    (h : s.Faces (signature.words ++ [Scanner.ending])) :
    Ensures (suffixedExpression nested) s (FindsCall s signature) := by
  simp only [SignatureSyntax.words, List.cons_append, List.append_assoc, List.nil_append] at h
  unfold suffixedExpression
  refine .peek ((primary_name h (by decide)).bind fun base s₁ h₁ => ?_)
  obtain ⟨callee, rfl, hread, hcallee⟩ := h₁
  -- First the closure makes a call of the name, then nothing follows.
  refine loop_ensures
    (I := fun e s₂ => (e = some callee ∧ s₂ = s₁) ∨ FindsCall s signature e s₂)
    hread.faces.settled (.inl ⟨rfl, rfl⟩) ?_
  rintro e s₂ (⟨rfl, rfl⟩ | ⟨call, rfl, hcall, hshows⟩) -
  · have hsame := hread.reads.keeps.context_eq.trans hcontext
    have hlevel : s₂.depth < maxDepth := hread.depth_eq.trans_lt hdepth
    refine (suffix?_closure hn hsame hlevel hread hcallee).bind fun r s₃ h₃ => ?_
    obtain ⟨⟨id, rfl, hfound⟩, hmoved⟩ := h₃
    exact .pure ⟨.inr ⟨id, rfl, hfound⟩, hmoved⟩
  · refine (suffix?_none hcall.faces (.cons rfl) s.offset _).bind fun r s₃ h₃ => ?_
    obtain ⟨rfl, rfl⟩ := h₃
    exact .pure ⟨call, rfl, hcall, hshows⟩

theorem expression_call (hn : nested.ReadNames) {signature : SignatureSyntax}
    (hcontext : s.context = {}) (hdepth : s.depth + 1 < maxDepth)
    (h : s.Faces (signature.words ++ [Scanner.ending])) :
    Ensures (expression nested) s (FindsCall s signature) := by
  have hname : Ensures (suffixedExpression nested) s.deeper (FindsCall s.deeper signature) →
      Ensures (prefixedExpression nested) s.deeper (FindsCall s.deeper signature) :=
    prefixedExpression_name h.deeper (by decide)
  have hoperand : Ensures (prefixedExpression nested) s.deeper fun r s' =>
      FindsCall s.deeper signature r s' ∧ s'.Faces [Scanner.ending] := by
    refine (hname (suffixedExpression_call hn hcontext hdepth h.deeper)).mono fun r s₁ h₁ => ⟨h₁, ?_⟩
    obtain ⟨id, -, hread, -⟩ := h₁
    exact hread.faces
  refine guarded_some (fun t id => t.ShowsCall signature id) (Nat.lt_of_succ_lt hdepth) ?_
  exact sequenceExpression_operand hoperand (.cons rfl)

/-! ## Section 6: The statement -/

/-- A name is no label without a colon after it. -/
theorem atLabelledStatement_none (h : s.Faces (word :: words))
    (hwords : StartWith (fun kind => kind != .colon) words) :
    Ensures atLabelledStatement s fun found s' => s' = s ∧ found = false := by
  obtain ⟨next, more, rfl, hnext⟩ := hwords
  unfold atLabelledStatement
  refine nextIs_eq (R := fun found => found = false) h.settled ?_
  refine (accept_other h.advanced (bne_iff_ne.mp hnext)).bind fun found s₁ h₁ => ?_
  obtain ⟨rfl, rfl⟩ := h₁
  exact .pure ⟨.stay h.advanced.settled, rfl⟩

/-- An identifier that is no word of the declarations starts none. -/
theorem atDeclaration_identifier (h : s.Faces (word :: words)) (hword : word.kind = .identifier)
    (htext : ("actor" :: modifierWords).contains (String.ofList word.chars) = false) :
    Ensures atDeclaration s fun found s' => s' = s ∧ found = false := by
  rw [List.contains_cons, Bool.or_eq_false_iff] at htext
  have hkind : (kind s).1 = .identifier := h.kind_eq.trans hword
  -- An identifier is a modifier, or the keyword of an actor, by its text only.
  have hmodifier : Ensures skipModifier s fun found s' => found = false ∧ s' = s := by
    unfold skipModifier atModifierWord
    apply Ensures.peek
    rw [hkind]
    refine .peek (.ite (fun hone => ?_) fun _ => .pure ⟨rfl, rfl⟩)
    rw [h.isOneOf_eq, htext.2, Bool.and_false] at hone
    cases hone
  have hkeyword : Ensures atDeclarationKeyword s fun found s' => s' = s ∧ found = false := by
    unfold atDeclarationKeyword
    apply Ensures.peek
    rw [hkind]
    refine .ite (fun hstarts => absurd hstarts nofun) fun _ => .ite (fun hcase => absurd hcase nofun)
      fun _ => .peek (.ite (fun hactor => ?_) fun _ => .pure ⟨rfl, rfl⟩)
    rw [h.isWord_eq, htext.1, Bool.and_false] at hactor
    cases hactor
  unfold atDeclaration
  apply Ensures.peek
  rw [hkind]
  refine lookAhead_eq (R := fun found => found = false) ?_
  refine (repeatWhile_none h.settled hmodifier).bind fun _ s₁ h₁ => ?_
  subst h₁
  refine hkeyword.mono fun found s₂ h₂ => ⟨?_, h₂.2⟩
  rw [h₂.1]
  exact .stay h.settled

/-- The call is read as one statement. -/
theorem statement_call (hn : nested.ReadNames) {outer : Readers}
    (houter : ∀ p, outer p = phrase nested p) {signature : SignatureSyntax} (hcontext : s.context = {})
    (hdepth : s.depth = 0) (h : s.Faces (signature.words ++ [Scanner.ending])) :
    Ensures (statement outer) s (FindsCall s signature) := by
  have hexpression : Ensures (outer .expression) s.deeper (FindsCall s.deeper signature) := by
    rw [houter]
    refine expression_call hn hcontext ?_ h.deeper
    show s.depth + 1 + 1 < maxDepth
    rw [hdepth]
    decide
  have hfaces := h.deeper
  simp only [SignatureSyntax.words, List.cons_append] at hfaces
  have hplain : Ensures (plainStatement outer) s.deeper (FindsCall s.deeper signature) := by
    unfold plainStatement
    refine (atDeclaration_identifier hfaces kind_callee (by decide)).bind fun found s₁ h₁ => ?_
    obtain ⟨rfl, rfl⟩ := h₁
    exact hexpression
  have hany : Ensures (anyStatement outer) s.deeper (FindsCall s.deeper signature) := by
    unfold anyStatement
    apply Ensures.peek
    rw [show (kind s.deeper).1 = .identifier from hfaces.kind_eq.trans kind_callee]
    refine (atLabelledStatement_none hfaces (.cons rfl)).bind fun found s₁ h₁ => ?_
    obtain ⟨rfl, rfl⟩ := h₁
    exact hplain
  exact guarded_some (fun t id => t.ShowsCall signature id) (hdepth ▸ by decide) hany

end Grammar

/-! ## Section 7: The tree of a text -/

namespace Tree

variable {t : Tree} {id : Nat}

/-- A name refers to the enclosing instance just if it is `self`. -/
theorem NamesBinding.isSelfReference_iff {name : BindingName} (h : t.NamesBinding name id) :
    t.isSelfReference id = true ↔ name.text = "self" := by
  have hescaped : name.text ≠ "`self`" := by
    intro htext
    have hchars : name.chars = "`self`".toList := by
      rw [← htext, Name.text, String.toList_ofList]
    have hvalid := name.valid
    rw [hchars] at hvalid
    exact absurd hvalid (by decide)
  -- No other reserved word has the kind of `self`.
  have hkeyword : name.kind = .selfKeyword → name.text = "self" := by
    intro hkind
    have hall : ∀ entry ∈ Kind.reservedWords, entry.2 = .selfKeyword → entry.1 = "self" := by
      decide
    unfold Name.kind Kind.ofWord? at hkind
    cases hlookup : Kind.reservedWords.lookup name.text with
    | none =>
      rw [hlookup] at hkind
      cases hkind
    | some kind =>
      rw [hlookup] at hkind
      obtain ⟨l₁, l₂, heq, -⟩ := List.lookup_eq_some_iff.mp hlookup
      exact hall (name.text, kind) (by rw [heq]; simp) hkind
  rw [Tree.isSelfReference, h.1.2 t (.refl t), h.2.2 t (.refl t)]
  simp only [Token.isSelfName, Bool.or_eq_true, beq_iff_eq]
  constructor
  · rintro (hkind | hself | htext)
    · exact hkeyword hkind
    · exact hself
    · exact absurd htext hescaped
  · intro hself
    exact .inr (.inl hself)

/-- What is captured weakly shows in the nodes of the captures. -/
theorem capturesSelfWeakly_iff {items : List CaptureSyntax} {captures : List Nat}
    (h : List.Forall₂ t.ShowsCapture items captures) :
    t.capturesSelfWeakly captures = true ↔ ∃ item ∈ items, item.capturesSelfWeakly := by
  induction h with
  | nil => simp [capturesSelfWeakly]
  | @cons item capture items captures hitem hitems ih =>
    obtain ⟨binding, value, hform, -, hvalue⟩ := hitem
    have hownership : (item.specifier.ownership != .strong) = true ↔ item.specifier ≠ .plain := by
      cases item.specifier <;> decide
    rw [capturesSelfWeakly, List.any_cons, ← capturesSelfWeakly, Bool.or_eq_true, ih,
      List.exists_mem_cons_iff, hform.2 t (.refl t)]
    simp only [Bool.and_eq_true, hownership, hvalue.isSelfReference_iff,
      CaptureSyntax.capturesSelfWeakly]

/-- What is shadowed shows in the nodes of the parameters. -/
theorem shadowsSelf_iff {names : List BindingName} {parameters : ClosureParameters}
    (h : t.ShowsParameters names parameters) :
    t.shadowsSelf parameters = true ↔ ∃ name ∈ names, name.text = "self" := by
  have hany {names : List BindingName} {ids : List Nat} (h : List.Forall₂ t.NamesBinding names ids) :
      ids.any t.isSelfReference = true ↔ ∃ name ∈ names, name.text = "self" := by
    induction h with
    | nil => simp
    | cons hname hnames ih =>
      rw [List.any_cons, Bool.or_eq_true, ih, List.exists_mem_cons_iff, hname.isSelfReference_iff]
  cases names with
  | nil =>
    rw [show parameters = .absent from h]
    simp [shadowsSelf]
  | cons name names =>
    obtain ⟨ids, rfl, hnames⟩ := h
    exact hany hnames

end Tree

/-- The text is the call and nothing else. -/
theorem parse_call (signature : SignatureSyntax) :
    let file := SourceFile.parse signature.text
    file.diagnostics = [] ∧ ∃ id, file.tree.form? file.root = some (.sourceFile [id]) ∧
      id < file.root ∧ file.tree.ShowsCall signature id := by
  have hchars : spellOut signature.words [] = 'f' :: spellOut (⟨.openBrace, ['\x7b'], true⟩ ::
      (signature.inner ++ [⟨.closeBrace, ['\x7d'], true⟩])) [] := rfl
  have htext : signature.text = String.ofList (spellOut signature.words []) := rfl
  obtain ⟨nested, hn, houter⟩ := Grammar.statementReader_readNames (htext.trans (by rw [hchars]))
  refine Grammar.parse_sole (P := fun t id => t.ShowsCall signature id) signature.text htext hchars
    (by decide) (by decide) signature.legible_words (.cons (by decide))
    (fun hshows ht => hshows.later ht) ?_
  intro s hdepth hcontext hfaces
  exact Grammar.statement_call hn houter hcontext hdepth hfaces

/-- A closure signature is read back.  The text is one call of `f`, nothing
    is wrong with it, and its trailing closure has the captures and the
    parameters that are written and no statements.  So the enclosing instance
    is captured weakly just if an item with a specifier captures `self`, and
    shadowed just if a parameter is `self`. -/
theorem parse_signature (signature : SignatureSyntax) :
    let file := SourceFile.parse signature.text
    file.diagnostics = [] ∧ ∃ call callee closure captures parameters,
      file.tree.form? file.root = some (.sourceFile [call]) ∧
      file.tree.form? call = some (.call (some callee) [] (some closure) []) ∧
      file.tree.form? callee = some (.identifier .identifier) ∧ file.tree.text callee = "f" ∧
      file.tree.form? closure = some (.closure captures parameters none []) ∧
      List.Forall₂ file.tree.ShowsCapture signature.captures captures ∧
      file.tree.ShowsParameters signature.parameters parameters ∧
      (file.tree.capturesSelfWeakly captures = true ↔
        ∃ item ∈ signature.captures, item.capturesSelfWeakly) ∧
      (file.tree.shadowsSelf parameters = true ↔
        ∃ name ∈ signature.parameters, name.text = "self") := by
  intro file
  obtain ⟨hclean, call, hroot, -, hcall⟩ := parse_call signature
  obtain ⟨callee, closure, hform, hcallee, captures, parameters, hclosure, hcaptures,
    hparameters⟩ := hcall
  refine ⟨hclean, call, callee, closure, captures, parameters, hroot, hform.2 _ (.refl _),
    hcallee.1.2 _ (.refl _), hcallee.2.2 _ (.refl _), hclosure.2 _ (.refl _), hcaptures,
    hparameters, ?_, ?_⟩
  · exact Tree.capturesSelfWeakly_iff hcaptures
  · exact Tree.shadowsSelf_iff hparameters

end SelfCapture
