import SelfCapture.Proofs.Grammar.FirstStatement
import SelfCapture.Proofs.Grammar.TypeReading

/-! # Functions are read back

  A text that starts with a function declaration, up to the closing
  parenthesis of its parameters, has that function as the first one of its
  tree, whatever comes after the parenthesis.  The node has the name of the
  function and its parameters in order, each with its label and with a type
  that tells of a closure what was written, `parse_function`.
-/

namespace SelfCapture

open Token (Kind Name Word spellOut Legible isNameChar)

/-! ## Section 1: How a function is written -/

/-- A parameter, `label: T`. -/
structure ParameterSyntax where
  label : Name
  type : TypeSyntax

/-- A function declaration up to its closing parenthesis,
    `func name<T>(label: T, label: T)`, with at most one generic parameter. -/
structure FunctionSyntax where
  name : Name
  generic : Option Name
  parameters : List ParameterSyntax

namespace ParameterSyntax

def words (p : ParameterSyntax) (blank : Bool) : List Word :=
  p.label.word blank :: ⟨.colon, [':'], false⟩ :: p.type.words true

/-- The type is one that is read back, inside a declaration. -/
def readable (p : ParameterSyntax) : Bool :=
  p.type.isType && p.type.readable && decide (1 + p.type.nesting < Grammar.maxDepth)

end ParameterSyntax

namespace FunctionSyntax

/-- The keyword of a function. -/
def keyword : Name := ⟨"func".toList, by decide⟩

def words (f : FunctionSyntax) : List Word :=
  keyword.word false :: f.name.word true ::
    (TypeSyntax.angled (f.generic.map (·.word false)).toList ++
      ⟨.openParen, ['('], false⟩ ::
        (Grammar.commaWords ParameterSyntax.words f.parameters false ++
          [⟨.closeParen, [')'], false⟩]))

/-- All parameters are read back. -/
def readable (f : FunctionSyntax) : Bool := f.parameters.all ParameterSyntax.readable

/-- The text of a declaration that starts with the function. -/
def text (f : FunctionSyntax) (rest : List Char) : String := String.ofList (spellOut f.words rest)

end FunctionSyntax

variable {rest : List Char}

theorem ParameterSyntax.legible_words {p : ParameterSyntax} (hp : p.readable = true) (blank : Bool)
    {ws : List Word} (hws : Legible ws rest)
    (hsoft : (spellOut ws rest).head?.all TypeSyntax.isSoft = true) :
    Legible (p.words blank ++ ws) rest := by
  simp only [readable, Bool.and_eq_true] at hp
  refine TypeSyntax.legible_name p.label blank (by rfl) (TypeSyntax.legible_punctuation (by rfl) ?_)
  exact TypeSyntax.legible_words p.type true ws hp.1.2 hws (TypeSyntax.all_admits_of_soft _ hsoft)

theorem legible_parameters (parameters : List ParameterSyntax) (blank : Bool) {ws : List Word}
    (h : parameters.all ParameterSyntax.readable = true) (hws : Legible ws rest)
    (hsoft : (spellOut ws rest).head?.all TypeSyntax.isSoft = true) :
    Legible (Grammar.commaWords ParameterSyntax.words parameters blank ++ ws) rest := by
  refine Grammar.legible_commaWords (fun p hmem blank ws hws hsoft => ?_) hws hsoft
  exact ParameterSyntax.legible_words (List.all_eq_true.mp h p hmem) blank hws hsoft

theorem FunctionSyntax.legible_words (f : FunctionSyntax) (h : f.readable = true) :
    Legible f.words rest := by
  have hparameters : Legible (⟨.openParen, ['('], false⟩ ::
      (Grammar.commaWords ParameterSyntax.words f.parameters false ++
        [⟨.closeParen, [')'], false⟩])) rest := by
    refine TypeSyntax.legible_punctuation (by rfl) (legible_parameters f.parameters false h ?_ rfl)
    exact TypeSyntax.legible_punctuation (by rfl) trivial
  refine TypeSyntax.legible_name keyword false (by rfl) ?_
  cases hgeneric : f.generic with
  | none => exact TypeSyntax.legible_name f.name true (by rfl) hparameters
  | some generic =>
    refine TypeSyntax.legible_name f.name true (by rfl) ?_
    obtain ⟨c, hhead, hc, -⟩ := TypeSyntax.head_name generic false (⟨.greaterThan, ['>'], false⟩ ::
      ⟨.openParen, ['('], false⟩ :: (Grammar.commaWords ParameterSyntax.words f.parameters false ++
        [⟨.closeParen, [')'], false⟩])) rest
    refine TypeSyntax.legible_cons (.symbol (by decide) false) hhead hc ?_
    refine TypeSyntax.legible_name generic false (by rfl) ?_
    exact TypeSyntax.legible_punctuation (by rfl) hparameters

/-! ## Section 2: What the nodes show -/

namespace Tree

/-- The node is the parameter. -/
def ShowsParameter (t : Tree) (p : ParameterSyntax) (id : Nat) : Prop :=
  ∃ first type, t.Formed (.parameter first none (some type) none) id ∧
    t.Spelled p.label.text first ∧ t.Tells p.type type

/-- The node is the function. -/
def ShowsFunction (t : Tree) (f : FunctionSyntax) (id : Nat) : Prop :=
  ∃ name parameters result body,
    t.Formed (.functionDecl .function name parameters result body) id ∧
      t.Spelled f.name.text name ∧ List.Forall₂ t.ShowsParameter f.parameters parameters

variable {t t' : Tree} {id : Nat}

theorem ShowsParameter.later {p : ParameterSyntax} (h : t.ShowsParameter p id)
    (ht : Continues t t') : t'.ShowsParameter p id := by
  obtain ⟨first, type, hform, hname, htype⟩ := h
  exact ⟨first, type, hform.later ht, hname.later ht, htype.later ht⟩

theorem ShowsFunction.later {f : FunctionSyntax} (h : t.ShowsFunction f id)
    (ht : Continues t t') : t'.ShowsFunction f id := by
  obtain ⟨name, parameters, result, body, hform, hname, hparameters⟩ := h
  exact ⟨name, parameters, result, body, hform.later ht, hname.later ht,
    hparameters.imp fun _ _ hshows => hshows.later ht⟩

end Tree

namespace Grammar

variable {n : Nat} {s s₀ : State} {nested : Readers} {blank : Bool} {word : Word} {words : List Word}

/-! ## Section 3: Parameters -/

theorem initialValue_none (h : s.Faces (word :: words)) (hword : word.kind ≠ .equals) :
    Ensures (initialValue nested) s fun id s' => id = none ∧ s' = s := by
  unfold initialValue
  refine (accept_other h hword).bind fun found s₁ h₁ => ?_
  obtain ⟨rfl, rfl⟩ := h₁
  exact .pure ⟨rfl, rfl⟩

/-- A parameter ends with its type, if a comma or a parenthesis follows. -/
theorem parameterEnd_faces (nested : Readers) (first : Nat) (second : Option Nat) (type : Nat)
    {ids : List Nat} {s' : State}
    (h : ReadsTo s ids words s')
    (hchildren : (Form.parameter first second (some type) none).children = ids)
    (hwords : StartWith (fun kind => kind == .comma || kind == .closeParen) words) :
    Ensures
      (do
        skipVariadicMark
        let value ← initialValue nested
        finish (.parameter first second (some type) value) s.offset)
      s' (Makes s s'.tree (.parameter first second (some type) none) words) := by
  refine (skipVariadicMark_none h.faces hwords).bind fun _ s₁ h₁ => ?_
  subst h₁
  obtain ⟨next, more, rfl, hnext⟩ := hwords
  have hequals : next.kind ≠ .equals := by
    intro heq
    rw [heq] at hnext
    cases hnext
  refine (initialValue_none h.faces hequals).bind fun value s₂ h₂ => ?_
  obtain ⟨rfl, rfl⟩ := h₂
  exact finish_faces (.parameter first second (some type) none) h hchildren trivial

theorem parameter_faces (hn : nested.Find n) (hs : Ready n s) {p : ParameterSyntax}
    (hp : p.readable = true) (hdepth : s.depth = 1) (h : s.Faces (p.words blank ++ words))
    (hwords : StartWith (fun kind => kind == .comma || kind == .closeParen) words) :
    Ensures (parameter nested) s fun id s' =>
      ReadsTo s [id] words s' ∧ s'.tree.ShowsParameter p id := by
  simp only [ParameterSyntax.readable, Bool.and_eq_true, decide_eq_true_eq] at hp
  obtain ⟨⟨htype, hreadable⟩, hnesting⟩ := hp
  simp only [ParameterSyntax.words, List.cons_append] at h
  unfold parameter
  refine .peek ((skipAttributes_none h (p.label.kind_ne rfl)).bind fun _ s₁ h₁ => ?_)
  subst h₁
  refine (nameOr_faces h p.label.isName_kind _).bind fun first s₂ h₂ => ?_
  obtain ⟨hname, -, hspelled⟩ := h₂
  refine (name?_none hname.faces rfl).bind fun second s₃ h₃ => ?_
  obtain ⟨rfl, rfl⟩ := h₃
  refine (expect_here hname.faces rfl (by decide) _).bind fun found s₄ h₄ => ?_
  obtain ⟨rfl, hcolon, -⟩ := h₄
  have hhead := hname.skip hcolon
  have hsame := hhead.depth_eq
  refine .branch (P := fun type s₅ => ∃ id, type = some id ∧ Finds s₄ p.type words id s₅) (fun _ => ?_)
    (fun hno => absurd rfl hno) fun type s₅ h₅ => ?_
  · refine .map ((hn.type htype hreadable (hs.reads hhead.reads) hcolon.faces (by omega)
      (endsType_of_comma rfl hwords)).mono fun id s₅ h₅ => ⟨id, rfl, h₅⟩)
  · obtain ⟨type, rfl, hfinds, htells⟩ := h₅
    have hmade := parameterEnd_faces nested first none type (hhead.append hfinds) (by simp) hwords
    refine hmade.mono fun id s₆ h₆ => ⟨h₆.readsTo, first, type, h₆.formed, ?_, ?_⟩
    · exact ((hspelled.later hcolon.continues).later hfinds.continues).later h₆.continues
    · exact htells.later h₆.continues

/-- Parameters between parentheses are read one by one. -/
theorem parameterClause_listed {α : Type} {wordsOf : α → Bool → List Word} {xs : List α}
    (shows : α → Tree → Nat → Prop)
    (hshows : ∀ {x t t' id}, shows x t id → Tree.Continues t t' → shows x t' id)
    (hfirst : ∀ x ∈ xs, ∀ blank, StartWith Kind.isName (wordsOf x blank))
    (hitem : ∀ x ∈ xs, ∀ blank words s₁, s₁.Faces (wordsOf x blank ++ words) →
      s₁.depth = s.depth → s₁.ahead ≤ s.ahead →
      StartWith (fun kind => kind == .comma || kind == .closeParen) words →
      Ensures (parameter nested) s₁ fun id s₂ => ReadsTo s₁ [id] words s₂ ∧ shows x s₂.tree id)
    (h : s.Faces (⟨.openParen, ['('], false⟩ :: (commaWords wordsOf xs false ++
      ⟨.closeParen, [')'], false⟩ :: words))) :
    Ensures (parameterClause nested) s (ListedAll shows xs words s) := by
  unfold parameterClause
  refine (expect_here h rfl (by decide) _).bind fun found s₁ h₁ => ?_
  obtain ⟨rfl, hopen, -⟩ := h₁
  -- Between the parentheses trailing closures are allowed again, which matters to no parameter.
  have hlist : Ensures (unrestricted do separatedUntil .closeParen do return [← parameter nested]) s₁
      (ListedAll shows xs (⟨.closeParen, [')'], false⟩ :: words) s₁) := by
    refine within_faces (fun ids => ids)
      (fun ids t => List.Forall₂ (fun x id => shows x t id) xs ids) _ ?_
    refine separatedUntil_faces .closeParen shows (by decide) hshows ?_ ?_ (hopen.faces.under _) rfl
    · intro x hmem blank
      refine (hfirst x hmem blank).mono fun kind hkind => ?_
      rw [Bool.and_eq_true, bne_iff_ne, bne_iff_ne]
      constructor
      all_goals
        rintro rfl
        cases hkind
    · intro x hmem blank words ids s₂ h₂ hnext
      refine hitem x hmem blank words s₂ h₂.faces (h₂.depth_eq.trans hopen.depth_eq) ?_ hnext
      exact Nat.le_trans h₂.reads.ahead_le hopen.reads.ahead_le
  refine .ite (fun _ => ?_) fun hno => absurd rfl hno
  refine hlist.bind fun ids s₂ h₂ => ?_
  refine (closeList_here h₂.1.faces rfl (by decide) _ _).bind fun _ s₃ h₃ => .pure ⟨?_, ?_⟩
  · exact (hopen.append h₂.1).skip h₃
  · exact h₂.2.imp fun _ _ hshow => hshows hshow h₃.continues

/-- The parameters of a function, parentheses included. -/
theorem parameterClause_faces (hn : nested.Find n) (hs : Ready n s)
    {parameters : List ParameterSyntax} (hreadable : parameters.all ParameterSyntax.readable = true)
    (hdepth : s.depth = 1)
    (h : s.Faces (⟨.openParen, ['('], false⟩ :: (commaWords ParameterSyntax.words parameters false ++
      ⟨.closeParen, [')'], false⟩ :: words))) :
    Ensures (parameterClause nested) s fun ids s' => ReadsTo s ids words s' ∧
      List.Forall₂ s'.tree.ShowsParameter parameters ids := by
  refine parameterClause_listed (fun p t id => t.ShowsParameter p id)
    (fun hshows ht => hshows.later ht) ?_ ?_ h
  · intro p _ blank
    exact .cons p.label.isName_kind
  · intro p hmem blank words s₁ h₁ hsame hahead hnext
    have hs₁ : Ready n s₁ := ⟨h₁.settled, Nat.lt_of_le_of_lt hahead hs.ahead_lt⟩
    exact parameter_faces hn hs₁ (List.all_eq_true.mp hreadable p hmem) (hsame.trans hdepth) h₁ hnext

/-! ## Section 4: The declaration -/

/-- A group with nothing to balance inside is skipped. -/
theorem skipBalanced_faces {opener closer : Kind} {first last : Word} {inner : List Word}
    (hinner : ∀ word ∈ inner, word.kind ≠ opener ∧ word.kind ≠ closer ∧ word.kind ≠ .endOfFile)
    (hfirst : first.kind = opener) (hlast : last.kind = closer) (hopener : opener ≠ .endOfFile)
    (hcloser : closer ≠ .endOfFile) (hne : opener ≠ closer)
    (h : s.Faces (first :: inner ++ last :: words)) :
    Ensures (skipBalanced opener closer) s fun _ s' => ReadsTo s [] words s' := by
  unfold skipBalanced
  refine .peek (.ite (fun _ => ?_) fun hnot => absurd ?_ hnot)
  · -- Invariant: nothing has been read yet, or one opener has been and no closer,
    -- and only inner words are left before it.
    refine (loop_ensures
      (I := fun depth s₁ => (depth = 0 ∧ s₁ = s) ∨ depth = 1 ∧ ∃ after, (∀ word ∈ after, word ∈ inner) ∧
        ReadsTo s [] (after ++ last :: words) s₁)
      (R := fun _ s' => ReadsTo s [] words s') h.settled (.inl ⟨rfl, rfl⟩) ?_).bind
      fun _ _ h' => .pure h'
    rintro depth s₁ (⟨rfl, rfl⟩ | ⟨rfl, after, hafter, h₁⟩) -
    · -- The opener itself.
      rw [List.cons_append] at h
      have hkind : (kind s₁).1 = opener := h.kind_eq.trans hfirst
      refine .peek (.ite (fun hend => ?_) fun _ => .ite (fun _ => ?_) fun hno => absurd ?_ hno)
      · rw [hkind, beq_iff_eq] at hend
        exact absurd hend hopener
      · refine (advance_faces h (hfirst ▸ hopener)).bind fun _ s₂ h₂ => .pure ⟨.inr ⟨rfl, ?_⟩, ?_⟩
        · exact ⟨inner, fun _ hmem => hmem, h₂.1⟩
        · exact h₂.1.reads.moved h₂.2
      · rw [hkind, beq_self_eq_true]
    · cases after with
      | nil =>
        -- The closer ends the group, since the count is one.
        have hkind : (kind s₁).1 = closer := h₁.faces.kind_eq.trans hlast
        refine .peek (.ite (fun hend => ?_) fun _ => .ite (fun hmore => ?_) fun _ =>
          .ite (fun _ => ?_) fun hno => absurd ?_ hno)
        · rw [hkind, beq_iff_eq] at hend
          exact absurd hend hcloser
        · rw [hkind, beq_iff_eq] at hmore
          exact absurd hmore.symm hne
        · refine (advance_faces h₁.faces (hlast ▸ hcloser)).bind fun _ s₂ h₂ => .pure ?_
          exact h₁.skip h₂.1
        · rw [hkind, beq_self_eq_true]
      | cons word after =>
        -- An inner word is none of the three kinds, so the count stays.
        obtain ⟨hnotOpener, hnotCloser, hnotEnd⟩ := hinner word (hafter word List.mem_cons_self)
        have hkind : (kind s₁).1 = word.kind := h₁.faces.kind_eq
        refine .peek (.ite (fun hend => ?_) fun _ => .ite (fun hmore => ?_) fun _ =>
          .ite (fun hless => ?_) fun _ => ?_)
        · rw [hkind, beq_iff_eq] at hend
          exact absurd hend hnotEnd
        · rw [hkind, beq_iff_eq] at hmore
          exact absurd hmore hnotOpener
        · rw [hkind, beq_iff_eq] at hless
          exact absurd hless hnotCloser
        · refine (advance_faces h₁.faces hnotEnd).bind fun _ s₂ h₂ => .pure ?_
          refine ⟨.inr ⟨rfl, after, ?_, ?_⟩, ?_⟩
          · exact fun other hmem => hafter other (List.mem_cons_of_mem _ hmem)
          · exact h₁.skip h₂.1
          · exact h₂.1.reads.moved h₂.2
  · rw [List.cons_append] at h
    rw [h.isAt_eq, hfirst, beq_self_eq_true]

/-- Nothing is skipped where no group starts. -/
theorem skipBalanced_none {opener closer : Kind} (h : s.Faces (word :: words))
    (hword : word.kind ≠ opener) :
    Ensures (skipBalanced opener closer) s fun _ s' => s' = s := by
  unfold skipBalanced
  refine .peek (.ite (fun hat => ?_) fun _ => .pure rfl)
  rw [h.isAt_eq, beq_iff_eq] at hat
  exact absurd hat hword

/-- A clause of generic parameters is skipped, if there is one. -/
theorem skipGenerics_faces {inner : List Word}
    (hinner : ∀ word ∈ inner, word.kind ≠ .lessThan ∧ word.kind ≠ .greaterThan ∧ word.kind ≠ .endOfFile)
    (h : s.Faces (TypeSyntax.angled inner ++ ⟨.openParen, ['('], false⟩ :: words)) :
    Ensures skipGenerics s fun _ s' => ReadsTo s [] (⟨.openParen, ['('], false⟩ :: words) s' := by
  unfold skipGenerics
  cases inner with
  | nil =>
    have hfaces : s.Faces (⟨.openParen, ['('], false⟩ :: words) := h
    refine (skipBalanced_none hfaces (by decide)).mono fun _ s₁ h₁ => ?_
    rw [h₁]
    exact .stay hfaces
  | cons word inner =>
    rw [TypeSyntax.angled, List.append_assoc] at h
    · exact skipBalanced_faces hinner rfl rfl (by decide) (by decide) (by decide) h
    · exact List.cons_ne_nil _ _

theorem functionName_faces (h : s.Faces (word :: words)) (hname : word.kind.isName = true) :
    Ensures functionName s fun id s' => ReadsTo s [id] words s' ∧
      s'.tree.Spelled (String.ofList word.chars) id := by
  unfold functionName
  refine .peek (.ite (fun _ => ?_) fun hnot => absurd ?_ hnot)
  · exact (name_faces h (ne_end_of_name hname)).mono fun _ _ h' => ⟨h'.1, h'.2.2⟩
  · rw [h.isName_eq]
    exact hname

/-- Whatever has been read after the known words. -/
theorem ReadsTo.andThen {s₁ s₂ : State} {ids more : List Nat} (h : ReadsTo s ids words s₁)
    (h' : Reads s₁ more s₂) : ReadsTo s (ids ++ more) [] s₂ :=
  ⟨h.reads.append h', h.faces.after h' trivial fun hne => absurd rfl hne⟩

/-- Of the rest of a declaration nothing has to be known. -/
theorem functionRest_reads (hn : nested.Below n) (hs : Ready n s) {pos name : Nat}
    {parameters : List Nat} {Q : Nat → State → Prop}
    (hfinish : ∀ result body s', Reads s (Option.toList result ++ Option.toList body) s' →
      Ensures (finish (.functionDecl .function name parameters result body) pos) s' Q) :
    Ensures (do
      let _ ← skipEffects
      let result ← resultClause nested
      skipWhereClause
      let body ← functionBody nested
      finish (.functionDecl .function name parameters result body) pos) s Q := by
  refine (skipEffects_reads hs.settled).bind fun _ s₁ h₁ => ?_
  refine (resultClause_reads hn (hs.reads h₁)).bind fun result s₂ h₂ => ?_
  refine (skipWhereClause_reads h₂.settled).bind fun _ s₃ h₃ => ?_
  have hresult := (h₁.append h₂).append h₃
  refine (functionBody_reads hn (hs.reads hresult).succ).bind fun body s₄ h₄ => ?_
  refine hfinish result body s₄ ?_
  simpa using hresult.append h₄

theorem functionDeclaration_faces (hn : nested.Find n) (hs : Ready (n + 1) s) {f : FunctionSyntax}
    (hf : f.readable = true) (hdepth : s.depth = 1) (h : s.Faces f.words) :
    Ensures (functionDeclaration nested s.offset) s fun id s' =>
      ReadsTo s [id] [] s' ∧ s'.tree.ShowsFunction f id := by
  unfold functionDeclaration
  refine (advance_faces h (by decide)).bind fun _ s₁ h₁ => ?_
  have hs₁ := hs.moved h₁.1.reads h₁.2
  refine (functionName_faces h₁.1.faces f.name.isName_kind).bind fun name s₂ h₂ => ?_
  refine (skipGenerics_faces ?_ h₂.1.faces).bind fun _ s₃ h₃ => ?_
  · intro word hmem
    obtain ⟨generic, -, rfl⟩ : ∃ generic, f.generic = some generic ∧ generic.word false = word := by
      simpa using hmem
    exact ⟨generic.kind_ne rfl, generic.kind_ne rfl, generic.kind_ne rfl⟩
  have hhead := (h₁.1.append h₂.1).skip h₃
  refine (parameterClause_faces hn (hs₁.reads (h₂.1.skip h₃).reads) hf (hhead.depth_eq.trans hdepth)
    h₃.faces).bind fun parameters s₄ h₄ => ?_
  have hparameters := hhead.append h₄.1
  have hs₄ := (hs₁.reads (h₂.1.skip h₃).reads).reads h₄.1.reads
  refine functionRest_reads hn.below hs₄ fun result body s₅ hrest => ?_
  have hmade := finish_faces (.functionDecl .function name parameters result body)
    (hparameters.andThen hrest) (by simp) trivial
  refine hmade.mono fun id s₆ h₆ => ⟨h₆.readsTo, name, parameters, result, body, h₆.formed, ?_, ?_⟩
  · have hlater := (h₂.2.later h₃.continues).later h₄.1.continues
    exact (hlater.later hrest.grows.continues).later h₆.continues
  · exact h₄.2.imp fun _ _ hshows => (hshows.later hrest.grows.continues).later h₆.continues

/-! ## Section 5: The statement -/

theorem kind_keyword : FunctionSyntax.keyword.kind = .funcKeyword := by decide

/-- Keywords that start a declaration wherever they stand. -/
def opensDeclaration (kind : Kind) : Bool := kind == .funcKeyword || kind == .typealiasKeyword

theorem eq_of_opensDeclaration {kind : Kind} (h : opensDeclaration kind = true) :
    kind = .funcKeyword ∨ kind = .typealiasKeyword := by
  rw [opensDeclaration, Bool.or_eq_true, beq_iff_eq, beq_iff_eq] at h
  exact h

/-- What looks at the kind goes on in one of two ways. -/
theorem peek_opens {α : Type} {Q : α → State → Prop} {next : Kind → Parse α}
    (hkind : opensDeclaration s.kind = true) (hfunction : Ensures (next .funcKeyword) s Q)
    (halias : Ensures (next .typealiasKeyword) s Q) : Ensures (kind >>= next) s Q := by
  apply Ensures.peek
  rw [show (kind s).1 = s.kind from rfl]
  rcases eq_of_opensDeclaration hkind with hk | hk
  · rw [hk]
    exact hfunction
  · rw [hk]
    exact halias

/-- Nothing is skipped before the keyword of a declaration. -/
theorem skipModifiers_none (h : s.Settled) (hkind : opensDeclaration s.kind = true) :
    Ensures skipModifiers s fun _ s' => s' = s := by
  have hnone : Ensures skipModifier s fun found s' => found = false ∧ s' = s := by
    unfold skipModifier
    exact peek_opens hkind (.pure ⟨rfl, rfl⟩) (.pure ⟨rfl, rfl⟩)
  exact repeatWhile_none h hnone

theorem atDeclaration_keyword (hkind : opensDeclaration s.kind = true) :
    Ensures atDeclaration s fun found s' => found = true ∧ s' = s := by
  have hkeyword : Ensures atDeclarationKeyword s fun found s' => found = true ∧ s' = s := by
    unfold atDeclarationKeyword
    refine .peek (.ite (fun _ => .pure ⟨rfl, rfl⟩) fun hno => absurd ?_ hno)
    rw [show (kind s).1 = s.kind from rfl]
    rcases eq_of_opensDeclaration hkind with hk | hk <;> rw [hk] <;> rfl
  unfold atDeclaration
  exact peek_opens hkind hkeyword hkeyword

/-- A statement that starts with such a keyword is the declaration. -/
theorem anyStatement_declaration {Q : Option Nat → State → Prop}
    (hkind : opensDeclaration s.kind = true) (h : Ensures (declaration nested) s Q) :
    Ensures (anyStatement nested) s Q := by
  have hplain : Ensures (plainStatement nested) s Q := by
    unfold plainStatement
    refine (atDeclaration_keyword hkind).bind fun found s₁ h₁ => ?_
    obtain ⟨rfl, rfl⟩ := h₁
    exact h
  have hcontrol : Ensures (controlStatement? nested) s fun r s' => r = none ∧ s' = s := by
    unfold controlStatement?
    exact peek_opens hkind (.pure ⟨rfl, rfl⟩) (.pure ⟨rfl, rfl⟩)
  -- What would be done with a control statement is left aside, since there is none.
  have hrest (next : Option Nat → Parse (Option Nat)) (hnext : next none = plainStatement nested) :
      Ensures (controlStatement? nested >>= next) s Q := by
    refine hcontrol.bind fun r s₁ h₁ => ?_
    obtain ⟨rfl, rfl⟩ := h₁
    rw [hnext]
    exact hplain
  unfold anyStatement
  exact peek_opens hkind (hrest _ rfl) (hrest _ rfl)

/-- After `func` there is a function. -/
theorem anyStatement_function {Q : Option Nat → State → Prop} (hs : s.Settled)
    (hkind : s.kind = .funcKeyword)
    (h : Ensures (functionDeclaration nested s.offset) s fun id s' => Q (some id) s') :
    Ensures (anyStatement nested) s Q := by
  have hopens : opensDeclaration s.kind = true := by rw [hkind]; rfl
  refine anyStatement_declaration hopens ?_
  unfold declaration
  refine .peek ((skipModifiers_none hs hopens).bind fun _ s₁ h₁ => .peek ?_)
  subst h₁
  rw [show (kind s₁).1 = .funcKeyword from hkind]
  exact .map h

/-- After `typealias` there is an alias. -/
theorem anyStatement_typeAlias {Q : Option Nat → State → Prop} (hs : s.Settled)
    (hkind : s.kind = .typealiasKeyword)
    (h : Ensures (typeAliasDeclaration nested s.offset) s fun id s' => Q (some id) s') :
    Ensures (anyStatement nested) s Q := by
  have hopens : opensDeclaration s.kind = true := by rw [hkind]; rfl
  refine anyStatement_declaration hopens ?_
  unfold declaration
  refine .peek ((skipModifiers_none hs hopens).bind fun _ s₁ h₁ => .peek ?_)
  subst h₁
  rw [show (kind s₁).1 = .typealiasKeyword from hkind]
  exact .map h

/-- The function has been read, whatever follows. -/
def FindsFunction (s : State) (f : FunctionSyntax) (r : Option Nat) (s' : State) : Prop :=
  ReadsTo s (Option.toList r) [] s' ∧ ∃ id, r = some id ∧ s'.tree.ShowsFunction f id

/-- A function declaration is read as one statement. -/
theorem statement_function (hn : nested.Find n) (hs : Ready (n + 1) s) {f : FunctionSyntax}
    (hf : f.readable = true) (hdepth : s.depth = 0) (h : s.Faces f.words) :
    Ensures (statement nested) s (FindsFunction s f) := by
  refine guarded_faces Option.toList (fun r t => ∃ id, r = some id ∧ t.ShowsFunction f id) ?_ ?_
  · rw [hdepth]
    decide
  · have hsame : s.deeper.depth = 1 := congrArg (· + 1) hdepth
    refine anyStatement_function h.settled (h.kind_eq.trans kind_keyword) ?_
    refine (functionDeclaration_faces hn hs.deeper hf hsame h.deeper).mono fun id s₁ h₁ => ?_
    exact ⟨h₁.1, id, rfl, h₁.2⟩

/-! ## Section 6: Whole texts -/

/-- The text is read as statements, of which the function is the first. -/
theorem sourceFile_function (f : FunctionSyntax) (rest : List Char) (hf : f.readable = true) :
    Ensures sourceFile (State.ofText (f.text rest)) fun root final => ∃ id more,
      final.tree.form? root = some (.sourceFile (id :: more)) ∧ id < root ∧
        final.tree.ShowsFunction f id := by
  have hfaces : (State.ofText (f.text rest)).advanced.Faces f.words :=
    ofText_faces (by decide) (by decide) rfl (f.legible_words hf)
  have hkind : (State.ofText (f.text rest)).advanced.kind = .funcKeyword :=
    (State.Faces.kind_eq hfaces).trans kind_keyword
  have hready : Ready ((State.ofText (f.text rest)).advanced.scanner.bytes.size + 1)
      (State.ofText (f.text rest)).advanced := ⟨hfaces.settled, Nat.lt_succ_of_le (Nat.sub_le _ _)⟩
  -- The statement is read with one nested phrase less allowed.
  have hstatement := statement_function (reader_find (Nat.le_succ _)) hready hf rfl hfaces
  refine (sourceFile_first (f.text rest) (by rw [hkind]; rfl)
    (hstatement.mono fun r s' h => ⟨h.1.reads, h⟩)).mono ?_
  rintro root final ⟨statements, s', ⟨r, s₁, more, rfl, -, ⟨-, id, rfl, hshows⟩, hrest, -⟩, rfl, rfl⟩
  have hnew : id < s'.tree.nextId := by
    obtain ⟨name, parameters, result, body, hform, -⟩ := hshows.later hrest.grows.continues
    exact hform.1
  refine ⟨id, more, (Tree.form?_add ..).trans (if_pos rfl), hnew, ?_⟩
  exact (hshows.later hrest.grows.continues).later (.add s'.tree _ _ _)

end Grammar

/-! ## Section 7: The tree of a text -/

/-- The first function of a tree is the first statement, if that is one. -/
theorem Tree.firstFunction?_eq {t : Tree} {root id : Nat} {more : List Nat} {f : FunctionSyntax}
    (hroot : t.form? root = some (.sourceFile (id :: more))) (hlt : id < root)
    (h : t.ShowsFunction f id) : t.firstFunction? root = some id := by
  obtain ⟨name, parameters, result, body, hform, -, -⟩ := h
  obtain ⟨node, hnode, hnodeForm⟩ := Option.map_eq_some_iff.mp hroot
  obtain ⟨first, hfirst, hfirstForm⟩ := Option.map_eq_some_iff.mp (hform.2 t (.refl t))
  have hchildren : t.earlierChildren root = id :: (more.filter (· < root)) := by
    have hall : (Form.sourceFile (id :: more)).children = id :: more := by simp
    rw [earlierChildren, children, hroot, Option.map_some, Option.getD_some, hall,
      List.filter_cons, if_pos (decide_eq_true hlt)]
  simp only [firstFunction?, find?, fold, foldPending, hnode, hnodeForm, hchildren,
    List.cons_append, hfirst, hfirstForm]
  rfl

/-- The first function of the text is the one that it starts with. -/
theorem parse_function (f : FunctionSyntax) (rest : List Char) (hf : f.readable = true) :
    ∃ id, (SourceFile.parse (f.text rest)).tree.firstFunction?
        (SourceFile.parse (f.text rest)).root = some id ∧
      (SourceFile.parse (f.text rest)).tree.ShowsFunction f id := by
  obtain ⟨id, more, hform, hlt, hshows⟩ := (Grammar.sourceFile_function f rest hf).holds
  rw [Grammar.parse_tree, Grammar.parse_root]
  exact ⟨id, Tree.firstFunction?_eq hform hlt hshows, hshows⟩

/-! ## Section 8: The parameters of a text -/

namespace Tree

variable {t : Tree} {p : ParameterSyntax} {id : Nat}

/-- The parameter has the name that is its label. -/
theorem ShowsParameter.bindingName (h : t.ShowsParameter p id) :
    ∃ name, t.bindingName? id = some name ∧ t.text name = p.label.text := by
  obtain ⟨name, type, hform, hname, -⟩ := h
  exact ⟨name, by rw [bindingName?, hform.2 t (.refl t)]; rfl, hname.2 t (.refl t)⟩

/-- The type of the parameter tells of a closure what was written. -/
theorem ShowsParameter.typeOfParameter (h : t.ShowsParameter p id) :
    t.typeOfParameter id = p.type.tells {} true := by
  obtain ⟨name, type, hform, -, htype⟩ := h
  rw [Tree.typeOfParameter, hform.2 t (.refl t)]
  exact htype.eq t (.refl t) {} true

end Tree

/-- The first function of the text has the parameters it is written with. -/
theorem parse_parameters (f : FunctionSyntax) (rest : List Char) (hf : f.readable = true) :
    ∃ ids, (SourceFile.parse (f.text rest)).firstParameters? = some ids ∧
      List.Forall₂ (SourceFile.parse (f.text rest)).tree.ShowsParameter f.parameters ids := by
  obtain ⟨id, hfirst, name, ids, result, body, hform, -, hparameters⟩ := parse_function f rest hf
  refine ⟨ids, ?_, hparameters⟩
  rw [SourceFile.firstParameters?, hfirst, Option.bind_some, hform.2 _ (.refl _)]

/-- With one parameter, its type decides about a closure passed under its label. -/
theorem escapesIn_sole (f : FunctionSyntax) (p : ParameterSyntax) (rest : List Char)
    (hf : f.readable = true) (hsole : f.parameters = [p]) :
    escapesIn (f.text rest) (some p.label.text) = (p.type.tells {} true).escapes := by
  obtain ⟨ids, hfirst, hshows⟩ := parse_parameters f rest hf
  rw [hsole] at hshows
  cases hshows with
  | @cons _ id _ _ hparameter hnone =>
    cases hnone
    obtain ⟨name, hname, htext⟩ := hparameter.bindingName
    have hmatch : (SourceFile.parse (f.text rest)).tree.matchParameter? [id] (some p.label.text) =
        some id := by
      simp [Tree.matchParameter?, hname, htext]
    simp only [escapesIn, hfirst, hmatch, hparameter.typeOfParameter]

end SelfCapture
