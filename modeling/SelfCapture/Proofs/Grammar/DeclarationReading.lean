import SelfCapture.Proofs.Grammar.DeclarationSyntax

/-! # Function declarations are read back

  A declaration of which the name is an identifier is read as one statement
  with its parameters, its result and an empty body, and nothing is wrong
  with it.  So is a declaration of an operator without generic parameters.
  Where generic parameters follow an operator, the name takes in their
  opening bracket, since every token of an operator without a blank before
  it belongs to the name; the parameters are then missing,
  `parse_declaration`.
-/

namespace SelfCapture

open Token (Kind Name Word spellOut Legible)

/-! ## Section 1: What the nodes show -/

namespace Tree

/-- The nodes are the names of a parameter as they are written. -/
def ShowsNames (t : Tree) (label : Option IdentifierSyntax) (name : IdentifierSyntax)
    (first : Nat) (second : Option Nat) : Prop :=
  match label with
  | none => t.Identifies .identifier name.text first ∧ second = none
  | some label => t.Identifies .identifier label.text first ∧
      ∃ id, second = some id ∧ t.Identifies .identifier name.text id

/-- The node is the parameter. -/
def ShowsPlainParameter (t : Tree) (parameter : PlainParameter) (id : Nat) : Prop :=
  ∃ first second type, t.Formed (.parameter first second (some type) none) id ∧
    t.ShowsNames parameter.label parameter.name first second ∧
    t.NamesType (parameter.type.word true) type

/-- The node is the type of the result, if there is one. -/
def ShowsResult (t : Tree) (result : Option IdentifierSyntax) (node : Option Nat) : Prop :=
  Option.Rel (fun (type : IdentifierSyntax) id => t.NamesType (type.word true) id) result node

/-- The node is the declaration, with an empty block as its body. -/
def ShowsDeclaration (t : Tree) (d : DeclarationSyntax) (id : Nat) : Prop :=
  ∃ name parameters result body,
    t.Formed (.functionDecl .function name parameters result (some body)) id ∧
      t.Identifies d.name.kind d.name.text name ∧
      List.Forall₂ t.ShowsPlainParameter d.parameters parameters ∧ t.ShowsResult d.result result ∧
      t.Formed (.block []) body

variable {t t' : Tree} {id : Nat}

theorem ShowsNames.later {label : Option IdentifierSyntax} {name : IdentifierSyntax} {first : Nat}
    {second : Option Nat} (h : t.ShowsNames label name first second) (ht : Continues t t') :
    t'.ShowsNames label name first second := by
  cases label with
  | none => exact ⟨Identifies.later h.1 ht, h.2⟩
  | some label =>
    obtain ⟨hlabel, id, rfl, hname⟩ := h
    exact ⟨hlabel.later ht, id, rfl, hname.later ht⟩

theorem ShowsPlainParameter.later {parameter : PlainParameter}
    (h : t.ShowsPlainParameter parameter id) (ht : Continues t t') :
    t'.ShowsPlainParameter parameter id := by
  obtain ⟨first, second, type, hform, hnames, htype⟩ := h
  exact ⟨first, second, type, hform.later ht, hnames.later ht, htype.later ht⟩

theorem ShowsResult.later {result : Option IdentifierSyntax} {node : Option Nat}
    (h : t.ShowsResult result node) (ht : Continues t t') : t'.ShowsResult result node := by
  cases h with
  | none => exact .none
  | some htype => exact .some (NamesType.later htype ht)

theorem ShowsDeclaration.later {d : DeclarationSyntax} (h : t.ShowsDeclaration d id)
    (ht : Continues t t') : t'.ShowsDeclaration d id := by
  obtain ⟨name, parameters, result, body, hform, hname, hparameters, hresult, hbody⟩ := h
  exact ⟨name, parameters, result, body, hform.later ht, hname.later ht,
    hparameters.imp fun _ _ hshows => hshows.later ht, hresult.later ht, hbody.later ht⟩

end Tree

namespace Grammar

variable {n : Nat} {s s₁ : State} {nested : Readers} {blank : Bool} {word : Word} {words : List Word}

/-! ## Section 2: Names of operators -/

/-- The text from an offset up to the end of the token consumed last. -/
def State.HasRead (s : State) (start : Nat) (chars : List Char) : Prop :=
  start ≤ s.previousStop ∧ Text.slice s.scanner.bytes start s.previousStop = String.ofList chars

/-- A token without a blank before it starts where the one before it ends. -/
theorem previousStop_advanced (hs : s.Settled) (h : (afterBlank s.advanced).1 = false) :
    s.advanced.previousStop = s.advanced.offset := by
  have hpos : s.scanner.scan.token.pos = s.scanner.pos := Scanner.scan_pos_eq h
  show s.scanner.token.stop = s.scanner.scan.token.pos
  rw [hpos, hs.pos_eq]

/-- A token that adjoins what is covered is covered when it is consumed. -/
theorem State.HasRead.advanced {start : Nat} {chars : List Char} (h : s.HasRead start chars)
    (hne : chars ≠ []) (hfaces : s.Faces (word :: words)) (hword : word.chars ≠ [])
    (hpos : s.previousStop = s.offset) :
    s.advanced.HasRead start (chars ++ word.chars) := by
  obtain ⟨hle, hslice⟩ := h
  rw [hpos] at hle hslice
  have htoken : s.offset ≤ s.scanner.token.stop := hfaces.settled.token_le
  exact ⟨Nat.le_trans hle htoken, Text.slice_append hle htoken hne hword hslice hfaces.text_eq⟩

/-- Tokens that go on with an operator are consumed up to the first other token. -/
theorem operatorRow_faces {start : Nat} {chars : List Char} {row : List Word} (hs : s.Settled)
    (hrow : ∀ word ∈ row, continuesOperator word ∧ word.blank = false)
    (hwords : StartWith (fun kind => !inOperatorName kind) words) (hne : chars ≠ [])
    (h : s.advanced.Faces (row ++ words)) (hcovers : s.advanced.HasRead start chars) :
    Ensures (repeatWhile (do return inOperatorName (← kind) && !(← afterBlank)) advance) s.advanced
      fun _ s' => ReadsTo s.advanced [] words s' ∧
        s'.HasRead start (chars ++ row.flatMap (·.chars)) := by
  have htest {word : Word} {words : List Word} {s₁ : State} (h : s₁.Faces (word :: words)) :
      Ensures (do return inOperatorName (← kind) && !(← afterBlank)) s₁ fun found s₂ =>
        s₂ = s₁ ∧ found = (inOperatorName word.kind && !word.blank) := by
    refine .peek (.peek (.pure ⟨rfl, ?_⟩))
    rw [show (kind s₁).1 = word.kind from h.kind_eq, h.afterBlank_eq]
  unfold repeatWhile
  -- The tokens of the row that were consumed are covered, and the next one adjoins them.
  refine loop_ensures
    (I := fun _ s₁ => ∃ before after, row = before ++ after ∧
      ReadsTo s.advanced [] (after ++ words) s₁ ∧
      s₁.HasRead start (chars ++ before.flatMap (·.chars)) ∧
      ((afterBlank s₁).1 = false → s₁.previousStop = s₁.offset))
    h.settled ⟨[], row, rfl, .stay h, by simpa using hcovers, previousStop_advanced hs⟩ ?_
  rintro _ s₁ ⟨before, after, rfl, h₁, hbefore, hpos⟩ -
  cases after with
  | nil =>
    obtain ⟨next, more, rfl, hnext⟩ := hwords
    refine (htest h₁.faces).bind fun found s₂ h₂ => ?_
    obtain ⟨rfl, rfl⟩ := h₂
    refine .ite (fun hfound => ?_) fun _ => .pure ⟨h₁, by simpa using hbefore⟩
    rw [Bool.and_eq_true] at hfound
    simp [hfound.1] at hnext
  | cons word after =>
    obtain ⟨⟨hkind, hsome⟩, hblank⟩ := hrow word (by simp)
    refine (htest h₁.faces).bind fun found s₂ h₂ => ?_
    obtain ⟨rfl, rfl⟩ := h₂
    refine .ite (fun _ => ?_) fun hno => absurd ?_ hno
    · have hend : word.kind ≠ .endOfFile := by
        intro heq
        rw [heq] at hkind
        cases hkind
      have hadvance : Ensures advance s₂ fun _ s₃ => s₃ = s₂.advanced ∧
          ReadsTo s₂ [] (after ++ words) s₃ ∧ s₂.offset < s₃.offset :=
        ⟨⟨rfl, (advance_faces h₁.faces hend).holds⟩⟩
      refine hadvance.bind fun _ s₃ h₃ => .pure ⟨⟨before ++ [word], after, by simp, ?_, ?_, ?_⟩, ?_⟩
      · exact h₁.skip h₃.2.1
      · have hadjoins : s₂.previousStop = s₂.offset := by
          apply hpos
          rw [h₁.faces.afterBlank_eq, hblank]
        have hmore := hbefore.advanced (by simp [hne]) h₁.faces hsome hadjoins
        rw [h₃.1]
        simpa using hmore
      · rw [h₃.1]
        exact previousStop_advanced h₁.faces.settled
      · exact h₃.2.1.reads.moved h₃.2.2
    · rw [hkind, hblank]
      rfl

/-- The name of an operator is made of all its tokens. -/
theorem functionName_operator {first : Word} {row : List Word} (hfirst : continuesOperator first)
    (hrow : ∀ word ∈ row, continuesOperator word ∧ word.blank = false)
    (hwords : StartWith (fun kind => !inOperatorName kind) words)
    (h : s.Faces (first :: (row ++ words))) :
    Ensures functionName s fun id s' => ReadsTo s [id] words s' ∧
      s'.tree.Identifies .operator (String.ofList (first.chars ++ row.flatMap (·.chars))) id := by
  obtain ⟨hkind, hsome⟩ := hfirst
  -- No token of an operator can serve as a name.
  have hname : first.kind.isName = false := by
    revert hkind
    cases first.kind <;> intro hkind <;> first | rfl | cases hkind
  have hend : first.kind ≠ .endOfFile := by
    intro heq
    rw [heq] at hkind
    cases hkind
  unfold functionName
  refine .peek (.ite (fun hat => ?_) fun _ => .peek (.ite (fun _ => .peek ?_) fun hno =>
    absurd ?_ hno))
  · rw [h.isName_eq, hname] at hat
    cases hat
  · have hadvance : Ensures advance s fun _ s₁ => s₁ = s.advanced ∧ ReadsTo s [] (row ++ words) s₁ :=
      ⟨⟨rfl, (advance_faces h hend).holds.1⟩⟩
    refine hadvance.bind fun _ s₁ h₁ => ?_
    obtain ⟨rfl, hread⟩ := h₁
    -- Of the name, the first token has been covered so far.
    have hcovers : s.advanced.HasRead s.offset first.chars := ⟨h.settled.token_le, h.text_eq⟩
    refine (operatorRow_faces h.settled hrow hwords hsome hread.faces hcovers).bind fun _ s₂ h₂ => ?_
    obtain ⟨hskip, hle, hslice⟩ := h₂
    have hall := hread.append hskip
    have hmade := (finish_faces (.identifier .operator) hall (by simp) trivial).holds
    refine ⟨hmade.readsTo, hmade.formed, ?_⟩
    have hbytes : s₂.tree.bytes = s₂.scanner.bytes := hskip.faces.bytes_eq
    rw [← hslice, ← hbytes, ← Nat.max_eq_left hle]
    exact Tree.spelled_add s₂.tree (.identifier .operator) (Nat.le_max_right ..)
  · rw [show (kind s).1 = first.kind from h.kind_eq]
    exact hkind

/-! ## Section 3: Parameters -/

/-- The names of a parameter are read one after the other, with or without a label. -/
theorem parameterNames_faces {α : Type} {Q : α → State → Prop} {p : PlainParameter} {what : String}
    {next : Nat → Option Nat → Parse α} (hword : word.kind.isName = false)
    (h : s.Faces (p.nameWords blank ++ word :: words))
    (hnext : ∀ first second s₁, ReadsTo s (first :: second.toList) (word :: words) s₁ →
      s₁.tree.ShowsNames p.label p.name first second → Ensures (next first second) s₁ Q) :
    Ensures (nameOr what >>= fun first => name? >>= fun second => next first second) s Q := by
  unfold PlainParameter.nameWords at h
  cases hlabel : p.label with
  | none =>
    rw [hlabel] at h hnext
    have hfaces : s.Faces (p.name.word blank :: word :: words) := h
    refine (nameOr_identifies hfaces rfl _).bind fun first s₁ h₁ => ?_
    refine (name?_none h₁.1.faces hword).bind fun second s₂ h₂ => ?_
    obtain ⟨rfl, rfl⟩ := h₂
    exact hnext first none s₂ h₁.1 ⟨h₁.2.2, rfl⟩
  | some label =>
    rw [hlabel] at h hnext
    have hfaces : s.Faces (label.word blank :: p.name.word true :: word :: words) := h
    refine (nameOr_identifies hfaces rfl _).bind fun first s₁ h₁ => ?_
    refine (name?_identifies h₁.1.faces rfl).bind fun second s₂ h₂ => ?_
    obtain ⟨id, rfl, hread, hname⟩ := h₂
    refine hnext first (some id) s₂ (h₁.1.append hread) ⟨?_, id, rfl, hname⟩
    exact h₁.2.2.later hread.continues

theorem parameter_plain (hn : nested.ReadNames) {p : PlainParameter} (hdepth : s.depth < maxDepth)
    (h : s.Faces (p.words blank ++ words))
    (hwords : StartWith (fun kind => kind == .comma || kind == .closeParen) words) :
    Ensures (parameter nested) s fun id s' =>
      ReadsTo s [id] words s' ∧ s'.tree.ShowsPlainParameter p id := by
  simp only [PlainParameter.words, List.append_assoc, List.cons_append, List.nil_append] at h
  -- The first token is that of the label or of the name.
  have hattribute : Ensures skipAttributes s fun _ s' => s' = s := by
    unfold PlainParameter.nameWords at h
    cases hlabel : p.label with
    | none =>
      rw [hlabel] at h
      exact skipAttributes_none h nofun
    | some label =>
      rw [hlabel] at h
      exact skipAttributes_none h nofun
  have htype : StartWith endsTypeName words := by
    apply hwords.mono
    intro kind hkind
    rw [Bool.or_eq_true, beq_iff_eq, beq_iff_eq] at hkind
    rcases hkind with rfl | rfl <;> rfl
  unfold parameter
  refine .peek (hattribute.bind fun _ s₁ h₁ => ?_)
  subst h₁
  refine parameterNames_faces rfl h fun first second s₂ h₂ hnames => ?_
  refine (expect_here h₂.faces rfl (by decide) _).bind fun found s₃ h₃ => ?_
  obtain ⟨rfl, hcolon, -⟩ := h₃
  have hhead := h₂.skip hcolon
  have hsame : s₃.depth < maxDepth := hhead.depth_eq.trans_lt hdepth
  refine .branch (P := fun type s₄ => ∃ id, type = some id ∧
    FindsTypeName s₃ (p.type.word true) words id s₄) (fun _ => ?_) (fun hno => absurd rfl hno)
    fun type s₄ h₄ => ?_
  · refine .map ((hn.type hcolon.faces rfl htype hsame).mono fun id s₄ h₄ => ⟨id, rfl, h₄⟩)
  · obtain ⟨type, rfl, hread, hshows⟩ := h₄
    have hmade := parameterEnd_faces nested first second type (hhead.append hread) (by simp) hwords
    refine hmade.mono fun id s₅ h₅ => ⟨h₅.readsTo, first, second, type, h₅.formed, ?_, ?_⟩
    · exact ((hnames.later hcolon.continues).later hread.continues).later h₅.continues
    · exact hshows.later h₅.continues

/-- All parameters are read, parentheses included. -/
theorem parameterClause_plain (hn : nested.ReadNames) {parameters : List PlainParameter}
    (hdepth : s.depth < maxDepth)
    (h : s.Faces (⟨.openParen, ['('], false⟩ :: (commaWords PlainParameter.words parameters false ++
      ⟨.closeParen, [')'], false⟩ :: words))) :
    Ensures (parameterClause nested) s
      (ListedAll (fun p t id => t.ShowsPlainParameter p id) parameters words s) := by
  refine parameterClause_listed (fun p t id => t.ShowsPlainParameter p id)
    (fun hshows ht => hshows.later ht) ?_ ?_ h
  · intro p _ blank
    unfold PlainParameter.words PlainParameter.nameWords
    cases p.label with
    | none => exact .cons rfl
    | some label => exact .cons rfl
  · intro p _ blank words s₁ h₁ hsame _ hnext
    refine parameter_plain hn ?_ h₁ hnext
    rw [hsame]
    exact hdepth

/-! ## Section 4: Declarations -/

theorem resultClause_plain (hn : nested.ReadNames) {result : Option IdentifierSyntax}
    (hdepth : s.depth < maxDepth) (hword : word.kind = .openBrace)
    (h : s.Faces (DeclarationSyntax.resultWords result ++ word :: words)) :
    Ensures (resultClause nested) s fun r s' =>
      ReadsTo s r.toList (word :: words) s' ∧ s'.tree.ShowsResult result r := by
  unfold resultClause
  cases result with
  | none =>
    have hfaces : s.Faces (word :: words) := h
    refine (accept_other hfaces (by rw [hword]; decide)).bind fun found s₁ h₁ => ?_
    obtain ⟨rfl, rfl⟩ := h₁
    exact .ite (fun hfound => absurd hfound Bool.false_ne_true) fun _ => .pure ⟨.stay hfaces, .none⟩
  | some type =>
    have hfaces : s.Faces (⟨.arrow, ['-', '>'], true⟩ :: type.word true :: word :: words) := h
    refine (accept_here hfaces rfl (by decide)).bind fun found s₁ h₁ => ?_
    obtain ⟨rfl, harrow, -⟩ := h₁
    have hsame : s₁.depth < maxDepth := harrow.depth_eq.trans_lt hdepth
    have hend : StartWith endsTypeName (word :: words) := by
      apply StartWith.cons
      rw [hword]
      rfl
    refine .ite (fun _ => .map ?_) fun hno => absurd rfl hno
    refine (hn.type harrow.faces rfl hend hsame).mono fun id s₂ h₂ => ⟨?_, .some h₂.2⟩
    exact harrow.append h₂.1

theorem skipWhereClause_none (h : s.Faces (word :: words)) (hword : word.kind ≠ .whereKeyword) :
    Ensures skipWhereClause s fun _ s' => s' = s := by
  unfold skipWhereClause
  refine (accept_other h hword).bind fun found s₁ h₁ => ?_
  obtain ⟨rfl, rfl⟩ := h₁
  exact .ite (fun hfound => absurd hfound Bool.false_ne_true) fun _ => .pure rfl

/-- A body with nothing between its braces. -/
theorem functionBody_empty {opening closing : Word} (hopening : opening.kind = .openBrace)
    (hclosing : closing.kind = .closeBrace) (h : s.Faces (opening :: closing :: words)) :
    Ensures (functionBody nested) s fun r s' =>
      ∃ body, r = some body ∧ ReadsTo s [body] words s' ∧ s'.tree.Formed (.block []) body := by
  have hat : (isAt .openBrace s).1 = true := by rw [h.isAt_eq, hopening, beq_self_eq_true]
  have hblock : Ensures (block nested) s fun body s' =>
      ReadsTo s [body] words s' ∧ s'.tree.Formed (.block []) body := by
    unfold block
    refine .peek (.ite (fun _ => .peek ?_) fun hno => absurd hat hno)
    have hbraces : Ensures (statementsInBraces nested fun _ => {}) s fun ids s' =>
        ids = [] ∧ ReadsTo s [] words s' := by
      unfold statementsInBraces
      refine (advance_faces h (by rw [hopening]; decide)).bind fun _ s₁ h₁ => ?_
      refine (noStatements_faces h₁.1.faces hclosing _).bind fun ids s₂ h₂ => ?_
      obtain ⟨rfl, hnone⟩ := h₂
      refine (expect_here hnone.faces hclosing (by decide) _).bind fun _ s₃ h₃ => .pure ⟨rfl, ?_⟩
      exact (h₁.1.skip hnone).skip h₃.2.1
    refine hbraces.bind fun ids s₁ h₁ => ?_
    obtain ⟨rfl, hread⟩ := h₁
    have hmade := finish_faces (.block []) hread (by simp) trivial
    exact hmade.mono fun body s₂ h₂ => ⟨h₂.readsTo, h₂.formed⟩
  unfold functionBody
  refine .peek (.ite (fun _ => .map ?_) fun hno => absurd hat hno)
  exact hblock.mono fun body s₁ h₁ => ⟨body, rfl, h₁⟩

/-- An operator without generic parameters after it ends where it is written
    to end, and so does an identifier. -/
theorem functionName_declared (d : DeclarationSyntax)
    (hname : d.name.kind = .identifier ∨ d.generics = [])
    (h : s.Faces (d.name.words ++
      (DeclarationSyntax.genericWords d.generics ++ (d.tailWords ++ words)))) :
    Ensures functionName s fun id s' =>
      ReadsTo s [id] (DeclarationSyntax.genericWords d.generics ++ (d.tailWords ++ words)) s' ∧
        s'.tree.Identifies d.name.kind d.name.text id := by
  cases hdeclared : d.name with
  | identifier name =>
    rw [hdeclared] at h
    have hfaces : s.Faces (name.word true ::
        (DeclarationSyntax.genericWords d.generics ++ (d.tailWords ++ words))) := h
    unfold functionName
    refine .peek (.ite (fun _ => ?_) fun hno => absurd hfaces.isName_eq hno)
    exact (name_identifies hfaces nofun).mono fun id s₁ h₁ => ⟨h₁.1, h₁.2.2⟩
  | operator chars some_of valid =>
    rw [hdeclared] at h hname
    obtain ⟨first, row, hwords, hfirst, hrow, hchars⟩ := exists_operatorWords some_of true
    -- Nothing adjoins the name but the parenthesis, which ends it.
    have hnone : d.generics = [] := hname.resolve_left nofun
    rw [hnone] at h ⊢
    have hfaces : s.Faces (first :: (row ++ (d.tailWords ++ words))) := by
      rw [← List.cons_append, ← hwords]
      exact h
    have hspell := functionName_operator hfirst hrow (.cons rfl) hfaces
    rw [hchars] at hspell
    exact hspell

/-- Between the angle brackets stands no other one. -/
theorem kind_of_mem_generics {generics : List IdentifierSyntax} {blank : Bool}
    (h : word ∈ commaWords IdentifierSyntax.words generics blank) :
    word.kind ≠ .lessThan ∧ word.kind ≠ .greaterThan ∧ word.kind ≠ .endOfFile := by
  rcases mem_commaWords h with hcomma | ⟨generic, -, blank', hword⟩
  · rw [hcomma]
    decide
  · rw [List.mem_singleton.mp hword]
    exact ⟨nofun, nofun, nofun⟩

/-- What follows the parameters of a declaration, up to the end of its body. -/
theorem functionRest_declared (hn : nested.ReadNames) {result : Option IdentifierSyntax}
    {pos name : Nat} {parameters : List Nat} {Q : Nat → State → Prop} (hdepth : s.depth < maxDepth)
    (h : s.Faces (DeclarationSyntax.resultWords result ++
      ⟨.openBrace, ['\x7b'], true⟩ :: ⟨.closeBrace, ['\x7d'], true⟩ :: words))
    (hfinish : ∀ type body s', ReadsTo s (Option.toList type ++ [body]) words s' →
      s'.tree.ShowsResult result type → s'.tree.Formed (.block []) body →
      Ensures (finish (.functionDecl .function name parameters type (some body)) pos) s' Q) :
    Ensures (do
      let _ ← skipEffects
      let result ← resultClause nested
      skipWhereClause
      let body ← functionBody nested
      finish (.functionDecl .function name parameters result body) pos) s Q := by
  have heffects : Ensures skipEffects s fun _ s' => s' = s := by
    cases result with
    | none => exact skipEffects_none h ⟨nofun, nofun, nofun⟩
    | some type => exact skipEffects_none h ⟨nofun, nofun, nofun⟩
  refine heffects.bind fun _ s₁ h₁ => ?_
  subst h₁
  refine (resultClause_plain hn hdepth rfl h).bind fun type s₂ h₂ => ?_
  refine (skipWhereClause_none h₂.1.faces nofun).bind fun _ s₃ h₃ => ?_
  subst h₃
  refine (functionBody_empty rfl rfl h₂.1.faces).bind fun r s₄ h₄ => ?_
  obtain ⟨body, rfl, hbody, hblock⟩ := h₄
  exact hfinish type body s₄ (h₂.1.append hbody) (h₂.2.later hbody.continues) hblock

theorem functionDeclaration_declared (hn : nested.ReadNames) (d : DeclarationSyntax)
    (hname : d.name.kind = .identifier ∨ d.generics = []) (hdepth : s.depth < maxDepth)
    (h : s.Faces (d.words ++ words)) :
    Ensures (functionDeclaration nested s.offset) s fun id s' =>
      ReadsTo s [id] words s' ∧ s'.tree.ShowsDeclaration d id := by
  simp only [DeclarationSyntax.words, List.cons_append, List.append_assoc] at h
  unfold functionDeclaration
  refine (advance_faces h (by decide)).bind fun _ s₁ h₁ => ?_
  refine (functionName_declared d hname h₁.1.faces).bind fun name s₂ h₂ => ?_
  have hclause := h₂.1.faces
  simp only [DeclarationSyntax.genericWords, DeclarationSyntax.tailWords, List.cons_append,
    List.append_assoc, List.nil_append] at hclause
  refine (skipGenerics_faces (fun _ hmem => kind_of_mem_generics hmem) hclause).bind fun _ s₃ h₃ => ?_
  have hhead : ReadsTo s [name] _ s₃ := (h₁.1.append h₂.1).skip h₃
  have hlevel : s₃.depth < maxDepth := hhead.depth_eq.trans_lt hdepth
  refine (parameterClause_plain hn hlevel h₃.faces).bind fun parameters s₄ h₄ => ?_
  have hlevel' : s₄.depth < maxDepth := h₄.1.depth_eq.trans_lt hlevel
  refine functionRest_declared hn hlevel' h₄.1.faces fun result body s₅ h₅ hresult hbody => ?_
  have hmade := finish_faces (.functionDecl .function name parameters result (some body))
    ((hhead.append h₄.1).append h₅) (by simp) trivial
  refine hmade.mono fun id s₆ h₆ =>
    ⟨h₆.readsTo, name, parameters, result, body, h₆.formed, ?_, ?_, ?_, ?_⟩
  · have hlater := (h₂.2.later h₃.continues).later h₄.1.continues
    exact (hlater.later h₅.continues).later h₆.continues
  · exact h₄.2.imp fun _ _ hshows => (hshows.later h₅.continues).later h₆.continues
  · exact hresult.later h₆.continues
  · exact hbody.later h₆.continues

/-- The declaration is read as one statement. -/
theorem statement_declared (hn : nested.ReadNames) (d : DeclarationSyntax)
    (hname : d.name.kind = .identifier ∨ d.generics = []) (hdepth : s.depth = 0)
    (h : s.Faces (d.words ++ words)) :
    Ensures (statement nested) s fun r s' =>
      ∃ id, r = some id ∧ ReadsTo s [id] words s' ∧ s'.tree.ShowsDeclaration d id := by
  refine guarded_some (fun t id => t.ShowsDeclaration d id) (hdepth ▸ by decide) ?_
  have hlevel : s.deeper.depth < maxDepth := by
    show s.depth + 1 < maxDepth
    rw [hdepth]
    decide
  refine anyStatement_function h.settled (h.kind_eq.trans kind_keyword) ?_
  exact (functionDeclaration_declared hn d hname hlevel h.deeper).mono fun id s₁ h₁ => ⟨id, rfl, h₁⟩

/-! ## Section 5: Brackets taken for an operator -/

/-- An issue that was recorded is among the diagnostics. -/
def State.Recorded (s : State) : Prop := s.lastIssueAt ≠ none → s.diagnostics ≠ #[]

/-- What is reported is recorded, unless the last issue was recorded there. -/
theorem diagnostics_reported (h : s.Recorded) (issue : Issue) :
    (s.reported issue).diagnostics ≠ #[] := by
  unfold State.reported
  split
  · rename_i hsame
    apply h
    rw [eq_of_beq hsame]
    exact nofun
  · simp

theorem Derives.recorded {task : Task} {s s' : State} {ids : List Nat} (h : Derives task s ids s')
    (hs : s.Recorded) : s'.Recorded := by
  induction h with
  | stay _ | advance _ | name _ | missing _ | noWindow => exact hs
  | report _ issue => exact fun _ => diagnostics_reported hs issue
  | append _ _ ih ih' => exact ih' (ih hs)
  | forget _ ih | finish _ _ ih | closure _ _ _ ih | under _ _ ih | deeper _ _ ih
  | interpolate _ _ ih => exact ih hs
  | window _ _ ih ih' => exact ih' (ih hs)

/-- Without a parenthesis there are no parameters, and that is reported. -/
theorem parameterClause_reports (hs : s.Settled) (hrecorded : s.Recorded)
    (hkind : s.kind ≠ .openParen) :
    Ensures (parameterClause nested) s fun ids s' => Reads s ids s' ∧ s'.diagnostics ≠ #[] := by
  have hexpect : Ensures (expect .openParen "'('") s fun found s' =>
      found = false ∧ Reads s [] s' ∧ s'.diagnostics ≠ #[] := by
    unfold expect
    refine (accept_reads hs .openParen).bind fun found s₁ h₁ => .ite (fun hfound => ?_) fun hno => ?_
    · exact absurd (h₁.2.1 hfound).1 hkind
    · obtain rfl := h₁.2.2 (eq_false_of_ne_true hno)
      have hreport : Ensures (reportExpected "'('") s₁ fun _ s' =>
          s' = s₁.reported (.expected "'('") := ⟨rfl⟩
      refine hreport.bind fun _ s₂ h₂ => .pure ?_
      subst h₂
      exact ⟨rfl, .report hs _, diagnostics_reported hrecorded _⟩
  unfold parameterClause
  refine hexpect.bind fun found s₁ h₁ => ?_
  obtain ⟨rfl, hread⟩ := h₁
  exact .ite (fun hfound => absurd hfound Bool.false_ne_true) fun _ => .pure hread

/-- The bracket after an operator becomes part of the name. -/
theorem functionName_swallows (d : DeclarationSyntax) (hname : d.name.kind ≠ .identifier)
    (hgenerics : d.generics ≠ [])
    (h : s.Faces (d.name.words ++ (DeclarationSyntax.genericWords d.generics ++ words))) :
    Ensures functionName s fun id s' => ∃ next more, next.kind = .identifier ∧
      ReadsTo s [id] (next :: more) s' ∧ s'.tree.Identifies .operator (d.name.text ++ "<") id := by
  obtain ⟨generic, generics, hlist⟩ := List.exists_cons_of_ne_nil hgenerics
  rw [hlist, DeclarationSyntax.genericWords, commaWords_cons] at h
  cases hdeclared : d.name with
  | identifier name =>
    rw [hdeclared] at hname
    exact absurd rfl hname
  | operator chars some_of valid =>
    rw [hdeclared] at h
    obtain ⟨first, row, hwords, hfirst, hrow, hchars⟩ := exists_operatorWords some_of true
    let bracket : Word := ⟨.lessThan, ['<'], false⟩
    -- The bracket adjoins the operator, so it goes on with the name like the others.
    have hall : ∀ word ∈ row ++ [bracket], continuesOperator word ∧ word.blank = false := by
      intro word hmem
      rcases List.mem_append.mp hmem with hmem | hmem
      · exact hrow word hmem
      · rw [List.mem_singleton.mp hmem]
        exact ⟨⟨rfl, List.cons_ne_nil _ _⟩, rfl⟩
    have hfaces : s.Faces (first :: ((row ++ [bracket]) ++ (generic.word false ::
        (commaTail IdentifierSyntax.words generics ++ ⟨.greaterThan, ['>'], false⟩ :: words)))) := by
      simpa [DeclaredName.words, hwords, IdentifierSyntax.words, TypeSyntax.angled] using h
    have htext : String.ofList (first.chars ++ (row ++ [bracket]).flatMap (·.chars)) =
        String.ofList chars ++ "<" := by
      rw [List.flatMap_append, ← List.append_assoc, hchars, String.ofList_append]
      rfl
    refine (functionName_operator hfirst hall (.cons rfl) hfaces).mono fun id s₁ h₁ => ?_
    rw [htext] at h₁
    exact ⟨_, _, rfl, h₁⟩

/-- Then neither generic parameters nor other ones are found. -/
theorem functionDeclaration_swallows (hn : nested.Below n) (hs : Ready (n + 1) s)
    (d : DeclarationSyntax) (hname : d.name.kind ≠ .identifier) (hgenerics : d.generics ≠ [])
    (hrecorded : s.Recorded)
    (h : s.Faces (d.words ++ words)) :
    Ensures (functionDeclaration nested s.offset) s fun id s' =>
      Reads s [id] s' ∧ s'.diagnostics ≠ #[] := by
  simp only [DeclarationSyntax.words, List.cons_append, List.append_assoc] at h
  unfold functionDeclaration
  refine (advance_faces h (by decide)).bind fun _ s₁ h₁ => ?_
  refine (functionName_swallows d hname hgenerics h₁.1.faces).bind fun name s₂ h₂ => ?_
  obtain ⟨next, more, hnext, hread, -⟩ := h₂
  -- Without its bracket the generic clause is not recognized, and the name of its
  -- first parameter stands where a parenthesis should be.
  have hless : next.kind ≠ .lessThan := by
    rw [hnext]
    decide
  have hparen : s₂.kind ≠ .openParen := by
    rw [hread.faces.kind_eq, hnext]
    decide
  refine (skipBalanced_none hread.faces hless).bind fun _ s₃ h₃ => ?_
  subst h₃
  have hhead := h₁.1.append hread
  refine (parameterClause_reports hread.faces.settled (hhead.reads.recorded hrecorded) hparen).bind
    fun parameters s₄ h₄ => ?_
  have hs₄ := ((hs.moved h₁.1.reads h₁.2).reads hread.reads).reads h₄.1
  refine functionRest_reads hn hs₄ fun result body s₅ hrest => ?_
  have hmade : Ensures (finish (.functionDecl .function name parameters result body) s.offset) s₅
      fun id s₆ => Reads s [id] s₆ :=
    finish_reads ((hhead.reads.append h₄.1).append hrest) (by simp) trivial
  exact ⟨⟨hmade.holds, hrest.keeps.diagnostics_ne h₄.2⟩⟩

theorem statement_swallows (hn : nested.Below n) (hs : Ready (n + 1) s) (d : DeclarationSyntax)
    (hname : d.name.kind ≠ .identifier) (hgenerics : d.generics ≠ []) (hrecorded : s.Recorded)
    (hdepth : s.depth = 0) (h : s.Faces (d.words ++ words)) :
    Ensures (statement nested) s fun r s' => Reads s (Option.toList r) s' ∧ s'.diagnostics ≠ #[] := by
  have hlevel : s.depth < maxDepth := by
    rw [hdepth]
    decide
  refine guarded_ensures hlevel ?_
  refine anyStatement_function h.settled (h.kind_eq.trans kind_keyword) ?_
  refine (functionDeclaration_swallows hn hs.deeper d hname hgenerics hrecorded h.deeper).mono
    fun id s₁ h₁ => ?_
  exact ⟨.deeper hlevel h₁.1, h₁.2⟩

end Grammar

/-! ## Section 6: The tree of a text -/

/-- A declaration is read without complaint just if its name is an identifier
    or no generic parameters follow it.  Then it is the only statement of its
    text, with the name, the parameters and the result that are written, and
    with an empty block as its body. -/
theorem parse_declaration (d : DeclarationSyntax) :
    let file := SourceFile.parse d.text
    (file.diagnostics = [] ↔ d.name.kind = .identifier ∨ d.generics = []) ∧
      (d.name.kind = .identifier ∨ d.generics = [] →
        ∃ id, file.tree.form? file.root = some (.sourceFile [id]) ∧
          file.tree.ShowsDeclaration d id) := by
  intro file
  have htext : d.text = String.ofList (spellOut d.words []) := rfl
  obtain ⟨chars, hchars⟩ : ∃ chars, spellOut d.words [] = 'f' :: chars := ⟨_, rfl⟩
  have hshows : d.name.kind = .identifier ∨ d.generics = [] → file.diagnostics = [] ∧
      ∃ id, file.tree.form? file.root = some (.sourceFile [id]) ∧
        file.tree.ShowsDeclaration d id := by
    intro hname
    have hn : (Grammar.statementReader d.text).ReadNames := Grammar.reader_readNames _
    have hsole := Grammar.parse_sole (P := fun t id => t.ShowsDeclaration d id) d.text htext hchars
      (by decide) (by decide) d.legible_words (.cons (by decide))
      (fun hshows ht => hshows.later ht) fun s hdepth _ hfaces =>
        Grammar.statement_declared hn d hname hdepth hfaces
    obtain ⟨hclean, id, hroot, -, hdeclaration⟩ := hsole
    exact ⟨hclean, id, hroot, hdeclaration⟩
  have hswallows : d.name.kind ≠ .identifier → d.generics ≠ [] → file.diagnostics ≠ [] := by
    intro hname hgenerics
    let s := (Grammar.State.ofText d.text).advanced
    have hfaces : s.Faces (d.words ++ [Scanner.ending]) :=
      Grammar.ofText_faces_all (by decide) (by decide) hchars d.legible_words
    have hready : Grammar.Ready (s.scanner.bytes.size + 1) s :=
      ⟨hfaces.settled, Nat.lt_succ_of_le (Nat.sub_le _ _)⟩
    have hkind : s.kind = .funcKeyword := hfaces.kind_eq.trans Grammar.kind_keyword
    have hn : (Grammar.statementReader d.text).Below s.scanner.bytes.size :=
      Grammar.reader_below_ahead (Nat.le_succ _)
    refine Grammar.parse_reports_first d.text (by rw [hkind]; rfl) ?_
    have hrecorded : s.Recorded := fun hissue => absurd rfl hissue
    exact Grammar.statement_swallows hn hready d hname hgenerics hrecorded rfl hfaces
  refine ⟨⟨fun hclean => ?_, fun hname => (hshows hname).1⟩, fun hname => (hshows hname).2⟩
  by_cases hname : d.name.kind = .identifier
  · exact .inl hname
  · by_cases hgenerics : d.generics = []
    · exact .inr hgenerics
    · exact absurd hclean (hswallows hname hgenerics)

/-- The operator `==` with a generic parameter and a parameter. -/
def genericEquality : DeclarationSyntax where
  name := .operator ['=', '='] nofun rfl
  generics := [.plain ⟨['T'], by decide⟩ (by decide +kernel)]
  parameters := [⟨none, .plain ⟨['a'], by decide⟩ (by decide +kernel),
    .plain ⟨['T'], by decide⟩ (by decide +kernel)⟩]
  result := none

/-- The name of the operator is read as `==<`, and a parenthesis is missing after it. -/
theorem genericEquality_unread :
    genericEquality.text = "func ==<T>(a: T) \x7b \x7d" ∧
      (SourceFile.parse genericEquality.text).diagnostics = [⟨8, 1, .expected "'('"⟩] := by
  have htext : genericEquality.text = "func ==<T>(a: T) \x7b \x7d" := by decide +kernel
  rw [htext]
  exact ⟨rfl, by decide +kernel⟩

end SelfCapture
