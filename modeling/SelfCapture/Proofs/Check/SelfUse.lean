import SelfCapture.Proofs.Check.SourceOrder
import SelfCapture.Proofs.Grammar.Nesting
import SelfCapture.Proofs.Grammar.PlacedTrees
import SelfCapture.Proofs.Token.LexemeKinds
import SelfCapture.Proofs.Tree.Loops

/-! # Uses of the enclosing instance

  The search for a use stops at the first one it finds, so what it tells is
  whether there is one below the statements.  A closure in the body of
  another one has its statements below those of the other, and a use in it
  is a use in the other: `self_use_spreads_outward`.
-/

namespace SelfCapture

namespace Tree

variable {t : Tree}

/-! ## Section 1: What is searched for -/

/-- An identifier that is spelled as the name of the enclosing instance. -/
def NamesSelf (t : Tree) (id : Nat) : Prop :=
  (∃ token, t.form? id = some (.identifier token)) ∧
    (t.text id = "self" ∨ t.text id = "`self`")

/-- An access to a member of the enclosing instance: taking all unwrapping
    marks off its base leaves the name of the instance. -/
def AccessesSelf (t : Tree) (access : Nat) : Prop :=
  ∃ base name inner, t.form? access = some (.memberAccess (some base) name) ∧
    Ends t.unwrapStep base (some inner) ∧ t.NamesSelf inner

/-- The statements in the braces of a closure. -/
def body (t : Tree) (closure : Nat) : List Nat :=
  match t.form? closure with
  | some (.closure _ _ _ statements) => statements
  | _ => []

/-- The node is one of the body's statements or somewhere below one. -/
def InBody (t : Tree) (closure id : Nat) : Prop :=
  ∃ statement ∈ t.body closure, t.Reaches statement id

theorem body_of_form? {closure : Nat} {captures statements : List Nat}
    {parameters : ClosureParameters} {result : Option Nat}
    (hform : t.form? closure = some (.closure captures parameters result statements)) :
    t.body closure = statements := by
  rw [body, hform]

/-- What is no closure has no body. -/
theorem body_of_not_isClosure {closure : Nat} (h : t.isClosure closure = false) :
    t.body closure = [] := by
  unfold body
  split
  · rename_i hform
    rw [isClosure, hform] at h
    cases h
  · rfl

theorem mem_children_of_mem_body {closure statement : Nat} (h : statement ∈ t.body closure) :
    statement ∈ t.children closure := by
  cases hclosure : t.isClosure closure with
  | false =>
    rw [body_of_not_isClosure hclosure] at h
    cases h
  | true =>
    obtain ⟨captures, parameters, result, statements, hform⟩ := exists_closure hclosure
    rw [body_of_form? hform] at h
    rw [children, hform]
    simp [h]

/-! ## Section 2: What the search finds -/

/-- Taking the marks off leads to the node that the loop ends with. -/
theorem unwrapped_eq_iff (hl : t.Linked) {base inner : Nat} :
    t.unwrapped base = some inner ↔ Ends t.unwrapStep base (some inner) := by
  have hends := hl.unwrapped_ends base
  constructor
  · intro heq
    rw [heq] at hends
    exact hends
  · exact hends.unique

/-- The search finds the accesses to members of the enclosing instance, if
    it tells its names from other identifiers. -/
theorem isSelfMember_iff (hl : t.Linked)
    (hnames : ∀ id, t.isSelfReference id = true ↔ t.NamesSelf id) {access : Nat} {node : Node}
    (hnode : t.get? access = some node) : t.isSelfMember node = true ↔ t.AccessesSelf access := by
  have hform : t.form? access = some node.form := by rw [form?, hnode, Option.map_some]
  constructor
  · intro hmember
    unfold isSelfMember at hmember
    split at hmember
    · rename_i base name haccess
      obtain ⟨inner, hinner, hself⟩ := (Option.any_eq_true _ _).mp hmember
      rw [haccess] at hform
      exact ⟨base, name, inner, hform, (unwrapped_eq_iff hl).mp hinner, (hnames inner).mp hself⟩
    · cases hmember
  · rintro ⟨base, name, inner, haccess, hends, hself⟩
    rw [hform] at haccess
    unfold isSelfMember
    rw [Option.some.inj haccess]
    show (t.unwrapped base).any t.isSelfReference = true
    rw [(unwrapped_eq_iff hl).mpr hends, Option.any_some]
    exact (hnames inner).mpr hself

theorem exists_get?_of_accessesSelf {access : Nat} (h : t.AccessesSelf access) :
    ∃ node, t.get? access = some node := by
  obtain ⟨base, name, -, hform, -⟩ := h
  obtain ⟨node, hnode, -⟩ := Option.map_eq_some_iff.mp hform
  exact ⟨node, hnode⟩

/-- Statements use the enclosing instance if a member of it is accessed below one of them. -/
theorem usesSelf_iff (hl : t.Linked)
    (hnames : ∀ id, t.isSelfReference id = true ↔ t.NamesSelf id) (statements : List Nat) :
    t.usesSelf statements = true ↔
      ∃ statement ∈ statements, ∃ access, t.Reaches statement access ∧ t.AccessesSelf access := by
  have hstatement : ∀ statement, t.accessesSelf statement = true ↔
      ∃ access, t.Reaches statement access ∧ t.AccessesSelf access := by
    intro statement
    rw [accessesSelf, fold_any, List.any_eq_true]
    constructor
    · rintro ⟨access, hmem, hany⟩
      obtain ⟨node, hnode, hmember⟩ := (Option.any_eq_true _ _).mp hany
      exact ⟨access, hl.reaches_of_mem_preorder hmem, (isSelfMember_iff hl hnames hnode).mp hmember⟩
    · rintro ⟨access, hreaches, haccess⟩
      obtain ⟨node, hnode⟩ := exists_get?_of_accessesSelf haccess
      refine ⟨access, hl.mem_preorder_iff.mpr ⟨hreaches, node, hnode⟩, ?_⟩
      rw [hnode, Option.any_some]
      exact (isSelfMember_iff hl hnames hnode).mpr haccess
  simp only [usesSelf, List.any_eq_true, hstatement]

/-- A use in a closure is a use in every closure around it. -/
theorem usesSelf_outward (hl : t.Linked)
    (hnames : ∀ id, t.isSelfReference id = true ↔ t.NamesSelf id) {outer inner : Nat}
    (hin : t.InBody outer inner) (huse : t.usesSelf (t.body inner) = true) :
    t.usesSelf (t.body outer) = true := by
  obtain ⟨statement, hstatement, hinner⟩ := hin
  obtain ⟨below, hbelow, access, hreaches, haccess⟩ := (usesSelf_iff hl hnames _).mp huse
  -- From the outer statement down to the inner closure, into its body, and on to the access.
  have hdown : t.Reaches statement access :=
    (hinner.tail (mem_children_of_mem_body hbelow)).trans hreaches
  exact (usesSelf_iff hl hnames _).mpr ⟨statement, hstatement, access, hdown, haccess⟩

end Tree

/-! ## Section 3: Names of the instance in a text -/

/-- A token of the kind of `self` is spelled so, and other identifiers are
    told by their text. -/
theorem isSelfReference_iff (text : String) (id : Nat) :
    (SourceFile.parse text).tree.isSelfReference id = true ↔
      (SourceFile.parse text).tree.NamesSelf id := by
  let t := (SourceFile.parse text).tree
  show t.isSelfReference id = true ↔ t.NamesSelf id
  unfold Tree.isSelfReference Tree.NamesSelf
  cases hform : t.form? id with
  | none => simp
  | some form =>
    cases form with
    | identifier token =>
      -- A keyword's text is the word, by the law of identifiers.
      have hkeyword : token = .selfKeyword → t.text id = "self" := by
        rintro rfl
        obtain ⟨node, hnode, -⟩ := Option.map_eq_some_iff.mp hform
        have htoken : Scanner.IsToken text .selfKeyword (node.pos, node.stop) :=
          Grammar.parse_lawful text hform (Tree.range?_of_get? hnode) rfl
        rw [Tree.text, hnode, Grammar.parse_bytes]
        exact Token.Kind.ofWord?_eq_self (htoken.ofWord? rfl)
      simp only [Token.isSelfName, Bool.or_eq_true, beq_iff_eq, Option.some.injEq,
        Form.identifier.injEq, exists_eq', true_and]
      constructor
      · rintro (hself | htext)
        · exact .inl (hkeyword hself)
        · exact htext
      · exact .inr
    | _ => simp

/-! ## Section 4: Verdicts -/

/-- The first test of a verdict is the search in the body. -/
theorem Setting.verdict_eq_noSelfUse {s : Setting} {closure call : Nat} {label : Option String} :
    s.verdict closure call label = .noSelfUse ↔ s.tree.usesSelf (s.tree.body closure) = false := by
  cases hclosure : s.tree.isClosure closure with
  | false =>
    rw [Tree.body_of_not_isClosure hclosure]
    have hverdict : s.verdict closure call label = .noSelfUse := by
      unfold Setting.verdict
      split
      · rename_i hform
        rw [Tree.isClosure, hform] at hclosure
        cases hclosure
      · rfl
    exact iff_of_true hverdict rfl
  | true =>
    obtain ⟨captures, parameters, result, statements, hform⟩ := Tree.exists_closure hclosure
    rw [Tree.body_of_form? hform, Setting.verdict, hform]
    dsimp only
    cases s.tree.usesSelf statements with
    | false => exact iff_of_true rfl rfl
    | true =>
      -- None of the later tests gives the first verdict.
      simp only [Bool.not_true, Bool.false_eq_true, if_false, Bool.true_eq_false, iff_false]
      repeat' split
      all_goals decide

/-- The body of a reported closure uses the enclosing instance. -/
theorem usesSelf_of_mem_reportedClosures {s : Setting} (hl : s.tree.Linked) (hs : s.tree.Sound)
    {rules : List Rule} {root closure : Nat} (h : closure ∈ s.reportedClosures rules root) :
    s.tree.usesSelf (s.tree.body closure) = true := by
  obtain ⟨call, -, -, label, -, hreport⟩ := (mem_reportedClosures hl hs).mp h
  by_contra hnot
  have hnone : s.verdict closure call (label.map s.tree.text) = .noSelfUse :=
    Setting.verdict_eq_noSelfUse.mpr (Bool.eq_false_iff.mpr hnot)
  rw [hnone] at hreport
  cases hreport

/-- Closures under the root that start at one location are one closure. -/
theorem closure_location_unique (index : Index.Lookup) (file text : String) {a b : Nat} :
    let s := Setting.ofText index file text
    let root := (SourceFile.parse text).root
    a ∈ (s.tree.preorder root).filter s.tree.isClosure →
      b ∈ (s.tree.preorder root).filter s.tree.isClosure →
      ∀ place place' : Location, s.location? a = some place → s.location? b = some place' →
        place.line = place'.line → place.column = place'.column → a = b := by
  intro s root ha hb place place' hplace hplace' hline hcolumn
  obtain ⟨offset, hoffset, rfl⟩ := Option.map_eq_some_iff.mp hplace
  obtain ⟨offset', hoffset', rfl⟩ := Option.map_eq_some_iff.mp hplace'
  have hascends : Ascends 0
      (((s.tree.preorder root).filter s.tree.isClosure).filterMap s.tree.pos?)
      text.toByteArray.size := by
    have hopenings := Grammar.parse_openings text
    rw [Tree.openings, List.flatMap_singleton] at hopenings
    exact hopenings
  have hbound := hascends.lt_high (List.mem_filterMap.mpr ⟨a, ha, hoffset⟩)
  have hbound' := hascends.lt_high (List.mem_filterMap.mpr ⟨b, hb, hoffset'⟩)
  obtain rfl := LineMap.location_injective (LineMap.ofText_ascending text) (Nat.le_of_lt hbound)
    (Nat.le_of_lt hbound') hline hcolumn
  -- Offsets that ascend strictly are those of different closures.
  have hpairwise := List.pairwise_filterMap.mp hascends.pairwise
  have hdistinct : ((s.tree.preorder root).filter s.tree.isClosure).Pairwise fun x y =>
      ¬ (s.tree.pos? x = some offset ∧ s.tree.pos? y = some offset) := by
    apply hpairwise.imp
    intro x y hlt hboth
    exact Nat.lt_irrefl _ (hlt offset hboth.1 offset hboth.2)
  have hsymm : Std.Symm fun x y =>
      ¬ (s.tree.pos? x = some offset ∧ s.tree.pos? y = some offset) :=
    ⟨fun _ _ h hboth => h hboth.symm⟩
  by_contra hne
  exact hdistinct.forall ha hb hne ⟨hoffset, hoffset'⟩

/-! ## Section 5: Closures in bodies -/

/-- A use of the enclosing instance in a closure is a use in every closure
    that has the first one in its body.  So when the verdict on a closure is
    that it does not use the instance, no closure in its body is reported,
    with any rules and any index, and no report is at the place of one.  What
    counts as a use is an access to a member whose base, without unwrapping
    marks, is spelled as the name of the instance. -/
theorem self_use_spreads_outward (text : String) :
    let t := (SourceFile.parse text).tree
    let root := (SourceFile.parse text).root
    (∀ statements, t.usesSelf statements = true ↔
      ∃ statement ∈ statements, ∃ access, t.Reaches statement access ∧ t.AccessesSelf access) ∧
    (∀ outer inner, t.isClosure outer = true → t.isClosure inner = true → t.InBody outer inner →
      t.usesSelf (t.body inner) = true → t.usesSelf (t.body outer) = true) ∧
    ∀ (index : Index.Lookup) (file : String) (outer call : Nat) (label : Option String),
      t.isClosure outer = true →
      (Setting.ofText index file text).verdict outer call label = .noSelfUse →
      ∀ (policy : Policy) (index' : Index.Lookup) (file' : String) (inner : Nat),
        t.isClosure inner = true → t.InBody outer inner →
        let s := Setting.ofText index' file' text
        inner ∉ s.reportedClosures policy.rules root ∧
          (t.Reaches root outer → ∀ place, s.location? inner = some place →
            ∀ report ∈ (inspect policy index' file' text).reports,
              ¬ (report.line = place.line ∧ report.column = some place.column)) := by
  intro t root
  have hl : t.Linked := Grammar.parse_linked text
  have hs : t.Sound := Grammar.parse_sound text
  have hnames := isSelfReference_iff text
  refine ⟨Tree.usesSelf_iff hl hnames, ?_, ?_⟩
  · intro outer inner _ _ hin huse
    exact Tree.usesSelf_outward hl hnames hin huse
  · intro index file outer call label _ hverdict policy index' file' inner hclosure hin s
    have hunused : t.usesSelf (t.body outer) = false :=
      (Setting.verdict_eq_noSelfUse (s := .ofText index file text)).mp hverdict
    have hnot : inner ∉ s.reportedClosures policy.rules root := by
      intro hreported
      have huse := usesSelf_of_mem_reportedClosures (s := s) hl hs hreported
      rw [Tree.usesSelf_outward hl hnames hin huse] at hunused
      cases hunused
    refine ⟨hnot, ?_⟩
    rintro houter place hplace report hreport ⟨hline, hcolumn⟩
    -- The report is that of some closure, which would have to be the inner one.
    rw [inspect_reports] at hreport
    obtain ⟨closure, hreported, hof⟩ := List.mem_filterMap.mp hreport
    obtain ⟨place', hplace', rfl⟩ := Option.map_eq_some_iff.mp hof
    have hinner : inner ∈ (t.preorder root).filter t.isClosure := by
      obtain ⟨statement, hstatement, hbelow⟩ := hin
      obtain ⟨captures, parameters, result, statements, hform⟩ := Tree.exists_closure hclosure
      obtain ⟨node, hnode, -⟩ := Option.map_eq_some_iff.mp hform
      have hreaches : t.Reaches root inner :=
        (houter.tail (Tree.mem_children_of_mem_body hstatement)).trans hbelow
      exact List.mem_filter.mpr ⟨hl.mem_preorder_iff.mpr ⟨hreaches, node, hnode⟩, hclosure⟩
    have hother : closure ∈ (t.preorder root).filter t.isClosure := by
      have hkind := isClosure_of_mem_reportedClosures (s := s) hl hs hreported
      exact List.mem_filter.mpr ⟨(List.mem_filter.mp hreported).1, hkind⟩
    have hsame : closure = inner := by
      apply closure_location_unique index' file' text hother hinner place' place hplace' hplace
      · exact hline
      · exact Option.some.inj hcolumn
    exact hnot (hsame ▸ hreported)

/-- The use in the inner closure counts for the outer one, and without a use
    in the outer one the inner one is not reported. -/
theorem self_use_spreads_outward_nested :
    let used := (SourceFile.parse "f { g { self.x } }").tree
    let unused := (SourceFile.parse "f { g { 1 } }").tree
    let s := Setting.ofText .absent "a.swift" "f { g { 1 } }"
    let policy : Policy := {}
    (used.isClosure 7 = true ∧ used.isClosure 5 = true ∧ used.InBody 7 5 ∧
      used.usesSelf (used.body 5) = true ∧ used.usesSelf (used.body 7) = true) ∧
    (unused.isClosure 5 = true ∧ unused.isClosure 3 = true ∧ unused.InBody 5 3 ∧
      s.verdict 5 6 none = .noSelfUse) ∧
    3 ∉ s.reportedClosures policy.rules 7 ∧
      ∀ report ∈ (inspect policy .absent "a.swift" "f { g { 1 } }").reports,
        ¬ (report.line = 1 ∧ report.column = some 7) := by
  intro used unused s policy
  have hused : (used.isClosure 7 = true ∧ used.isClosure 5 = true) ∧
      (6 ∈ used.body 7 ∧ 5 ∈ used.children 6) ∧ used.usesSelf (used.body 5) = true := by
    decide +kernel
  have hunused : (unused.isClosure 5 = true ∧ unused.isClosure 3 = true) ∧
      (4 ∈ unused.body 5 ∧ 3 ∈ unused.children 4) ∧
      6 ∈ unused.children 7 ∧ 5 ∈ unused.children 6 := by
    decide +kernel
  have hsetting : s.verdict 5 6 none = .noSelfUse ∧ s.location? 3 = some ⟨6, 1, 7⟩ := by
    decide +kernel
  have hroot : (SourceFile.parse "f { g { 1 } }").root = 7 := by decide +kernel
  obtain ⟨⟨houter, hinner⟩, ⟨hstatement, hchild⟩, huse⟩ := hused
  obtain ⟨⟨houter', hinner'⟩, ⟨hstatement', hchild'⟩, hcall, hclosure⟩ := hunused
  have hin : used.InBody 7 5 := ⟨6, hstatement, .single hchild⟩
  have hin' : unused.InBody 5 3 := ⟨4, hstatement', .single hchild'⟩
  have hreaches : unused.Reaches 7 5 := .tail (.single hcall) hclosure
  have houtward : used.usesSelf (used.body 7) = true :=
    (self_use_spreads_outward "f { g { self.x } }").2.1 7 5 houter hinner hin huse
  obtain ⟨-, -, hnone⟩ := self_use_spreads_outward "f { g { 1 } }"
  have hapart := hnone .absent "a.swift" 5 6 none houter' hsetting.1 policy .absent "a.swift" 3
    hinner' hin'
  rw [hroot] at hapart
  exact ⟨⟨houter, hinner, hin, huse, houtward⟩, ⟨houter', hinner', hin', hsetting.1⟩, hapart.1,
    hapart.2 hreaches _ hsetting.2⟩

end SelfCapture
