import SelfCapture.Proofs.Check.SourceOrder
import SelfCapture.Proofs.Check.Suppression
import SelfCapture.Proofs.Grammar.DisplacedTexts
import SelfCapture.Proofs.Tree.Loops

/-! # Reports follow the text

  Without an index a check looks at the forms of nodes, at how they are
  linked, and at the texts of nodes below the root.  All of these are kept
  when the text moves down by some lines, so the same closures are
  reported, each as many lines further down.

  `Tree.Displaced` says what two trees have in common; one lemma for each
  question that a check asks says that both trees answer alike.
-/

namespace SelfCapture

variable {front : ByteArray}

/-! ## Section 1: Displaced trees -/

/-- The nodes below the root are those of the text behind `front`.  The
    roots have the same statements; both cover their whole texts. -/
structure Tree.Displaced (front : ByteArray) (root : Nat) (t t' : Tree) : Prop where
  bytes_eq : t'.bytes = front ++ t.bytes
  get?_eq : ∀ id ≠ root, t'.get? id = (t.get? id).map (Node.moved front.size)
  root_form : ∃ statements, t.form? root = some (.sourceFile statements) ∧
    t'.form? root = some (.sourceFile statements)
  size_eq : t'.nodes.size = t.nodes.size
  linked : t.Linked
  orphan : t.parent? root = none
  orphan' : t'.parent? root = none

theorem Tree.behind_displaced (t : Tree) (statements : List Nat) (stop stop' : Nat)
    (hlinked : (t.add (.sourceFile statements) 0 stop).Linked) :
    Displaced front t.nextId (t.add (.sourceFile statements) 0 stop)
      ((t.behind front).add (.sourceFile statements) 0 stop') where
  bytes_eq := rfl
  get?_eq id hid := by
    rw [get?_add, get?_add, if_neg hid, if_neg (by rwa [nextId_behind]), get?_behind,
      nextId_behind]
    cases t.get? id with
    | none => rfl
    | some node => simp only [Option.map_some, apply_ite (Node.moved front.size)]; rfl
  root_form := by
    refine ⟨statements, ?_, ?_⟩
    · rw [form?_add, if_pos rfl]
    · rw [form?_add, if_pos (nextId_behind t).symm]
  size_eq := by
    have hsize : ((t.behind front).add (.sourceFile statements) 0 stop').nextId =
        (t.add (.sourceFile statements) 0 stop).nextId := by
      rw [nextId_add, nextId_add, nextId_behind]
    exact hsize
  linked := hlinked
  orphan := by rw [parent?_add, if_pos rfl]
  orphan' := by rw [parent?_add, if_pos (nextId_behind t).symm]

theorem parse_eq {text : String} {root : Nat} {final : Grammar.State}
    (h : Grammar.sourceFile (Grammar.State.ofText text) = (root, final)) :
    SourceFile.parse text =
      { tree := final.tree
        root
        diagnostics := Grammar.sortDiagnostics
          (final.diagnostics.toList ++ final.scanner.diagnostics.toList) } := by
  have hrun : Grammar.sourceFile.run (Grammar.State.ofText text) = (root, final) := h
  rw [SourceFile.parse, hrun]

/-- A displaced text has a displaced tree and as many diagnostics, if the
    first tokens correspond. -/
theorem parse_displaced {text text' : String}
    (hstart : (Grammar.State.ofText text).advanced.Displaced front
      (Grammar.State.ofText text').advanced) :
    (SourceFile.parse text').root = (SourceFile.parse text).root ∧
      (SourceFile.parse text').diagnostics.length = (SourceFile.parse text).diagnostics.length ∧
      (SourceFile.parse text).tree.Displaced front (SourceFile.parse text).root
        (SourceFile.parse text').tree := by
  obtain ⟨statements, s, s', hs, hread, hread'⟩ := Grammar.sourceFile_behind hstart
  have hlinked := Grammar.parse_linked text
  have htree : (s'.made (.sourceFile statements) 0 text'.toByteArray.size).tree =
      (s.tree.behind front).add (.sourceFile statements) 0 text'.toByteArray.size := by
    rw [← hs.tree]
    rfl
  rw [parse_eq hread] at hlinked ⊢
  rw [parse_eq hread']
  refine ⟨?_, ?_, ?_⟩
  · -- The root is the node made last, so the sizes of the trees say that the roots are the same.
    exact (congrArg Tree.nextId hs.tree).trans (Tree.nextId_behind _)
  · have hdiagnostics : (s'.made (.sourceFile statements) 0 text'.toByteArray.size).diagnostics =
        s.diagnostics.map (Diagnostic.moved front.size) := hs.diagnostics
    have hscanner : (s'.made (.sourceFile statements) 0 text'.toByteArray.size).scanner =
        s.scanner.behind front := hs.scanner
    simp only [Grammar.sortDiagnostics, List.length_mergeSort, List.length_append, hdiagnostics,
      hscanner, Scanner.behind, Array.toList_map, List.length_map]
    rfl
  · rw [htree]
    exact s.tree.behind_displaced statements _ _ hlinked

namespace Tree.Displaced

variable {root id : Nat} {t t' : Tree} (h : t.Displaced front root t')
include h

theorem form_eq (id : Nat) : t'.form? id = t.form? id := by
  by_cases hid : id = root
  · obtain ⟨statements, hform, hform'⟩ := h.root_form
    rw [hid, hform, hform']
  · rw [form?, form?, h.get?_eq id hid, Option.map_map]
    rfl

theorem parent_eq (id : Nat) : t'.parent? id = t.parent? id := by
  by_cases hid : id = root
  · rw [hid, h.orphan, h.orphan']
  · rw [parent?, parent?, h.get?_eq id hid]
    cases t.get? id with
    | none => rfl
    | some node => rfl

theorem text_eq (hid : id ≠ root) : t'.text id = t.text id := by
  rw [text, text, h.get?_eq id hid]
  cases t.get? id with
  | none => rfl
  | some node =>
    rw [h.bytes_eq]
    exact Text.slice_behind ..

theorem pos_eq (hid : id ≠ root) : t'.pos? id = (t.pos? id).map (front.size + ·) := by
  rw [pos?, pos?, h.get?_eq id hid, Option.map_map, Option.map_map]
  rfl

/-- A node of another form is not the root. -/
theorem ne_root {form : Form} (hform : t.form? id = some form)
    (hne : ∀ statements, form ≠ .sourceFile statements) : id ≠ root := by
  rintro rfl
  obtain ⟨statements, hroot, -⟩ := h.root_form
  rw [hform] at hroot
  exact hne statements (Option.some.inj hroot)

/-- A part of a node is not the root. -/
theorem ne_root_of_child {form : Form} {child : Nat} (hform : t.form? id = some form)
    (hchild : child ∈ form.children) : child ≠ root := by
  rintro rfl
  have hparent : t.parent? child = some id := h.linked.parent_iff.mpr (by rwa [children, hform])
  rw [h.orphan] at hparent
  cases hparent

theorem isSome_eq (id : Nat) : (t'.get? id).isSome = (t.get? id).isSome := by
  have hform := h.form_eq id
  rw [form?, form?] at hform
  rw [← Option.isSome_map, hform, Option.isSome_map]

/-! ## Section 2: Uses of the enclosing instance -/

theorem isSelfReference_eq (id : Nat) : t'.isSelfReference id = t.isSelfReference id := by
  unfold isSelfReference
  rw [h.form_eq]
  split
  · rename_i hform
    rw [h.text_eq (h.ne_root hform nofun)]
  · rfl

theorem isClosure_eq (id : Nat) : t'.isClosure id = t.isClosure id := by
  unfold isClosure
  rw [h.form_eq]

theorem unwrapped_eq (id : Nat) : t'.unwrapped id = t.unwrapped id := by
  induction id using Nat.strongRecOn with
  | ind id ih =>
    rw [unwrapped, h.form_eq, unwrapped]
    split
    · split
      · split
        · split
          · exact ih _ ‹_›
          · rfl
        · rfl
      · rfl
    · rfl

theorem isSelfMember_eq {node node' : Node} (hnode : node'.form = node.form) :
    t'.isSelfMember node' = t.isSelfMember node := by
  unfold isSelfMember
  rw [hnode]
  split
  · rw [h.unwrapped_eq, funext h.isSelfReference_eq]
  · rfl

theorem accessesSelf_eq (id : Nat) : t'.accessesSelf id = t.accessesSelf id := by
  refine fold_congr h.form_eq (fun found _ node node' hnode => ?_) id false
  rw [h.isSelfMember_eq hnode]

theorem usesSelf_eq (statements : List Nat) : t'.usesSelf statements = t.usesSelf statements := by
  rw [usesSelf, usesSelf, funext h.accessesSelf_eq]

theorem capturesSelfWeakly_eq (captures : List Nat) :
    t'.capturesSelfWeakly captures = t.capturesSelfWeakly captures := by
  simp only [capturesSelfWeakly, h.form_eq, h.isSelfReference_eq]

theorem shadowsSelf_eq (parameters : ClosureParameters) :
    t'.shadowsSelf parameters = t.shadowsSelf parameters := by
  have hname (id : Nat) : t'.bindingName? id = t.bindingName? id := by
    unfold bindingName?
    rw [h.form_eq]
  unfold shadowsSelf
  simp only [hname, funext h.isSelfReference_eq]

theorem ancestors_eq (id : Nat) : t'.ancestors id = t.ancestors id := by
  fun_induction t.ancestors id with
  | case1 id parent hparent hlt ih =>
    rw [ancestors, h.parent_eq, hparent, h.size_eq]
    dsimp only
    rw [if_pos hlt, ih]
  | case2 id parent hparent hlt =>
    rw [ancestors, h.parent_eq, hparent, h.size_eq]
    dsimp only
    rw [if_neg hlt]
  | case3 id hparent => rw [ancestors, h.parent_eq, hparent]

/-! ## Section 3: Calls -/

theorem isMemberAccess_eq (id : Nat) :
    Callee.isMemberAccess t' id = Callee.isMemberAccess t id := by
  unfold Callee.isMemberAccess
  rw [h.form_eq]

theorem throughCall_eq (id : Nat) : Callee.throughCall t' id = Callee.throughCall t id := by
  unfold Callee.throughCall
  rw [h.form_eq]
  split
  · rw [h.isMemberAccess_eq]
  · rfl

theorem throughCall_ne_root (hid : id ≠ root) : Callee.throughCall t id ≠ root := by
  unfold Callee.throughCall
  split
  · rename_i hform
    split
    · exact h.ne_root_of_child hform (by simp)
    · exact hid
  · exact hid

theorem chainUpTo_eq (count id : Nat) :
    Callee.chainUpTo t' count id = Callee.chainUpTo t count id := by
  induction count generalizing id with
  | zero => rfl
  | succ count ih =>
    rw [Callee.chainUpTo, h.form_eq, Callee.chainUpTo]
    split
    · rename_i base name hform
      rw [h.text_eq (h.ne_root_of_child hform (by simp))]
      congr 1
      cases base with
      | none => rfl
      | some base =>
        have hbase : base ≠ root := h.ne_root_of_child hform (by simp)
        dsimp only
        rw [h.throughCall_eq, h.isMemberAccess_eq, h.isSome_eq,
          h.text_eq (h.throughCall_ne_root hbase), ih]
    · rfl

theorem reversedChain_eq (id : Nat) : Callee.reversedChain t' id = Callee.reversedChain t id := by
  rw [Callee.reversedChain, h.size_eq, h.chainUpTo_eq, Callee.reversedChain]

theorem ofNode_eq (callee : Option Nat) : Callee.ofNode t' callee = Callee.ofNode t callee := by
  unfold Callee.ofNode
  cases callee with
  | none => rfl
  | some id =>
    dsimp only
    rw [h.form_eq]
    split
    · rename_i hform
      rw [h.text_eq (h.ne_root hform nofun)]
    · rw [h.reversedChain_eq]
    · rfl

theorem isExempt_eq (rules : List Rule) (call : Nat) :
    isExempt t' rules call = isExempt t rules call := by
  simp only [isExempt, h.form_eq, h.ofNode_eq]

theorem closureArguments_eq (call : Nat) : t'.closureArguments call = t.closureArguments call := by
  have hargument : t'.argumentClosure? call = t.argumentClosure? call := by
    funext argument
    simp only [argumentClosure?, h.form_eq, h.isClosure_eq]
  simp only [closureArguments, h.form_eq, hargument]

theorem isCall_eq (id : Nat) : t'.isCall id = t.isCall id := by
  simp only [isCall, h.form_eq]

end Tree.Displaced

/-! ## Section 4: Verdicts -/

namespace Setting

variable {s s' : Setting} {root : Nat} (h : s.tree.Displaced front root s'.tree)
include h

theorem typeAnswer?_displaced (id : Nat) :
    s'.withoutIndex.typeAnswer? id = s.withoutIndex.typeAnswer? id := by
  have hform : s'.withoutIndex.tree.form? id = s.withoutIndex.tree.form? id := h.form_eq id
  simp only [typeAnswer?, hform, extendedType_withoutIndex]

theorem inReferenceType_displaced (id : Nat) :
    s'.withoutIndex.inReferenceType id = s.withoutIndex.inReferenceType id := by
  have hancestors : s'.withoutIndex.tree.ancestors id = s.withoutIndex.tree.ancestors id :=
    h.ancestors_eq id
  simp only [inReferenceType, hancestors, funext (typeAnswer?_displaced h)]

/-- Without an index the label under which a closure is passed does not matter. -/
theorem verdict_displaced (closure call : Nat) (label label' : Option String) :
    s'.withoutIndex.verdict closure call label' = s.withoutIndex.verdict closure call label := by
  have htree : s.withoutIndex.tree.Displaced front root s'.withoutIndex.tree := h
  simp only [verdict, htree.form_eq, htree.usesSelf_eq, htree.capturesSelfWeakly_eq,
    htree.shadowsSelf_eq, inReferenceType_displaced h, escapes_withoutIndex]

variable (rules : List Rule)

theorem passed_displaced : s'.passed rules root = s.passed rules root := by
  have hpreorder : s'.tree.preorder root = s.tree.preorder root :=
    Tree.preorder_congr fun k _ => h.form_eq k
  simp only [passed, passedClosures, hpreorder, funext (h.isExempt_eq rules),
    funext h.closureArguments_eq]

theorem isReported_displaced (closure : Nat) :
    s'.withoutIndex.isReported rules root closure =
      s.withoutIndex.isReported rules root closure := by
  have hpassed : s'.withoutIndex.passed rules root = s.withoutIndex.passed rules root :=
    passed_displaced h rules
  have hverdict (site : ClosureSite) :=
    verdict_displaced h closure site.call (s.withoutIndex.tree.labelText site)
      (s'.withoutIndex.tree.labelText site)
  simp only [isReported, hpassed, hverdict]

theorem reportedClosures_displaced :
    s'.withoutIndex.reportedClosures rules root = s.withoutIndex.reportedClosures rules root := by
  have hpreorder : s'.withoutIndex.tree.preorder root = s.withoutIndex.tree.preorder root :=
    Tree.preorder_congr fun k _ => h.form_eq k
  rw [reportedClosures, reportedClosures, hpreorder, funext (isReported_displaced h rules)]

/-- The reported closures start at moved offsets. -/
theorem reportedOffsets_displaced (hs : s.tree.Sound) :
    s'.withoutIndex.reportedOffsets rules root =
      (s.withoutIndex.reportedOffsets rules root).map (front.size + ·) := by
  rw [reportedOffsets, reportedOffsets, reportedClosures_displaced h, List.map_filterMap]
  refine List.filterMap_congr fun closure hmem => ?_
  -- A reported closure is not the root.
  have hclosure : s.tree.isClosure closure = true :=
    isClosure_of_mem_reportedClosures (s := s.withoutIndex) h.linked hs hmem
  obtain ⟨_, _, _, _, hform⟩ := Tree.exists_closure hclosure
  refine h.pos_eq (h.ne_root hform ?_)
  intro statements heq
  cases heq

theorem tally_displaced (nodes : List Nat) :
    tally s'.withoutIndex rules root nodes = tally s.withoutIndex rules root nodes := by
  have htree : s.withoutIndex.tree.Displaced front root s'.withoutIndex.tree := h
  have hpassed : s'.withoutIndex.passed rules root = s.withoutIndex.passed rules root :=
    passed_displaced h rules
  have hisPassed : s'.withoutIndex.isPassed rules root = s.withoutIndex.isPassed rules root := by
    funext closure
    rw [isPassed, isPassed, hpassed]
  simp only [tally, funext htree.isCall_eq, funext (htree.isExempt_eq rules), hisPassed,
    funext (isReported_displaced h rules)]

end Setting

/-! ## Section 5: Findings -/

theorem Setting.withoutIndex_ofText (file text : String) :
    (ofText .absent file text).withoutIndex = ofText .absent file text := rfl

theorem reportAt_lineFeeds (index : Index.Lookup) (file text : String) (severity : Severity)
    (k offset : Nat) :
    (Setting.ofText index file (lineFeeds k ++ text)).reportAt severity (k + offset) =
      { (Setting.ofText index file text).reportAt severity offset with
        line := ((Setting.ofText index file text).reportAt severity offset).line + k } := by
  simp only [Setting.reportAt, Setting.ofText, LineMap.location_behind, Report.capture]

/-- Line feeds in front move the reports, if the first token is the same. -/
theorem inspect_displaced (policy : Policy) (file : String) {text : String} {k : Nat}
    (hstart : (Grammar.State.ofText text).advanced.Displaced (lineFeeds k).toByteArray
      (Grammar.State.ofText (lineFeeds k ++ text)).advanced) :
    (inspect policy .absent file (lineFeeds k ++ text)).reports =
        (inspect policy .absent file text).reports.map
          (fun report => { report with line := report.line + k }) ∧
      (inspect policy .absent file (lineFeeds k ++ text)).statistics =
        (inspect policy .absent file text).statistics := by
  obtain ⟨hroot, hcount, hdisplaced⟩ := parse_displaced hstart
  have hboth : (Setting.ofText .absent file text).tree.Displaced (lineFeeds k).toByteArray
      (SourceFile.parse text).root (Setting.ofText .absent file (lineFeeds k ++ text)).tree :=
    hdisplaced
  constructor
  · -- The reported closures are the same nodes; only their offsets move, and a line feed in front
    -- changes the line but not the column.
    have hoffsets := Setting.reportedOffsets_displaced hboth policy.rules
      (Grammar.parse_sound text)
    rw [Setting.withoutIndex_ofText, Setting.withoutIndex_ofText, size_lineFeeds] at hoffsets
    rw [inspect_reports_eq_map, inspect_reports_eq_map, hroot, hoffsets, List.map_map,
      List.map_map]
    refine List.map_congr_left fun offset _ => ?_
    exact reportAt_lineFeeds .absent file text policy.severity k offset
  · -- The counts do not depend on where a node stands.
    have htally := Setting.tally_displaced hboth policy.rules
    rw [Setting.withoutIndex_ofText, Setting.withoutIndex_ofText] at htally
    have hpreorder : (SourceFile.parse (lineFeeds k ++ text)).tree.preorder
        (SourceFile.parse text).root =
          (SourceFile.parse text).tree.preorder (SourceFile.parse text).root :=
      Tree.preorder_congr fun id _ => hdisplaced.form_eq id
    rw [inspect_statistics, inspect_statistics, hroot, hcount, hpreorder, htally]

/-- Reports follow the text when it moves.  If a text begins with a line
    feed, line feeds in front of it move every report down by as many lines
    and change nothing else, whatever the rules and the severity are. -/
theorem inspect_follows_text (policy : Policy) (file rest : String) (k : Nat) :
    let before := inspect policy .absent file ("\n" ++ rest)
    let after := inspect policy .absent file (lineFeeds k ++ ("\n" ++ rest))
    after.reports = before.reports.map (fun report => { report with line := report.line + k }) ∧
      after.statistics = before.statistics :=
  inspect_displaced policy file (Grammar.ofText_lineFeeds k rest)

end SelfCapture
