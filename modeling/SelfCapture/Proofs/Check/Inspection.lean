import SelfCapture.Check.Inspection
import SelfCapture.Proofs.Check.ClosureArgument
import SelfCapture.Proofs.Grammar.SourceFile

/-! # What a check finds

  A check keeps a waiting list while it walks over the tree.  What it finds
  can be said without one: the closures passed to calls that no rule
  exempts and judged to be reported there, in preorder.

  `Tracks` is the invariant of the walk.  At every moment the waiting list
  holds the closures that have been passed and not been reached, each once;
  a closure comes after its call, so it is on the list when it is reached.
-/

namespace SelfCapture

/-- What a check of a text can consult. -/
def Setting.ofText (index : Index.Lookup) (file text : String) : Setting :=
  { file, tree := (SourceFile.parse text).tree, lines := LineMap.ofText text, index }

/-! ## Section 1: What there is to find -/

namespace Setting

variable {s : Setting} {rules : List Rule} {root closure : Nat}

/-- The closures passed to calls under a node that no rule exempts. -/
def passed (s : Setting) (rules : List Rule) (root : Nat) : List (Nat × ClosureSite) :=
  passedClosures s.tree rules (s.tree.preorder root)

/-- Whether the closure is passed to one of those calls. -/
def isPassed (s : Setting) (rules : List Rule) (root closure : Nat) : Bool :=
  (s.passed rules root).any fun entry => entry.1 == closure

/-- Whether the closure is passed to one of those calls and is to be reported there. -/
def isReported (s : Setting) (rules : List Rule) (root closure : Nat) : Bool :=
  (s.passed rules root).any fun entry =>
    entry.1 == closure && s.verdict closure entry.2.call (s.tree.labelText entry.2) == .report

/-- The closures to report, in preorder. -/
def reportedClosures (s : Setting) (rules : List Rule) (root : Nat) : List Nat :=
  (s.tree.preorder root).filter (s.isReported rules root)

/-- The report of a closure, at the place where it starts. -/
def reportOf? (s : Setting) (severity : Severity) (closure : Nat) : Option Report :=
  (s.location? closure).map fun place => Report.capture s.file place.line place.column severity

/-- The report of a closure that starts at an offset. -/
def reportAt (s : Setting) (severity : Severity) (offset : Nat) : Report :=
  Report.capture s.file (s.lines.location offset).line (s.lines.location offset).column severity

theorem reportOf?_eq (s : Setting) (severity : Severity) (closure : Nat) :
    s.reportOf? severity closure = (s.tree.pos? closure).map (s.reportAt severity) := by
  rw [reportOf?, location?, Option.map_map]
  rfl

theorem isReported_iff :
    s.isReported rules root closure = true ↔
      ∃ site, (closure, site) ∈ s.passed rules root ∧
        s.verdict closure site.call (s.tree.labelText site) = .report := by
  simp only [isReported, List.any_eq_true, Bool.and_eq_true, beq_iff_eq]
  constructor
  · rintro ⟨⟨_, site⟩, hmem, rfl, hverdict⟩
    exact ⟨site, hmem, hverdict⟩
  · rintro ⟨site, hmem, hverdict⟩
    exact ⟨(closure, site), hmem, rfl, hverdict⟩

theorem isPassed_iff :
    s.isPassed rules root closure = true ↔ ∃ site, (closure, site) ∈ s.passed rules root := by
  simp only [isPassed, List.any_eq_true, beq_iff_eq]
  constructor
  · rintro ⟨⟨_, site⟩, hmem, rfl⟩
    exact ⟨site, hmem⟩
  · rintro ⟨site, hmem⟩
    exact ⟨(closure, site), hmem, rfl⟩

/-- A passed closure is one, hangs on a call of the walk, and is reached by the walk. -/
theorem of_mem_passed (hl : s.tree.Linked) (hs : s.tree.Sound) {site : ClosureSite}
    (h : (closure, site) ∈ s.passed rules root) :
    s.tree.isClosure closure = true ∧ closure ∈ s.tree.preorder root ∧
      site.call ∈ s.tree.preorder root ∧ isExempt s.tree rules site.call = false ∧
      (closure, site) ∈ s.tree.closureArguments site.call := by
  obtain ⟨call, hcall, hexempt, hmem⟩ := mem_passedClosures.mp h
  obtain ⟨hsite, hclosure, hhangs⟩ := Tree.mem_closureArguments hs hmem
  subst hsite
  exact ⟨hclosure, hhangs.mem_preorder hl hcall, hcall, hexempt, hmem⟩

theorem pos?_of_isClosure (h : s.tree.isClosure closure = true) :
    ∃ offset, s.tree.pos? closure = some offset := by
  obtain ⟨captures, parameters, output, statements, hform⟩ := Tree.exists_closure h
  obtain ⟨node, hnode, -⟩ := Option.map_eq_some_iff.mp hform
  exact ⟨node.pos, by rw [Tree.pos?, hnode, Option.map_some]⟩

theorem location?_of_isClosure (h : s.tree.isClosure closure = true) :
    ∃ place, s.location? closure = some place := by
  obtain ⟨offset, hpos⟩ := pos?_of_isClosure h
  exact ⟨s.lines.location offset, by rw [location?, hpos, Option.map_some]⟩

end Setting

/-! ## Section 2: The waiting list -/

/-- In a list without repeated keys, what is looked up is what is listed. -/
theorem lookup_eq_some_iff_mem {α β : Type} [BEq α] [LawfulBEq α] {entries : List (α × β)}
    (h : (entries.map Prod.fst).Nodup) {key : α} {value : β} :
    entries.lookup key = some value ↔ (key, value) ∈ entries := by
  induction entries with
  | nil => simp
  | cons entry entries ih =>
    obtain ⟨first, second⟩ := entry
    rw [List.map_cons, List.nodup_cons] at h
    rw [List.lookup_cons, List.mem_cons, Prod.mk.injEq]
    by_cases hkey : key = first
    · -- The first entry has the key, so no later one has.
      subst hkey
      have hnot : (key, value) ∉ entries := fun hmem =>
        h.1 (List.mem_map.mpr ⟨(key, value), hmem, rfl⟩)
      simp [hnot, eq_comm]
    · rw [beq_eq_false_iff_ne.mpr hkey]
      simp [hkey, ih h.2]

/-- What the walk has counted when it has passed some nodes. -/
def tally (s : Setting) (rules : List Rule) (root : Nat) (done : List Nat) : Statistics :=
  { calls := done.countP s.tree.isCall
    exemptCalls := done.countP (isExempt s.tree rules)
    closures := done.countP (s.isPassed rules root)
    reports := done.countP (s.isReported rules root) }

/-- What holds when the walk has passed some nodes. -/
structure Tracks (s : Setting) (policy : Policy) (root : Nat) (done : List Nat)
    (p : Progress) : Prop where
  nodup : (p.waiting.map Prod.fst).Nodup
  /-- The closures that are waiting have been passed and not been reached. -/
  waiting : ∀ {entry}, entry ∈ p.waiting ↔
    entry ∈ passedClosures s.tree policy.rules done ∧ entry.1 ∉ done
  statistics : p.statistics = tally s policy.rules root done
  reports : p.reports.toList =
    (done.filter (s.isReported policy.rules root)).filterMap (s.reportOf? policy.severity)

theorem passedClosures_append (t : Tree) (rules : List Rule) (done : List Nat) (id : Nat) :
    passedClosures t rules (done ++ [id]) =
      passedClosures t rules done ++
        if isExempt t rules id then [] else t.closureArguments id := by
  cases h : isExempt t rules id <;> simp [passedClosures, List.filter_append, h]

theorem isExempt_eq_false {t : Tree} {id : Nat} (rules : List Rule) (h : t.isCall id = false) :
    isExempt t rules id = false := by
  unfold isExempt
  split
  · rename_i hform
    rw [Tree.isCall, hform] at h
    cases h
  · rfl

theorem closureArguments_eq_nil {t : Tree} {id : Nat} (h : t.isCall id = false) :
    t.closureArguments id = [] := by
  unfold Tree.closureArguments
  split
  · rename_i hform
    rw [Tree.isCall, hform] at h
    cases h
  · rfl

theorem isClosure_of_mem_passedClosures {t : Tree} {rules : List Rule} {nodes : List Nat}
    {entry : Nat × ClosureSite} (hs : t.Sound) (h : entry ∈ passedClosures t rules nodes) :
    t.isClosure entry.1 = true := by
  obtain ⟨call, -, -, hmem⟩ := mem_passedClosures.mp h
  exact (Tree.mem_closureArguments hs hmem).2.1

/-- A closure is not reported unless it is passed. -/
theorem Setting.isReported_eq_false {s : Setting} {rules : List Rule} {root id : Nat}
    (h : s.isPassed rules root id = false) : s.isReported rules root id = false := by
  refine Bool.eq_false_iff.mpr fun hreported => ?_
  obtain ⟨site, hmem, -⟩ := isReported_iff.mp hreported
  rw [isPassed_iff.mpr ⟨site, hmem⟩] at h
  cases h

/-- A passed closure is reported if the verdict at its call says so. -/
theorem Setting.isReported_eq {s : Setting} {rules : List Rule} {root closure : Nat}
    {site : ClosureSite} (hnodup : ((s.passed rules root).map Prod.fst).Nodup)
    (hmem : (closure, site) ∈ s.passed rules root) :
    s.isReported rules root closure =
      (s.verdict closure site.call (s.tree.labelText site) == .report) := by
  refine Bool.eq_iff_iff.mpr ?_
  rw [isReported_iff, beq_iff_eq]
  constructor
  · rintro ⟨site', hmem', hverdict⟩
    have hlookup := (lookup_eq_some_iff_mem hnodup).mpr hmem
    rw [(lookup_eq_some_iff_mem hnodup).mpr hmem'] at hlookup
    cases hlookup
    exact hverdict
  · exact fun hverdict => ⟨site, hmem, hverdict⟩

/-! ## Section 3: One step of the walk -/

namespace Tracks

variable {s : Setting} {policy : Policy} {root id : Nat} {done rest : List Nat} {p : Progress}

theorem start (s : Setting) (policy : Policy) (root : Nat) : Tracks s policy root [] {} where
  nodup := List.nodup_nil
  waiting := by simp [passedClosures]
  statistics := rfl
  reports := rfl

/-- A node that is no closure does not release anyone who waits. -/
theorem not_mem_append_iff (hs : s.tree.Sound) (hid : s.tree.isClosure id = false)
    {nodes : List Nat} {entry : Nat × ClosureSite}
    (h : entry ∈ passedClosures s.tree policy.rules nodes) :
    entry.1 ∉ done ++ [id] ↔ entry.1 ∉ done := by
  have hclosure := isClosure_of_mem_passedClosures hs h
  have hne : entry.1 ≠ id := fun heq => by
    rw [heq, hid] at hclosure
    cases hclosure
  simp [hne]

/-- A node that is no closure is neither passed nor reported. -/
theorem isPassed_eq_false (rules : List Rule) (root : Nat) (hs : s.tree.Sound)
    (hid : s.tree.isClosure id = false) : s.isPassed rules root id = false := by
  refine Bool.eq_false_iff.mpr fun hpassed => ?_
  obtain ⟨site, hmem⟩ := Setting.isPassed_iff.mp hpassed
  have hclosure := isClosure_of_mem_passedClosures hs hmem
  rw [hid] at hclosure
  cases hclosure

/-- The closures passed to a call have not been reached before the call. -/
theorem not_mem_of_closureArguments (hl : s.tree.Linked) (hs : s.tree.Sound)
    (hsplit : s.tree.preorder root = done ++ id :: rest) {entry : Nat × ClosureSite}
    (h : entry ∈ s.tree.closureArguments id) : entry.1 ∉ done := by
  intro hmem
  have hhangs := (Tree.mem_closureArguments hs h).2.2
  -- Were the closure among the passed nodes, its call would be passed before
  -- it, and the call is only being reached now.
  obtain ⟨before, after, rfl⟩ := List.append_of_mem hmem
  have hsplit' : s.tree.preorder root = before ++ entry.1 :: (after ++ id :: rest) := by
    rw [hsplit, List.append_assoc, List.cons_append]
  have hbefore : id ∈ before := hhangs.mem_before hl hsplit' (by simp [hsplit])
  have hnodup := hl.nodup_preorder root
  rw [hsplit'] at hnodup
  exact (List.nodup_append.mp hnodup).2.2 id hbefore id (by simp) rfl

theorem pass_call (hl : s.tree.Linked) (hs : s.tree.Sound) (h : Tracks s policy root done p)
    (hsplit : s.tree.preorder root = done ++ id :: rest) (hcall : s.tree.isCall id = true)
    (hid : s.tree.isClosure id = false) :
    Tracks s policy root (done ++ [id]) (p.passCall s.tree policy.rules id) := by
  have hpassed := isPassed_eq_false policy.rules root hs hid
  have hreported := Setting.isReported_eq_false hpassed
  have hkeys : (done ++ [id]).Nodup := by
    have hnodup := hl.nodup_preorder root
    rw [hsplit, List.append_cons] at hnodup
    exact (List.nodup_append.mp hnodup).1
  have hall := passedClosures_append s.tree policy.rules done id
  unfold Progress.passCall
  cases hexempt : isExempt s.tree policy.rules id with
  | true =>
    -- Nothing is passed, and the waiting list stays.
    rw [hexempt, if_pos rfl, List.append_nil] at hall
    simp only [if_true]
    refine ⟨h.nodup, fun {entry} => ?_, ?_, ?_⟩
    · rw [hall, h.waiting]
      exact and_congr_right fun hmem => (not_mem_append_iff hs hid hmem).symm
    · simp [tally, h.statistics, List.countP_append, hcall, hexempt, hpassed, hreported]
    · simp [h.reports, List.filter_append, hreported]
  | false =>
    rw [hexempt, if_neg Bool.false_ne_true] at hall
    simp only [Bool.false_eq_true, if_false]
    refine ⟨?_, fun {entry} => ?_, ?_, ?_⟩
    · -- A closure passed to this call was not passed to an earlier one.
      have hnodup := nodup_passedClosures hl hs policy.rules hkeys
      rw [hall, List.map_append, List.nodup_append] at hnodup
      rw [List.map_append]
      refine List.nodup_append.mpr ⟨hnodup.2.1, h.nodup, fun key hkey key' hkey' heq => ?_⟩
      obtain ⟨entry, hentry, rfl⟩ := List.mem_map.mp hkey'
      have hearlier := List.mem_map_of_mem (f := Prod.fst) (h.waiting.mp hentry).1
      exact hnodup.2.2 entry.1 hearlier key hkey heq.symm
    · -- Who waits now: the closures of this call, and who waited before.
      rw [List.mem_append, h.waiting]
      constructor
      · rintro (hmem | ⟨hmem, hnot⟩)
        · have hnew : entry ∈ passedClosures s.tree policy.rules (done ++ [id]) := by
            simp [hall, hmem]
          have hnot := not_mem_of_closureArguments hl hs hsplit hmem
          exact ⟨hnew, (not_mem_append_iff hs hid hnew).mpr hnot⟩
        · exact ⟨by simp [hall, hmem], (not_mem_append_iff hs hid hmem).mpr hnot⟩
      · rintro ⟨hmem, hnot⟩
        rw [hall, List.mem_append] at hmem
        rcases hmem with hmem | hmem
        · exact .inr ⟨hmem, (not_mem_append_iff hs hid hmem).mp hnot⟩
        · exact .inl hmem
    · simp [tally, h.statistics, List.countP_append, hcall, hexempt, hpassed, hreported]
    · simp [h.reports, List.filter_append, hreported]

/-- When a closure is reached, it waits if and only if it is passed to a call of the walk. -/
theorem lookup_iff (hl : s.tree.Linked) (hs : s.tree.Sound) (h : Tracks s policy root done p)
    (hsplit : s.tree.preorder root = done ++ id :: rest) {site : ClosureSite} :
    p.waiting.lookup id = some site ↔ (id, site) ∈ s.passed policy.rules root := by
  have hnodup := hl.nodup_preorder root
  rw [hsplit] at hnodup
  have hnot : id ∉ done := fun hmem =>
    (List.nodup_append.mp hnodup).2.2 id hmem id List.mem_cons_self rfl
  rw [lookup_eq_some_iff_mem h.nodup, h.waiting]
  constructor
  · -- The calls passed so far are calls of the walk.
    rintro ⟨hmem, -⟩
    obtain ⟨call, hcall, hexempt, hmem⟩ := mem_passedClosures.mp hmem
    exact mem_passedClosures.mpr ⟨call, by simp [hsplit, hcall], hexempt, hmem⟩
  · -- The call of a closure comes before it in preorder.
    intro hmem
    obtain ⟨call, hcall, hexempt, hmem⟩ := mem_passedClosures.mp hmem
    have hhangs := (Tree.mem_closureArguments hs hmem).2.2
    have hbefore := hhangs.mem_before hl hsplit hcall
    exact ⟨mem_passedClosures.mpr ⟨call, hbefore, hexempt, hmem⟩, hnot⟩

/-- What a closure leaves behind on the waiting list: the others. -/
theorem waiting_others (h : Tracks s policy root done p)
    (hall : passedClosures s.tree policy.rules (done ++ [id]) =
      passedClosures s.tree policy.rules done) {entry : Nat × ClosureSite} :
    entry ∈ p.waiting.filter (·.1 != id) ↔
      entry ∈ passedClosures s.tree policy.rules (done ++ [id]) ∧ entry.1 ∉ done ++ [id] := by
  simp only [List.mem_filter, h.waiting, hall, bne_iff_ne, ne_eq, List.mem_append,
    List.mem_singleton, not_or, and_assoc]

theorem pass_closure (hl : s.tree.Linked) (hs : s.tree.Sound) (h : Tracks s policy root done p)
    (hsplit : s.tree.preorder root = done ++ id :: rest) (hcall : s.tree.isCall id = false)
    (hid : s.tree.isClosure id = true) :
    Tracks s policy root (done ++ [id]) (p.passClosure s policy.severity id) := by
  have hexempt := isExempt_eq_false policy.rules hcall
  have hall := passedClosures_append s.tree policy.rules done id
  rw [closureArguments_eq_nil hcall, ite_self, List.append_nil] at hall
  obtain ⟨place, hplace⟩ := Setting.location?_of_isClosure (s := s) hid
  unfold Progress.passClosure
  cases hlookup : p.waiting.lookup id with
  | none =>
    -- A closure that does not wait is not passed to a call, now or later.
    have hpassed : s.isPassed policy.rules root id = false := by
      refine Bool.eq_false_iff.mpr fun hpassed => ?_
      obtain ⟨site, hmem⟩ := Setting.isPassed_iff.mp hpassed
      rw [(h.lookup_iff hl hs hsplit).mpr hmem] at hlookup
      cases hlookup
    have hreported := Setting.isReported_eq_false hpassed
    refine ⟨h.nodup, fun {entry} => ?_, ?_, ?_⟩
    · rw [← h.waiting_others hall, List.mem_filter]
      refine ⟨fun hmem => ⟨hmem, ?_⟩, And.left⟩
      have hne := List.lookup_eq_none_iff.mp hlookup entry hmem
      rw [bne_iff_ne] at hne ⊢
      exact hne.symm
    · simp [tally, h.statistics, List.countP_append, hcall, hexempt, hpassed, hreported]
    · simp [h.reports, List.filter_append, hreported]
  | some site =>
    have hmem := (h.lookup_iff hl hs hsplit).mp hlookup
    have hpassed := Setting.isPassed_iff.mpr ⟨site, hmem⟩
    have hreported := Setting.isReported_eq
      (nodup_passedClosures hl hs policy.rules (hl.nodup_preorder root)) hmem
    have hnodup : ((p.waiting.filter (·.1 != id)).map Prod.fst).Nodup :=
      h.nodup.sublist (List.filter_sublist.map _)
    -- Only the verdict to report adds to the reports; every other one just
    -- releases the closure.
    simp only [Progress.judge, hplace]
    cases hverdict : s.verdict id site.call (s.tree.labelText site)
    case report =>
      rw [hverdict, beq_self_eq_true] at hreported
      refine ⟨hnodup, h.waiting_others hall, ?_, ?_⟩
      · simp [tally, h.statistics, List.countP_append, hcall, hexempt, hpassed, hreported]
      · simp [h.reports, List.filter_append, List.filterMap_append, hreported, hplace,
          Setting.reportOf?]
    all_goals
      rw [hverdict] at hreported
      refine ⟨hnodup, h.waiting_others hall, ?_, ?_⟩
      · simp [tally, h.statistics, List.countP_append, hcall, hexempt, hpassed, hreported]
      · simp [h.reports, List.filter_append, hreported]

theorem pass_other (hs : s.tree.Sound) (h : Tracks s policy root done p)
    (hcall : s.tree.isCall id = false) (hid : s.tree.isClosure id = false) :
    Tracks s policy root (done ++ [id]) p := by
  have hexempt := isExempt_eq_false policy.rules hcall
  have hpassed := isPassed_eq_false policy.rules root hs hid
  have hreported := Setting.isReported_eq_false hpassed
  have hall := passedClosures_append s.tree policy.rules done id
  rw [closureArguments_eq_nil hcall, ite_self, List.append_nil] at hall
  refine ⟨h.nodup, fun {entry} => ?_, ?_, ?_⟩
  · rw [hall, h.waiting]
    exact and_congr_right fun hmem => (not_mem_append_iff hs hid hmem).symm
  · simp [tally, h.statistics, List.countP_append, hcall, hexempt, hpassed, hreported]
  · simp [h.reports, List.filter_append, hreported]

theorem pass (hl : s.tree.Linked) (hs : s.tree.Sound) (h : Tracks s policy root done p)
    (hsplit : s.tree.preorder root = done ++ id :: rest) {node : Node}
    (hnode : s.tree.get? id = some node) :
    Tracks s policy root (done ++ [id]) (Progress.pass s policy p id node) := by
  have hform : s.tree.form? id = some node.form := by
    rw [Tree.form?, hnode, Option.map_some]
  unfold Progress.pass
  split
  · rename_i heq
    rw [heq] at hform
    exact h.pass_call hl hs hsplit (by simp [Tree.isCall, hform]) (by simp [Tree.isClosure, hform])
  · rename_i heq
    rw [heq] at hform
    exact h.pass_closure hl hs hsplit (by simp [Tree.isCall, hform])
      (by simp [Tree.isClosure, hform])
  · rename_i hcall hclosure
    refine h.pass_other hs ?_ ?_
    · -- The form is neither that of a call nor that of a closure.
      rw [Tree.isCall, hform]
      split
      · rename_i heq
        exact absurd (Option.some.inj heq) (hcall _ _ _ _)
      · rfl
    · rw [Tree.isClosure, hform]
      split
      · rename_i heq
        exact absurd (Option.some.inj heq) (hclosure _ _ _ _)
      · rfl

/-! ## Section 4: The whole walk -/

theorem run (hl : s.tree.Linked) (hs : s.tree.Sound) (h : Tracks s policy root done p)
    (hsplit : s.tree.preorder root = done ++ rest) :
    Tracks s policy root (s.tree.preorder root)
      (rest.foldl (s.tree.visitAt (Progress.pass s policy)) p) := by
  -- Induction on the nodes still to pass, with the invariant at the split.
  induction rest generalizing done p with
  | nil =>
    rw [hsplit, List.append_nil]
    exact h
  | cons id rest ih =>
    rw [List.foldl_cons]
    obtain ⟨node, hnode⟩ : ∃ node, s.tree.get? id = some node :=
      Tree.exists_of_mem_preorder (by rw [hsplit]; simp)
    have hvisit : s.tree.visitAt (Progress.pass s policy) p id =
        Progress.pass s policy p id node := by
      simp only [Tree.visitAt, hnode]
    rw [hvisit]
    exact ih (h.pass hl hs hsplit hnode) (by rw [hsplit, List.append_cons])

end Tracks

/-- The walk of a check, from its start to its end. -/
theorem inspect_tracks (policy : Policy) (index : Index.Lookup) (file text : String) :
    ∃ final, Tracks (.ofText index file text) policy (SourceFile.parse text).root
        ((SourceFile.parse text).tree.preorder (SourceFile.parse text).root) final ∧
      inspect policy index file text =
        { reports := final.reports.toList
          statistics := { final.statistics with
            diagnostics := (SourceFile.parse text).diagnostics.length } } := by
  have hrun := (Tracks.start (.ofText index file text) policy (SourceFile.parse text).root).run
    (Grammar.parse_linked text) (Grammar.parse_sound text) rfl
  refine ⟨_, hrun, ?_⟩
  simp only [inspect, Tree.fold_descend]
  rfl

theorem inspect_reports (policy : Policy) (index : Index.Lookup) (file text : String) :
    (inspect policy index file text).reports =
      ((Setting.ofText index file text).reportedClosures policy.rules
        (SourceFile.parse text).root).filterMap
          ((Setting.ofText index file text).reportOf? policy.severity) := by
  obtain ⟨final, htracks, hfindings⟩ := inspect_tracks policy index file text
  rw [hfindings]
  exact htracks.reports

theorem inspect_statistics (policy : Policy) (index : Index.Lookup) (file text : String) :
    (inspect policy index file text).statistics =
      { tally (.ofText index file text) policy.rules (SourceFile.parse text).root
          ((SourceFile.parse text).tree.preorder (SourceFile.parse text).root) with
        diagnostics := (SourceFile.parse text).diagnostics.length } := by
  obtain ⟨final, htracks, hfindings⟩ := inspect_tracks policy index file text
  rw [hfindings, htracks.statistics]

/-! ## Section 5: The findings -/

section

variable {s : Setting} {rules : List Rule} {root closure : Nat}

/-- The reported closures, said without the table of passed ones. -/
theorem mem_reportedClosures (hl : s.tree.Linked) (hs : s.tree.Sound) :
    closure ∈ s.reportedClosures rules root ↔
      ∃ call ∈ s.tree.preorder root, isExempt s.tree rules call = false ∧
        ∃ label, (closure, ⟨call, label⟩) ∈ s.tree.closureArguments call ∧
          s.verdict closure call (label.map s.tree.text) = .report := by
  rw [Setting.reportedClosures, List.mem_filter, Setting.isReported_iff]
  constructor
  · rintro ⟨-, ⟨call, label⟩, hmem, hverdict⟩
    obtain ⟨-, -, hcall, hexempt, hmem⟩ := Setting.of_mem_passed hl hs hmem
    exact ⟨call, hcall, hexempt, label, hmem, hverdict⟩
  · rintro ⟨call, hcall, hexempt, label, hmem, hverdict⟩
    have hpassed : (closure, ⟨call, label⟩) ∈ s.passed rules root :=
      mem_passedClosures.mpr ⟨call, hcall, hexempt, hmem⟩
    exact ⟨(Setting.of_mem_passed hl hs hpassed).2.1, _, hpassed, hverdict⟩

theorem isClosure_of_mem_reportedClosures (hl : s.tree.Linked) (hs : s.tree.Sound)
    (h : closure ∈ s.reportedClosures rules root) : s.tree.isClosure closure = true := by
  obtain ⟨call, -, -, label, hmem, -⟩ := (mem_reportedClosures hl hs).mp h
  exact (Tree.mem_closureArguments hs hmem).2.1

/-- A closure is passed once: to one call, and there under one label. -/
theorem closureArguments_unique {t : Tree} (hl : t.Linked) (hs : t.Sound) {call call' : Nat}
    {site site' : ClosureSite} (h : (closure, site) ∈ t.closureArguments call)
    (h' : (closure, site') ∈ t.closureArguments call') : call = call' ∧ site = site' := by
  have hhangs := (Tree.mem_closureArguments hs h).2.2
  have hhangs' := (Tree.mem_closureArguments hs h').2.2
  have hcall := hhangs.unique hl hhangs'
  subst hcall
  have hnodup := t.nodup_closureArguments hl call
  have hlookup := (lookup_eq_some_iff_mem hnodup).mpr h
  rw [(lookup_eq_some_iff_mem hnodup).mpr h'] at hlookup
  exact ⟨rfl, (Option.some.inj hlookup).symm⟩

end

end SelfCapture
