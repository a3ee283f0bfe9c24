import SelfCapture.Proofs.Grammar.Tidiness
import SelfCapture.Proofs.Tree.Schema

/-! # Judgments on typed trees

  The judgments on readings by which the rules of the grammar are shown to
  make trees that follow the schema, rule by rule.  The plan gives the
  forms that the nodes have at the end of the text, so what is known of a
  result does not depend on the state in which it is used.

  * `Plain plan inBody p`: the new nodes follow the schema, and each new
    clause stands where it may stand.
  * `Yields plan inBody given R p`: this also holds if the nodes at hand are
    as `given`, and the result then satisfies `R`.
  * `Owes plan inBody loose p`: the new clauses that stand nowhere yet are
    among those that `loose` tells of the result.

  What lies directly in the body of a type is read with `inBody` true.  The
  judgments also say that a node for something missing is made where an
  issue is recorded.
-/

namespace SelfCapture.Grammar

open Token (Kind)

/-! ## Section 1: States -/

namespace State

/-- There is a diagnostic at the offset. -/
def Notes (s : State) (pos : Nat) : Prop := ∃ d ∈ s.diagnostics.toList, d.start = pos

/-- An issue is recorded at the token, be it now or before. -/
theorem lastIssueAt_reported (s : State) (issue : Issue) :
    (s.reported issue).lastIssueAt = some s.offset := by
  unfold reported
  split
  · exact eq_of_beq ‹_›
  · rfl

/-- Where something is missing there is a diagnostic. -/
structure Accounted (s : State) : Prop where
  last : ∀ {pos : Nat}, s.lastIssueAt = some pos → s.Notes pos
  missing : ∀ {id : Nat} {r : Nat × Nat}, s.tree.form? id = some .missing →
    s.tree.range? id = some r → s.exhausted = true ∨ s.Notes r.1

end State

/-- The second state has the nodes and issues of the first, and maybe more. -/
structure Later (s s' : State) : Prop where
  bytes_eq : s'.scanner.bytes = s.scanner.bytes
  settled : s'.Settled
  context_eq : s'.context = s.context
  diagnostics : s.diagnostics.toList <+: s'.diagnostics.toList
  exhausted_imp : s.exhausted = true → s'.exhausted = true
  tree : s.tree.Extends s'.tree
  accounted : s.Accounted → s'.Accounted

namespace Later

variable {s s₁ s₂ : State}

theorem refl (hs : s.Settled) : Later s s :=
  ⟨rfl, hs, rfl, List.prefix_refl _, id, .refl _, id⟩

theorem trans (h : Later s s₁) (h' : Later s₁ s₂) : Later s s₂ where
  bytes_eq := h'.bytes_eq.trans h.bytes_eq
  settled := h'.settled
  context_eq := h'.context_eq.trans h.context_eq
  diagnostics := h.diagnostics.trans h'.diagnostics
  exhausted_imp hs := h'.exhausted_imp (h.exhausted_imp hs)
  tree := h.tree.trans h'.tree
  accounted hs := h'.accounted (h.accounted hs)

end Later

/-- The new nodes follow the schema if the nodes at hand are as `given`.
    Clauses that stand nowhere are among the `loose` ones. -/
structure Builds (plan : FormPlan) (given : Prop) (loose : List (ClauseSort × Nat)) (s s' : State) :
    Prop extends Later s s' where
  conforms : s'.tree.Matches plan → given → ∀ {id : Nat} {form : Form}, s.tree.nextId ≤ id →
    s'.tree.form? id = some form → form.Conforms plan
  housed : ∀ {id : Nat} {form : Form} {clause : ClauseSort}, s.tree.nextId ≤ id →
    s'.tree.form? id = some form → form.clause? = some clause →
    (clause, id) ∈ loose ∨ s'.tree.Houses clause id

namespace Builds

variable {plan : FormPlan} {given given' : Prop} {loose loose' : List (ClauseSort × Nat)}
  {s s₁ s₂ : State}

/-- No node is made. -/
theorem of_tree_eq (h : Later s s₁) (htree : s₁.tree = s.tree) : Builds plan given loose s s₁ where
  toLater := h
  conforms _ _ _ _ hid hform := by
    rw [htree] at hform
    exact absurd (Tree.lt_nextId_of_form? hform) (Nat.not_lt_of_le hid)
  housed hid hform _ := by
    rw [htree] at hform
    exact absurd (Tree.lt_nextId_of_form? hform) (Nat.not_lt_of_le hid)

theorem refl (hs : s.Settled) : Builds plan given loose s s := .of_tree_eq (.refl hs) rfl

/-- The premise may be strengthened, also by what is known of the final forms. -/
theorem weaken (h : Builds plan given loose s s₁)
    (hgiven : s₁.tree.Matches plan → given' → given) : Builds plan given' loose s s₁ where
  toLater := h.toLater
  conforms hplan hg _ _ hid hform := h.conforms hplan (hgiven hplan hg) hid hform
  housed := h.housed

theorem trans (h : Builds plan given loose s s₁) (h' : Builds plan given loose' s₁ s₂) :
    Builds plan given (loose ++ loose') s s₂ where
  toLater := h.toLater.trans h'.toLater
  conforms hplan hg id form hid hform := by
    rcases Nat.lt_or_ge id s₁.tree.nextId with hlt | hle
    · rw [h'.tree.form_eq hlt] at hform
      exact h.conforms (h'.tree.matches_plan hplan) hg hid hform
    · exact h'.conforms hplan hg hle hform
  housed {id form clause} hid hform hclause := by
    rcases Nat.lt_or_ge id s₁.tree.nextId with hlt | hle
    · rw [h'.tree.form_eq hlt] at hform
      refine (h.housed hid hform hclause).imp ?_ h'.tree.houses
      exact List.mem_append_left loose'
    · exact (h'.housed hle hform hclause).imp_left (List.mem_append_right loose)

/-- What is read in between leaves no clause. -/
theorem skip (h : Builds plan given loose s s₁) (h' : Builds plan given [] s₁ s₂) :
    Builds plan given loose s s₂ := by
  have hall := h.trans h'
  rwa [List.append_nil] at hall

theorem mono (h : Builds plan given loose s s₁) (hsub : loose ⊆ loose') :
    Builds plan given loose' s s₁ where
  toLater := h.toLater
  conforms := h.conforms
  housed hid hform hclause := (h.housed hid hform hclause).imp_left (hsub ·)

/-! ## Section 2: Steps -/

theorem advanced (hs : s.Settled) : Builds plan given loose s s.advanced := by
  refine .of_tree_eq ⟨rfl, hs.scan, rfl, List.prefix_refl _, id, .refl _, fun h => ?_⟩ rfl
  exact ⟨h.last, h.missing⟩

theorem reported (hs : s.Settled) (issue : Issue) :
    Builds plan given loose s (s.reported issue) := by
  unfold State.reported
  split
  · exact .refl hs
  · refine .of_tree_eq ⟨rfl, hs, rfl, ?_, id, .refl _, fun h => ⟨?_, ?_⟩⟩ rfl
    · rw [Array.toList_push]
      exact List.prefix_append _ _
    · rintro pos ⟨⟩
      exact ⟨⟨s.offset, s.scanner.token.stop - s.offset, issue⟩, by simp, rfl⟩
    · intro id r hform hrange
      refine (h.missing hform hrange).imp_right ?_
      rintro ⟨d, hd, hstart⟩
      exact ⟨d, by simpa using Or.inl (by simpa using hd), hstart⟩

theorem exhausted (hs : s.Settled) : Builds plan given loose s { s with exhausted := true } := by
  refine .of_tree_eq ⟨rfl, hs, rfl, List.prefix_refl _, fun _ => rfl, .refl _, fun h => ?_⟩ rfl
  exact ⟨h.last, fun _ _ => Or.inl rfl⟩

/-- Making a node. -/
theorem made (hs : s.Settled) {form : Form} {pos stop : Nat}
    (hconforms : plan s.tree.nextId = some form → given → form.Conforms plan)
    (hclause : ∀ clause, form.clause? = some clause → (clause, s.tree.nextId) ∈ loose)
    (hmissing : form = .missing → s.exhausted = true ∨ (s.Accounted → s.Notes pos)) :
    Builds plan given loose s (s.made form pos stop) := by
  have htree : (s.made form pos stop).tree = s.tree.add form pos stop := rfl
  -- A number that is not smaller than the next one is that of the new node.
  have hnew {id : Nat} {form' : Form} (hid : s.tree.nextId ≤ id)
      (hform : (s.tree.add form pos stop).form? id = some form') :
      id = s.tree.nextId ∧ form' = form := by
    rw [Tree.form?_add] at hform
    split at hform
    · exact ⟨‹_›, (Option.some.inj hform).symm⟩
    · exact absurd (Tree.lt_nextId_of_form? hform) (Nat.not_lt_of_le hid)
  refine ⟨⟨rfl, hs, rfl, List.prefix_refl _, id, .add .., fun h => ⟨h.last, ?_⟩⟩, ?_, ?_⟩
  · intro id r hform hrange
    rw [htree, Tree.form?_add] at hform
    rw [htree, Tree.range?_add] at hrange
    split at hform
    · rw [if_pos ‹_›] at hrange
      rw [← Option.some.inj hrange]
      exact (hmissing (Option.some.inj hform)).imp_right fun hnotes => hnotes h
    · rw [if_neg ‹_›] at hrange
      exact h.missing hform hrange
  · intro hplan hg id form' hid hform
    obtain ⟨rfl, rfl⟩ := hnew hid hform
    exact hconforms (hplan hform) hg
  · intro id form' clause hid hform hsort
    obtain ⟨rfl, rfl⟩ := hnew hid hform
    exact Or.inl (hclause clause hsort)

theorem made_free (hs : s.Settled) {form : Form} (hfree : form.isBound = false) (pos stop : Nat) :
    Builds plan given loose s (s.made form pos stop) := by
  refine .made hs (fun _ _ => Form.conforms_of_free hfree plan) ?_ ?_
  · intro clause hclause
    rw [Form.clause?_of_free hfree] at hclause
    cases hclause
  · exact fun h => absurd h (Form.ne_missing_of_free hfree)

/-- A node in which all loose clauses may stand. -/
theorem house (h : Builds plan given loose s s₁) {form : Form} (hfree : form.isBound = false)
    (hstand : ∀ clause id, (clause, id) ∈ loose → id ∈ form.clauses clause) (pos stop : Nat) :
    Builds plan given [] s (s₁.made form pos stop) := by
  have hmade : Builds plan given [] s₁ (s₁.made form pos stop) := .made_free h.settled hfree pos stop
  have hall := h.skip hmade
  refine ⟨hall.toLater, hall.conforms, fun {id form' clause} hid hform hclause => Or.inr ?_⟩
  rcases hall.housed hid hform hclause with hloose | hhoused
  · refine ⟨s₁.tree.nextId, form, ?_, hstand clause id hloose⟩
    show (s₁.tree.add form pos stop).form? s₁.tree.nextId = some form
    rw [Tree.form?_add, if_pos rfl]
  · exact hhoused

/-- Context and depth do not matter, if the context is put back. -/
theorem surround {context context' : Context} {depth depth' : Nat}
    (hcontext : context' = s.context)
    (h : Builds plan given loose { s with context, depth } s₁) :
    Builds plan given loose s { s₁ with context := context', depth := depth' } where
  bytes_eq := h.bytes_eq
  settled := h.settled
  context_eq := hcontext
  diagnostics := h.diagnostics
  exhausted_imp := h.exhausted_imp
  tree := h.tree
  accounted hs :=
    have hall := h.accounted ⟨hs.last, hs.missing⟩
    ⟨hall.last, hall.missing⟩
  conforms := h.conforms
  housed := h.housed

/-- Coming back drops what was made. -/
theorem rewind (hs : s.Settled) (h : Later s s₁) :
    Builds plan given loose s (s₁.rewind s.save) := by
  -- A node that is left after the cut was there before the attempt.
  have hdropped {id : Nat} {form : Form}
      (hform : (s₁.rewind s.save).tree.form? id = some form) : id < s.tree.nextId := by
    by_contra hid
    simp only [State.rewind, State.save, Tree.form?_truncate] at hform
    rw [if_neg (show ¬ id < s.tree.nodes.size from hid)] at hform
    cases hform
  have hdiagnostics : (s₁.rewind s.save).diagnostics = s.diagnostics :=
    Keeps.shrink_eq h.diagnostics
  refine ⟨⟨h.bytes_eq, hs.restore h.bytes_eq, rfl, ?_, h.exhausted_imp, h.tree.truncate,
    fun haccounted => ⟨?_, ?_⟩⟩, ?_, ?_⟩
  · rw [hdiagnostics]
  · intro pos hpos
    rw [State.Notes, hdiagnostics]
    exact haccounted.last hpos
  · intro id r hform hrange
    have hid := hdropped hform
    have hkept : s.tree.Extends (s₁.rewind s.save).tree := h.tree.truncate
    rw [hkept.form_eq hid] at hform
    rw [hkept.range_eq hid] at hrange
    rw [State.Notes, hdiagnostics]
    exact (haccounted.missing hform hrange).imp_left h.exhausted_imp
  · intro _ _ id form hid hform
    exact absurd (hdropped hform) (Nat.not_lt_of_le hid)
  · intro id form clause hid hform _
    exact absurd (hdropped hform) (Nat.not_lt_of_le hid)

end Builds

/-! ## Section 3: Judgments -/

variable {α β : Type} {plan : FormPlan} {inBody : Bool} {given : Prop}

/-- The new nodes follow the schema, and new clauses stand where they may stand. -/
class Plain (plan : FormPlan) (inBody : Bool) (p : Parse α) : Prop where
  builds : ∀ s : State, s.Settled → s.context.inTypeBody = inBody →
    Builds plan True [] s (p s).2

/-- New clauses that stand nowhere are among those told by the result. -/
def Owes (plan : FormPlan) (inBody : Bool) (loose : α → List (ClauseSort × Nat)) (p : Parse α) :
    Prop :=
  ∀ s : State, s.Settled → s.context.inTypeBody = inBody →
    Ensures p s fun r s' => Builds plan True (loose r) s s'

/-- If the nodes at hand are as `given`, the new ones follow the schema and
    the result is as `R` says. -/
def Yields (plan : FormPlan) (inBody : Bool) (given : Prop) (R : α → Prop) (p : Parse α) : Prop :=
  ∀ s : State, s.Settled → s.context.inTypeBody = inBody →
    Ensures p s fun r s' => Builds plan given [] s s' ∧ (s'.tree.Matches plan → given → R r)

section judgments

variable {p p' : Parse α} {first : Parse β} {next : β → Parse α}

instance Plain.of_looks [hp : Looks p] : Plain plan inBody p where
  builds s hs _ := by
    rw [hp.state_eq s hs]
    exact .refl hs

theorem Plain.seq (hfirst : Plain plan inBody first) (hnext : ∀ r, Plain plan inBody (next r)) :
    Plain plan inBody (first >>= next) where
  builds s hs hbody := by
    have hread := hfirst.builds s hs hbody
    refine hread.skip ((hnext _).builds _ hread.settled ?_)
    rw [hread.context_eq, hbody]

instance Plain.bind [hfirst : Plain plan inBody first] [hnext : ∀ r, Plain plan inBody (next r)] :
    Plain plan inBody (first >>= next) := .seq hfirst hnext

/-- Reading on after what has been built. -/
theorem Builds.followed [hp : Plain plan inBody p] {loose : List (ClauseSort × Nat)} {s₀ s : State}
    (h : Builds plan True loose s₀ s) (hbody : s₀.context.inTypeBody = inBody) :
    Ensures p s fun _ s' => Builds plan True loose s₀ s' :=
  ⟨h.skip (hp.builds s h.settled (by rw [h.context_eq, hbody]))⟩

instance Plain.map {f : β → α} [hfirst : Plain plan inBody first] :
    Plain plan inBody (f <$> first) := ⟨hfirst.builds⟩

instance Plain.ite {c : Prop} [Decidable c] [Plain plan inBody p] [Plain plan inBody p'] :
    Plain plan inBody (if c then p else p') := by
  split
  · assumption
  · assumption

namespace Owes

variable {loose : α → List (ClauseSort × Nat)}

theorem plain (h : Owes plan inBody (fun _ => []) p) : Plain plan inBody p :=
  ⟨fun s hs hbody => (h s hs hbody).holds⟩

theorem of_plain (hp : Plain plan inBody p) : Owes plan inBody loose p :=
  fun s hs hbody => ⟨(hp.builds s hs hbody).mono (List.nil_subset _)⟩

/-- What is read first leaves no clause. -/
theorem after [hfirst : Plain plan inBody first] (hnext : ∀ r, Owes plan inBody loose (next r)) :
    Owes plan inBody loose (first >>= next) := by
  intro s hs hbody
  have hread := hfirst.builds s hs hbody
  have hbody' : (first s).2.context.inTypeBody = inBody := by rw [hread.context_eq, hbody]
  exact ⟨hread.trans ((hnext _) _ hread.settled hbody').holds⟩

theorem ite {c : Prop} [Decidable c] (h : Owes plan inBody loose p)
    (h' : Owes plan inBody loose p') : Owes plan inBody loose (if c then p else p') := by
  split
  · exact h
  · exact h'

end Owes

namespace Yields

variable {R : α → Prop} {P : β → Prop}

theorem plain (h : Yields plan inBody True R p) : Plain plan inBody p :=
  ⟨fun s hs hbody => (h s hs hbody).holds.1⟩

/-- What is known on the way may be forgotten at the end. -/
theorem to_plain (h : Yields plan inBody True (fun _ => True) p) : Plain plan inBody p := h.plain

theorem of_plain [hp : Plain plan inBody p] : Yields plan inBody given (fun _ => True) p :=
  fun s hs hbody => ⟨(hp.builds s hs hbody).weaken fun _ _ => trivial, fun _ _ => trivial⟩

theorem mono {Q : α → Prop} (h : Yields plan inBody given R p) (hR : ∀ r, R r → Q r) :
    Yields plan inBody given Q p :=
  fun s hs hbody => (h s hs hbody).mono fun r _ hr => ⟨hr.1, fun hplan hg => hR r (hr.2 hplan hg)⟩

theorem pure {r : α} (h : given → R r) : Yields plan inBody given R (Pure.pure r) :=
  fun _ hs _ => .pure ⟨.refl hs, fun _ => h⟩

theorem bind (hfirst : Yields plan inBody given P first)
    (hnext : ∀ r, Yields plan inBody (given ∧ P r) R (next r)) :
    Yields plan inBody given R (first >>= next) := by
  intro s hs hbody
  refine (hfirst s hs hbody).bind fun r s₁ h₁ => ?_
  have hbody' : s₁.context.inTypeBody = inBody := by rw [h₁.1.context_eq, hbody]
  refine (hnext r s₁ h₁.1.settled hbody').mono fun r' s₂ h₂ => ?_
  -- What the plan says of the last tree it says of the one before.
  have hgiven (hplan : s₂.tree.Matches plan) (hg : given) : given ∧ P r :=
    ⟨hg, h₁.2 (h₂.1.tree.matches_plan hplan) hg⟩
  exact ⟨h₁.1.skip (h₂.1.weaken hgiven), fun hplan hg => h₂.2 hplan (hgiven hplan hg)⟩

/-- Of what is read first nothing need be known. -/
theorem after [Plain plan inBody first] (hnext : ∀ r, Yields plan inBody given R (next r)) :
    Yields plan inBody given R (first >>= next) := by
  intro s hs hbody
  have hfirst : Yields plan inBody given (fun _ => True) first := of_plain
  refine (hfirst s hs hbody).bind fun r s₁ h₁ => ?_
  have hbody' : s₁.context.inTypeBody = inBody := by rw [h₁.1.context_eq, hbody]
  exact (hnext r s₁ h₁.1.settled hbody').mono fun r' s₂ h₂ => ⟨h₁.1.skip h₂.1, h₂.2⟩

theorem map {f : β → α} (h : Yields plan inBody given (fun r => R (f r)) first) :
    Yields plan inBody given R (f <$> first) := fun s hs hbody => ⟨(h s hs hbody).holds⟩

theorem ite {c : Prop} [Decidable c] (h : Yields plan inBody given R p)
    (h' : Yields plan inBody given R p') : Yields plan inBody given R (if c then p else p') := by
  split
  · exact h
  · exact h'

theorem weaken {given' : Prop} (h : Yields plan inBody given R p) (hgiven : given' → given) :
    Yields plan inBody given' R p :=
  fun s hs hbody => (h s hs hbody).mono fun _ _ hr =>
    ⟨hr.1.weaken fun _ => hgiven, fun hplan hg => hr.2 hplan (hgiven hg)⟩

end Yields
end judgments

/-! ## Section 4: Tokens and nodes -/

section tokens

instance : Plain plan inBody advance := ⟨fun _ hs _ => .advanced hs⟩

instance (k : Kind) : Plain plan inBody (accept k) := by
  unfold accept
  infer_instance

instance (issue : Issue) : Plain plan inBody (report issue) :=
  ⟨fun _ hs _ => .reported hs issue⟩

instance (what : String) : Plain plan inBody (reportExpected what) :=
  inferInstanceAs (Plain plan inBody (report _))

instance (k : Kind) (what : String) : Plain plan inBody (expect k what) := by
  unfold expect
  infer_instance

instance : Plain plan inBody exhaust := ⟨fun _ hs _ => .exhausted hs⟩

instance (form : Form) [hform : IsFalse form.isBound] (pos : Nat) :
    Plain plan inBody (finish form pos) := ⟨fun _ hs _ => .made_free hs hform.eq_false ..⟩

/-- A node whose parts are as the schema asks. -/
theorem Yields.finish {form : Form} {R : Nat → Prop} (pos : Nat)
    (hconforms : given → form.Conforms plan) (hclause : form.clause? = none)
    (hmissing : form ≠ .missing) (hR : given → ∀ id, plan id = some form → R id) :
    Yields plan inBody given R (Grammar.finish form pos) := by
  intro s hs _
  have hmade : Builds plan given [] s (s.made form pos (max s.previousStop pos)) := by
    refine .made hs (fun _ => hconforms) ?_ (absurd · hmissing)
    intro clause h
    rw [hclause] at h
    cases h
  have hform : (s.tree.add form pos (max s.previousStop pos)).form? s.tree.nextId = some form := by
    rw [Tree.form?_add, if_pos rfl]
  exact ⟨hmade, fun hplan hg => hR hg _ (hplan hform)⟩

/-- A node of which nothing need be known. -/
theorem Yields.finish_any {form : Form} (pos : Nat) (hconforms : given → form.Conforms plan)
    (hclause : form.clause? = none) (hmissing : form ≠ .missing) :
    Yields plan inBody given (fun _ => True) (Grammar.finish form pos) :=
  .finish pos hconforms hclause hmissing fun _ _ _ => trivial

/-- A node of a sort that forms may have to be made of. -/
theorem Yields.finish_sort {form : Form} {sort : PartSort} (pos : Nat)
    (hsort : form.partSort? = some sort) (hfree : form.isBound = false) :
    Yields plan inBody given (plan.Is sort) (Grammar.finish form pos) := by
  refine .finish pos (fun _ => Form.conforms_of_free hfree plan) (Form.clause?_of_free hfree)
    (Form.ne_missing_of_free hfree) fun _ id hid => ?_
  rw [FormPlan.Is, hid]
  exact hsort

theorem name_yields : Yields plan inBody given (plan.Is .identifier) name := by
  intro s hs _
  have hmade : Builds plan given [] s.advanced
      (s.advanced.made (.identifier s.kind) s.offset s.scanner.token.stop) :=
    .made_free hs.scan rfl ..
  refine ⟨(Builds.advanced hs).skip hmade, fun hplan _ => ?_⟩
  have hform : plan s.tree.nextId = some (.identifier s.kind) := by
    refine hplan ?_
    show (s.tree.add (.identifier s.kind) s.offset s.scanner.token.stop).form? s.tree.nextId = _
    rw [Tree.form?_add, if_pos rfl]
  show (plan s.tree.nextId).bind Form.partSort? = _
  rw [hform]
  rfl

instance : Plain plan inBody name := name_yields.plain

/-- Something missing is made where an issue is recorded. -/
instance (what : String) : Plain plan inBody (missing what) where
  builds s hs _ := by
    have hread : Builds plan True [] s (s.reported (.expected what)) := .reported hs _
    have hoffset : (s.reported (.expected what)).offset = s.offset :=
      congrArg (·.token.pos) (s.scanner_reported _)
    refine hread.skip (.made hread.settled (fun _ _ => trivial) nofun fun _ => Or.inr fun h => ?_)
    refine h.last ?_
    show _ = some (s.reported (.expected what)).offset
    rw [hoffset]
    exact s.lastIssueAt_reported _

instance (what : String) : Plain plan inBody (nameOr what) := by
  unfold nameOr
  infer_instance

instance : Plain plan inBody name? := by
  unfold name?
  infer_instance

end tokens

/-! ## Section 5: Context, depth and coming back -/

section surroundings

variable {inner : Bool} {body otherwise : Parse α} {R : α → Prop}
  {loose : α → List (ClauseSort × Nat)}

/-- The context is put back at the end. -/
theorem Owes.within {change : Context → Context}
    (hchange : ∀ c, c.inTypeBody = inBody → (change c).inTypeBody = inner)
    (h : Owes plan inner loose body) : Owes plan inBody loose (within change body) := by
  intro s hs hbody
  have hread := h (s.under (change s.context)) hs (hchange s.context hbody)
  exact ⟨.surround rfl hread.holds⟩

theorem Plain.within (change : Context → Context)
    (hchange : ∀ c, c.inTypeBody = inBody → (change c).inTypeBody = inner)
    (h : Plain plan inner body) : Plain plan inBody (within change body) :=
  (Owes.within hchange (.of_plain h)).plain

instance [Plain plan false body] : Plain plan inBody (unrestricted body) :=
  .within _ (fun _ _ => rfl) ‹_›

instance [Plain plan inBody body] : Plain plan inBody (asCondition body) :=
  .within _ (fun _ h => h) ‹_›

theorem Yields.unrestricted (h : Yields plan false given R body) :
    Yields plan inBody given R (unrestricted body) := by
  intro s hs hbody
  obtain ⟨hread, hresult⟩ := (h (s.under {}) hs rfl).holds
  exact ⟨⟨.surround rfl hread, hresult⟩⟩

/-- What is given up at the nesting limit. -/
theorem giveUp_plain (otherwise : Parse α) [Plain plan inBody otherwise] :
    Plain plan inBody (giveUp otherwise) := by
  unfold giveUp
  dsimp only
  infer_instance

theorem Owes.guarded [Plain plan inBody otherwise] (h : Owes plan inBody loose body) :
    Owes plan inBody loose (guarded otherwise body) := by
  intro s hs hbody
  refine guarded_cases (fun _ => ?_) fun _ => ?_
  · exact Owes.of_plain (giveUp_plain otherwise) s hs hbody
  · exact (h s.deeper hs hbody).mono fun r s₁ h₁ => .surround h₁.context_eq h₁

instance [Plain plan inBody otherwise] [hp : Plain plan inBody body] :
    Plain plan inBody (guarded otherwise body) := (Owes.guarded (.of_plain hp)).plain

theorem Yields.guarded (hotherwise : Yields plan inBody given R otherwise)
    (h : Yields plan inBody given R body) :
    Yields plan inBody given R (guarded otherwise body) := by
  intro s hs hbody
  have hdeep : Yields plan inBody given R (giveUp otherwise) :=
    .after fun _ => .after fun ended => .ite hotherwise (.after fun _ => hotherwise)
  refine guarded_cases (fun _ => hdeep s hs hbody) fun _ => ?_
  refine (h s.deeper hs hbody).mono fun r s₁ h₁ => ?_
  obtain ⟨hread, hresult⟩ := h₁
  exact ⟨.surround hread.context_eq hread, hresult⟩

instance [hp : Plain plan inBody body] : Plain plan inBody (lookAhead body) :=
  ⟨fun s hs hbody => .rewind hs (hp.builds s hs hbody).toLater⟩

instance {test : Parse Bool} [Plain plan inBody test] : Plain plan inBody (nextIs test) :=
  inferInstanceAs (Plain plan inBody (lookAhead (advance >>= fun _ => test)))

/-- What a failed attempt has made is dropped. -/
theorem Yields.attempt {body : Parse (Option α)}
    (h : Yields plan inBody given (fun found => ∀ r ∈ found, R r) body) :
    Yields plan inBody given (fun found => ∀ r ∈ found, R r) (attempt body) := by
  intro s hs hbody
  unfold Grammar.attempt
  refine .peek ((h s hs hbody).bind fun found s₁ h₁ => ?_)
  cases found with
  | some result => exact .pure h₁
  | none => exact ⟨.rewind hs h₁.1.toLater, fun _ _ => nofun⟩

theorem Plain.attempt {body : Parse (Option α)} (h : Plain plan inBody body) :
    Plain plan inBody (attempt body) :=
  have hbody : Yields plan inBody True (fun found => ∀ r ∈ found, True) body :=
    Yields.of_plain.mono fun _ _ _ _ => trivial
  hbody.attempt.plain

end surroundings

/-! ## Section 6: Repetition -/

section repetition

/-- What every round keeps, the repetition keeps, also if it is cut short. -/
theorem iterate_keeps {I : β → State → Prop} {step : β → Parse (ForInStep β)}
    (hstop : ∀ value s, I value s → I value { s with exhausted := true })
    (hstep : ∀ value s, I value s → Ensures (step value) s fun r s' => I r.value s')
    (count : Nat) {value : β} {s : State} (h : I value s) :
    Ensures (iterate step count value) s I := by
  induction count generalizing value s with
  | zero => exact ⟨hstop value s h⟩
  | succ count ih =>
    unfold iterate
    refine (hstep value s h).bind fun r s₁ h₁ => ?_
    cases r with
    | done value => exact .pure h₁
    | yield value => exact ih h₁

theorem loop_keeps {I : β → State → Prop} {init : β} {step : β → Parse (ForInStep β)}
    (hstop : ∀ value s, I value s → I value { s with exhausted := true })
    (hstep : ∀ value s, I value s → Ensures (step value) s fun r s' => I r.value s')
    {s : State} (h : I init s) : Ensures (loop init step) s I := by
  unfold loop
  exact .peek (iterate_keeps hstop hstep _ h)

variable {init : β} {step : β → Parse (ForInStep β)} {I : β → Prop}

theorem Yields.loop (hinit : given → I init)
    (hstep : ∀ value, Yields plan inBody (given ∧ I value) (fun r => I r.value) (step value)) :
    Yields plan inBody given I (loop init step) := by
  intro s hs hbody
  refine loop_keeps
    (I := fun value s' => Builds plan given [] s s' ∧ (s'.tree.Matches plan → given → I value))
    (fun value s₁ h₁ => ⟨h₁.1.skip (.exhausted h₁.1.settled), h₁.2⟩)
    (fun value s₁ h₁ => ?_) ⟨.refl hs, fun _ => hinit⟩
  have hbody₁ : s₁.context.inTypeBody = inBody := by rw [h₁.1.context_eq, hbody]
  refine (hstep value s₁ h₁.1.settled hbody₁).mono fun r s₂ h₂ => ?_
  have hgiven (hplan : s₂.tree.Matches plan) (hg : given) : given ∧ I value :=
    ⟨hg, h₁.2 (h₂.1.tree.matches_plan hplan) hg⟩
  exact ⟨h₁.1.skip (h₂.1.weaken hgiven), fun hplan hg => h₂.2 hplan (hgiven hplan hg)⟩

theorem Plain.loop (hstep : ∀ value, Plain plan inBody (step value)) :
    Plain plan inBody (loop init step) :=
  have hyields : Yields plan inBody True (fun _ => True) (Grammar.loop init step) :=
    .loop (fun _ => trivial) fun _ => .of_plain
  hyields.plain

instance [hstep : ∀ value, Plain plan inBody (step value)] : Plain plan inBody (loop init step) :=
  .loop hstep

variable {test : Parse Bool} {items : Parse (List Nat)} {closer : Kind} {P : Nat → Prop}

instance {body : Parse Unit} [Plain plan inBody test] [Plain plan inBody body] :
    Plain plan inBody (repeatWhile test body) := by
  unfold repeatWhile
  infer_instance

/-- The items so far, and one more. -/
theorem forall_mem_append {nodes more : List Nat}
    (h : (given ∧ ∀ id ∈ nodes, P id) ∧ ∀ id ∈ more, P id) : ∀ id ∈ nodes ++ more, P id :=
  List.forall_mem_append.mpr ⟨h.1.2, h.2⟩

theorem Yields.gatherWhile [Plain plan inBody test]
    (hitems : Yields plan inBody given (fun ids => ∀ id ∈ ids, P id) items) :
    Yields plan inBody given (fun ids => ∀ id ∈ ids, P id) (gatherWhile test items) := by
  refine .loop (fun _ => nofun) fun nodes => .after fun found => .ite ?_ (.pure fun h => h.2)
  exact .bind (hitems.weaken fun h => h.1) fun more => .pure forall_mem_append

theorem Yields.separated (hitems : Yields plan inBody given (fun ids => ∀ id ∈ ids, P id) items) :
    Yields plan inBody given (fun ids => ∀ id ∈ ids, P id) (separated items) := by
  refine .loop (fun _ => nofun) fun nodes => .bind (hitems.weaken fun h => h.1) fun more => ?_
  exact .after fun found => .ite (.pure forall_mem_append) (.pure forall_mem_append)

theorem Yields.separatedUntil
    (hitems : Yields plan inBody given (fun ids => ∀ id ∈ ids, P id) items) :
    Yields plan inBody given (fun ids => ∀ id ∈ ids, P id) (separatedUntil closer items) := by
  refine .loop (fun _ => nofun) fun nodes => .after fun closed => .after fun ended => ?_
  refine .ite (.pure fun h => h.2) (.bind (hitems.weaken fun h => h.1) fun more => ?_)
  exact .after fun found => .ite (.pure forall_mem_append) (.pure forall_mem_append)

theorem Yields.enclosed? {item : Parse (Option Nat)}
    (hitem : Yields plan inBody given (fun id => ∀ n ∈ id, P n) item) :
    Yields plan inBody given (fun ids => ∀ nodes ∈ ids, ∀ id ∈ nodes, P id)
      (enclosed? closer item) := by
  unfold Grammar.enclosed?
  refine .bind (.loop (I := fun ids => ∀ nodes ∈ ids, ∀ id ∈ nodes, P id) ?_ fun ids => ?_)
    fun ids => ?_
  · rintro - nodes ⟨⟩
    nofun
  · refine .after fun closed => .ite (.pure fun h => h.2) ?_
    refine .bind (hitem.weaken fun h => h.1) fun node => ?_
    cases node with
    | none => exact .pure fun _ => nofun
    | some node =>
      have hmore : (given ∧ ∀ nodes ∈ ids, ∀ id ∈ nodes, P id) ∧ (∀ n ∈ some node, P n) →
          ∀ nodes ∈ ids.map (· ++ [node]), ∀ id ∈ nodes, P id := by
        rintro ⟨⟨-, hids⟩, hnode⟩ nodes hnodes
        obtain ⟨before, hbefore, rfl⟩ := Option.map_eq_some_iff.mp hnodes
        refine List.forall_mem_append.mpr ⟨hids before hbefore, ?_⟩
        exact List.forall_mem_singleton.mpr (hnode node rfl)
      exact .after fun found => .ite (.pure hmore) (.pure hmore)
  · cases ids with
    | none => exact .pure fun _ => nofun
    | some nodes => exact .after fun found => .ite (.pure fun h => h.2) (.pure fun _ => nofun)

instance [Plain plan inBody test] [Plain plan inBody items] :
    Plain plan inBody (gatherWhile test items) := by
  unfold gatherWhile
  infer_instance

instance [Plain plan inBody items] : Plain plan inBody (separated items) := by
  unfold separated
  infer_instance

instance [Plain plan inBody items] : Plain plan inBody (separatedUntil closer items) := by
  unfold separatedUntil
  infer_instance

end repetition
end SelfCapture.Grammar
