import SelfCapture.Check.Rule
import SelfCapture.Proofs.Tree.Schema

/-! # Chains of member accesses

  A called member access ends a chain of names.  `MemberChain` says which
  names these are without saying how they are found: the base of each
  access is again a member access, or a call of one, up to an expression
  that is neither.

  `Callee.ofNode` gives exactly the names of the chain, in any tree.  The
  parts of a call other than its callee do not occur in a `MemberChain`, so
  no rule can see them.

  The names are collected with a bound, the number of nodes.  The bound is
  enough because the member accesses of a chain are all different: an
  access that came up again would have two chains of different lengths.
-/

namespace SelfCapture

namespace Callee

variable {t : Tree} {access base inner : Nat} {start : Option String} {names names' : List String}

/-! ## Section 1: Chains -/

/-- The base continues a chain at a member access: it is that access, or a
    call of it with any arguments and closures. -/
inductive ContinuesAt (t : Tree) : (base access : Nat) → Prop where
  | access {access name : Nat} {inner : Option Nat}
      (haccess : t.form? access = some (.memberAccess inner name)) : ContinuesAt t access access
  | call {call access name : Nat} {inner trailing : Option Nat} {arguments additional : List Nat}
      (hcall : t.form? call = some (.call (some access) arguments trailing additional))
      (haccess : t.form? access = some (.memberAccess inner name)) : ContinuesAt t call access

/-- A member access ends a chain of names, outermost first.  The chain
    starts at an expression with the given source text, without the white
    space around it, or at no expression for an implicit member. -/
inductive MemberChain (t : Tree) :
    (access : Nat) → (start : Option String) → (names : List String) → Prop where
  | implicit {access name : Nat} {base : Option Nat}
      (haccess : t.form? access = some (.memberAccess base name))
      (hbase : base.bind t.form? = none) : MemberChain t access none [t.text name]
  | start {access base name : Nat} {form : Form}
      (haccess : t.form? access = some (.memberAccess (some base) name))
      (hbase : t.form? base = some form) (hend : ∀ inner, ¬ ContinuesAt t base inner) :
      MemberChain t access (some (Text.trim (t.text base))) [t.text name]
  | dot {access base inner name : Nat} {start : Option String} {names : List String}
      (haccess : t.form? access = some (.memberAccess (some base) name))
      (hbase : ContinuesAt t base inner) (hinner : MemberChain t inner start names) :
      MemberChain t access start (names ++ [t.text name])

theorem isMemberAccess_iff :
    isMemberAccess t access = true ↔
      ∃ base name, t.form? access = some (.memberAccess base name) := by
  unfold isMemberAccess
  constructor
  · intro h
    split at h
    · exact ⟨_, _, ‹_›⟩
    · cases h
  · rintro ⟨base, name, haccess⟩
    rw [haccess]

/-- Looking through a call finds the member access at which a base continues a chain. -/
theorem continuesAt_iff :
    ContinuesAt t base inner ↔ throughCall t base = inner ∧ isMemberAccess t inner = true := by
  constructor
  · intro h
    cases h with
    | access haccess => simp [throughCall, isMemberAccess, haccess]
    | call hcall haccess => simp [throughCall, isMemberAccess, hcall, haccess]
  · rintro ⟨rfl, hinner⟩
    revert hinner
    unfold throughCall
    split
    · rename_i hcall
      split
      · intro hinner
        obtain ⟨_, _, haccess⟩ := isMemberAccess_iff.mp hinner
        exact .call hcall haccess
      · intro hinner
        obtain ⟨_, _, haccess⟩ := isMemberAccess_iff.mp hinner
        exact .access haccess
    · intro hinner
      obtain ⟨_, _, haccess⟩ := isMemberAccess_iff.mp hinner
      exact .access haccess

/-- Where no chain continues there is no call to look through. -/
theorem throughCall_of_not_continuesAt (h : ∀ inner, ¬ ContinuesAt t base inner) :
    throughCall t base = base ∧ isMemberAccess t base = false := by
  have hself : throughCall t base = base := by
    unfold throughCall
    split
    · rename_i hcall
      split
      · rename_i hcallee
        obtain ⟨_, _, haccess⟩ := isMemberAccess_iff.mp hcallee
        exact absurd (.call hcall haccess) (h _)
      · rfl
    · rfl
  refine ⟨hself, ?_⟩
  rw [← Bool.not_eq_true]
  intro haccess
  exact h base (continuesAt_iff.mpr ⟨hself, haccess⟩)

/-- What is neither a member access nor a call of one continues no chain. -/
theorem not_continuesAt (h : isMemberAccess t (throughCall t base) = false) (inner : Nat) :
    ¬ ContinuesAt t base inner := by
  intro hinner
  obtain ⟨rfl, hmember⟩ := continuesAt_iff.mp hinner
  rw [h] at hmember
  cases hmember

/-! ## Section 2: The names of a chain -/

namespace MemberChain

theorem exists_form (h : MemberChain t access start names) :
    ∃ base name, t.form? access = some (.memberAccess base name) := by
  cases h with
  | implicit haccess _ => exact ⟨_, _, haccess⟩
  | start haccess _ _ => exact ⟨_, _, haccess⟩
  | dot haccess _ _ => exact ⟨_, _, haccess⟩

theorem exists_last (h : MemberChain t access start names) :
    ∃ before last, names = before ++ [last] := by
  cases h with
  | implicit _ _ => exact ⟨[], _, rfl⟩
  | start _ _ _ => exact ⟨[], _, rfl⟩
  | dot _ _ _ => exact ⟨_, _, rfl⟩

/-- A bound that is not less than the length of the chain cuts nothing off. -/
theorem chainUpTo_eq (h : MemberChain t access start names) {count : Nat}
    (hcount : names.length ≤ count) :
    chainUpTo t count access = (start.toList ++ names).reverse := by
  induction h generalizing count with
  | @implicit access name base haccess hbase =>
    cases count with
    | zero => simp at hcount
    | succ count =>
      cases base with
      | none => simp [chainUpTo, haccess]
      | some base =>
        -- The base does not exist, so there is nothing to look through.
        have hform : t.form? base = none := hbase
        have hnode : t.get? base = none := Option.map_eq_none_iff.mp hform
        simp [chainUpTo, haccess, throughCall, isMemberAccess, hform, hnode]
  | @start access base name form haccess hbase hend =>
    cases count with
    | zero => simp at hcount
    | succ count =>
      obtain ⟨hself, hother⟩ := throughCall_of_not_continuesAt hend
      have hnode : (t.get? base).isSome := by
        rw [← Option.isSome_map, ← Tree.form?, hbase]
        rfl
      simp [chainUpTo, haccess, hself, hother, hnode]
  | @dot access base inner name start names haccess hbase _ ih =>
    cases count with
    | zero => simp at hcount
    | succ count =>
      obtain ⟨hthrough, hinner⟩ := continuesAt_iff.mp hbase
      rw [List.length_append, List.length_singleton] at hcount
      have hrest := ih (Nat.le_of_succ_le_succ hcount)
      simp [chainUpTo, haccess, hthrough, hinner, hrest]

/-- The chain of an access has one length, as the bound plays no role once it is large. -/
theorem length_unique (h : MemberChain t access start names)
    (h' : MemberChain t access start names') : names.length = names'.length := by
  have hnames := h.chainUpTo_eq (Nat.le_max_left names.length names'.length)
  have hnames' := h'.chainUpTo_eq (Nat.le_max_right names.length names'.length)
  have hlength := congrArg List.length (hnames.symm.trans hnames')
  simp only [List.length_reverse, List.length_append] at hlength
  omega

end MemberChain

/-! ## Section 3: The length of a chain -/

/-- Different member accesses, with chains that are not longer than there are of them. -/
structure Accesses (t : Tree) (start : Option String) (accesses : List Nat) : Prop where
  nodup : accesses.Nodup
  chained : ∀ access ∈ accesses, ∃ names, names.length ≤ accesses.length ∧
    MemberChain t access start names

/-- An access with a longer chain is a new one. -/
theorem Accesses.cons {accesses : List Nat} (h : Accesses t start accesses)
    (hchain : MemberChain t access start names) (hlength : names.length = accesses.length + 1) :
    Accesses t start (access :: accesses) where
  nodup := by
    apply List.nodup_cons.mpr
    refine ⟨?_, h.nodup⟩
    intro hmem
    obtain ⟨names', hle, hshort⟩ := h.chained access hmem
    have hsame := hchain.length_unique hshort
    omega
  chained := by
    intro node hmem
    rw [List.length_cons]
    rcases List.mem_cons.mp hmem with rfl | hmem
    · exact ⟨names, Nat.le_of_eq hlength, hchain⟩
    · obtain ⟨names', hle, hshort⟩ := h.chained node hmem
      exact ⟨names', by omega, hshort⟩

namespace MemberChain

/-- A chain passes as many member accesses as it has names. -/
theorem exists_accesses (h : MemberChain t access start names) :
    ∃ accesses : List Nat, names.length = accesses.length ∧ Accesses t start accesses := by
  have hnone {start : Option String} : Accesses t start [] := ⟨List.nodup_nil, by simp⟩
  induction h with
  | implicit haccess hbase => exact ⟨_, rfl, hnone.cons (.implicit haccess hbase) rfl⟩
  | start haccess hbase hend => exact ⟨_, rfl, hnone.cons (.start haccess hbase hend) rfl⟩
  | dot haccess hbase hinner ih =>
    obtain ⟨accesses, hlength, haccesses⟩ := ih
    have hlonger := haccesses.cons (.dot haccess hbase hinner) (by simp [hlength])
    exact ⟨_, by simp [hlength], hlonger⟩

/-- A chain is not longer than its tree has nodes. -/
theorem length_le (h : MemberChain t access start names) : names.length ≤ t.nodes.size := by
  obtain ⟨accesses, hlength, haccesses⟩ := h.exists_accesses
  have hsubset : accesses ⊆ List.range t.nodes.size := by
    intro inner hmem
    obtain ⟨_, -, hinner⟩ := haccesses.chained inner hmem
    obtain ⟨_, _, hform⟩ := hinner.exists_form
    exact List.mem_range.mpr (Tree.lt_nextId_of_form? hform)
  have hle := haccesses.nodup.length_le_of_subset hsubset
  rwa [List.length_range, ← hlength] at hle

/-- A called member access is its chain of names. -/
theorem ofNode_eq (h : MemberChain t access start names) :
    ofNode t (some access) = .chain (start.toList ++ names) := by
  obtain ⟨base, name, haccess⟩ := h.exists_form
  have hnames := h.chainUpTo_eq h.length_le
  rw [ofNode, haccess]
  dsimp only
  rw [reversedChain, hnames, List.reverse_reverse]

end MemberChain

/-! ## Section 4: Rules -/

/-- A rule applies to a chain if it has a parent test, this test passes for
    the names before the last one, and the other test for the last name. -/
theorem applies_chain (rule : Rule) (before : List String) (last : String) :
    rule.applies (.chain (before ++ [last])) = true ↔
      ∃ parent, rule.parent = some parent ∧ parent (".".intercalate before) = true ∧
        rule.function last = true := by
  cases hparent : rule.parent with
  | none => simp [Rule.applies, hparent]
  | some parent => simp [Rule.applies, hparent]

/-- A call of a member access is seen as the text at which its chain starts
    and the names of the chain.  A rule looks at all but the last of these,
    joined by dots, and at the last.  So calls with the same names are
    treated alike: it does not matter which parts of a chain are called, and
    with what arguments and closures. -/
theorem MemberChain.rules_see_names (h : MemberChain t access start names) :
    ofNode t (some access) = .chain (start.toList ++ names) ∧
    (∃ before last, names = before ++ [last] ∧
      ∀ rule : Rule, rule.applies (ofNode t (some access)) = true ↔
        ∃ parent, rule.parent = some parent ∧
          parent (".".intercalate (start.toList ++ before)) = true ∧
          rule.function last = true) ∧
    ∀ (t' : Tree) (access' : Nat), MemberChain t' access' start names →
      ∀ call call' arguments arguments' trailing trailing' additional additional',
        t.form? call = some (.call (some access) arguments trailing additional) →
        t'.form? call' = some (.call (some access') arguments' trailing' additional') →
        ∀ rules, isExempt t rules call = isExempt t' rules call' := by
  refine ⟨h.ofNode_eq, ?_, ?_⟩
  · obtain ⟨before, last, hnames⟩ := h.exists_last
    refine ⟨before, last, hnames, ?_⟩
    intro rule
    rw [h.ofNode_eq, hnames, ← List.append_assoc]
    exact applies_chain rule (start.toList ++ before) last
  · intro t' access' h' call call' _ _ _ _ _ _ hcall hcall' rules
    rw [isExempt, isExempt, hcall, hcall']
    dsimp only
    rw [h.ofNode_eq, h'.ofNode_eq]

/-- The arguments of a call inside the chain make no difference, nor whether
    they are closures. -/
theorem MemberChain.rules_see_names_of_async :
    let t := (SourceFile.parse "DispatchQueue.global(qos: .background).async { self.go() }").tree
    let t' := (SourceFile.parse "DispatchQueue.global { $0 }.async()").tree
    MemberChain t 9 (some "DispatchQueue") ["global", "async"] ∧
      MemberChain t' 7 (some "DispatchQueue") ["global", "async"] ∧
      ofNode t (some 9) = .chain ["DispatchQueue", "global", "async"] ∧
      ∀ rules, isExempt t rules 15 = isExempt t' rules 8 := by
  intro t t'
  obtain ⟨hstart, hglobal, hasync, hfirst, hbase, hend, hsecond, hinner, hcall⟩ :
      Text.trim (t.text 0) = "DispatchQueue" ∧ t.text 1 = "global" ∧ t.text 8 = "async" ∧
      t.form? 2 = some (.memberAccess (some 0) 1) ∧
      t.form? 0 = some (.identifier .identifier) ∧
      isMemberAccess t (throughCall t 0) = false ∧
      t.form? 9 = some (.memberAccess (some 7) 8) ∧
      (throughCall t 7 = 2 ∧ isMemberAccess t 2 = true) ∧
      t.form? 15 = some (.call (some 9) [] (some 14) []) := by decide +kernel
  have hchain : MemberChain t 9 (some "DispatchQueue") ["global", "async"] := by
    rw [← hstart, ← hglobal, ← hasync]
    exact .dot hsecond (continuesAt_iff.mpr hinner) (.start hfirst hbase (not_continuesAt hend))
  obtain ⟨hstart', hglobal', hasync', hfirst', hbase', hend', hsecond', hinner', hcall'⟩ :
      Text.trim (t'.text 0) = "DispatchQueue" ∧ t'.text 1 = "global" ∧ t'.text 6 = "async" ∧
      t'.form? 2 = some (.memberAccess (some 0) 1) ∧
      t'.form? 0 = some (.identifier .identifier) ∧
      isMemberAccess t' (throughCall t' 0) = false ∧
      t'.form? 7 = some (.memberAccess (some 5) 6) ∧
      (throughCall t' 5 = 2 ∧ isMemberAccess t' 2 = true) ∧
      t'.form? 8 = some (.call (some 7) [] none []) := by decide +kernel
  have hchain' : MemberChain t' 7 (some "DispatchQueue") ["global", "async"] := by
    rw [← hstart', ← hglobal', ← hasync']
    exact .dot hsecond' (continuesAt_iff.mpr hinner') (.start hfirst' hbase' (not_continuesAt hend'))
  obtain ⟨hnames, -, halike⟩ := hchain.rules_see_names
  exact ⟨hchain, hchain', hnames,
    halike t' 7 hchain' 15 8 [] [] (some 14) none [] [] hcall hcall'⟩

end Callee
end SelfCapture
