import SelfCapture.Check.Rule
import SelfCapture.Check.Verdict
import SelfCapture.Proofs.Tree.Growth

/-! # Closures passed to calls

  In a linked tree a closure is passed to one call at most: as a trailing
  closure it is a child of the call, and otherwise the only expression of
  an argument that is.  The call comes before the closure in preorder.

  `passedClosures` lists the closures passed to the calls among some nodes
  that no rule exempts; no closure is listed twice.
-/

namespace SelfCapture

namespace Tree

variable {t : Tree} {call call' closure argument : Nat} {site site' : ClosureSite}

/-! ## Section 1: Where a passed closure hangs -/

/-- Whether the node is a call. -/
def isCall (t : Tree) (id : Nat) : Bool :=
  match t.form? id with
  | some (.call ..) => true
  | _ => false

/-- How a passed closure hangs on its call. -/
inductive Hangs (t : Tree) (call closure : Nat) : Prop where
  | trailing (hcall : t.isCall call = true) (hclosure : closure ∈ t.children call)
  | argument {argument : Nat} {label : Option Nat} (hargument : argument ∈ t.children call)
      (hform : t.form? argument = some (.argument label (some closure)))

theorem mem_children_argument {label : Option Nat}
    (h : t.form? argument = some (.argument label (some closure))) :
    closure ∈ t.children argument := by
  simp [children, h]

theorem argumentClosure?_eq {entry : Nat × ClosureSite}
    (h : t.argumentClosure? call argument = some entry) :
    t.form? argument = some (.argument entry.2.label (some entry.1)) ∧ entry.2.call = call ∧
      t.isClosure entry.1 = true := by
  unfold argumentClosure? at h
  split at h
  · rename_i label expression hform
    split at h
    · rename_i hclosure
      cases h
      exact ⟨hform, rfl, hclosure⟩
    · cases h
  · cases h

theorem children_call {callee trailing : Option Nat} {arguments additional : List Nat}
    (h : t.form? call = some (.call callee arguments trailing additional)) :
    t.children call = callee.toList ++ arguments ++ trailing.toList ++ additional := by
  simp [children, h]

/-- A closure listed for a call is a closure, is listed under that call, and hangs on it. -/
theorem mem_closureArguments (hs : t.Sound) (h : (closure, site) ∈ t.closureArguments call) :
    site.call = call ∧ t.isClosure closure = true ∧ t.Hangs call closure := by
  unfold closureArguments at h
  split at h
  · rename_i callee arguments trailing additional hform
    have hcall : t.isCall call = true := by
      rw [isCall, hform]
    have hchildren := children_call hform
    -- Labelled trailing closures are arguments too, so one argument serves both.
    have hargument : ∀ list : List Nat, (∀ a ∈ list, a ∈ t.children call) →
        (closure, site) ∈ list.filterMap (t.argumentClosure? call) →
        site.call = call ∧ t.isClosure closure = true ∧ t.Hangs call closure := by
      intro list hsub hmem
      obtain ⟨argument, hmem, hsome⟩ := List.mem_filterMap.mp hmem
      obtain ⟨hargument, hsite, hclosure⟩ := argumentClosure?_eq hsome
      exact ⟨hsite, hclosure, .argument (hsub argument hmem) hargument⟩
    rcases List.mem_append.mp h with h | h
    · rcases List.mem_append.mp h with h | h
      · exact hargument arguments (fun a ha => by simp [hchildren, ha]) h
      · obtain ⟨trailed, htrailed, heq⟩ := List.mem_map.mp h
        cases heq
        rw [Option.mem_toList] at htrailed
        subst htrailed
        exact ⟨rfl, hs.trailing hform, .trailing hcall (by simp [hchildren])⟩
    · exact hargument additional (fun a ha => by simp [hchildren, ha]) h
  · exact absurd h List.not_mem_nil

theorem Hangs.unique (hl : t.Linked) (h : t.Hangs call closure) (h' : t.Hangs call' closure) :
    call = call' := by
  cases h with
  | trailing hcall hclosure =>
    cases h' with
    | trailing hcall' hclosure' => exact hl.parent_unique hclosure hclosure'
    | argument hargument' hform' =>
      -- The parent of the closure would be a call and an argument at once.
      have heq := hl.parent_unique hclosure (mem_children_argument hform')
      rw [isCall, heq, hform'] at hcall
      cases hcall
  | argument hargument hform =>
    cases h' with
    | trailing hcall' hclosure' =>
      have heq := hl.parent_unique hclosure' (mem_children_argument hform)
      rw [isCall, heq, hform] at hcall'
      cases hcall'
    | argument hargument' hform' =>
      have heq := hl.parent_unique (mem_children_argument hform) (mem_children_argument hform')
      subst heq
      exact hl.parent_unique hargument hargument'

theorem Hangs.mem_preorder (hl : t.Linked) {root : Nat} (h : t.Hangs call closure)
    (hcall : call ∈ t.preorder root) : closure ∈ t.preorder root := by
  cases h with
  | trailing _ hclosure => exact hl.mem_preorder_child hcall hclosure
  | argument hargument hform =>
    have hmem := hl.mem_preorder_child hcall hargument
    exact hl.mem_preorder_child hmem (mem_children_argument hform)

/-- When the closure is reached, its call has been passed. -/
theorem Hangs.mem_before (hl : t.Linked) {root : Nat} {before after : List Nat}
    (h : t.Hangs call closure) (hsplit : t.preorder root = before ++ closure :: after)
    (hcall : call ∈ t.preorder root) : call ∈ before := by
  cases h with
  | trailing _ hclosure => exact hl.mem_before_of_mem_children hsplit hcall hclosure
  | @argument argument _ hargument hform =>
    -- The call comes before its argument, and that before the closure.
    have hmem := hl.mem_preorder_child hcall hargument
    have hbefore := hl.mem_before_of_mem_children hsplit hmem (mem_children_argument hform)
    obtain ⟨first, second, hfirst⟩ := List.append_of_mem hbefore
    have hsplit' : t.preorder root = first ++ argument :: (second ++ closure :: after) := by
      rw [hsplit, hfirst, List.append_assoc, List.cons_append]
    have hfound := hl.mem_before_of_mem_children hsplit' hcall hargument
    rw [hfirst]
    exact List.mem_append_left _ hfound

/-! ## Section 2: No closure is listed twice -/

/-- The listed closures are found under the children of the call, in order. -/
theorem closureArguments_sublist (hl : t.Linked) (call : Nat) :
    ((t.closureArguments call).map Prod.fst).Sublist ((t.children call).flatMap t.preorder) := by
  have harguments : ∀ list : List Nat, (∀ a ∈ list, a ∈ t.children call) →
      ((list.filterMap (t.argumentClosure? call)).map Prod.fst).Sublist
        (list.flatMap t.preorder) := by
    intro list hsub
    induction list with
    | nil => exact List.Sublist.refl _
    | cons argument list ih =>
      have hrest := ih fun a ha => hsub a (List.mem_cons_of_mem _ ha)
      rw [List.flatMap_cons]
      cases hsome : t.argumentClosure? call argument with
      | none =>
        rw [List.filterMap_cons_none hsome]
        exact hrest.trans (List.sublist_append_right _ _)
      | some entry =>
        obtain ⟨hform, -, -⟩ := argumentClosure?_eq hsome
        obtain ⟨node, hnode⟩ := hl.exists_child (hsub argument List.mem_cons_self)
        have hmem := hl.mem_preorder_child (mem_preorder_self hnode) (mem_children_argument hform)
        rw [List.filterMap_cons_some hsome, List.map_cons]
        exact (List.singleton_sublist.mpr hmem).append hrest
  unfold closureArguments
  split
  · rename_i callee arguments trailing additional hform
    have hchildren := children_call hform
    have htrailing : ((trailing.toList.map fun closure =>
        (closure, (⟨call, none⟩ : ClosureSite))).map Prod.fst).Sublist
          (trailing.toList.flatMap t.preorder) := by
      cases trailing with
      | none => exact List.Sublist.refl _
      | some closure =>
        have hmem : closure ∈ t.children call := by simp [hchildren]
        obtain ⟨node, hnode⟩ := hl.exists_child hmem
        simpa using mem_preorder_self hnode
    rw [hchildren, List.map_append, List.map_append, List.flatMap_append, List.flatMap_append,
      List.flatMap_append]
    -- The called expression comes first and is not listed.
    refine ((?_ : List.Sublist _ _).append htrailing).append ?_
    · refine (harguments arguments fun a ha => by simp [hchildren, ha]).trans ?_
      exact List.sublist_append_right _ _
    · exact harguments additional fun a ha => by simp [hchildren, ha]
  · exact List.nil_sublist _

theorem nodup_closureArguments (hl : t.Linked) (call : Nat) :
    ((t.closureArguments call).map Prod.fst).Nodup := by
  cases hnode : t.get? call with
  | none => simp [closureArguments, form?, hnode]
  | some node =>
    have hnodup := hl.nodup_preorder call
    rw [hl.preorder_eq hnode, List.nodup_cons] at hnodup
    exact hnodup.2.sublist (closureArguments_sublist hl call)

end Tree

/-- The closures passed to the calls among some nodes that no rule exempts. -/
def passedClosures (t : Tree) (rules : List Rule) (nodes : List Nat) :
    List (Nat × ClosureSite) :=
  (nodes.filter fun id => !isExempt t rules id).flatMap t.closureArguments

theorem mem_passedClosures {t : Tree} {rules : List Rule} {nodes : List Nat}
    {entry : Nat × ClosureSite} :
    entry ∈ passedClosures t rules nodes ↔
      ∃ call ∈ nodes, isExempt t rules call = false ∧ entry ∈ t.closureArguments call := by
  simp [passedClosures, List.mem_flatMap, and_assoc]

theorem nodup_passedClosures {t : Tree} (hl : t.Linked) (hs : t.Sound) (rules : List Rule)
    {nodes : List Nat} (hnodes : nodes.Nodup) :
    ((passedClosures t rules nodes).map Prod.fst).Nodup := by
  rw [passedClosures, List.map_flatMap]
  refine List.pairwise_flatMap.mpr ⟨fun call _ => t.nodup_closureArguments hl call, ?_⟩
  -- A closure listed for two calls would hang on both.
  refine (hnodes.filter _).imp fun {call call'} hne closure hmem closure' hmem' heq => hne ?_
  obtain ⟨entry, hentry, rfl⟩ := List.mem_map.mp hmem
  obtain ⟨entry', hentry', rfl⟩ := List.mem_map.mp hmem'
  have hhangs := (Tree.mem_closureArguments hs hentry).2.2
  have hhangs' := (Tree.mem_closureArguments hs hentry').2.2
  rw [← heq] at hhangs'
  exact hhangs.unique hl hhangs'

end SelfCapture
