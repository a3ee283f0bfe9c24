import SelfCapture.Proofs.Grammar.CountedExpressions

/-! # Declarations that count braces

  The rules for declarations.  The generic parameters of a declaration are
  skipped by bracket.  That there are no braces in them is known from the
  tree only after the declaration has been read, so they are judged with
  the tree in which it is the last node.

  The members of a type start at the first brace after its name and the
  types it inherits from.  `Ends` is what this needs of a type: its node
  ends with the last token that was read, so every brace read before is a
  brace of the type or comes before it.
-/

set_option synthInstance.maxSize 1000

namespace SelfCapture.Grammar

open Token (Kind)

variable {q : Nat} {nested : Readers} [nested.Count]

/-! ## Section 1: Where types end -/

section ends

variable {α : Type} {p p' : Parse Nat} {first : Parse α} {next : α → Parse Nat}

theorem Ends.after (hfirst : Steps q first) (hnext : ∀ r, Ends q (next r)) :
    Ends q (first >>= next) where
  ends s hs hq := by
    have hread := hfirst.moves s hs hq
    exact (hnext _).ends _ hread.steady (Nat.le_trans hq hread.offset_le)

instance Ends.bind [hfirst : Steps q first] [hnext : ∀ r, Ends q (next r)] :
    Ends q (first >>= next) := .after hfirst hnext

instance (priority := high) Ends.position {next : Nat → Parse Nat}
    [hnext : ∀ pos, Ends pos (next pos)] : Ends q (position >>= next) :=
  ⟨fun s hs _ => (hnext s.offset).ends s hs (Nat.le_refl s.offset)⟩

instance Ends.ite {c : Prop} [Decidable c] [Ends q p] [Ends q p'] :
    Ends q (if c then p else p') := by
  split
  · assumption
  · assumption

instance (priority := low) Ends.of_spoils [hp : Spoils q p] : Ends q p :=
  ⟨fun s hs hq => Or.inl (hp.moves s hs hq).2⟩

theorem made_endsWith {s : State} {form : Form} {pos stop : Nat} (h : s.previousStop ≤ stop) :
    (s.made form pos stop).EndsWith s.tree.nextId := by
  refine ⟨(pos, max stop pos), ?_, ?_⟩
  · simp [State.made, Tree.range?_add]
  · exact Nat.le_trans h (Nat.le_max_left _ _)

instance (form : Form) (pos : Nat) : Ends q (finish form pos) :=
  ⟨fun _ _ _ => Or.inr (made_endsWith (Nat.le_max_left _ _))⟩

instance : Ends q name :=
  ⟨fun s _ _ => Or.inr (made_endsWith (s := s.advanced) (Nat.le_refl _))⟩

instance (what : String) : Ends q (nameOr what) := by
  unfold nameOr
  infer_instance

/-- Reading has got to the end of the node, or there is trouble. -/
def State.EndsIn (s : State) (node : Nat) : Prop := s.Troubled ∨ s.EndsWith node

theorem finish_endsIn {s : State} (form : Form) (pos : Nat) :
    Ensures (finish form pos) s fun id s' => s'.EndsIn id :=
  ⟨Or.inr (made_endsWith (Nat.le_max_left _ _))⟩

/-- What comes after the node takes no token, or makes another node. -/
theorem Ends.further {next : Nat → Parse Nat} (hp : Ends q p) (hsteps : Steps q p)
    (hnext : ∀ id s, s.Steady → s.EndsIn id →
      Ensures (next id) s fun id' s' => s'.EndsIn id') : Ends q (p >>= next) where
  ends s hs hq := (hnext _ _ (hsteps.moves s hs hq).steady (hp.ends s hs hq)).holds

/-- What a round of a repetition keeps up, and what holds at its end. -/
def Rounds {β : Type} (I R : β → State → Prop) : ForInStep β → State → Prop
  | .yield value, s' => I value s'
  | .done value, s' => R value s'

/-- A repetition that is cut short ends in trouble, so it need not be shown to move on. -/
theorem loop_rounds {β : Type} {I R : β → State → Prop} {init : β}
    {step : β → Parse (ForInStep β)} {s : State} (hinit : I init s)
    (hstep : ∀ value s, I value s → Ensures (step value) s (Rounds I R))
    (hcut : ∀ value s, I value s → R value { s with exhausted := true }) :
    Ensures (loop init step) s R := by
  have hiterate (count : Nat) (value : β) (s : State) (hvalue : I value s) :
      Ensures (iterate step count value) s R := by
    induction count generalizing value s with
    | zero => exact ⟨hcut value s hvalue⟩
    | succ count ih =>
      unfold iterate
      refine (hstep value s hvalue).bind fun r s₁ h₁ => ?_
      cases r with
      | done value => exact .pure h₁
      | yield value => exact ih value s₁ h₁
  unfold loop
  exact .peek (hiterate _ init s hinit)

theorem loop_ends {init : Nat} {step : Nat → Parse (ForInStep Nat)} {s : State} (hs : s.Steady)
    (hq : q ≤ s.offset) (hinit : s.EndsIn init) (hsteps : ∀ value, Steps q (step value))
    (hstep : ∀ value s, s.Steady → s.EndsIn value →
      Ensures (step value) s fun r s' => s'.EndsIn r.value) :
    Ensures (loop init step) s fun id s' => s'.EndsIn id := by
  refine loop_rounds (I := fun value s₁ => Moves q s s₁ ∧ s₁.EndsIn value) ⟨.refl hs q, hinit⟩
    (fun value s₁ h₁ => ?_) fun _ _ _ => Or.inl (Or.inr rfl)
  have hread := (hsteps value).moves s₁ h₁.1.steady (Nat.le_trans hq h₁.1.offset_le)
  have hround : Ensures (step value) s₁ fun r s₂ => Moves q s₁ s₂ ∧ s₂.EndsIn r.value :=
    ⟨hread, (hstep value s₁ h₁.1.steady h₁.2).holds⟩
  refine hround.mono fun r s₂ h₂ => ?_
  cases r with
  | done value => exact h₂.2
  | yield value => exact ⟨h₁.1.trans h₂.1, h₂.2⟩

end ends

instance : Steps q (tupleTypeElements nested) := by
  unfold tupleTypeElements
  infer_instance

instance : Ends q (tupleOrFunctionType nested) := by
  unfold tupleOrFunctionType
  infer_instance

instance : Ends q (collectionType nested) := by
  unfold collectionType
  dsimp only
  infer_instance

instance : Ends q (primaryType nested) := by
  unfold primaryType
  have hkind : ∀ pos, Steps pos kind := fun _ => inferInstance
  refine @Ends.position _ _ fun pos => .after (hkind pos) fun k => ?_
  split
  all_goals infer_instance

instance : Ends q (suffixedType nested) := by
  unfold suffixedType
  refine @Ends.position _ _ fun pos => ⟨fun s hs hq => ?_⟩
  have hbase : Ends pos (primaryType nested) := inferInstance
  have hsteps : Steps pos (primaryType nested) := inferInstance
  refine Ensures.holds (Q := fun id s' => s'.EndsIn id) ?_
  refine .bind (P := fun base s₁ => Moves pos s s₁ ∧ s₁.EndsIn base)
    ⟨hsteps.moves s hs hq, hbase.ends s hs hq⟩ fun base s₁ h₁ => ?_
  refine loop_ends h₁.1.steady (Nat.le_trans hq h₁.1.offset_le) h₁.2 ?_ ?_
  · intro type
    have hkind : Steps pos kind := inferInstance
    refine @Steps.bind _ _ _ _ _ hkind fun k => ?_
    split
    all_goals infer_instance
  · -- A suffix makes a node of itself and of the type before it.
    intro type s₂ hs₂ h₂
    have hmark : Ensures (do
        let implicitlyUnwrapped ← isAt .exclamation
        advance
        return ForInStep.yield (← finish (.optionalType type implicitlyUnwrapped) pos)) s₂
        fun r s' => s'.EndsIn r.value :=
      .peek (.modify _ ((finish_endsIn _ pos).bind fun _ _ h => .pure h))
    refine .peek ?_
    split
    · exact .peek (.ite (fun _ => .pure h₂) fun _ => hmark)
    · exact .peek (.ite (fun _ => .pure h₂) fun _ => hmark)
    · refine .peek (.ite (fun _ => .pure h₂) fun _ => .modify _ (.peek (.ite (fun _ => ?_) ?_)))
      · refine .bind (P := fun _ _ => True) ⟨trivial⟩ fun name s₃ _ => ?_
        refine .bind (P := fun _ _ => True) ⟨trivial⟩ fun generics s₄ _ => ?_
        exact (finish_endsIn _ pos).bind fun _ _ h => .pure h
      · intro _
        exact ⟨Or.inl (Moves.reported (Moves.advanced hs₂ pos).steady pos _).2⟩
    · exact .pure h₂

instance : Ends q (compositionType nested) := by
  unfold compositionType
  refine @Ends.position _ _ fun pos => .further inferInstance inferInstance fun first s hs h => ?_
  refine .peek (.ite (fun _ => ?_) fun _ => .pure h)
  exact .bind (P := fun _ _ => True) ⟨trivial⟩ fun others s₁ _ => finish_endsIn _ pos

instance : Ends q (attributedType nested) := by
  unfold attributedType
  refine @Ends.position _ _ fun pos => .after inferInstance fun attributes => ?_
  have hrest (specifier : Option Nat) : Ends pos (do
      let base ← compositionType nested
      if attributes.isEmpty && specifier.isNone then
        return base
      else
        finish (.attributedType attributes specifier base) pos) := by
    refine .further inferInstance inferInstance fun base s _ h => ?_
    exact .ite (fun _ => .pure h) fun _ => finish_endsIn _ pos
  dsimp only
  infer_instance

instance {body otherwise : Parse Nat} [hbody : Ends q body] [Steps q otherwise] :
    Ends q (guarded otherwise body) where
  ends s hs hq := by
    refine Ensures.holds (Q := fun id s' => s'.EndsIn id) ?_
    refine guarded_cases (fun _ => ?_) fun _ => ?_
    · exact ⟨Or.inl ((giveUp_spoils otherwise).moves s hs hq).2⟩
    · have hdeeper : s.deeper.Steady := ⟨hs.settled, hs.behind, hs.issue, hs.ended⟩
      exact ⟨hbody.ends s.deeper hdeeper hq⟩

instance : Ends q (type nested) := by
  unfold type
  infer_instance

/-! ## Section 2: Generic parameters -/

/-- What skipping generic parameters does: nothing, or it passes over a group. -/
def SkipsGenerics (q : Nat) (s s' : State) : Prop :=
  s.kind = .lessThan ∧
      Passes (fun row passed => Token.group? .lessThan .greaterThan 0 row = some passed) q s s' ∨
    s.kind ≠ .lessThan ∧ s' = s

theorem skipGenerics_skips {s : State} (hs : s.Steady) :
    Ensures skipGenerics s fun _ s' => SkipsGenerics q s s' :=
  skipBalanced_passes hs .lessThan .greaterThan

theorem SkipsGenerics.moves {s s' : State} (h : SkipsGenerics q s s') (hs : s.Steady) :
    Moves q s s' ∧ s'.tree.nextId = s.tree.nextId := by
  rcases h with ⟨-, hpasses⟩ | ⟨-, rfl⟩
  · exact ⟨hpasses.moves, hpasses.nextId_eq⟩
  · exact ⟨.refl hs q, rfl⟩

/-- The opening bracket of generic parameters belongs to the declaration:
    what was read before ends there, and what is read after starts later. -/
theorem owns_generics {s₁ s₂ s₃ : State} {form : Form} {pos : Nat} (hs₁ : s₁.Steady)
    (hpos : pos ≤ s₁.offset) (hskip : SkipsGenerics q s₁ s₂) (hmoved : s₁.offset < s₂.previousStop)
    (hread : Moves s₂.offset s₂ s₃):
    (s₃.made form pos (max s₃.previousStop pos)).tree.owns s₃.tree.nextId s₁.offset = true := by
  obtain ⟨hmoves, hnodes⟩ := hskip.moves hs₁
  have hstop : s₁.offset < s₃.previousStop := Nat.lt_of_lt_of_le hmoved hread.previousStop_le
  have hafter : s₁.offset < s₂.offset := Nat.lt_of_lt_of_le hmoved hmoves.steady.behind
  rw [Tree.owns, Bool.and_eq_true]
  constructor
  · simp only [State.made, Tree.range?_add, if_pos, Option.any_some, Bool.and_eq_true,
      decide_eq_true_eq]
    omega
  · rw [List.all_eq_true]
    intro child hchild
    have hlt : child < s₃.tree.nextId := Tree.lt_of_mem_earlierChildren hchild
    simp only [State.made, Tree.range?_add, if_neg (Nat.ne_of_lt hlt)]
    cases hr : s₃.tree.range? child with
    | none => rfl
    | some r =>
      simp only [Option.all_some, Bool.or_eq_true, decide_eq_true_eq]
      by_cases hold : child < s₁.tree.nextId
      · rw [hread.tree.range_eq (hnodes ▸ hold), hmoves.tree.range_eq hold] at hr
        exact Or.inr (hs₁.ended hr).2
      · have hle := hread.starts (hnodes ▸ Nat.le_of_not_lt hold) hr
        exact Or.inl (Nat.lt_of_lt_of_le hafter hle)

/-- Reading passes over tokens that are no braces, if there are none in the
    generic parameters of a tree. -/
def Clears (t : Tree) (s s' : State) : Prop :=
  s'.Troubled ∨ ∀ {all before row}, s.At all before row → t.Angled all →
    s'.Over ∨ ∃ passed rest, row = passed ++ rest ∧ s'.At all (before ++ passed) rest ∧
      Token.BraceFree passed

/-- With the declaration that they belong to, generic parameters have no braces. -/
theorem SkipsGenerics.clears {s₁ s₂ s₃ : State} {form : Form} {pos : Nat} (hs₁ : s₁.Steady)
    (hpos : pos ≤ s₁.offset) (hskip : SkipsGenerics q s₁ s₂) (hread : Moves s₂.offset s₂ s₃)
    (hform : form.takesGenerics = true) :
    Clears (s₃.made form pos (max s₃.previousStop pos)).tree s₁ s₂ := by
  rcases hskip with ⟨hk, hpasses⟩ | ⟨hk, rfl⟩
  · refine hpasses.passed.imp_right fun hpassed {all before row} hat hangled => ?_
    rcases hpassed hat with hover | ⟨passed, rest, hrow, hat', hgroup⟩
    · exact Or.inl hover
    refine Or.inr ⟨passed, rest, hrow, hat', ?_⟩
    -- The bracket itself has been passed over.
    obtain ⟨inner, hinner⟩ := hat.eq_cons
    have hmem : s₁.scanner.token ∈ before ++ passed := by
      cases passed with
      | nil => exact absurd hgroup Token.group?_ne_nil
      | cons token passed =>
        have hhead : s₁.scanner.token = token := by
          rw [hinner] at hrow
          exact (List.cons.inj hrow).1
        simp [hhead]
    have hmoved : s₁.offset < s₂.previousStop := hat'.read _ hmem
    have howns := @owns_generics q s₁ s₂ s₃ form pos hs₁ hpos (Or.inl ⟨hk, hpasses⟩) hmoved hread
    refine hangled s₃.tree.nextId (by simp [State.made]) row hat.suffix ?_ passed hgroup
    simp only [Tree.opensGenerics, hinner, List.head?_cons, Option.any_some, Bool.and_eq_true]
    refine ⟨?_, ?_, howns⟩
    · simpa [State.made, Tree.form?_add] using hform
    · rw [show s₁.scanner.token.kind = .lessThan from hk]
      rfl
  · refine Or.inr fun {all before row} hat _ => Or.inr ⟨[], row, rfl, ?_, .nil⟩
    rw [List.append_nil]
    exact hat

theorem Clears.tallies {t : Tree} {s s' : State} (h : Clears t s s') (hmoves : Moves q s s')
    (hnodes : s'.tree.nextId = s.tree.nextId) : TalliesIn t q s s' := by
  refine .of_moves hmoves hnodes (h.imp_right fun hclears {all before row} hat hangled => ?_)
  rcases hclears hat hangled with hover | ⟨passed, rest, hrow, hat', hfree⟩
  · exact Or.inl hover
  · exact Or.inr ⟨passed, rest, hrow, hat', .of_braceFree hfree⟩

/-- What passes over no braces, whatever the tree. -/
theorem Passes.clears {t : Tree} {s s' : State}
    (h : Passes (fun _ passed => Token.BraceFree passed) q s s') : Clears t s s' :=
  h.passed.imp_right fun hpassed _ _ _ hat _ => hpassed hat

/-- A declaration with generic parameters that is no type. -/
theorem generics_tidy {α β : Type} {entry : Entry} {pos : Nat} {p : Parse Nat} (first : Parse α)
    (body : α → Parse β) (form : α → β → Form)
    (hp : p = do
      let a ← first
      skipGenerics
      let b ← body a
      finish (form a b) pos)
    (hfirst : Tidy entry pos first) (hbody : ∀ a q, Tidy .any q (body a))
    (hform : ∀ a b, (form a b).takesGenerics = true) (hplain : ∀ a b, (form a b).isBody = false) :
    Tidy entry pos p where
  tallies s hs hpos h := by
    refine Ensures.holds (Q := fun _ s' => Tallies pos s s') ?_
    rw [hp]
    have hread := hfirst.tallies s hs hpos h
    refine .bind (P := fun _ s₁ => Tallies pos s s₁) ⟨hread⟩ fun a s₁ h₁ => ?_
    have hpos₁ := Nat.le_trans hpos h₁.offset_le
    refine (skipGenerics_skips (q := pos) h₁.steady).bind fun _ s₂ h₂ => ?_
    obtain ⟨hskip, hnodes⟩ := h₂.moves h₁.steady
    have hrest := (hbody a s₂.offset).tallies s₂ hskip.steady (Nat.le_refl _) trivial
    refine .bind (P := fun _ s₃ => Tallies s₂.offset s₂ s₃) ⟨hrest⟩ fun b s₃ h₃ => ?_
    have hpos₂ := Nat.le_trans hpos₁ hskip.offset_le
    have hpos₃ := Nat.le_trans hpos₂ h₃.offset_le
    -- All parts are judged with the tree that has the declaration.
    have hmade : Tallies pos s₃ (s₃.made (form a b) pos (max s₃.previousStop pos)) :=
      .made h₃.steady (hplain a b) (Nat.le_refl pos) hpos₃
        (Nat.max_le.mpr ⟨h₃.steady.behind, hpos₃⟩)
    have hclause := (h₂.clears h₁.steady hpos₁ h₃.toMoves (hform a b)).tallies hskip hnodes
    have hbefore := (h₁.extend ((hskip.tree.trans h₃.tree).trans hmade.tree)).trans hclause
    exact ⟨(hbefore.trans ((h₃.extend hmade.tree).mono hpos₂)).trans hmade⟩

theorem bind_of_ite {α β : Type} {c : Prop} [Decidable c] {p p' : Parse α} {next : α → Parse β} :
    (if c then p else p') >>= next = if c then p >>= next else p' >>= next :=
  apply_ite (· >>= next) c p p'

/-! ## Section 3: Functions and their parameters -/

instance : Tidy .any q (parameter nested) := by
  unfold parameter
  infer_instance

instance : Tidy .any q (parameterClause nested) := by
  unfold parameterClause
  infer_instance

instance : Tidy .any q (resultClause nested) := by
  unfold resultClause
  infer_instance

instance : Spots .plain (do return inOperatorName (← kind) && !(← afterBlank)) := by
  refine kindTest_spots fun k hk => ?_
  cases k <;> first | rfl | cases hk

instance : Tidy .any q functionName := by
  unfold functionName
  have hoperator : Tidy .any q (do
      if inOperatorName (← kind) then
        let pos ← position
        advance
        repeatWhile (return inOperatorName (← kind) && !(← afterBlank)) advance
        finish (.identifier .operator) pos
      else
        missing "Identifier") := by
    refine .onKind (inferInstanceAs (Tidy _ q (missing "Identifier")))
      (inferInstanceAs (Tidy _ q (missing "Identifier"))) fun k _ => ?_
    infer_instance
  infer_instance

instance (pos : Nat) : Tidy .plain pos (functionDeclaration nested pos) := by
  refine generics_tidy (do advance; functionName)
    (fun _ => do
      let parameters ← parameterClause nested
      let _ ← skipEffects
      let result ← resultClause nested
      skipWhereClause
      let body ← functionBody nested
      return (parameters, result, body))
    (fun name (parameters, result, body) => .functionDecl .function name parameters result body)
    ?_ inferInstance (fun _ _ => inferInstance) (fun _ _ => rfl) fun _ _ => rfl
  simp only [functionDeclaration, bind_assoc, pure_bind]

instance (pos : Nat) : Tidy .plain pos (initializerDeclaration nested pos) := by
  refine generics_tidy (do let name ← name; skipMark; return name)
    (fun _ => do
      let parameters ← parameterClause nested
      let _ ← skipEffects
      skipWhereClause
      let body ← functionBody nested
      return (parameters, body))
    (fun name (parameters, body) => .functionDecl .initializer name parameters none body)
    ?_ inferInstance (fun _ _ => inferInstance) (fun _ _ => rfl) fun _ _ => rfl
  simp only [initializerDeclaration, skipMark, bind_assoc, pure_bind, bind_of_ite]

instance (pos : Nat) : Tidy .plain pos (deinitializerDeclaration nested pos) := by
  unfold deinitializerDeclaration
  infer_instance

/-! ## Section 4: Accessors and subscripts -/

instance : Tidy .any q skipAccessorModifiers := by
  unfold skipAccessorModifiers
  infer_instance

instance : Tidy .any q accessorParameter := by
  unfold accessorParameter
  infer_instance

instance : Tidy .any q (accessor nested) := by
  unfold accessor
  infer_instance

instance : Leaves q (accessor nested) := by
  unfold accessor
  infer_instance

/-- A list of accessors is a block of its own. -/
instance : Tidy .opening q (accessorBlock nested) where
  tallies s hs hq hk := by
    have hk : s.kind = .openBrace := hk
    refine Ensures.holds (Q := fun _ s' => Tallies q s s') ?_
    unfold accessorBlock
    refine .bind (P := fun _ s₁ => s₁ = s) ⟨Looks.state_eq s hs.settled⟩ fun found s₁ h₁ => ?_
    subst h₁
    refine .ite (fun _ => .peek (.modify _ ?_)) fun _ => ?_
    · have hentry : Tidy .item q _ := @entry_tidy q (accessor nested) _ _
      have hlist : Tidy .any q (gatherWhile (return !(← isAt .closeBrace) && !(← atEnd)) do
          let before ← position
          let accessors ← accessor nested
          if (← position) == before && !(← atEnd) then advance
          return accessors) := inferInstance
      have hopen := Moves.advanced hs q
      have hread := hlist.tallies s₁.advanced hopen.steady (Nat.le_trans hq hopen.offset_le) trivial
      have hbody : Ensures _ s₁.advanced fun _ s₂ => Tallies q s₁.advanced s₂ := ⟨hread⟩
      refine hbody.bind fun accessors s₂ h₂ => ?_
      exact (expect_encloses hs hk h₂ _).bind fun _ s₃ h₃ => ⟨h₃.made hs hq hk fun _ _ => rfl⟩
    · have hblock : Tidy .any q (block nested) := inferInstance
      exact ⟨hblock.tallies s₁ hs hq trivial⟩

instance (pos : Nat) : Tidy .plain pos (subscriptDeclaration nested pos) := by
  refine generics_tidy name
    (fun _ => do
      let parameters ← parameterClause nested
      let result ← resultClause nested
      skipWhereClause
      let body ← if ← isAt .openBrace then some <$> accessorBlock nested else pure none
      return (parameters, result, body))
    (fun name (parameters, result, body) => .functionDecl .subscript name parameters result body)
    ?_ inferInstance (fun _ _ => inferInstance) (fun _ _ => rfl) fun _ _ => rfl
  simp only [subscriptDeclaration, bind_assoc, pure_bind, bind_of_ite]

instance (pos : Nat) : Tidy .plain pos (typeAliasDeclaration nested pos) := by
  refine generics_tidy (do advance; nameOr "Identifier")
    (fun _ => do
      let type ← if ← expect .equals "'='" then some <$> nested .type else pure none
      return type)
    (fun name type => .typeAlias name type)
    ?_ inferInstance (fun _ _ => inferInstance) (fun _ _ => rfl) fun _ _ => rfl
  simp only [typeAliasDeclaration, bind_assoc, pure_bind, bind_of_ite]

/-! ## Section 5: Types -/

/-- The head of a type has been read: every opening brace before the current
    token comes before the end of one of its parts. -/
def State.Heads (parts : List Nat) (all : List Token) (s : State) : Prop :=
  s.Over ∨ ∃ before row, s.At all before row ∧ (∀ part ∈ parts, ∃ r, s.tree.range? part = some r) ∧
    ∀ token ∈ before, token.kind = .openBrace →
      ∃ part ∈ parts, ∃ r, s.tree.range? part = some r ∧ token.pos < r.2

section heads

variable {parts : List Nat} {all before row : List Token} {s s' : State}

/-- Where a part has just been read, everything comes before its end. -/
theorem State.heads_of_endsWith {part : Nat} (hat : s.At all before row) (hpart : part ∈ parts)
    (hends : s.EndsWith part) (hparts : ∀ part ∈ parts, ∃ r, s.tree.range? part = some r) :
    s.Heads parts all := by
  obtain ⟨r, hr, hle⟩ := hends
  refine Or.inr ⟨before, row, hat, hparts, fun token htoken _ => ⟨part, hpart, r, hr, ?_⟩⟩
  exact Nat.lt_of_lt_of_le (hat.read token htoken) hle

theorem State.Heads.clears {t : Tree} (h : s.Heads parts all) (hmoves : Moves q s s')
    (hclears : Clears t s s') (hangled : t.Angled all) : s'.Troubled ∨ s'.Heads parts all := by
  rcases hclears with htrouble | hclears
  · exact Or.inl htrouble
  rcases h with hover | ⟨before, row, hat, hparts, hcover⟩
  · exact Or.inr (Or.inl (hmoves.stillOver hover))
  rcases hclears hat hangled with hover | ⟨passed, rest, -, hat', hfree⟩
  · exact Or.inr (Or.inl hover)
  refine Or.inr (Or.inr ⟨before ++ passed, rest, hat', ?_, ?_⟩)
  · intro part hpart
    obtain ⟨r, hr⟩ := hparts part hpart
    exact ⟨r, hmoves.tree.range?_eq hr⟩
  · intro token htoken hbrace
    rcases List.mem_append.mp htoken with hold | hnew
    · obtain ⟨part, hpart, r, hr, hlt⟩ := hcover token hold hbrace
      exact ⟨part, hpart, r, hmoves.tree.range?_eq hr, hlt⟩
    · have hplain := hfree token hnew
      rw [hbrace] at hplain
      cases hplain

end heads

/-- The nodes are there, and reading has got to the end of one of them. -/
def State.EndsAmong (s : State) (nodes : List Nat) : Prop :=
  (∀ node ∈ nodes, ∃ r, s.tree.range? node = some r) ∧ ∃ node ∈ nodes, s.EndsWith node

theorem State.EndsAmong.append {s s' : State} {nodes : List Nat} {node : Nat}
    (htree : Tree.Extends s.tree s'.tree)
    (hnodes : ∀ node ∈ nodes, ∃ r, s.tree.range? node = some r) (hend : s'.EndsWith node) :
    s'.EndsAmong (nodes ++ [node]) := by
  refine ⟨fun other hother => ?_, node, by simp, hend⟩
  rcases List.mem_append.mp hother with hold | hnew
  · obtain ⟨r, hr⟩ := hnodes other hold
    exact ⟨r, htree.range?_eq hr⟩
  · obtain ⟨r, hr, -⟩ := hend
    exact ⟨r, List.mem_singleton.mp hnew ▸ hr⟩

/-- The types after a colon, if there is one. -/
theorem inheritanceClause_tallies {s : State} (hs : s.Steady) :
    Ensures (inheritanceClause nested) s fun inherits s' => Tallies s.offset s s' ∧
      (s'.Troubled ∨ s'.EndsAmong inherits ∨ inherits = [] ∧ s' = s) := by
  have htype : Tidy .any s.offset (nested .type) := inferInstance
  have hends : Ends s.offset (nested .type) := inferInstance
  unfold inheritanceClause
  refine (accept_reads hs.settled .colon).bind fun found s₁ h₁ => .ite (fun hfound => ?_) fun hno => ?_
  · obtain ⟨hk, rfl⟩ := h₁.2.1 hfound
    have hcolon : Tallies s.offset s s.advanced := .advanced hs _ (by rw [hk])
    unfold separated
    refine .mono (P := fun inherits s' => Tallies s.offset s s' ∧
      (s'.Troubled ∨ s'.EndsAmong inherits)) ?_ fun inherits s' h => ⟨h.1, h.2.imp_right Or.inl⟩
    refine loop_rounds (I := fun inherits s₁ => Tallies s.offset s s₁ ∧
      (s₁.Troubled ∨ ∀ node ∈ inherits, ∃ r, s₁.tree.range? node = some r))
      ⟨hcolon, Or.inr nofun⟩ ?_ ?_
    · intro inherits s₁ h₁
      obtain ⟨hbefore, hnodes⟩ := h₁
      have hone : Ensures (do return [← nested .type]) s₁ fun more s₂ => ∃ node, more = [node] ∧
          Tallies s.offset s₁ s₂ ∧ (s₂.Troubled ∨ s₂.EndsWith node) := by
        refine .bind (P := fun node s₂ => Tallies s.offset s₁ s₂ ∧
          (s₂.Troubled ∨ s₂.EndsWith node)) ⟨?_, ?_⟩ fun node s₂ h₂ => .pure ⟨node, rfl, h₂⟩
        · exact htype.tallies s₁ hbefore.steady hbefore.offset_le trivial
        · exact hends.ends s₁ hbefore.steady hbefore.offset_le
      refine hone.bind fun more s₂ h₂ => ?_
      obtain ⟨node, rfl, hread, hend⟩ := h₂
      have hall := hbefore.trans hread
      have hfound : s₂.Troubled ∨ s₂.EndsAmong (inherits ++ [node]) := by
        rcases hnodes with htrouble | hnodes
        · exact Or.inl (hread.troubled htrouble)
        · exact hend.imp_right (State.EndsAmong.append hread.tree hnodes)
      refine (accept_reads hread.steady.settled .comma).bind fun comma s₃ h₃ =>
        .ite (fun hcomma => .pure ?_) fun hno => .pure ?_
      · obtain ⟨hk, rfl⟩ := h₃.2.1 hcomma
        have hnext : Tallies s.offset s₂ s₂.advanced := .advanced hread.steady _ (by rw [hk])
        exact ⟨hall.trans hnext, hfound.imp hnext.troubled (·.1)⟩
      · obtain rfl := h₃.2.2 (eq_false_of_ne_true hno)
        exact ⟨hall, hfound⟩
    · intro inherits s₁ h₁
      have hcut := Moves.exhausted h₁.1.steady s.offset
      exact ⟨.of_troubled (h₁.1.toMoves.trans hcut) (Or.inr rfl), Or.inl (Or.inr rfl)⟩
  · obtain rfl := h₁.2.2 (eq_false_of_ne_true hno)
    exact .pure ⟨.refl hs _, Or.inr (Or.inr ⟨rfl, rfl⟩)⟩

theorem memberBlock_encloses {s : State} (hs : s.Steady) (hq : q ≤ s.offset) :
    Ensures (memberBlock nested) s fun _ s' =>
      s.kind = .openBrace ∧ Encloses q s s' ∨ Moves q s s' ∧ s'.Troubled := by
  unfold memberBlock
  refine .peek (.ite (fun hat => ?_) fun _ => ⟨Or.inr ?_⟩)
  · have hk := kind_eq_of_isAt hat
    exact (statementsInBraces_encloses hs hq hk _).mono fun _ _ h => Or.inl ⟨hk, h⟩
  · exact Moves.reported hs q _

/-- The head of a type, part by part. -/
theorem typeHead_heads {t : Tree} {pos name : Nat} {inherits : List Nat}
    {s s₁ s₂ s₃ s₄ : State} {all before row : List Token} (h₁ : TalliesIn t pos s s₁)
    (hname : s₁.EndsIn name) (h₂ : Moves pos s₁ s₂) (hgenerics : Clears t s₁ s₂)
    (h₃ : TalliesIn t pos s₂ s₃)
    (hinherits : s₃.Troubled ∨ s₃.EndsAmong inherits ∨ inherits = [] ∧ s₃ = s₂)
    (h₄ : Moves pos s₃ s₄) (hwhere : Clears t s₃ s₄) (hat : s.Over ∨ s.At all before row)
    (hangled : t.Angled all) : s₄.Troubled ∨ s₄.Heads (name :: inherits) all := by
  -- After the name and the generic parameters.
  have hafter₂ : s₂.Troubled ∨ s₂.Heads [name] all := by
    rcases hname with htrouble | hname
    · exact Or.inl (h₂.troubled htrouble)
    rcases h₁.counted with htrouble | hcounted
    · exact Or.inl (h₂.troubled htrouble)
    have hover (hover : s₁.Over) : s₂.Troubled ∨ s₂.Heads [name] all :=
      Or.inr (Or.inl (h₂.stillOver hover))
    rcases hat with hs | hat
    · exact hover (h₁.stillOver hs)
    rcases hcounted hat hangled with hs₁ | ⟨passed, rest, -, hat₁, -⟩
    · exact hover hs₁
    have hnamed : s₁.Heads [name] all := by
      refine State.heads_of_endsWith hat₁ (List.mem_singleton_self name) hname ?_
      intro part hpart
      obtain ⟨r, hr, -⟩ := hname
      exact ⟨r, List.mem_singleton.mp hpart ▸ hr⟩
    exact hnamed.clears h₂ hgenerics hangled
  -- After the types it inherits from.
  have hafter₃ : s₃.Troubled ∨ s₃.Heads (name :: inherits) all := by
    rcases hafter₂ with htrouble | hheads
    · exact Or.inl (h₃.troubled htrouble)
    rcases hinherits with htrouble | ⟨hnodes, part, hpart, hends⟩ | ⟨rfl, rfl⟩
    · exact Or.inl htrouble
    · rcases h₃.counted with htrouble | hcounted
      · exact Or.inl htrouble
      rcases hheads with hover | ⟨before, row, hat, hparts, -⟩
      · exact Or.inr (Or.inl (h₃.stillOver hover))
      rcases hcounted hat hangled with hover | ⟨passed, rest, -, hat₃, -⟩
      · exact Or.inr (Or.inl hover)
      refine Or.inr (State.heads_of_endsWith hat₃ (List.mem_cons_of_mem _ hpart) hends ?_)
      intro other hother
      rcases List.mem_cons.mp hother with rfl | hother
      · obtain ⟨r, hr⟩ := hparts other (List.mem_singleton_self other)
        exact ⟨r, h₃.tree.range?_eq hr⟩
      · exact hnodes other hother
    · exact Or.inr hheads
  rcases hafter₃ with htrouble | hheads
  · exact Or.inl (h₄.troubled htrouble)
  · exact hheads.clears h₄ hwhere hangled

/-- After its head, a type is made of what has been read and of its members. -/
theorem Encloses.madeType {form : Form} {pos name : Nat} {sort : TypeSort}
    {inherits members : List Nat} {s s₄ s₅ : State}
    (hform : form = .typeDecl sort name inherits members) (hpos : pos ≤ s.offset)
    (hread : TalliesIn (s₅.made form pos (max s₅.previousStop pos)).tree pos s s₄)
    (hk : s₄.kind = .openBrace) (henclose : Encloses pos s₄ s₅)
    (hheads : ∀ {all before row}, s.Over ∨ s.At all before row →
      (s₅.made form pos (max s₅.previousStop pos)).tree.Angled all →
      s₄.Troubled ∨ s₄.Heads (name :: inherits) all) :
    Tallies pos s (s₅.made form pos (max s₅.previousStop pos)) := by
  have htree := Tree.Extends.add s₅.tree form pos (max s₅.previousStop pos)
  have hall := hread.trans (henclose.toTalliesIn.extend htree)
  have hpos₄ := Nat.le_trans hpos hread.offset_le
  have hpos₅ := Nat.le_trans hpos hall.offset_le
  refine hall.madeOf (Nat.le_refl pos) hpos₅ (Nat.max_le.mpr ⟨hall.steady.behind, hpos₅⟩) ?_
  by_cases htrouble : s₅.Troubled
  · exact Or.inl htrouble
  rcases henclose.partner with htrouble | hpartner
  · exact Or.inl htrouble
  refine Or.inr fun {all before row} hat hangled => ?_
  have hhead := (hheads hat hangled).resolve_left fun h => htrouble (henclose.troubled h)
  -- The head ended at the opening brace, so the text is not over yet.
  rcases hhead with hover | ⟨before, row, hat₄, hparts, hcover⟩
  · have hend := hread.steady.kind_of_over hover
    rw [hk] at hend
    cases hend
  intro form' r hform' _ hr _
  simp only [State.made, Tree.form?_add, Tree.range?_add, if_pos] at hform' hr
  cases hform'
  cases hr
  obtain ⟨rest, close, rfl, hclose, hclosed⟩ := hpartner hat₄ (htree.angled hangled)
  have hold := Tree.Extends.trans henclose.tree htree
  -- These two braces are those of the body: the parts end before the first one.
  refine ⟨before, s₄.scanner.token, rest, close, hat₄.split, hk, ?_, hclose, ?_⟩
  · subst hform
    constructor
    · intro part hpart
      obtain ⟨r, hr⟩ := hparts part hpart
      exact ⟨r, hold.range?_eq hr, (hread.steady.ended hr).2⟩
    · intro token htoken hbrace
      obtain ⟨part, hpart, r, hr, hlt⟩ := hcover token htoken hbrace
      exact ⟨part, hpart, r, hold.range?_eq hr, hlt⟩
  · have hle := henclose.offset_le_stop
    rw [hclosed]
    omega

instance (sort : TypeSort) (pos : Nat) : Tidy .plain pos (typeDeclaration nested sort pos) where
  tallies s hs hpos hk := by
    refine Ensures.holds (Q := fun _ s' => Tallies pos s s') ?_
    have hkeyword : Tallies pos s s.advanced := .advanced hs pos hk
    have hnamed (p : Parse Nat) (htidy : Tidy .any pos p) (hends : Ends pos p) :
        Ensures p s.advanced fun name s₁ => Tallies pos s s₁ ∧ s₁.EndsIn name := by
      have hpos' := Nat.le_trans hpos hkeyword.offset_le
      exact ⟨hkeyword.trans (htidy.tallies _ hkeyword.steady hpos' trivial),
        hends.ends _ hkeyword.steady hpos'⟩
    unfold typeDeclaration
    refine .modify _ (.branch (P := fun name s₁ => Tallies pos s s₁ ∧ s₁.EndsIn name)
      (fun _ => hnamed _ inferInstance inferInstance)
      (fun _ => hnamed _ inferInstance inferInstance) fun name s₁ h₁ => ?_)
    obtain ⟨h₁, hname⟩ := h₁
    refine (skipGenerics_skips (q := pos) h₁.steady).bind fun _ s₂ h₂ => ?_
    obtain ⟨hskip, hnodes⟩ := h₂.moves h₁.steady
    refine (inheritanceClause_tallies hskip.steady).bind fun inherits s₃ h₃ => ?_
    obtain ⟨h₃, hinherits⟩ := h₃
    refine (skipWhereClause_passes (q := s₂.offset) h₃.steady).bind fun _ s₄ h₄ => ?_
    have hq₄ : s₂.offset ≤ s₄.offset := Nat.le_trans h₃.offset_le h₄.moves.offset_le
    refine (memberBlock_encloses h₄.moves.steady hq₄).bind fun members s₅ h₅ => ?_
    -- The node of the type is the last one; its parts are judged with it.
    have hpos₁ := Nat.le_trans hpos h₁.offset_le
    have hpos₂ := Nat.le_trans hpos₁ hskip.offset_le
    have hbody₅ : Moves s₂.offset s₄ s₅ := h₅.elim (·.2.toMoves) (·.1)
    have hrest : Moves s₂.offset s₂ s₅ := (h₃.toMoves.trans h₄.moves).trans hbody₅
    have hpos₅ := Nat.le_trans hpos₂ hrest.offset_le
    have hmade : Moves pos s₅ (s₅.made (.typeDecl sort name inherits members) pos
        (max s₅.previousStop pos)) :=
      .made hrest.steady (Nat.le_refl pos) hpos₅ (Nat.max_le.mpr ⟨hrest.steady.behind, hpos₅⟩)
    rcases h₅ with ⟨hbrace, henclose⟩ | ⟨-, htrouble⟩
    · have hgenerics : Clears (s₅.made (.typeDecl sort name inherits members) pos
          (max s₅.previousStop pos)).tree s₁ s₂ := h₂.clears h₁.steady hpos₁ hrest rfl
      have hwhere : Clears (s₅.made (.typeDecl sort name inherits members) pos
          (max s₅.previousStop pos)).tree s₃ s₄ := h₄.clears
      have htree₃ := (h₄.moves.tree.trans hbody₅.tree).trans hmade.tree
      have hall₁ := h₁.extend (hskip.tree.trans (h₃.tree.trans htree₃))
      have hall₃ := (h₃.extend htree₃).mono hpos₂
      have hmoves₄ := h₄.moves.mono hpos₂
      have hread := ((hall₁.trans (hgenerics.tallies hskip hnodes)).trans hall₃).trans
        (hwhere.tallies hmoves₄ h₄.nextId_eq)
      exact ⟨(henclose.mono hpos₂).madeType rfl hpos hread hbrace fun hat hangled =>
        typeHead_heads hall₁ hname hskip hgenerics hall₃ hinherits hmoves₄ hwhere hat hangled⟩
    · have hread := (h₁.toMoves.trans hskip).trans (hrest.mono hpos₂)
      exact ⟨.then_moves hread htrouble hmade⟩

/-! ## Section 6: Variables, enum cases and what is skipped -/

instance : Tidy .any q (patternBinding nested) := by
  -- Accessors are only read where a brace has been seen.
  unfold patternBinding
  simp only [pure_bind, Bool.false_eq_true, if_false, if_true]
  infer_instance

instance (pos : Nat) : Tidy .plain pos (variableDeclaration nested pos) := by
  unfold variableDeclaration
  infer_instance

instance : Tidy .any q (enumCaseElement nested) := by
  unfold enumCaseElement
  infer_instance

instance (pos : Nat) : Tidy .plain pos (enumCaseDeclaration nested pos) := by
  unfold enumCaseDeclaration
  infer_instance

instance : Tidy .plain q skipPrecedenceGroup := by
  have hbraces : Tidy .any q (skipBalanced .openBrace .closeBrace) := skipBraces_tidy
  unfold skipPrecedenceGroup
  dsimp only
  infer_instance

theorem skippedLine_tidy {k : Kind} (hk : ∀ {bytes : ByteArray} {token rest},
    token.kind = k → Token.startsSkippedLine bytes (token :: rest) = true) :
    Tidy (.exactly k) q skipLine where
  tallies s hs _ h := by
    refine skipLine_tallies hs fun hat => ?_
    obtain ⟨rest, rfl⟩ := hat.eq_cons
    exact hk h

instance : Tidy (.exactly .importKeyword) q skipLine :=
  skippedLine_tidy fun h => by rw [Token.startsSkippedLine, h]
instance : Tidy (.exactly .associatedtypeKeyword) q skipLine :=
  skippedLine_tidy fun h => by rw [Token.startsSkippedLine, h]
instance : Tidy (.exactly .operatorKeyword) q skipLine :=
  skippedLine_tidy fun h => by rw [Token.startsSkippedLine, h]

instance : Spots .plain (isWord "actor") where
  state_eq s _ := Peeks.state_eq s
  admits s _ h := by
    show s.kind.isBrace = false
    rw [kind_eq_of_isWord h]

instance : Tidy .any q (declaration nested) := by
  unfold declaration
  refine .fromHere fun pos => .seq inferInstance fun _ => ?_
  have hother : Tidy .any pos (do
      if ← isWord "actor" then
        some <$> typeDeclaration nested .actor pos
      else
        reportExpected "Declaration"
        return none) := inferInstance
  refine .onExactly .of_any hother fun k hk => ?_
  split
  all_goals first | infer_instance | exact .of_plain hk inferInstance

end SelfCapture.Grammar
