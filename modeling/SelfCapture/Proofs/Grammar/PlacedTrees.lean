import SelfCapture.Proofs.Grammar.PlacedControl

/-! # Placed nodes of whole texts

  The rules for declarations and statements place their nodes, and with
  them every text, `parse_placed` and `parse_lawful`.

  Declarations are only read where trailing closures are allowed.  Past its
  keyword a type declaration is read from a later place in the text, so its
  parts come after its first token.
-/

set_option synthInstance.maxSize 1000

namespace SelfCapture

namespace Grammar

open Token (Kind)

variable {place : Place} {given : Prop} {nested : Readers} [nested.Placing]

/-! ## Section 1: Functions -/

instance : Quiet skipAccessorModifiers := by
  unfold skipAccessorModifiers
  infer_instance

instance : Quiet opensAccessors := .of_looks

instance : Quiet skipWhereClause := by
  unfold skipWhereClause
  refine .seq inferInstance fun found => ?_
  split
  · refine .loop fun _ => .seq inferInstance fun k => ?_
    split
    all_goals infer_instance
  · infer_instance

theorem parameter_places : Places place given (place.Holds none) (parameter nested) := by
  unfold parameter
  dsimp only
  refine .here fun pos hpos => .after fun _ => .bind (nameOr_holds _) fun first => ?_
  refine .bind name?_holds fun second => ?_
  have hdone (type : Option Nat) : Places place
      (((given ∧ place.Holds none first) ∧ ∀ id ∈ second, place.Holds none id) ∧
        ∀ id ∈ type, place.Holds none id) (place.Holds none) (do
        skipVariadicMark
        let default ← initialValue nested
        finish (.parameter first second type default) pos) := by
    refine .after fun _ => .bind initialValue_places fun default => ?_
    refine .finish hpos rfl rfl fun h child hchild => ?_
    have hpart : child = first ∨ child ∈ second ∨ child ∈ type ∨ child ∈ default := by
      simpa using hchild
    rcases hpart with rfl | hsecond | htype | hdefault
    · exact h.1.1.1.2
    · exact h.1.1.2 child hsecond
    · exact h.1.2 child htype
    · exact h.2 child hdefault
  refine .after fun found => .ite (fun _ => ?_) fun _ => .bind .absent hdone
  exact .bind (.some nestedType_places) hdone

theorem parameterClause_places (hfree : place.bare = false) :
    Places place given (fun ids => ∀ id ∈ ids, place.Holds none id) (parameterClause nested) := by
  unfold parameterClause
  refine .after fun found => .ite (fun _ => ?_) fun _ => .pure fun _ => nofun
  refine .bind (.unrestricted (.separatedUntil (.single parameter_places))) fun parameters => ?_
  exact .after fun _ => .pure fun h => Place.free_eq hfree ▸ h.2

theorem resultClause_places :
    Places place given (fun r => ∀ id ∈ r, place.Holds none id) (resultClause nested) := by
  unfold resultClause
  exact .after fun found => .ite (fun _ => .some nestedType_places) fun _ => .absent

theorem accessorParameter_places :
    Places place given (fun ids => ∀ id ∈ ids, place.Holds none id) accessorParameter := by
  unfold accessorParameter
  dsimp only
  have hdone (parameters : List Nat) : Places place
      (given ∧ ∀ id ∈ parameters, place.Holds none id) (fun ids => ∀ id ∈ ids, place.Holds none id) (do
        let _ ← expect .closeParen "')'"
        return parameters) := .after fun _ => .pure fun h => h.2
  refine .after fun found => .ite (fun _ => .here fun pos hpos => .after fun _ => ?_) fun _ =>
    .pure fun _ => nofun
  refine .after fun named => .ite (fun _ => ?_) fun _ => .bind (.pure fun _ => nofun) hdone
  refine .bind name_holds fun first => ?_
  have hparameter : Places place (given ∧ place.Holds none first) (place.Holds none)
      (finish (.parameter first none none none) pos) :=
    .finish hpos rfl rfl fun h => by simpa using h.2
  refine .bind hparameter fun id => ?_
  have hone : Places place ((given ∧ place.Holds none first) ∧ place.Holds none id)
      (fun ids => ∀ id ∈ ids, place.Holds none id) (pure [id]) :=
    .pure fun h => List.forall_mem_singleton.mpr h.2
  exact .bind hone fun parameters => (hdone parameters).weaken fun h => ⟨h.1.1.1, h.2⟩

section declarations

variable {pos : Nat}

/-- A function, which is only declared where trailing closures are allowed. -/
theorem finish_function {sort : FunctionSort} {name : Nat} {parameters : List Nat}
    {result body : Option Nat} (hfree : place.bare = false) (hpos : place.low ≤ pos)
    (hname : given → place.Holds none name)
    (hparameters : given → ∀ id ∈ parameters, place.Holds none id)
    (hresult : given → ∀ id ∈ result, place.Holds none id)
    (hbody : given → ∀ id ∈ body, place.Anywhere none id) :
    Places place given (place.Holds none)
      (finish (.functionDecl sort name parameters result body) pos) := by
  refine .finish_ruled hpos rfl (fun _ => hfree) nofun nofun (fun h => ⟨fun child hchild => ?_, nofun⟩)
    fun _ _ => trivial
  have hpart : child = name ∨ child ∈ parameters ∨ child ∈ result ∨ child ∈ body := by
    simpa using hchild
  rcases hpart with rfl | hparameter | hresult' | hbody'
  · exact hname h
  · exact hparameters h child hparameter
  · exact hresult h child hresult'
  · exact (hbody h child hbody').here

theorem accessor_places (hfree : place.bare = false) :
    Places place given (fun ids => ∀ id ∈ ids, place.Holds none id) (accessor nested) := by
  unfold accessor
  refine .here fun pos hpos => .after fun _ => .after fun named => .ite (fun _ => ?_) fun _ =>
    .after fun _ => .pure fun _ => nofun
  refine .bind name_holds fun name => ?_
  refine .bind accessorParameter_places fun parameters => .after fun _ => ?_
  refine .bind functionBody_places fun body => .single ?_
  exact finish_function hfree hpos (fun h => h.1.1.2) (fun h => h.1.2) (fun _ => nofun) fun h => h.2

theorem accessorBlock_places (hfree : place.bare = false) :
    Places place given (place.Anywhere none) (accessorBlock nested) := by
  unfold accessorBlock
  dsimp only
  refine .after fun found => .ite (fun _ => ?_) fun _ => block_places
  refine .here fun pos hpos => .after fun _ => ?_
  refine .bind (.gatherWhile (P := place.Holds none) (.after fun before => ?_)) fun accessors => ?_
  · refine .bind (accessor_places hfree) fun ids => .after fun after => .after fun ended => ?_
    exact .ite (fun _ => .after fun _ => .pure fun h => h.2) fun _ => .pure fun h => h.2
  · refine .after fun _ => .finish_shield hpos rfl rfl rfl fun h => ?_
    rw [Place.free_eq hfree]
    simpa using h.2

theorem functionName_places : Places place given (place.Holds none) functionName := by
  unfold functionName
  refine .after fun named => .ite (fun _ => name_holds) fun _ => ?_
  refine .after fun k => .ite (fun _ => ?_) fun _ => missing_holds _
  exact .here fun pos hpos => .after fun _ => .after fun _ => .finish hpos rfl rfl fun _ => nofun

theorem functionDeclaration_places (hfree : place.bare = false) (hpos : place.low ≤ pos) :
    Places place given (place.Holds none) (functionDeclaration nested pos) := by
  unfold functionDeclaration
  refine .after fun _ => .bind functionName_places fun name => .after fun _ => ?_
  refine .bind (parameterClause_places hfree) fun parameters => .after fun _ => ?_
  refine .bind resultClause_places fun result => .after fun _ => ?_
  refine .bind functionBody_places fun body => ?_
  exact finish_function hfree hpos (fun h => h.1.1.1.2) (fun h => h.1.1.2) (fun h => h.1.2) fun h => h.2

theorem initializerDeclaration_places (hfree : place.bare = false) (hpos : place.low ≤ pos) :
    Places place given (place.Holds none) (initializerDeclaration nested pos) := by
  unfold initializerDeclaration
  dsimp only
  refine .bind name_holds fun name => ?_
  have hrest : Places place (given ∧ place.Holds none name) (place.Holds none) (do
      skipGenerics
      let parameters ← parameterClause nested
      let _ ← skipEffects
      skipWhereClause
      let body ← functionBody nested
      finish (.functionDecl .initializer name parameters none body) pos) := by
    refine .after fun _ => .bind (parameterClause_places hfree) fun parameters => .after fun _ => ?_
    refine .after fun _ => .bind functionBody_places fun body => ?_
    exact finish_function hfree hpos (fun h => h.1.1.2) (fun h => h.1.2) (fun _ => nofun) fun h => h.2
  refine .after fun question => .after fun exclamation => .after fun blank => ?_
  exact .ite (fun _ => .after fun _ => hrest) fun _ => hrest

theorem deinitializerDeclaration_places (hfree : place.bare = false) (hpos : place.low ≤ pos) :
    Places place given (place.Holds none) (deinitializerDeclaration nested pos) := by
  unfold deinitializerDeclaration
  refine .bind name_holds fun name => .bind functionBody_places fun body => ?_
  exact finish_function hfree hpos (fun h => h.1.2) (fun _ => nofun) (fun _ => nofun) fun h => h.2

theorem subscriptDeclaration_places (hfree : place.bare = false) (hpos : place.low ≤ pos) :
    Places place given (place.Holds none) (subscriptDeclaration nested pos) := by
  unfold subscriptDeclaration
  dsimp only
  refine .bind name_holds fun name => .after fun _ => ?_
  refine .bind (parameterClause_places hfree) fun parameters => ?_
  refine .bind resultClause_places fun result => ?_
  have hdone (body : Option Nat) : Places place ((((given ∧ place.Holds none name) ∧
      ∀ id ∈ parameters, place.Holds none id) ∧ ∀ id ∈ result, place.Holds none id) ∧
      ∀ id ∈ body, place.Anywhere none id) (place.Holds none)
      (finish (.functionDecl .subscript name parameters result body) pos) :=
    finish_function hfree hpos (fun h => h.1.1.1.2) (fun h => h.1.1.2) (fun h => h.1.2) fun h => h.2
  refine .after fun _ => .after fun found => .ite (fun _ => ?_) fun _ => .bind .absent hdone
  exact .bind (.some (accessorBlock_places hfree)) hdone

/-! ## Section 2: Types -/

theorem inheritanceClause_places :
    Places place given (fun ids => ∀ id ∈ ids, place.Holds none id) (inheritanceClause nested) := by
  unfold inheritanceClause
  refine .after fun found => .ite (fun _ => ?_) fun _ => .pure fun _ => nofun
  exact .separated (.single nestedType_places)

theorem memberBlock_places (hfree : place.bare = false) :
    Places place given (fun ids => ∀ id ∈ ids, place.Holds none id) (memberBlock nested) := by
  unfold memberBlock
  refine .after fun found => .ite (fun _ => ?_) fun _ => .after fun _ => .pure fun _ => nofun
  have hmembers : Places place given (fun ids => ∀ id ∈ ids, place.free.Holds none id)
      (statementsInBraces nested fun _ => { noTrailingClosure := false, inTypeBody := true }) :=
    statementsInBraces_places fun _ => rfl
  rwa [Place.free_eq hfree] at hmembers

/-- A later place in the text. -/
@[reducible] def Place.past (place : Place) (low : Nat) : Place := { place with low }

/-- A node placed later is placed here too. -/
theorem Place.Holds.back {low : Nat} {tier? : Option Tier} {id : Nat} (hlow : place.low ≤ low)
    (h : (place.past low).Holds tier? id) : place.Holds tier? id :=
  ⟨h.placed, fun hr => Nat.le_trans hlow (h.low_le hr)⟩

/-- What is read from a later place on is read from here on. -/
theorem Lays.back {low : Nat} {s s' : State} (hlow : place.low ≤ low)
    (h : Lays (place.past low) given s s') : Lays place given s s' where
  toLater := h.toLater
  sits := ⟨h.sits.settled, Nat.le_trans hlow h.sits.low_le, h.sits.depth_eq, h.sits.bare_eq,
    h.sits.streams, h.sits.accounted⟩
  lawful := h.lawful

/-- The end of a type declaration, whose parts come after its first token. -/
theorem finish_type {sort : TypeSort} {name : Nat} {inherits members : List Nat}
    (hfree : place.bare = false) (hpos : place.low ≤ pos)
    (hname : given → (place.past (pos + 1)).Holds none name)
    (hinherits : given → ∀ id ∈ inherits, (place.past (pos + 1)).Holds none id)
    (hmembers : given → ∀ id ∈ members, (place.past (pos + 1)).Holds none id) :
    Places (place.past (pos + 1)) given (place.Holds none)
      (finish (.typeDecl sort name inherits members) pos) := by
  have hparts (hg : given) : ∀ child ∈ name :: (inherits ++ members),
      (place.past (pos + 1)).Holds none child :=
    List.forall_mem_cons.mpr ⟨hname hg, List.forall_mem_append.mpr ⟨hinherits hg, hmembers hg⟩⟩
  have hmissing : Form.typeDecl sort name inherits members ≠ .missing := nofun
  intro s hs
  refine Places.finish_at hs hmissing (fun _ hg child hchild r' hr' => ?_)
    fun hg id stop hform hrange => ?_
  · exact (hparts hg child hchild).low_le hr'
  · have hall : place.Parts none (.typeDecl sort name inherits members) := by
      refine ⟨fun child hchild => ?_, nofun⟩
      have hpart : child ∈ name :: (inherits ++ members) := by simpa using hchild
      exact (hparts hg child hpart).back (Nat.le_succ_of_le hpos)
    have htier (tier : Tier) : (Form.typeDecl sort name inherits members).tier? = some tier →
        none = some tier := nofun
    exact Places.holds_of_parts hpos rfl (fun _ => hfree) htier hall hform hrange

theorem typeDeclaration_places {sort : TypeSort} {s : State} (hfree : place.bare = false)
    (hs : s.Sits place) (hk : s.kind ≠ .endOfFile) (hpos : place.low ≤ pos) (hle : pos ≤ s.offset) :
    PlacesFrom place given (place.Holds none) (typeDeclaration nested sort pos) s := by
  have hmoved : Lays place given s s.advanced := .of_quiets (.advanced hs.settled) hs
  -- The parts come after the keyword, so they start past its first byte.
  have hpast : s.advanced.Sits (place.past (pos + 1)) :=
    ⟨hmoved.sits.settled, Nat.lt_of_le_of_lt hle (hs.settled.offset_lt hk), hmoved.sits.depth_eq,
      hmoved.sits.bare_eq, hmoved.sits.streams, hmoved.sits.accounted⟩
  have hrest (name : Nat) : Places (place.past (pos + 1))
      (given ∧ (place.past (pos + 1)).Holds none name) (place.Holds none) (do
        skipGenerics
        let inherits ← inheritanceClause nested
        skipWhereClause
        let members ← memberBlock nested
        finish (.typeDecl sort name inherits members) pos) := by
    refine .after fun _ => .bind inheritanceClause_places fun inherits => .after fun _ => ?_
    refine .bind (memberBlock_places hfree) fun members => ?_
    exact finish_type hfree hpos (fun h => h.1.1.2) (fun h => h.1.2) fun h => h.2
  have hbody : Places (place.past (pos + 1)) given (place.Holds none) (do
      let name ← if sort == .extension then nested .type else nameOr "Identifier"
      skipGenerics
      let inherits ← inheritanceClause nested
      skipWhereClause
      let members ← memberBlock nested
      finish (.typeDecl sort name inherits members) pos) := by
    dsimp only
    exact .ite (fun _ => .bind nestedType_places hrest) fun _ => .bind (nameOr_holds _) hrest
  unfold typeDeclaration
  refine .modify _ ((show Ensures _ _ _ from hbody _ hpast).mono fun id s₁ h₁ => ⟨?_, h₁.2⟩)
  exact hmoved.trans (h₁.1.back (Nat.le_succ_of_le hpos))

theorem typeAliasDeclaration_places (hpos : place.low ≤ pos) :
    Places place given (place.Holds none) (typeAliasDeclaration nested pos) := by
  unfold typeAliasDeclaration
  dsimp only
  refine .after fun _ => .bind (nameOr_holds _) fun name => .after fun _ => ?_
  have hdone (type : Option Nat) : Places place ((given ∧ place.Holds none name) ∧
      ∀ id ∈ type, place.Holds none id) (place.Holds none) (finish (.typeAlias name type) pos) := by
    refine .finish hpos rfl rfl fun h child hchild => ?_
    have hpart : child = name ∨ child ∈ type := by simpa using hchild
    rcases hpart with rfl | htype
    · exact h.1.2
    · exact h.2 child htype
  refine .after fun found => .ite (fun _ => ?_) fun _ => .bind .absent hdone
  exact .bind (.some nestedType_places) hdone

/-! ## Section 3: Variables and enum cases -/

theorem patternBinding_places (hfree : place.bare = false) :
    Places place given (place.Holds none) (patternBinding nested) := by
  unfold patternBinding
  dsimp only
  refine .here fun pos hpos => .bind bindingPattern_places fun pattern => ?_
  refine .bind typeClause_places fun type => .bind initialValue_places fun initial => ?_
  -- Each of the four parts has been read where it belongs.
  have hdone (accessors : Option Nat) : Places place ((((given ∧ place.Holds none pattern) ∧
      ∀ id ∈ type, place.Holds none id) ∧ ∀ id ∈ initial, place.Holds none id) ∧
      ∀ id ∈ accessors, place.Anywhere none id) (place.Holds none)
      (finish (.patternBinding pattern type initial accessors) pos) := by
    refine .finish hpos rfl rfl fun h child hchild => ?_
    have hpart : child = pattern ∨ child ∈ type ∨ child ∈ initial ∨ child ∈ accessors := by
      simpa using hchild
    rcases hpart with rfl | htype | hinitial | haccessors
    · exact h.1.1.1.2
    · exact h.1.1.2 child htype
    · exact h.1.2 child hinitial
    · exact (h.2 child haccessors).here
  have hrest (hasAccessors : Bool) : Places place (((given ∧ place.Holds none pattern) ∧
      ∀ id ∈ type, place.Holds none id) ∧ ∀ id ∈ initial, place.Holds none id) (place.Holds none) (do
        let accessors ← if hasAccessors then some <$> accessorBlock nested else pure none
        finish (.patternBinding pattern type initial accessors) pos) := by
    dsimp only
    refine .ite (fun _ => .bind (.some (accessorBlock_places hfree)) hdone) fun _ => .bind .absent hdone
  refine .after fun found => .ite (fun _ => .ite (fun _ => ?_) fun _ => ?_) fun _ => ?_
  · exact .after hrest
  · exact .after hrest
  · exact .after hrest

theorem variableDeclaration_places (hfree : place.bare = false) (hpos : place.low ≤ pos) :
    Places place given (place.Holds none) (variableDeclaration nested pos) := by
  unfold variableDeclaration
  refine .after fun _ => .bind (.separated (.single (patternBinding_places hfree))) fun bindings => ?_
  exact .finish hpos rfl rfl fun h => by simpa using h.2

theorem enumCaseElement_places :
    Places place given (place.Holds none) (enumCaseElement nested) := by
  unfold enumCaseElement
  dsimp only
  refine .here fun pos hpos => .bind (nameOr_holds _) fun name => ?_
  have hdone (associated : Option Nat) : Places place ((given ∧ place.Holds none name) ∧
      ∀ id ∈ associated, place.Holds none id) (place.Holds none) (do
        let raw ← initialValue nested
        finish (.enumCaseElement name associated raw) pos) := by
    refine .bind initialValue_places fun raw => .finish hpos rfl rfl fun h child hchild => ?_
    have hpart : child = name ∨ child ∈ associated ∨ child ∈ raw := by simpa using hchild
    rcases hpart with rfl | hassociated | hraw
    · exact h.1.1.2
    · exact h.1.2 child hassociated
    · exact h.2 child hraw
  refine .after fun found => .ite (fun _ => ?_) fun _ => .bind .absent hdone
  exact .bind (.some tupleType_places) hdone

theorem enumCaseDeclaration_places (hpos : place.low ≤ pos) :
    Places place given (place.Holds none) (enumCaseDeclaration nested pos) := by
  unfold enumCaseDeclaration
  refine .after fun _ => .bind (.separated (.single enumCaseElement_places)) fun elements => ?_
  exact .finish hpos rfl rfl fun h => by simpa using h.2

end declarations

/-! ## Section 4: Statements -/

instance : Quiet skipModifier := by
  unfold skipModifier
  refine .seq inferInstance fun k => ?_
  split
  all_goals infer_instance

instance : Quiet skipModifiers := inferInstanceAs (Quiet (repeatWhile skipModifier (pure ())))

instance : Quiet skipPrecedenceGroup := by
  unfold skipPrecedenceGroup
  dsimp only
  infer_instance

instance : Quiet atDirective := by
  unfold atDirective
  infer_instance

theorem declaration_places (hfree : place.bare = false) :
    Places place given (fun r => ∀ id ∈ r, place.Holds none id) (declaration nested) := by
  intro s hs
  have hquiet : Quiets s (skipModifiers s).2 := Quiet.quiets s hs.settled
  unfold declaration
  refine .peek (Ensures.bind (P := fun _ s' => s' = (skipModifiers s).2) ⟨rfl⟩ fun _ s₁ h₁ => ?_)
  rw [← h₁] at hquiet
  have hs₁ : s₁.Sits place := hquiet.sits hs
  have hread : Lays place given s s₁ := .of_quiets hquiet hs
  -- The modifiers make no nodes, so what is shown after them is shown from `s` on.
  have hthen {p : Parse (Option Nat)}
      (h : PlacesFrom place given (fun r => ∀ id ∈ r, place.Holds none id) p s₁) :
      Ensures p s₁ fun r s' =>
        Lays place given s s' ∧ (s'.Leads place.final → given → ∀ id ∈ r, place.Holds none id) :=
    Ensures.mono h fun r s₂ h₂ => ⟨hread.trans h₂.1, h₂.2⟩
  have htype {sort : TypeSort} {k : Kind} (hk : (kind s₁).1 = k) (hne : k ≠ .endOfFile) :
      PlacesFrom place given (fun r => ∀ id ∈ r, place.Holds none id)
        (some <$> typeDeclaration nested sort (position s).1) s₁ := by
    have hkind : s₁.kind ≠ .endOfFile := fun hend => hne (hk.symm.trans hend)
    refine Ensures.map ((show Ensures _ _ _ from typeDeclaration_places hfree hs₁ hkind hs.low_le
      hquiet.offset_le).mono fun id s₂ h₂ => ⟨h₂.1, fun hfinal hg => ?_⟩)
    rintro _ ⟨⟩
    exact h₂.2 hfinal hg
  have hskip {skip : Parse Unit} [Quiet skip] :
      PlacesFrom place given (fun r => ∀ id ∈ r, place.Holds none id) (do skip; return none) s₁ :=
    (show Places place given _ _ from .after fun _ => .absent) s₁ hs₁
  refine .peek ?_
  split
  case h_1 hk | h_2 hk | h_3 hk | h_4 hk | h_5 hk => exact hthen (htype hk (by decide))
  · exact hthen (Places.some (functionDeclaration_places hfree hs.low_le) s₁ hs₁)
  · exact hthen (Places.some (initializerDeclaration_places hfree hs.low_le) s₁ hs₁)
  · exact hthen (Places.some (deinitializerDeclaration_places hfree hs.low_le) s₁ hs₁)
  · exact hthen (Places.some (subscriptDeclaration_places hfree hs.low_le) s₁ hs₁)
  · exact hthen (Places.some (variableDeclaration_places hfree hs.low_le) s₁ hs₁)
  · exact hthen (Places.some (variableDeclaration_places hfree hs.low_le) s₁ hs₁)
  · exact hthen (Places.some (enumCaseDeclaration_places hs.low_le) s₁ hs₁)
  · exact hthen (Places.some (typeAliasDeclaration_places hs.low_le) s₁ hs₁)
  · exact hthen hskip
  · exact hthen hskip
  · exact hthen hskip
  · exact hthen hskip
  · refine .peek (.ite (fun hactor => ?_) fun _ => hthen hskip)
    exact hthen (htype (kind_eq_of_isWord hactor) (by decide))

theorem controlStatement?_places :
    Places place given (fun r => ∀ id ∈ r, place.Holds (some .statement) id)
      (controlStatement? nested) := by
  have hitem {item : Parse Nat} (h : Places place given (place.Anywhere none) item) :
      Places place given (fun r => ∀ id ∈ r, place.Holds (some .statement) id) (some <$> item) :=
    .some (h.mono fun _ _ hid => hid.here.lift)
  unfold controlStatement?
  refine .after fun k => ?_
  split
  · exact .some (branchStatement_places.mono fun _ _ hid => hid.here)
  · exact hitem guardStatement_places
  · exact hitem whileStatement_places
  · exact hitem repeatStatement_places
  · exact hitem forStatement_places
  · exact hitem switchStatement_places
  · exact hitem doStatement_places
  · exact hitem deferStatement_places
  · exact hitem (exitStatement_places (fun _ => rfl) fun _ => rfl)
  · exact hitem (exitStatement_places (fun _ => rfl) fun _ => rfl)
  · exact hitem (jumpStatement_places (fun _ => rfl) fun _ => rfl)
  · exact hitem (jumpStatement_places (fun _ => rfl) fun _ => rfl)
  · exact hitem fallthroughStatement_places
  · exact .absent

theorem plainStatement_places (hfree : place.bare = false) :
    Places place given (fun r => ∀ id ∈ r, place.Holds (some .statement) id)
      (plainStatement nested) := by
  have hholds : Places place given (fun r => ∀ id ∈ r, place.Holds none id)
      (plainStatement nested) := by
    unfold plainStatement
    exact .after fun found => .ite (fun _ => declaration_places hfree) fun _ => nestedExpression_holds
  exact hholds.mono fun r _ hr id hid => (hr id hid).lift

theorem anyStatement_places (hfree : place.bare = false) :
    Places place given (fun r => ∀ id ∈ r, place.Holds (some .statement) id)
      (anyStatement nested) := by
  unfold anyStatement
  refine .after fun k => ?_
  split
  · refine .after fun directive => .ite (fun _ => .after fun _ => .absent) fun _ => ?_
    exact plainStatement_places hfree
  · refine .after fun labelled => .ite (fun _ => ?_) fun _ => plainStatement_places hfree
    exact .after fun _ => .after fun _ => controlStatement?_places
  · refine .bind controlStatement?_places fun found => ?_
    cases found with
    | none => exact plainStatement_places hfree
    | some statement => exact .pure fun h => h.2

theorem statement_places (hfree : place.bare = false) :
    Places place given (fun r => ∀ id ∈ r, place.Stated id) (statement nested) := by
  unfold statement
  refine .guarded (fun _ => .absent) fun hlow => ?_
  have hbody : Places place.deeper given
      (fun r => ∀ id ∈ r, place.deeper.Holds (some .statement) id) (anyStatement nested) :=
    anyStatement_places hfree
  refine hbody.mono fun r _ hr id hid => ⟨(hr id hid).shallower hlow, fun hlimit => ?_⟩
  have hdepth : place.depth + 1 = maxDepth := Nat.le_antisymm hlow hlimit
  have hplaced : place.final.tree.Placed (some .statement) maxDepth place.bare id :=
    hdepth ▸ (hr id hid).placed
  exact hplaced.not_exposes_of_limit nofun

instance : Readers.Placing (phrase nested) where
  expression _ := expression_places
  operand _ := operand_places
  statement _ hfree := statement_places hfree
  type _ := type_places
  composition _ := compositionType_places
  branch _ := branchStatement_places

/-! ## Section 5: Whole texts -/

/-- Once the allowance is used up, nothing leads to a final state. -/
theorem Places.of_exhausted {α : Type} {R : α → Prop} {p : Parse α}
    (hread : ∀ s : State, s.Sits place → Lays place given s (p s).2)
    (hexhausts : ∀ s : State, (p s).2.exhausted = true) : Places place given R p := by
  intro s hs
  refine ⟨hread s hs, fun hfinal => ?_⟩
  have hlasts := hfinal.lasts
  rw [hexhausts s] at hlasts
  cases hlasts

instance : Readers.Placing noReader := by
  have hnone {place : Place} {R : Option Nat → Prop} :
      Places place True R (do exhaust; return none) :=
    .of_exhausted (fun s hs => .of_quiets (.exhausted hs.settled) hs) fun _ => rfl
  have hmissing {place : Place} {R : Nat → Prop} :
      Places place True R (do exhaust; let pos ← position; make .missing pos pos) := by
    refine .of_exhausted (fun s hs => ?_) fun _ => rfl
    have hquiet : Quiets s { s with exhausted := true } := .exhausted hs.settled
    exact .trans (.of_quiets hquiet hs)
      (.made (hquiet.sits hs) (fun _ => Or.inl rfl) fun _ _ => trivial)
  exact
    { expression := fun _ => hnone
      operand := fun _ => hnone
      statement := fun _ _ => hnone
      type := fun _ => hmissing
      composition := fun _ => hmissing
      branch := fun _ => hmissing }

instance (count : Nat) : Readers.Placing (reader count) := by
  induction count with
  | zero => exact inferInstanceAs (Readers.Placing noReader)
  | succ count ih => exact inferInstanceAs (Readers.Placing (phrase (reader count)))

/-- The place of the statements of a text. -/
def Place.outermost (text : String) : Place where
  text
  final := (sourceFile (State.ofText text)).2
  low := 0
  depth := 0
  bare := false

theorem ofText_sits (text : String) :
    (State.ofText text).advanced.Sits (.outermost text) where
  settled := ofText_settled text
  low_le := Nat.zero_le _
  depth_eq := rfl
  bare_eq := rfl
  streams := .ofText text
  accounted := ⟨nofun, fun hform => nomatch hform⟩

/-- Reading a text places its nodes, the root among them. -/
theorem sourceFile_places (text : String) :
    Ensures sourceFile (State.ofText text) fun root s' =>
      Lays (.outermost text) True (State.ofText text).advanced s' ∧
        (s'.Leads (Place.outermost text).final → (Place.outermost text).Holds none root) := by
  have hstatements (count : Nat) : Places (.outermost text) True
      (fun ids => ∀ id ∈ ids, (Place.outermost text).Holds none id)
      (statementsUntil (reader count) (isAt .endOfFile)) := statementsUntil_places _ rfl
  unfold sourceFile
  refine .modify _ (.peek ?_)
  refine Ensures.bind (hstatements _ _ (ofText_sits text)) fun statements s₁ h₁ => ?_
  have hmade {length : Nat} : Lays (.outermost text) True s₁
      (s₁.made (.sourceFile statements) 0 length) :=
    .made h₁.1.sits nofun fun _ _ => trivial
  refine ⟨h₁.1.trans hmade, fun hfinal => ?_⟩
  obtain ⟨hform, hrange⟩ := Lays.made_final hfinal
  have hchildren := h₁.2 (hmade.toLater.leads hfinal) trivial
  have hparts : (Place.outermost text).Parts none (.sourceFile statements) :=
    ⟨by simpa using hchildren, nofun⟩
  have hbare : (Form.sourceFile statements).needsBraces = true →
      (Place.outermost text).bare = false := nofun
  exact Places.holds_of_parts (Nat.le_refl 0) rfl hbare (fun _ h => h) hparts hform hrange

theorem outermost_leads (text : String) :
    (Place.outermost text).final.Leads (Place.outermost text).final :=
  ⟨.refl _, List.prefix_refl _, sourceFile_lasts text⟩

/-- The tree of a text obeys the rules about nesting and trailing closures. -/
theorem parse_placed (text : String) :
    (SourceFile.parse text).tree.Placed none 0 false (SourceFile.parse text).root :=
  ((sourceFile_places text).holds.2 (outermost_leads text)).placed

/-- The nodes of a text follow their laws. -/
theorem parse_lawful (text : String) {id : Nat} {form : Form} {r : Nat × Nat}
    (hform : (SourceFile.parse text).tree.form? id = some form)
    (hrange : (SourceFile.parse text).tree.range? id = some r) :
    form.Law text (sourceFile (State.ofText text)).2 r := by
  have hlt : id < (sourceFile (State.ofText text)).2.tree.nextId := Tree.lt_nextId_of_form? hform
  exact (sourceFile_places text).holds.1.lawful (outermost_leads text) trivial (Nat.zero_le id) hlt
    form r hform hrange

end Grammar
end SelfCapture
