import SelfCapture.Proofs.Grammar.Fullness
import SelfCapture.Proofs.Grammar.PlacedTypes

/-! # Placed nodes of expressions

  The rules for arguments, statement lists, closures and expressions place
  their nodes.  What is read in brackets or braces can stand with or
  without trailing closures around it.  An operand before its suffixes
  belongs to the phrase being read, and a call with a trailing closure is
  only made where one is allowed.

  A string literal is the one place where a guard stands between a node and
  its token: at the nesting limit it skips the literal, and what consumes
  the literal takes the token after it.
-/

set_option synthInstance.maxSize 1000

namespace SelfCapture.Grammar

open Token (Kind)

variable {place : Place} {given : Prop} {tier? : Option Tier} {nested : Readers}
  [nested.Placing]

/-! ## Section 1: Arguments -/

theorem argumentLabel_places :
    Places place given (fun r => ∀ id ∈ r, place.Holds none id) argumentLabel := by
  unfold argumentLabel
  refine .after fun found => .ite (fun _ => ?_) fun _ => .absent
  refine .after fun labelled => .ite (fun _ => ?_) fun _ => .absent
  refine .bind name_holds fun label => .after fun _ => .pure ?_
  rintro h _ ⟨⟩
  exact h.2

/-- An argument can stand with or without trailing closures around it. -/
theorem argument_places :
    Places place given (place.Anywhere none) (argument nested) := by
  unfold argument
  dsimp only
  refine .here fun pos hpos => .bind argumentLabel_places fun label => ?_
  have hdone (expression : Option Nat) : Places place
      ((given ∧ ∀ id ∈ label, place.Holds none id) ∧ ∀ id ∈ expression, place.Holds none id)
      (place.Anywhere none) (finish (.argument label expression) pos) := by
    refine .finish_shield hpos rfl rfl rfl fun h child hchild => ?_
    have hpart : child ∈ label ∨ child ∈ expression := by simpa using hchild
    exact (hpart.elim (h.1.2 child) (h.2 child)).relax
  have hrest (alone : Bool) : Places place (given ∧ ∀ id ∈ label, place.Holds none id)
      (place.Anywhere none) (do
        let expression ← if alone then pure none else nested .expression
        finish (.argument label expression) pos) := by
    dsimp only
    exact .ite (fun _ => .bind .absent hdone) fun _ => .bind nestedExpression_holds hdone
  exact .ite (fun _ => .after hrest) fun _ => .after hrest

theorem argumentList_places {opener closer : Kind} {what : String} :
    Places place given (fun ids => ∀ id ∈ ids, place.Anywhere none id)
      (argumentList nested opener closer what) := by
  unfold argumentList
  refine .after fun _ => .bind (.unrestricted (.separatedUntil (.single argument_places)))
    fun arguments => ?_
  exact .after fun _ => .pure fun h => h.2

theorem parenArguments_places :
    Places place given (fun ids => ∀ id ∈ ids, place.Anywhere none id) (parenArguments nested) :=
  argumentList_places

theorem bracketArguments_places :
    Places place given (fun ids => ∀ id ∈ ids, place.Anywhere none id) (bracketArguments nested) :=
  argumentList_places

theorem tupleExpression_places : Places place given (place.Holds none) (tupleExpression nested) := by
  unfold tupleExpression
  refine .here fun pos hpos => .bind parenArguments_places fun elements => ?_
  exact .finish hpos rfl rfl fun h child hchild => (h.2 child (by simpa using hchild)).here

theorem collectionElement_places :
    Places place given (fun r => ∀ id ∈ r, place.Holds none id) (collectionElement nested) := by
  unfold collectionElement
  refine .here fun pos hpos => .bind nestedExpression_holds fun key => ?_
  refine .after fun found => .ite (fun _ => ?_) fun _ => .pure fun h => h.2
  refine .bind nestedExpression_holds fun value => .some (.finish hpos rfl rfl fun h child hchild => ?_)
  have hpart : child ∈ key ∨ child ∈ value := by simpa using hchild
  exact hpart.elim (h.1.2 child) (h.2 child)

theorem collectionElements_places :
    Places place given (fun ids => ∀ id ∈ ids, place.Holds none id) (collectionElements nested) := by
  unfold collectionElements
  refine .after fun found => .ite (fun _ => .pure fun _ => nofun) fun _ => ?_
  exact .separatedUntil (.optional collectionElement_places)

theorem collectionExpression_places :
    Places place given (place.Anywhere none) (collectionExpression nested) := by
  unfold collectionExpression
  refine .here fun pos hpos => .after fun _ => .bind (.unrestricted collectionElements_places)
    fun elements => .after fun _ => ?_
  exact .finish_shield hpos rfl rfl rfl fun h => by simpa using h.2

theorem bindingPattern_places : Places place given (place.Holds none) (bindingPattern nested) := by
  unfold bindingPattern
  exact .after fun found => .ite (fun _ => tupleExpression_places) fun _ => nameOr_holds _

theorem initialValue_places :
    Places place given (fun r => ∀ id ∈ r, place.Holds none id) (initialValue nested) := by
  unfold initialValue
  exact .after fun found => .ite (fun _ => nestedExpression_holds) fun _ => .absent

theorem typeClause_places :
    Places place given (fun r => ∀ id ∈ r, place.Holds none id) (typeClause nested) := by
  unfold typeClause
  exact .after fun found => .ite (fun _ => .some nestedType_places) fun _ => .absent

/-! ## Section 2: Statement lists -/

theorem listEntry_places (hfree : place.bare = false) :
    Places place given (fun ids => ∀ id ∈ ids, place.Holds none id) (listEntry nested) := by
  unfold listEntry
  dsimp only
  refine .after fun atBrace => .ite (fun _ => ?_) fun _ => ?_
  · exact .after fun _ => .after fun _ => .pure fun _ => nofun
  · refine .after fun before => .bind (nestedStatement_places hfree) fun statement => ?_
    have hdone : Places place (given ∧ ∀ id ∈ statement, place.Stated id)
        (fun ids => ∀ id ∈ ids, place.Holds none id) (pure statement.toList) :=
      .pure fun h id hid => (h.2 id (Option.mem_toList.mp hid)).holds
    refine .after fun after => .after fun ended => .ite (fun _ => ?_) fun _ => hdone
    exact .after fun _ => .after fun _ => hdone

theorem statementsUntil_places (stops : Parse Bool) [Quiet stops] (hfree : place.bare = false) :
    Places place given (fun ids => ∀ id ∈ ids, place.Holds none id)
      (statementsUntil nested stops) := by
  unfold statementsUntil
  refine .loop (fun _ => nofun) fun statements => .after fun _ => .after fun ended => ?_
  refine .ite (fun _ => .pure fun h => h.2) fun _ => .after fun stop => ?_
  refine .ite (fun _ => .pure fun h => h.2) fun _ => ?_
  exact .bind (listEntry_places hfree) fun more => .pure forall_mem_append

/-- The statements between braces are read where trailing closures are allowed. -/
theorem statementsInBraces_places {change : Context → Context}
    (hchange : ∀ context, (change context).noTrailingClosure = false) :
    Places place given (fun ids => ∀ id ∈ ids, place.free.Holds none id)
      (statementsInBraces nested change) := by
  unfold statementsInBraces
  refine .after fun _ => .bind (.within (fun context _ => hchange context)
    (statementsUntil_places _ rfl)) fun statements => ?_
  exact .after fun _ => .pure fun h => h.2

theorem block_places : Places place given (place.Anywhere none) (block nested) := by
  unfold block
  refine .after fun found => .ite (fun _ => ?_) fun _ => .missing _
  refine .here fun pos hpos => .bind (statementsInBraces_places fun _ => rfl) fun statements => ?_
  exact .finish_shield hpos rfl rfl rfl fun h => by simpa using h.2

theorem functionBody_places :
    Places place given (fun r => ∀ id ∈ r, place.Anywhere none id) (functionBody nested) := by
  unfold functionBody
  exact .after fun found => .ite (fun _ => .some block_places) fun _ => .absent

/-! ## Section 3: Closures -/

instance : Quiet ownershipDetail := by
  unfold ownershipDetail
  infer_instance

theorem captureName_places :
    Places place given (fun r => ∀ id ∈ r, place.Holds none id) captureName := by
  unfold captureName
  refine .after fun found => .ite (fun _ => ?_) fun _ => .absent
  refine .after fun bound => .ite (fun _ => ?_) fun _ => .absent
  refine .bind name_holds fun name => .after fun _ => .pure ?_
  rintro h _ ⟨⟩
  exact h.2

theorem captureItem_places :
    Places place given (fun r => ∀ id ∈ r, place.Holds none id) (captureItem nested) := by
  unfold captureItem
  dsimp only
  refine .here fun pos hpos => .after fun ownership => ?_
  -- The item after its specifier.
  have hitem : Places place given (fun r => ∀ id ∈ r, place.Holds none id) (do
      let name ← captureName
      let expression ← nested .expression
      if ← isMissing expression then
        return none
      else
        some <$> finish (.captureItem ownership name expression) pos) := by
    refine .bind captureName_places fun name => .bind nestedExpression_holds fun expression => ?_
    refine .after fun absent => .ite (fun _ => .absent) fun _ => .some ?_
    refine .finish hpos rfl rfl fun h child hchild => ?_
    have hpart : child ∈ name ∨ child ∈ expression := by simpa using hchild
    exact hpart.elim (h.1.2 child) (h.2 child)
  have hrest (acceptable : Bool) : Places place given (fun r => ∀ id ∈ r, place.Holds none id)
      (if acceptable then (do
        let name ← captureName
        let expression ← nested .expression
        if ← isMissing expression then
          return none
        else
          some <$> finish (.captureItem ownership name expression) pos)
      else pure none) := .ite (fun _ => hitem) fun _ => .absent
  refine .ite (fun _ => .after hrest) fun _ => .after fun _ => .after hrest

theorem captureList_places :
    Places place given (fun ids => ∀ nodes ∈ ids, ∀ id ∈ nodes, place.Holds none id)
      (captureList nested) := by
  unfold captureList
  refine .after fun found => .ite (fun _ => .after fun _ => .enclosed? captureItem_places) fun _ =>
    .pure ?_
  rintro - nodes ⟨⟩
  nofun

theorem closureParameter_places :
    Places place given (fun r => ∀ id ∈ r, place.Holds none id) (closureParameter nested) := by
  unfold closureParameter
  refine .here fun pos hpos => .after fun _ => .after fun found => .ite (fun _ => ?_) fun _ => .absent
  refine .bind name_holds fun first => .bind name?_holds fun second => ?_
  refine .bind typeClause_places fun type => .after fun _ => .some ?_
  refine .finish hpos rfl rfl fun h child hchild => ?_
  have hpart : child = first ∨ child ∈ second ∨ child ∈ type := by simpa using hchild
  rcases hpart with rfl | hsecond | htype
  · exact h.1.1.2
  · exact h.1.2 child hsecond
  · exact h.2 child htype

theorem bareParameters_places :
    Places place given (fun ids => ∀ nodes ∈ ids, ∀ id ∈ nodes, place.Holds none id)
      bareParameters := by
  unfold bareParameters
  refine .loop ?_ fun names => .after fun found => .ite (fun _ => ?_) fun _ => .pure fun _ => nofun
  · rintro - nodes ⟨⟩
    nofun
  · refine .bind name_holds fun name => .after fun found => ?_
    have hmore (h : (given ∧ ∀ nodes ∈ names, ∀ id ∈ nodes, place.Holds none id) ∧
          place.Holds none name) :
        ∀ nodes ∈ names.map (· ++ [name]), ∀ id ∈ nodes, place.Holds none id :=
      Places.forall_mem_snoc h.1.2 h.2
    exact .ite (fun _ => .pure hmore) fun _ => .pure hmore

theorem closureParameters_places :
    Places place given
      (fun found => ∀ parameters ∈ found, ∀ id ∈ parameters.nodes, place.Holds none id)
      (closureParameters nested) := by
  unfold closureParameters
  refine .after fun found => .ite (fun _ => .after fun _ => ?_) fun _ => .after fun found =>
    .ite (fun _ => ?_) fun _ => ?_
  · refine .bind (.enclosed? closureParameter_places) fun nodes => .pure ?_
    rintro ⟨-, hnodes⟩ parameters hparameters
    obtain ⟨ids, hids, rfl⟩ := Option.map_eq_some_iff.mp hparameters
    exact hnodes ids hids
  · refine .bind bareParameters_places fun nodes => .pure ?_
    rintro ⟨-, hnodes⟩ parameters hparameters
    obtain ⟨ids, hids, rfl⟩ := Option.map_eq_some_iff.mp hparameters
    exact hnodes ids hids
  · refine .pure ?_
    rintro - parameters ⟨⟩
    nofun

theorem closureSignature_places :
    Places place given
      (fun found => ∀ signature ∈ found, ∀ id ∈ signature.nodes, place.Holds none id)
      (closureSignature nested) := by
  unfold closureSignature
  dsimp only
  refine .after fun _ => .bind captureList_places fun captures => ?_
  cases captures with
  | none => exact .pure fun _ => nofun
  | some captures =>
    refine .bind closureParameters_places fun parameters => ?_
    cases parameters with
    | none => exact .pure fun _ => nofun
    | some parameters =>
      -- Without the `in` there is no signature, and so no node to account for.
      have hdone (result : Option Nat) : Places place
          (((given ∧ ∀ nodes ∈ some captures, ∀ id ∈ nodes, place.Holds none id) ∧
            ∀ found ∈ some parameters, ∀ id ∈ found.nodes, place.Holds none id) ∧
            ∀ id ∈ result, place.Holds none id)
          (fun found : Option Signature =>
            ∀ signature ∈ found, ∀ id ∈ signature.nodes, place.Holds none id) (do
            if ← accept .inKeyword then
              return some { captures, parameters, result }
            else
              return none) := by
        refine .after fun found => .ite (fun _ => .pure ?_) fun _ => .pure fun _ => nofun
        rintro ⟨⟨⟨-, hcaptures⟩, hparameters⟩, hresult⟩ signature ⟨⟩ id hid
        simp only [Signature.nodes, List.mem_append, Option.mem_toList] at hid
        rcases hid with (hcapture | hparameter) | hresult'
        · exact hcaptures captures rfl id hcapture
        · exact hparameters parameters rfl id hparameter
        · exact hresult id hresult'
      refine .after fun _ => .after fun arrow => .ite (fun _ => ?_) fun _ => .bind .absent hdone
      exact .bind (.some nestedType_places) hdone

theorem optionalSignature_places :
    Places place given (fun signature : Signature => ∀ id ∈ signature.nodes, place.Holds none id)
      (optionalSignature nested) := by
  unfold optionalSignature
  refine .bind (.attempt closureSignature_places) fun found => .pure ?_
  rintro ⟨-, hfound⟩
  cases found with
  | none => nofun
  | some signature => exact hfound signature rfl

theorem closure_places : Places place given (place.Anywhere none) (closure nested) := by
  unfold closure
  refine .here fun pos hpos => .after fun _ => .bind optionalSignature_places fun signature => ?_
  refine .bind (.unrestricted (statementsUntil_places _ rfl)) fun statements => .after fun _ => ?_
  refine .finish_shield hpos rfl rfl rfl fun h child hchild => ?_
  have hpart : child ∈ signature.nodes ∨ child ∈ statements := by
    simpa [Signature.nodes, or_assoc] using hchild
  exact hpart.elim (fun hmem => (h.1.2 child hmem).relax) (h.2 child)

instance : Quiet atLabelledClosure := by
  unfold atLabelledClosure
  infer_instance

theorem labelledClosure_places :
    Places place given (place.Anywhere none) (labelledClosure nested) := by
  unfold labelledClosure
  refine .here fun pos hpos => .bind .name fun label => .after fun _ => ?_
  refine .bind closure_places fun expression => ?_
  refine .finish_shield hpos rfl rfl rfl fun h => ?_
  simpa using ⟨h.1.2 false, h.2 false⟩

theorem trailingClosures_places :
    Places place given
      (fun closures => place.Anywhere none closures.1 ∧ ∀ id ∈ closures.2, place.Anywhere none id)
      (trailingClosures nested) := by
  unfold trailingClosures
  refine .bind closure_places fun first => .bind (.gatherWhile (.single labelledClosure_places))
    fun additional => .pure fun h => ⟨h.1.2, h.2⟩

/-! ## Section 4: String literals -/

/-- The windows are those of the literal, and come after its first byte. -/
def Place.Windows (place : Place) (literal : Scanner) (segments : List Segment) : Prop :=
  ∀ segment ∈ segments, segment ∈ literal.segments ∧ place.low ≤ segment.start ∧
    segment.start ≤ segment.stop ∧ segment.stop ≤ literal.bytes.size

theorem State.Sits.windows {s : State} (hs : s.Sits place) :
    place.Windows s.scanner s.scanner.segments := by
  intro segment hsegment
  obtain ⟨hlow, hle, hhigh⟩ := hs.settled.inside.of_mem hsegment
  have hstart := hs.low_le
  have hstop := hs.settled.token_stop_le
  have hsize := hs.settled.stop_le
  exact ⟨hsegment, Nat.le_trans hstart (Nat.le_of_lt hlow), hle, by omega⟩

theorem Lays.entered {s : State} (hs : s.Sits place) {literal : Scanner} {segment : Segment}
    (hstreams : Scanner.Streams place.text literal) (hne : literal.token.kind ≠ .endOfFile)
    (hwindow : segment ∈ literal.segments ∧ place.low ≤ segment.start ∧
      segment.start ≤ segment.stop ∧ segment.stop ≤ literal.bytes.size) :
    Lays place given s (s.entered segment) := by
  obtain ⟨hmem, hlow, hle, hstop⟩ := hwindow
  have hbytes : s.scanner.bytes = literal.bytes := hs.streams.bytes_eq.trans hstreams.bytes_eq.symm
  have hlater : Later s (s.entered segment) :=
    ⟨rfl, s.entered_settled segment, rfl, List.prefix_refl _, id, .refl _,
      fun h => ⟨h.last, h.missing⟩⟩
  have hoffset := s.le_offset_entered hle (hbytes ▸ hstop)
  refine ⟨hlater, ⟨hlater.settled, Nat.le_trans hlow hoffset, hs.depth_eq, hs.bare_eq, ?_,
    hlater.accounted hs.accounted⟩, fun _ _ id hfrom hto => absurd hto (Nat.not_lt_of_le hfrom)⟩
  exact hstreams.enter hne hmem hbytes

theorem Lays.returned {s s₁ : State} (hs : s.Sits place) (h : Lays place given s s₁) :
    Lays place given s (s₁.returned s) := by
  have hlater : Later s (s₁.returned s) :=
    ⟨h.bytes_eq, hs.settled.restore h.bytes_eq, h.context_eq, h.diagnostics, h.exhausted_imp,
      h.tree, fun hall => ⟨(h.accounted hall).last, (h.accounted hall).missing⟩⟩
  refine ⟨hlater, ⟨hlater.settled, hs.low_le, h.sits.depth_eq, h.sits.bare_eq, ?_,
    hlater.accounted hs.accounted⟩, fun hfinal => ?_⟩
  · exact hs.streams.congr (.restore h.bytes_eq)
  · exact h.lawful ⟨hfinal.tree, hfinal.diagnostics, hfinal.lasts⟩

theorem windowArguments_places :
    Places place given (fun ids => ∀ id ∈ ids, place.Holds none id) (windowArguments nested) := by
  unfold windowArguments interpolatedArgument
  dsimp only
  refine .unrestricted (.gatherWhile (.after fun before => .bind argument_places fun id => ?_))
  have hdone : Places place.free (given ∧ place.free.Anywhere none id)
      (fun ids => ∀ id ∈ ids, place.Holds none id) (pure [id]) :=
    .pure fun h => List.forall_mem_singleton.mpr (h.2 place.bare)
  refine .after fun found => .ite (fun _ => hdone) fun _ => .after fun after => ?_
  exact .ite (fun _ => .after fun _ => hdone) fun _ => hdone

/-- The arguments in the windows of a literal. -/
theorem interpolations_places {literal : Scanner} (hstreams : Scanner.Streams place.text literal)
    (hne : literal.token.kind ≠ .endOfFile) {segments : List Segment}
    (hwindows : place.Windows literal segments) :
    Places place given (fun ids => ∀ id ∈ ids, place.Holds none id)
      (interpolations nested segments) := by
  induction segments with
  | nil => exact .pure fun _ => nofun
  | cons segment rest ih =>
    intro s hs
    have hentered : Lays place given s (s.entered segment) :=
      .entered hs hstreams hne (hwindows segment List.mem_cons_self)
    have hothers := ih fun other hother => hwindows other (List.mem_cons_of_mem segment hother)
    have hwindow : Places place given (fun ids => ∀ id ∈ ids, place.Holds none id)
        (windowArguments nested) := windowArguments_places
    refine interpolations_cons (hwindow _ hentered.sits) fun arguments s₁ h₁ => ?_
    refine Ensures.mono (hothers s₁ h₁.1.sits) fun others s₂ h₂ => ⟨?_, fun hfinal hg => ?_⟩
    · exact (hentered.trans h₁.1).trans h₂.1
    · have harguments := h₁.2 (h₂.1.toLater.leads hfinal) hg
      exact List.forall_mem_append.mpr ⟨harguments, h₂.2 hfinal hg⟩

/-- The parts of a literal, after which its token is the current one again. -/
theorem interpolatedParts_places {s : State} (given : Prop) (hs : s.Sits place)
    (hk : s.kind ≠ .endOfFile) :
    Ensures (interpolatedParts nested s.scanner.segments) s fun ids s' =>
      (Lays place given s s' ∧ (s'.Leads place.final → given → ∀ id ∈ ids, place.Holds none id)) ∧
        s'.scanner.Agrees s.scanner := by
  have hparts : Places place given (fun ids => ∀ id ∈ ids, place.Holds none id)
      (interpolations nested s.scanner.segments) := interpolations_places hs.streams hk hs.windows
  unfold interpolatedParts
  refine Ensures.peek (Ensures.bind (hparts s hs) fun ids s₁ h₁ => ?_)
  refine ⟨⟨.returned hs h₁.1, fun hfinal => ?_⟩, .restore h₁.1.bytes_eq⟩
  exact h₁.2 ⟨hfinal.tree, hfinal.diagnostics, hfinal.lasts⟩

/-- The parts of a literal, and how the literal will be consumed: as its
    token, or at the nesting limit as the token after it. -/
theorem stringParts_places {s : State} (hs : s.Sits place) (hk : s.kind ≠ .endOfFile) :
    Ensures (guarded (pure []) (interpolatedParts nested s.scanner.segments)) s fun ids s' =>
      (Lays place given s s' ∧ (s'.Leads place.final → given → ∀ id ∈ ids, place.Holds none id)) ∧
        (s'.scanner.Agrees s.scanner ∨
          ids = [] ∧ s'.Notes s.offset ∧ s'.scanner.Agrees s.scanner.scan) := by
  refine guarded_cases (fun _ => ?_) fun hdepth => ?_
  · -- Too deep: the guard consumes the literal itself, and reports at its first byte.
    unfold giveUp
    have hreported : Quiets s (s.reported .tooDeep) := .reported hs.settled _
    have hscanner := s.scanner_reported .tooDeep
    have hended : (atEnd (s.reported .tooDeep)).1 = false := by
      show ((s.reported .tooDeep).scanner.token.kind == .endOfFile) = false
      rw [hscanner]
      simpa using hk
    refine .modify _ (.peek ?_)
    show Ensures (if (atEnd (s.reported .tooDeep)).1 then pure [] else advance >>= fun _ => pure [])
      (s.reported .tooDeep) _
    rw [hended]
    have hquiet := hreported.trans (.advanced hreported.settled)
    refine ⟨⟨.of_quiets hquiet hs, fun _ _ => nofun⟩, .inr ⟨rfl, ?_, ?_⟩⟩
    · exact (hreported.accounted hs.accounted).last (s.lastIssueAt_reported _)
    · show (s.reported .tooDeep).scanner.scan.Agrees s.scanner.scan
      rw [hscanner]
      exact .refl _
  · -- Otherwise the parts are read one level deeper.
    have hlow : place.depth < maxDepth := hs.depth_eq ▸ hdepth
    refine (interpolatedParts_places given hs.deeper hk).mono fun ids s₁ h₁ => ?_
    obtain ⟨⟨hread, hresult⟩, hsame⟩ := h₁
    refine ⟨⟨hread.shallower hs, fun hfinal hg id hid => ?_⟩, .inl hsame⟩
    have hinner := hresult ⟨hfinal.tree, hfinal.diagnostics, hfinal.lasts⟩ hg id hid
    have hphrase : place.deeper.Holds (some .expression) id := hinner.lift
    exact hphrase.shallower hlow

/-- A literal ends with its token, or with the token after it if that is
    what is consumed. -/
theorem stringLiteral_law {s : State} (hs : s.Sits place) (hk : s.kind = .stringLiteral)
    {scanner : Scanner} {ids : List Nat}
    (hends : scanner.Agrees s.scanner ∨
      ids = [] ∧ place.final.Notes s.offset ∧ s.scanner.segments ≠ [] ∧
        scanner.Agrees s.scanner.scan) :
    (Form.stringLiteral ids).Law place.text place.final
      (s.offset, max scanner.token.stop s.offset) := by
  have hne : s.kind ≠ .endOfFile := by rw [hk]; nofun
  have hle : s.offset ≤ s.scanner.token.stop := hs.settled.token_le
  rcases hends with hsame | ⟨rfl, hnotes, hsegments, hsame⟩
  · refine .inl ?_
    rw [hsame.token_eq, Nat.max_eq_left hle, ← hk]
    exact hs.streams.isToken hne
  · obtain ⟨s', hin, hagrees⟩ := hs.streams.exists_inStream hne
    have hstop : s.scanner.token.stop ≤ s.scanner.scan.token.pos := hs.settled.stop_le_scan
    have hnext : s.scanner.scan.token.pos ≤ s.scanner.scan.token.stop := hs.settled.scan.token_le
    have hwide : s.offset ≤ s.scanner.scan.token.stop := Nat.le_trans (Nat.le_trans hle hstop) hnext
    refine .inr ⟨rfl, hnotes, s', hin, ?_, ?_, ?_⟩
    · rw [← hagrees.token_eq]
      exact hk
    · rw [← hagrees.segments_eq]
      exact hsegments
    · rw [hsame.token_eq, Nat.max_eq_left hwide, ← hagrees.scan.token_eq, ← hagrees.token_eq]

/-- A string literal is its token, unless it is given up at the nesting limit. -/
theorem stringExpression_places {s : State} (hs : s.Sits place) (hk : s.kind = .stringLiteral) :
    PlacesFrom place given (place.Holds none) (stringExpression nested) s := by
  have hne : s.kind ≠ .endOfFile := by rw [hk]; nofun
  unfold stringExpression
  dsimp only
  -- The scanner is where the literal was read, unless the literal was given up:
  -- then it is one token further on, and that has been reported.
  refine Ensures.peek (Ensures.peek (.branch (P := fun ids s' =>
    (Lays place given s s' ∧ (s'.Leads place.final → given → ∀ id ∈ ids, place.Holds none id)) ∧
      (s'.scanner.Agrees s.scanner ∨
        ids = [] ∧ s'.Notes s.offset ∧ s.scanner.segments ≠ [] ∧
          s'.scanner.Agrees s.scanner.scan)) (fun _ => ?_) (fun hsegments => ?_)
    fun ids s₁ h₁ => ?_))
  · exact .pure ⟨⟨.refl hs, fun _ _ => nofun⟩, .inl (.refl _)⟩
  · refine (stringParts_places hs hne).mono fun ids s₁ h₁ => ⟨h₁.1, h₁.2.imp_right ?_⟩
    rintro ⟨hids, hnotes, hsame⟩
    exact ⟨hids, hnotes, fun hnone => hsegments (List.isEmpty_iff.mpr hnone), hsame⟩
  · obtain ⟨⟨hread, hresult⟩, hends⟩ := h₁
    have hmoved : Lays place given s s₁.advanced := hread.quiet (.advanced hread.settled)
    have hmissing : Form.stringLiteral ids ≠ .missing := nofun
    have hfinish : PlacesFrom place (given ∧ ∀ id ∈ ids, place.Holds none id) (place.Holds none)
        (finish (.stringLiteral ids) s.offset) s₁.advanced := by
      refine Places.finish_at hmoved.sits hmissing (fun hfinal _ => ?_)
        fun hg id stop hform hrange => ?_
      · refine stringLiteral_law hs hk (hends.imp_right ?_)
        rintro ⟨hids, ⟨d, hd, hstart⟩, hsegments, hsame⟩
        exact ⟨hids, ⟨d, hfinal.diagnostics.subset hd, hstart⟩, hsegments, hsame⟩
      · have hparts : place.Parts none (.stringLiteral ids) := ⟨by simpa using hg.2, nofun⟩
        have hbare : (Form.stringLiteral ids).needsBraces = true → place.bare = false := nofun
        exact Places.holds_of_parts hs.low_le rfl hbare (fun _ h => h) hparts hform hrange
    refine .modify _ ((show Ensures _ _ _ from hfinish).mono fun id s₂ h₂ => ?_)
    have hgiven (hfinal : s₂.Leads place.final) (hg : given) :
        given ∧ ∀ id ∈ ids, place.Holds none id :=
      ⟨hg, hresult ((Later.advanced hread.settled).leads (h₂.1.toLater.leads hfinal)) hg⟩
    exact ⟨hmoved.trans (h₂.1.weaken hgiven), fun hfinal hg => h₂.2 hfinal (hgiven hfinal hg)⟩

/-! ## Section 5: Operands -/

instance : Quiet skipOperator := by
  unfold skipOperator
  infer_instance

instance : Quiet skipMark := by
  unfold skipMark
  infer_instance

theorem operatorNode_places : Places place given (place.Holds none) operatorNode := by
  unfold operatorNode
  refine .here fun pos hpos => .after fun token => .after fun _ => ?_
  exact .finish hpos rfl rfl fun _ => nofun

theorem castNode_places : Places place given (place.Holds none) (castNode nested) := by
  unfold castNode
  dsimp only
  have hdone (pos : Nat) (hpos : place.low ≤ pos) (keyword : Kind) :
      Places place given (place.Holds none) (do
        let type ← nested .type
        finish (.cast keyword type) pos) := by
    refine .bind nestedType_places fun type => .finish hpos rfl rfl fun h => ?_
    simpa using h.2
  refine .here fun pos hpos => .after fun keyword => .after fun _ => ?_
  exact .ite (fun _ => .after fun _ => hdone pos hpos keyword) fun _ => hdone pos hpos keyword

theorem implicitMember_places : Places place given (place.Holds none) implicitMember := by
  unfold implicitMember
  refine .here fun pos hpos => .after fun _ => .bind (nameOr_holds _) fun name => ?_
  exact .finish hpos rfl rfl fun h => by simpa using h.2

theorem poundExpression_places : Places place given (place.Holds none) poundExpression := by
  unfold poundExpression
  dsimp only
  have hdone (pos : Nat) (hpos : place.low ≤ pos) :
      Places place given (place.Holds none) (finish (.identifier .hash) pos) :=
    .finish hpos rfl rfl fun _ => nofun
  refine .here fun pos hpos => .after fun _ => .after fun availability => .after fun named => ?_
  have hrest : Places place given (place.Holds none) (do
      if availability then skipParens
      finish (.identifier .hash) pos) := by
    dsimp only
    exact .ite (fun _ => .after fun _ => hdone pos hpos) fun _ => hdone pos hpos
  refine .after fun blank => .ite (fun _ => .after fun _ => hrest) fun _ => .after fun _ => hrest

theorem bindingExpression_places :
    Places place given (place.Holds none) (bindingExpression nested) := by
  unfold bindingExpression
  refine .here fun pos hpos => .after fun _ => .bind nestedOperand_holds fun pattern => ?_
  exact .finish hpos rfl rfl fun h child hchild => h.2 child (by simpa using hchild)

/-- A literal is its token. -/
theorem literal_places {s : State} (hs : s.Sits place) (hne : s.kind ≠ .endOfFile) :
    PlacesFrom place given (place.Holds none) literal s := by
  have hmoved : Lays place given s s.advanced := .of_quiets (.advanced hs.settled) hs
  have hmissing : Form.literal s.kind ≠ .missing := nofun
  have hstop : max s.scanner.token.stop s.offset = s.scanner.token.stop :=
    Nat.max_eq_left hs.settled.token_le
  have hfinish : PlacesFrom place given (place.Holds none) (finish (.literal s.kind) s.offset)
      s.advanced := by
    refine Places.finish_at hmoved.sits hmissing (fun _ _ => ?_) fun _ id stop hform hrange => ?_
    · show Scanner.IsToken place.text s.kind (s.offset, max s.scanner.token.stop s.offset)
      rw [hstop]
      exact hs.streams.isToken hne
    · have hparts : place.Parts none (.literal s.kind) := ⟨nofun, nofun⟩
      have hbare : (Form.literal s.kind).needsBraces = true → place.bare = false := nofun
      exact Places.holds_of_parts hs.low_le rfl hbare (fun _ h => h) hparts hform hrange
  unfold literal
  refine Ensures.peek (Ensures.peek (.modify _ ?_))
  exact (show Ensures _ _ _ from hfinish).mono fun id s₂ h₂ => ⟨hmoved.trans h₂.1, h₂.2⟩

theorem typeList_places :
    Places place given (fun ids => ∀ types ∈ ids, ∀ id ∈ types, place.Holds none id)
      (typeList nested) := by
  unfold typeList
  refine .loop ?_ fun types => .after fun k => .ite (fun _ => ?_) fun _ => .pure fun _ => nofun
  · rintro - types ⟨⟩
    nofun
  · refine .bind nestedType_places fun type => .after fun found => ?_
    have hmore (h : (given ∧ ∀ ids ∈ types, ∀ id ∈ ids, place.Holds none id) ∧
          place.Holds none type) :
        ∀ ids ∈ types.map (· ++ [type]), ∀ id ∈ ids, place.Holds none id :=
      Places.forall_mem_snoc h.1.2 h.2
    exact .ite (fun _ => .pure hmore) fun _ => .pure hmore

theorem specialization_places :
    Places place given (fun ids => ∀ types ∈ ids, ∀ id ∈ types, place.Holds none id)
      (specialization nested) := by
  unfold specialization
  refine .attempt (.after fun _ => .bind typeList_places fun types => ?_)
  cases types with
  | none => exact .pure fun _ => nofun
  | some types =>
    refine .after fun closed => .ite (fun _ => ?_) fun _ => .pure fun _ => nofun
    refine .after fun broken => .after fun k => .ite (fun _ => .pure fun h => h.2) fun _ => ?_
    exact .pure fun _ => nofun

/-! ## Section 6: Suffixes -/

/-- A trailing closure is only looked for where one is allowed. -/
theorem atTrailingClosure_free {s : State} (hs : s.Sits place)
    (h : (atTrailingClosure s).1 = true) : place.bare = false := by
  have hlook : Ensures atTrailingClosure s fun found _ =>
      found = true → s.context.noTrailingClosure = false := by
    unfold atTrailingClosure
    refine .peek (.peek (.ite (fun hat => ?_) fun _ =>
      .pure fun hfound => absurd hfound Bool.false_ne_true))
    have hallowed : (!s.context.noTrailingClosure) = true := (Bool.and_eq_true_iff.mp hat).2
    exact ⟨fun _ => by simpa using hallowed⟩
  rw [← hs.bare_eq]
  exact hlook.holds h

section suffixes

variable {pos : Nat} {base : Option Nat} (hpos : place.low ≤ pos)
  (hbase : given → ∀ id ∈ base, place.Holds (some .expression) id)

include hpos hbase

theorem memberSuffix_places :
    Places place given (place.Holds (some .expression)) (memberSuffix pos base) := by
  unfold memberSuffix
  dsimp only
  have hdone (member : Nat) : Places place (given ∧ place.Holds none member)
      (place.Holds (some .expression)) (finish (.memberAccess base member) pos) := by
    refine .finish_in hpos rfl nofun fun h => ⟨by simpa using h.2, fun child hchild => ?_⟩
    exact hbase h.1 child (by simpa using hchild)
  refine .after fun _ => .after fun named => .after fun number => .ite (fun _ => ?_) fun _ => ?_
  · exact .bind name_holds hdone
  · exact .bind (missing_holds _) hdone

/-- A call, with a trailing closure only if one is allowed. -/
theorem finish_call {arguments additional : List Nat} {trailing : Option Nat} {given' : Prop}
    (hallowed : trailing.isSome = true → place.bare = false) (hgiven : given' → given)
    (harguments : given' → ∀ id ∈ arguments ++ trailing.toList ++ additional, place.Holds none id) :
    Places place given' (place.Holds (some .expression))
      (finish (.call base arguments trailing additional) pos) := by
  refine .finish_ruled hpos rfl hallowed (fun _ h => h) nofun (fun h => ⟨?_, fun child hchild => ?_⟩)
    fun _ _ => trivial
  · exact harguments h
  · exact hbase (hgiven h) child (by simpa using hchild)

theorem callSuffix_places :
    Places place given (place.Holds (some .expression)) (callSuffix nested pos base) := by
  unfold callSuffix
  dsimp only
  refine .bind parenArguments_places fun arguments => ?_
  refine .look (P := fun found => found = true → place.bare = false)
    (fun s hs => atTrailingClosure_free hs) fun found hallowed => .ite (fun hfound => ?_) fun _ => ?_
  · refine .bind trailingClosures_places fun closures => ?_
    refine finish_call hpos hbase (fun _ => hallowed hfound) (fun h => h.1.1) fun h id hid => ?_
    have hpart : id ∈ arguments ∨ id = closures.1 ∨ id ∈ closures.2 := by simpa using hid
    rcases hpart with hargument | rfl | hadditional
    · exact (h.1.2 id hargument).here
    · exact h.2.1.here
    · exact (h.2.2 id hadditional).here
  · refine finish_call hpos hbase nofun (fun h => h.1) fun h id hid => ?_
    exact (h.2 id (by simpa using hid)).here

theorem trailingSuffix_places (hallowed : place.bare = false) :
    Places place given (place.Holds (some .expression)) (trailingSuffix nested pos base) := by
  unfold trailingSuffix
  dsimp only
  refine .bind trailingClosures_places fun closures => ?_
  refine finish_call hpos hbase (fun _ => hallowed) (fun h => h.1) fun h id hid => ?_
  have hpart : id = closures.1 ∨ id ∈ closures.2 := by simpa using hid
  rcases hpart with rfl | hadditional
  · exact h.2.1.here
  · exact (h.2.2 id hadditional).here

theorem subscriptSuffix_places :
    Places place given (place.Holds (some .expression)) (subscriptSuffix nested pos base) := by
  unfold subscriptSuffix
  refine .bind bracketArguments_places fun arguments => ?_
  refine .finish_in hpos rfl nofun fun h => ⟨fun id hid => (h.2 id hid).here, fun child hchild => ?_⟩
  exact hbase h.1 child (by simpa using hchild)

theorem operatorSuffix_places :
    Places place given (place.Holds (some .expression)) (operatorSuffix pos base) := by
  unfold operatorSuffix
  refine .after fun token => .after fun _ => ?_
  refine .finish_in hpos rfl nofun fun h => ⟨nofun, fun child hchild => ?_⟩
  exact hbase h child (by simpa using hchild)

theorem genericSuffix_places :
    Places place given (fun r => ∀ id ∈ r, place.Holds (some .expression) id)
      (genericSuffix nested pos base) := by
  unfold genericSuffix
  refine .bind specialization_places fun arguments => ?_
  cases arguments with
  | none => exact .absent
  | some arguments =>
    refine .some (.finish_in hpos rfl nofun fun h => ⟨h.2 arguments rfl, fun child hchild => ?_⟩)
    exact hbase h.1 child (by simpa using hchild)

theorem suffix?_places :
    Places place given (fun r => ∀ id ∈ r, place.Holds (some .expression) id)
      (suffix? nested pos base) := by
  unfold suffix?
  refine .after fun k => ?_
  split
  · exact .some (memberSuffix_places hpos hbase)
  · refine .after fun fresh => .ite (fun _ => .absent) fun _ => ?_
    exact .some (callSuffix_places hpos hbase)
  · refine .look (P := fun found => found = true → place.bare = false)
      (fun s hs => atTrailingClosure_free hs) fun found hallowed => ?_
    refine .ite (fun hfound => .after fun form => ?_) fun _ => .absent
    refine .ite (fun _ => ?_) fun _ => .absent
    exact .some (trailingSuffix_places hpos hbase (hallowed hfound))
  · refine .after fun fresh => .ite (fun _ => .absent) fun _ => ?_
    exact .some (subscriptSuffix_places hpos hbase)
  · refine .after fun blank => .ite (fun _ => .absent) fun _ => ?_
    exact .some (operatorSuffix_places hpos hbase)
  · refine .after fun blank => .ite (fun _ => .absent) fun _ => ?_
    exact .some (operatorSuffix_places hpos hbase)
  · refine .after fun blank => .after fun bound => .ite (fun _ => ?_) fun _ => .absent
    exact .some (operatorSuffix_places hpos hbase)
  · refine .after fun blank => .ite (fun _ => .absent) fun _ => ?_
    exact genericSuffix_places hpos hbase
  · exact .absent

end suffixes

end SelfCapture.Grammar
