import SelfCapture.Proofs.Grammar.PlacedExpressions

/-! # Placed nodes of control statements

  The rules for control statements place their nodes, and with them those
  for whole expressions, as a statement can be an operand.

  Conditions are read without trailing closures, bodies with them.  The
  value of a `switch` is absent only at the nesting limit.  Then a stray
  statement may come first in its body, but at the limit no expression can
  be read in a statement.
-/

set_option synthInstance.maxSize 1000

namespace SelfCapture

namespace Grammar

open Token (Kind)

variable {place : Place} {given : Prop} {nested : Readers} [nested.Placing]

/-! ## Section 1: Branches and loops -/

theorem optionalBinding_places : Places place given (place.Holds none) (optionalBinding nested) := by
  unfold optionalBinding
  refine .here fun pos hpos => .after fun _ => .bind bindingPattern_places fun pattern => ?_
  refine .bind typeClause_places fun type => .bind initialValue_places fun initial => ?_
  refine .finish hpos rfl rfl fun h child hchild => ?_
  have hpart : child = pattern ∨ child ∈ type ∨ child ∈ initial := by simpa using hchild
  rcases hpart with rfl | htype | hinitial
  · exact h.1.1.2
  · exact h.1.2 child htype
  · exact h.2 child hinitial

theorem condition_places :
    Places place given (fun r => ∀ id ∈ r, place.Holds none id) (condition nested) := by
  unfold condition
  refine .after fun k => ?_
  split
  · exact .some optionalBinding_places
  · exact .some optionalBinding_places
  · exact .after fun _ => nestedExpression_holds
  · exact nestedExpression_holds

/-- Conditions are read without trailing closures. -/
theorem conditions_places :
    Places place given (fun ids => ∀ id ∈ ids, (place.under true).Holds none id)
      (conditions nested) := by
  unfold conditions
  exact .asCondition (.separated (.optional condition_places))

/-- The value of a `switch` or the condition of a `repeat`, which is absent
    only at the nesting limit. -/
theorem headExpression_places :
    Places place given (fun ids => (∀ id ∈ ids, (place.under true).Holds none id) ∧
      (ids = [] → maxDepth ≤ place.depth + 1)) (headExpression nested) := by
  unfold headExpression
  refine .asCondition (.bind nestedExpression_places fun value => .pure fun h => ⟨?_, fun hnone => ?_⟩)
  · exact fun id hid => h.2.holds id (Option.mem_toList.mp hid)
  · exact h.2.limit_le (by simpa using hnone)

theorem expressions_places :
    Places place given (fun ids => ∀ id ∈ ids, place.Holds none id) (expressions nested) := by
  unfold expressions
  exact .separated (.optional nestedExpression_holds)

theorem whereCondition_places :
    Places place given (fun ids => ∀ id ∈ ids, place.Holds none id) (whereCondition nested) := by
  unfold whereCondition
  refine .after fun found => .ite (fun _ => ?_) fun _ => .pure fun _ => nofun
  exact .optional nestedExpression_holds

/-- After an `else` there is one statement, which can be a further branch. -/
theorem alternative_places :
    Places place given
      (fun ids => ids.length ≤ 1 ∧ ∀ id ∈ ids, place.Anywhere (some .statement) id)
      (alternative nested) := by
  unfold alternative
  refine .after fun found => .ite (fun _ => ?_) fun _ => .pure fun _ => ⟨by simp, nofun⟩
  refine .after fun again => .ite (fun _ => ?_) fun _ => ?_
  · refine .bind nestedBranch_places fun id => .pure fun h => ⟨by simp, ?_⟩
    exact List.forall_mem_singleton.mpr h.2
  · refine .bind block_places fun id => .pure fun h => ⟨by simp, ?_⟩
    exact List.forall_mem_singleton.mpr h.2.lift

/-- What comes before the alternative of a branch. -/
theorem mem_dropLast_branch {conditions alternative : List Nat} {body id : Nat}
    (hlength : alternative.length ≤ 1) (h : id ∈ (conditions ++ body :: alternative).dropLast) :
    id ∈ conditions ∨ id = body := by
  match alternative with
  | [] => exact .inl (by simpa using h)
  | [other] =>
    have hlist : conditions ++ body :: [other] = (conditions ++ [body]) ++ [other] := by simp
    rw [hlist, List.dropLast_concat] at h
    simpa using h

theorem branchStatement_places :
    Places place given (place.Anywhere (some .statement)) (branchStatement nested) := by
  unfold branchStatement
  refine .here fun pos hpos => .after fun _ => .bind conditions_places fun conditions => ?_
  refine .bind block_places fun body => .bind alternative_places fun alternative => ?_
  refine .finish_head hpos rfl (fun _ h => h) fun h => ⟨fun id hid => ?_, fun id hid => ?_⟩
  · rcases mem_dropLast_branch h.2.1 hid with hcondition | rfl
    · exact h.1.1.2 id hcondition
    · exact h.1.2 true
  · have hmem : id ∈ conditions ++ body :: alternative :=
      List.mem_of_getLast? (by simpa using hid)
    have hpart : id ∈ conditions ∨ id = body ∨ id ∈ alternative := by simpa using hmem
    rcases hpart with hcondition | rfl | halternative
    · exact (h.1.1.2 id hcondition).lift
    · exact (h.1.2 true).lift
    · exact h.2.2 id halternative true

/-- A control statement with a head, other than a branch. -/
theorem finish_loop {sort : ControlSort} {children : List Nat} {pos : Nat} (hpos : place.low ≤ pos)
    (hhead : sort.hasHead = true) (htier : (Form.control sort children).tier? = none)
    (hparts : given → ∀ id ∈ children, (place.under true).Holds none id) :
    Places place given (place.Anywhere none) (finish (.control sort children) pos) := by
  refine .finish_head hpos hhead (fun tier h => ?_) fun h => ⟨fun id hid => ?_, fun id hid => ?_⟩
  · rw [htier] at h
    cases h
  · have hpart := Form.mem_children_iff.mpr (.inr hid)
    exact hparts h id (by simpa using hpart)
  · have hpart := Form.mem_children_iff.mpr (.inl hid)
    exact (hparts h id (by simpa using hpart)).lift

theorem guardStatement_places :
    Places place given (place.Anywhere none) (guardStatement nested) := by
  unfold guardStatement
  refine .here fun pos hpos => .after fun _ => .bind conditions_places fun conditions => ?_
  refine .after fun _ => .bind block_places fun body => finish_loop hpos rfl rfl fun h => ?_
  exact List.forall_mem_append.mpr ⟨h.1.2, List.forall_mem_singleton.mpr (h.2 true)⟩

theorem whileStatement_places :
    Places place given (place.Anywhere none) (whileStatement nested) := by
  unfold whileStatement
  refine .here fun pos hpos => .after fun _ => .bind conditions_places fun conditions => ?_
  refine .bind block_places fun body => finish_loop hpos rfl rfl fun h => ?_
  exact List.forall_mem_append.mpr ⟨h.1.2, List.forall_mem_singleton.mpr (h.2 true)⟩

theorem repeatStatement_places :
    Places place given (place.Anywhere none) (repeatStatement nested) := by
  unfold repeatStatement
  dsimp only
  refine .here fun pos hpos => .after fun _ => .bind block_places fun body => ?_
  have hdone (condition : List Nat) : Places place ((given ∧ place.Anywhere none body) ∧
      ∀ id ∈ condition, (place.under true).Holds none id) (place.Anywhere none)
      (finish (.control .repeatLoop (body :: condition)) pos) :=
    finish_loop hpos rfl rfl fun h => List.forall_mem_cons.mpr ⟨h.1.2 true, h.2⟩
  refine .after fun found => .ite (fun _ => ?_) fun _ => .bind (.pure fun _ => nofun) hdone
  exact .bind (headExpression_places.mono fun _ _ h => h.1) hdone

theorem forHead_places :
    Places place given (fun ids => ∀ id ∈ ids, (place.under true).Holds none id)
      (forHead nested) := by
  unfold forHead
  dsimp only
  refine .asCondition (.bind nestedExpression_holds fun pattern => ?_)
  refine .bind typeClause_places fun type => .after fun found => ?_
  have hdone (values : Option Nat) : Places (place.under true)
      (((given ∧ ∀ id ∈ pattern, (place.under true).Holds none id) ∧
        ∀ id ∈ type, (place.under true).Holds none id) ∧
        ∀ id ∈ values, (place.under true).Holds none id)
      (fun ids => ∀ id ∈ ids, (place.under true).Holds none id) (do
        let filter ← whereCondition nested
        return pattern.toList ++ type.toList ++ values.toList ++ filter) := by
    refine .bind whereCondition_places fun filter => .pure fun h id hid => ?_
    simp only [List.mem_append, Option.mem_toList] at hid
    rcases hid with ((hpattern | htype) | hvalues) | hfilter
    · exact h.1.1.1.2 id hpattern
    · exact h.1.1.2 id htype
    · exact h.1.2 id hvalues
    · exact h.2 id hfilter
  exact .ite (fun _ => .bind nestedExpression_holds hdone) fun _ => .bind .absent hdone

theorem forStatement_places : Places place given (place.Anywhere none) (forStatement nested) := by
  unfold forStatement
  refine .here fun pos hpos => .after fun _ => .after fun _ => .after fun _ => .after fun _ => ?_
  refine .bind forHead_places fun head => .bind block_places fun body => ?_
  refine finish_loop hpos rfl rfl fun h => ?_
  exact List.forall_mem_append.mpr ⟨h.1.2, List.forall_mem_singleton.mpr (h.2 true)⟩

/-! ## Section 2: `switch` and `do` -/

theorem switchCase_places (hfree : place.bare = false) :
    Places place given (place.Anywhere none) (switchCase nested) := by
  unfold switchCase
  refine .here fun pos hpos => .after fun _ => .bind expressions_places fun patterns => ?_
  refine .bind whereCondition_places fun filter => .after fun _ => ?_
  refine .bind (statementsUntil_places _ hfree) fun statements => ?_
  refine .finish_shield hpos rfl rfl rfl fun h child hchild => ?_
  have hpart : child ∈ patterns ∨ child ∈ filter ∨ child ∈ statements := by simpa using hchild
  rcases hpart with hpattern | hfilter | hstatement
  · exact (h.1.1.2 child hpattern).relax
  · exact (h.1.2 child hfilter).relax
  · exact (h.2 child hstatement).relax

theorem switchDefault_places (hfree : place.bare = false) :
    Places place given (place.Anywhere none) (switchDefault nested) := by
  unfold switchDefault
  refine .here fun pos hpos => .after fun _ => .after fun _ => ?_
  refine .bind (statementsUntil_places _ hfree) fun statements => ?_
  exact .finish_shield hpos rfl rfl rfl fun h child hchild => (h.2 child (by simpa using hchild)).relax

theorem strayInSwitch_places (hfree : place.bare = false) :
    Places place given (fun ids => ∀ id ∈ ids, place.Stated id) (strayInSwitch nested) := by
  unfold strayInSwitch
  exact .after fun _ => .optional (nestedStatement_places hfree)

/-- A clause can come first in a `switch` as a statement can. -/
theorem Place.Anywhere.stated {id : Nat} (h : place.Anywhere none id) : place.Stated id :=
  ⟨h.here, fun _ => h.not_exposes⟩

theorem switchEntry_places (hfree : place.bare = false) :
    Places place given (fun ids => ∀ id ∈ ids, place.Stated id) (switchEntry nested) := by
  unfold switchEntry
  refine .after fun k => ?_
  split
  · refine .after fun directive => .ite (fun _ => ?_) fun _ => strayInSwitch_places hfree
    exact .after fun _ => .pure fun _ => List.forall_mem_nil _
  · exact .after fun _ => .pure fun _ => List.forall_mem_nil _
  · exact .single ((switchCase_places hfree).mono fun _ _ h => h.stated)
  · exact .single ((switchDefault_places hfree).mono fun _ _ h => h.stated)
  · exact strayInSwitch_places hfree

theorem switchEntries_places (hfree : place.bare = false) :
    Places place given (fun ids => ∀ id ∈ ids, place.Stated id) (switchEntries nested) := by
  unfold switchEntries
  dsimp only
  refine .gatherWhile (.after fun before => .bind (switchEntry_places hfree) fun entry => ?_)
  have hdone : Places place (given ∧ ∀ id ∈ entry, place.Stated id)
      (fun ids => ∀ id ∈ ids, place.Stated id) (pure entry) := .pure fun h => h.2
  exact .after fun after => .after fun ended => .ite (fun _ => .after fun _ => hdone) fun _ => hdone

/-- The first part of a `switch` is its value, or at the nesting limit an
    entry without calls. -/
theorem finish_switch {value cases : List Nat} {pos : Nat} (hpos : place.low ≤ pos)
    (hvalue : given → (∀ id ∈ value, (place.under true).Holds none id) ∧
      (value = [] → maxDepth ≤ place.depth + 1))
    (hcases : given → ∀ id ∈ cases, place.free.Stated id) :
    Places place given (place.Anywhere none) (finish (.control .switch (value ++ cases)) pos) := by
  refine .finish_shield_ruled hpos rfl nofun (fun h => ⟨fun id hid => ?_, nofun⟩)
    fun h stop => ⟨nofun, fun _ id hid => ?_⟩
  · have hpart : id ∈ value ∨ id ∈ cases := by simpa using hid
    exact hpart.elim (fun hmem => ((hvalue h).1 id hmem).relax) fun hmem => (hcases h id hmem).holds
  · cases value with
    | nil => exact (hcases h id (List.mem_of_head? hid)).not_exposes ((hvalue h).2 rfl)
    | cons first rest =>
      obtain rfl : first = id := by simpa using hid
      exact ((hvalue h).1 first List.mem_cons_self).placed.not_exposes

theorem switchStatement_places :
    Places place given (place.Anywhere none) (switchStatement nested) := by
  unfold switchStatement
  refine .here fun pos hpos => .after fun _ => .bind headExpression_places fun value => ?_
  refine .after fun found => .ite (fun _ => ?_) fun _ => ?_
  · refine .bind (.unrestricted (switchEntries_places rfl)) fun cases => .after fun _ => ?_
    exact finish_switch hpos (fun h => h.1.2) fun h => h.2
  · have hfinish : Places place (given ∧ (∀ id ∈ value, (place.under true).Holds none id) ∧
        (value = [] → maxDepth ≤ place.depth + 1)) (place.Anywhere none)
        (finish (.control .switch (value ++ [])) pos) :=
      finish_switch hpos (fun h => h.2) fun _ => nofun
    rwa [List.append_nil] at hfinish

theorem handlerHead_places :
    Places place given (fun ids => ∀ id ∈ ids, (place.under true).Holds none id)
      (handlerHead nested) := by
  unfold handlerHead
  dsimp only
  have hdone (patterns : List Nat) : Places (place.under true)
      (given ∧ ∀ id ∈ patterns, (place.under true).Holds none id)
      (fun ids => ∀ id ∈ ids, (place.under true).Holds none id) (do
        let filter ← whereCondition nested
        return patterns ++ filter) :=
    .bind whereCondition_places fun filter => .pure fun h => List.forall_mem_append.mpr ⟨h.1.2, h.2⟩
  refine .asCondition (.after fun found => .ite (fun _ => ?_) fun _ => ?_)
  · exact .bind (.pure fun _ => nofun) hdone
  · exact .bind expressions_places hdone

theorem handler_places : Places place given (place.Anywhere none) (handler nested) := by
  unfold handler
  refine .here fun pos hpos => .after fun _ => .bind handlerHead_places fun head => ?_
  refine .bind block_places fun body => finish_loop hpos rfl rfl fun h => ?_
  exact List.forall_mem_append.mpr ⟨h.1.2, List.forall_mem_singleton.mpr (h.2 true)⟩

theorem doStatement_places : Places place given (place.Anywhere none) (doStatement nested) := by
  unfold doStatement
  dsimp only
  have hrest (pos : Nat) (hpos : place.low ≤ pos) : Places place given (place.Anywhere none) (do
      let body ← block nested
      let handlers ← gatherWhile (isAt .catchKeyword) (do return [← handler nested])
      finish (.control .block (body :: handlers)) pos) := by
    refine .bind block_places fun body => ?_
    refine .bind (.gatherWhile (.single handler_places)) fun handlers => ?_
    refine .finish_shield hpos rfl rfl rfl fun h child hchild => ?_
    have hpart : child = body ∨ child ∈ handlers := by simpa using hchild
    rcases hpart with rfl | hhandler
    · exact h.1.2 false
    · exact h.2 child hhandler false
  refine .here fun pos hpos => .after fun _ => .after fun found => .ite (fun _ => ?_) fun _ =>
    hrest pos hpos
  exact .after fun attached => .ite (fun _ => hrest pos hpos) fun _ => .after fun _ => hrest pos hpos

theorem deferStatement_places :
    Places place given (place.Anywhere none) (deferStatement nested) := by
  unfold deferStatement
  refine .here fun pos hpos => .after fun _ => .bind block_places fun body => ?_
  exact .finish_shield hpos rfl rfl rfl fun h => by simpa using h.2 false

/-- A statement that leaves a block, with what it may be followed by. -/
theorem finish_exit {sort : ControlSort} {children : List Nat} {pos : Nat} (hpos : place.low ≤ pos)
    (hruled : (Form.control sort children).isRuled = false)
    (htier : (Form.control sort children).tier? = none)
    (hparts : given → ∀ id ∈ children, place.Holds none id) :
    Places place given (place.Anywhere none) (finish (.control sort children) pos) :=
  .finish_shield hpos rfl hruled htier fun h child hchild =>
    (hparts h child (by simpa using hchild)).relax

theorem exitStatement_places {sort : ControlSort}
    (hruled : ∀ children, (Form.control sort children).isRuled = false)
    (htier : ∀ children, (Form.control sort children).tier? = none) :
    Places place given (place.Anywhere none) (exitStatement nested sort) := by
  unfold exitStatement
  dsimp only
  have hdone (pos : Nat) (hpos : place.low ≤ pos) (value : Option Nat) :
      Places place (given ∧ ∀ id ∈ value, place.Holds none id) (place.Anywhere none)
        (finish (.control sort value.toList) pos) :=
    finish_exit hpos (hruled _) (htier _) fun h id hid => h.2 id (Option.mem_toList.mp hid)
  refine .here fun pos hpos => .after fun _ => .after fun found => .ite (fun _ => ?_) fun _ => ?_
  · exact .bind nestedExpression_holds (hdone pos hpos)
  · exact .bind .absent (hdone pos hpos)

theorem jumpStatement_places {sort : ControlSort}
    (hruled : ∀ children, (Form.control sort children).isRuled = false)
    (htier : ∀ children, (Form.control sort children).tier? = none) :
    Places place given (place.Anywhere none) (jumpStatement sort) := by
  unfold jumpStatement
  refine .here fun pos hpos => .after fun _ => .after fun named => .after fun fresh => ?_
  refine .ite (fun _ => .bind name_holds fun label => ?_) fun _ => ?_
  · exact finish_exit hpos (hruled _) (htier _) fun h => List.forall_mem_singleton.mpr h.2
  · exact finish_exit hpos (hruled _) (htier _) fun _ => nofun

theorem fallthroughStatement_places :
    Places place given (place.Anywhere none) fallthroughStatement := by
  unfold fallthroughStatement
  exact .here fun pos hpos => .after fun _ => finish_exit hpos rfl rfl fun _ => nofun

/-! ## Section 3: Operands -/

/-- An operand that is there. -/
theorem Places.found {item : Parse Nat} {limit : Nat} {tier? : Option Tier}
    (h : Places place given (place.Holds tier?) item) :
    Places place given (place.Found limit tier?) (Option.some <$> item) := by
  refine .map (h.mono fun id _ hid => ⟨?_, nofun⟩)
  rintro _ ⟨⟩
  exact hid

/-- A statement that is an operand is read one level deeper. -/
theorem statementExpression_places {item : Parse Nat} {tier? : Option Tier} (inner : Tier)
    (h : Places place.deeper given (place.deeper.Anywhere (some inner)) item) :
    Places place given (place.Found place.depth tier?) (statementExpression item) := by
  unfold statementExpression
  refine .guarded (fun hlimit => .pure fun _ => ⟨nofun, fun _ => hlimit⟩) fun hlow => ?_
  refine .map (h.mono fun id _ hid => ⟨?_, nofun⟩)
  rintro _ ⟨⟩
  exact hid.here.shallower hlow

theorem plainPrimary_places {tier? : Option Tier} :
    Places place given (place.Found place.depth tier?) (plainPrimary nested) := by
  -- A node that holds anywhere also does where it is found.
  have hitem {item : Parse Nat} (h : Places place given (place.Holds none) item) :
      Places place given (place.Found place.depth tier?) (some <$> item) :=
    .found (h.mono fun _ _ hid => hid.lift)
  have hanywhere {item : Parse Nat} (h : Places place given (place.Anywhere none) item) :
      Places place given (place.Found place.depth tier?) (some <$> item) :=
    hitem (h.mono fun _ _ hid => hid.here)
  have hsome {item : Parse Nat} {s : State} (h : PlacesFrom place given (place.Holds none) item s) :
      PlacesFrom place given (place.Found place.depth tier?) (some <$> item) s := by
    refine Ensures.map (Ensures.mono h fun id _ hid => ⟨hid.1, fun hfinal hg => ⟨?_, nofun⟩⟩)
    rintro _ ⟨⟩
    exact (hid.2 hfinal hg).lift
  intro s hs
  -- A literal is a token, so the end of the text has to be excluded.
  have hliteral {k : Kind} (hk : (kind s).1 = k) (hne : k ≠ .endOfFile) :
      PlacesFrom place given (place.Found place.depth tier?) (some <$> literal) s :=
    hsome (literal_places hs fun hend => hne (hk.symm.trans hend))
  have hstatement {item : Parse Nat} (h : Places place.deeper given (place.deeper.Anywhere none) item) :
      PlacesFrom place given (place.Found place.depth tier?) (statementExpression item) s :=
    statementExpression_places .statement (h.mono fun _ _ hid => hid.lift) s hs
  unfold plainPrimary
  refine Ensures.peek ?_
  split
  case h_1 | h_2 | h_3 | h_4 | h_5 => exact hitem name_holds s hs
  case h_6 hk | h_7 hk | h_8 hk | h_9 hk | h_10 hk => exact hliteral hk (by decide)
  case h_11 hk => exact hsome (stringExpression_places hs hk)
  · exact hitem implicitMember_places s hs
  · exact hitem tupleExpression_places s hs
  · exact hanywhere collectionExpression_places s hs
  · exact hanywhere closure_places s hs
  · exact hitem poundExpression_places s hs
  · exact statementExpression_places .statement branchStatement_places s hs
  · exact hstatement switchStatement_places
  · exact hstatement doStatement_places
  · exact hitem bindingExpression_places s hs
  · exact hitem bindingExpression_places s hs
  · exact hitem castNode_places s hs
  · exact hanywhere (.missing _) s hs

theorem primary_places {tier? : Option Tier} :
    Places place given (place.Found place.depth tier?) (primary nested) := by
  unfold primary
  exact .after fun _ => plainPrimary_places

/-! ## Section 4: Whole expressions -/

theorem suffixedExpression_places :
    Places place given (place.Found place.depth (some .expression)) (suffixedExpression nested) := by
  unfold suffixedExpression
  refine .here fun pos hpos => .bind primary_places fun base =>
    .loop (fun h => h.2) fun expression => ?_
  refine .bind (suffix?_places hpos fun h => h.2.holds) fun extended => ?_
  cases extended with
  | none => exact .pure fun h => h.1.2
  | some extended =>
    refine .pure fun h => ⟨?_, nofun⟩
    rintro _ ⟨⟩
    exact h.2 extended rfl

/-- A prefix operator and its operand. -/
theorem finish_prefix {token : Kind} {operand : Option Nat} {pos : Nat} (hpos : place.low ≤ pos)
    (hoperand : given → ∀ id ∈ operand, place.Holds (some .expression) id) :
    Places place given (place.Found place.depth (some .expression))
      (some <$> finish (.prefixOp token operand) pos) := by
  refine .found (.finish_in hpos rfl nofun fun h => ⟨nofun, fun child hchild => ?_⟩)
  exact hoperand h child (by simpa using hchild)

theorem prefixedExpression_places :
    Places place given (place.Found place.depth (some .expression)) (prefixedExpression nested) := by
  unfold prefixedExpression
  dsimp only
  refine .here fun pos hpos => .after fun token => ?_
  have hdone : Places place given (place.Found place.depth (some .expression)) (do
      let operand ← nested .operand
      some <$> finish (.prefixOp token operand) pos) := by
    refine .bind nestedOperand_holds fun operand => finish_prefix hpos fun h id hid => ?_
    exact (h.2 id hid).lift
  -- An operator before a blank stands alone; any other one takes an operand.
  have hoperator (hname : token.isName = false) :
      Places place given (place.Found place.depth (some .expression)) (do
      if ← beforeBlank then
        skipOperator
        some <$> finish (.identifier token) pos
      else
        advance
        let operand ← nested .operand
        some <$> finish (.prefixOp token operand) pos) := by
    refine .after fun blank => .ite (fun _ => .after fun _ => ?_) fun _ => .after fun _ => hdone
    exact .found (.finish_in hpos (by simp [hname]) nofun fun _ => ⟨nofun, nofun⟩)
  split
  · exact .after fun _ => .ite (fun _ => .after fun _ => hdone) fun _ => hdone
  · exact .after fun _ => .ite (fun _ => .after fun _ => hdone) fun _ => hdone
  · exact hoperator rfl
  · exact hoperator rfl
  · exact hoperator rfl
  · exact hoperator rfl
  · exact hoperator rfl
  · refine .after fun _ => .bind suffixedExpression_places fun operand => ?_
    exact finish_prefix hpos fun h => h.2.holds
  · exact suffixedExpression_places

theorem ternaryPart_places :
    Places place given (fun ids => ∀ id ∈ ids, place.Holds (some .expression) id)
      (ternaryPart nested) := by
  unfold ternaryPart
  refine .here fun pos hpos => .after fun _ => ?_
  refine .bind (.within (fun _ _ => rfl) nestedExpression_holds) fun whenTrue => .after fun _ => ?_
  refine .bind (.finish_shield hpos rfl rfl rfl fun h child hchild => ?_) fun ternary => ?_
  · exact h.2 child (by simpa using hchild)
  · refine .bind prefixedExpression_places fun whenFalse => .pure fun h => ?_
    refine List.forall_mem_cons.mpr ⟨(h.1.2.here).lift, fun id hid => ?_⟩
    exact h.2.holds id (Option.mem_toList.mp hid)

theorem infixPart_places :
    Places place given (fun ids => ∀ id ∈ ids, place.Holds (some .expression) id)
      (infixPart nested) := by
  unfold infixPart
  refine .bind operatorNode_places fun operator => .bind prefixedExpression_places fun operand => ?_
  refine .pure fun h => List.forall_mem_cons.mpr ⟨h.1.2.lift, fun id hid => ?_⟩
  exact h.2.holds id (Option.mem_toList.mp hid)

theorem sequencePart_places :
    Places place given (fun ids => ∀ id ∈ ids, place.Holds (some .expression) id)
      (sequencePart nested) := by
  have hnothing : Places place given (fun ids => ∀ id ∈ ids, place.Holds (some .expression) id)
      (pure []) := .pure fun _ => nofun
  unfold sequencePart
  refine .after fun k => ?_
  split
  · exact .after fun blank => .ite (fun _ => ternaryPart_places) fun _ => hnothing
  · exact .single (castNode_places.mono fun _ _ h => h.lift)
  · exact .single (castNode_places.mono fun _ _ h => h.lift)
  · exact infixPart_places
  · refine .ite (fun _ => .after fun isInfix => ?_) fun _ => hnothing
    exact .ite (fun _ => infixPart_places) fun _ => hnothing

theorem sequenceExpression_places :
    Places place given (place.Found place.depth (some .expression)) (sequenceExpression nested) := by
  unfold sequenceExpression
  refine .here fun pos hpos => .bind prefixedExpression_places fun first => ?_
  refine .bind (.loop (I := fun ids => ∀ id ∈ ids, place.Holds (some .expression) id)
    (fun _ => nofun) fun nodes => .bind sequencePart_places fun more => .pure fun h => ?_)
    fun others => ?_
  · split
    · exact h.1.2
    · exact List.forall_mem_append.mpr ⟨h.1.2, h.2⟩
  · refine .ite (fun _ => .pure fun h => h.1.2) fun _ => .found ?_
    refine .finish_in hpos rfl nofun fun h => ⟨nofun, fun child hchild => ?_⟩
    have hpart : child ∈ first ∨ child ∈ others := by simpa using hchild
    exact hpart.elim (h.1.2.holds child) (h.2 child)

/-- An expression is read one level deeper.  It is absent only if the limit
    is reached there. -/
theorem guardedExpression_places {body : Parse (Option Nat)}
    (h : Places place.deeper given (place.deeper.Found (place.depth + 1) (some .expression)) body) :
    Places place given (place.Found (place.depth + 1) none) (guarded missingExpression body) := by
  refine .guarded (fun _ => .found ((Places.missing _).mono fun _ _ hid => hid.here)) fun hlow => ?_
  exact h.mono fun r _ hr => ⟨fun id hid => (hr.holds id hid).shallower hlow, hr.limit_le⟩

theorem expression_places :
    Places place given (place.Found (place.depth + 1) none) (expression nested) :=
  guardedExpression_places sequenceExpression_places

theorem operand_places :
    Places place given (place.Found (place.depth + 1) none) (operand nested) :=
  guardedExpression_places prefixedExpression_places

end Grammar
end SelfCapture
