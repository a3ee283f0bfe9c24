import SelfCapture.Proofs.Grammar.DisplacedRules
import SelfCapture.Proofs.Grammar.SourceFile

/-! # Reading a displaced text

  Expressions and statements, where a string literal starts a window of its
  own, and from them the readers and the reading of a whole text.

  - `reader_mirrors` : readers with a larger allowance mirror those with a
    smaller one.
  - `sourceFile_behind` : what is read of a displaced text.
-/

namespace SelfCapture.Grammar

open Token (Kind)

variable {front : ByteArray} {nested nested' : Readers}

set_option synthInstance.maxSize 1000

/-! ## Section 1: Expressions -/

instance : Mirrors front skipOperator skipOperator := by
  unfold skipOperator
  infer_instance

instance : Mirrors front operatorNode operatorNode := by
  unfold operatorNode
  infer_instance

instance : Mirrors front isInfixHere isInfixHere := by
  unfold isInfixHere
  infer_instance

instance : Mirrors front skipMark skipMark := by
  unfold skipMark
  infer_instance

instance : Mirrors front implicitMember implicitMember := by
  unfold implicitMember
  infer_instance

instance : Mirrors front poundExpression poundExpression := by
  unfold poundExpression
  infer_instance

instance : Mirrors front literal literal := by
  unfold literal
  infer_instance

instance : Mirrors front atTrailingClosure atTrailingClosure := by
  refine .seq inferInstance fun atBrace => .get fun s s' hs => ?_
  rw [hs.context]
  infer_instance

instance : Mirrors front missingExpression missingExpression := by
  unfold missingExpression
  infer_instance

instance (node : Option Nat) : Mirrors front (formOf node) (formOf node) := by
  refine .get fun s s' hs => ?_
  have hform : s'.tree.form? = s.tree.form? := by
    rw [hs.tree]
    exact funext s.tree.form?_behind
  dsimp only
  rw [hform]
  infer_instance

section rules

variable [hn : ∀ q, Mirrors front (nested q) (nested' q)]

instance : Mirrors front (castNode nested) (castNode nested') := by
  unfold castNode
  infer_instance

/-- The first token of an interpolated expression. -/
theorem Mirrors.enter {α : Type} (segment : Segment) {p p' : Parse α} (h : Mirrors front p p') :
    Mirrors front
      (do
        modify fun s => { s with scanner := s.scanner.restrict segment.start segment.stop }
        advance
        p)
      (do
        modify fun s =>
          { s with scanner := s.scanner.restrict (segment.moved front.size).start
                      (segment.moved front.size).stop }
        advance
        p') where
  lasts s := h.lasts (s.entered segment)
  mirrors s s' hs := h.mirrors (s.entered segment) (s'.entered (segment.moved front.size))
    { hs with
      scanner := by
        show (s'.scanner.restrict _ _).scan = (s.scanner.restrict _ _).scan.behind front
        rw [hs.scanner]
        exact Scanner.scan_restrict_behind ..
      -- Nothing has been consumed in the window.
      previousStop := fun pos => by
        show max 0 _ = front.size + max 0 pos
        rw [Nat.zero_max, Nat.zero_max] }

theorem interpolations_mirror (segments : List Segment) :
    Mirrors front (interpolations nested segments)
      (interpolations nested' (segments.map (Segment.moved front.size))) := by
  induction segments with
  | nil => exact .pure []
  | cons segment rest ih =>
    refine .enter segment (.seq ?_ fun parts => .seq ih fun others => .pure _)
    refine within_mirrors _ (gatherWhile_mirrors ?_)
    refine .start fun before => .seq inferInstance fun part => .seq inferInstance fun comma => ?_
    split
    · infer_instance
    · refine .start fun pos => ?_
      simp only [Text.add_beq_add]
      infer_instance

theorem interpolatedParts_mirror (segments : List Segment) :
    Mirrors front (interpolatedParts nested segments)
      (interpolatedParts nested' (segments.map (Segment.moved front.size))) := by
  refine .get fun s s' hs => .seq (interpolations_mirror segments) fun parts => ?_
  -- Both runs come back to the string literal.
  refine .seq (.step (fun _ => rfl) (fun _ => rfl) (fun _ => rfl) fun s₁ s₁' h₁ => ?_)
    fun _ => .pure parts
  exact { h₁ with scanner := (hs.rewind h₁).scanner, previousStop := hs.previousStop }

instance : Mirrors front (stringExpression nested) (stringExpression nested') := by
  refine .start fun pos => .get fun s s' hs => ?_
  have hsegments : s'.scanner.segments =
      s.scanner.segments.map (Segment.moved front.size) := by
    rw [hs.scanner]
    rfl
  have hparts : Mirrors front (interpolatedParts nested s.scanner.segments)
      (interpolatedParts nested' s'.scanner.segments) := by
    rw [hsegments]
    exact interpolatedParts_mirror _
  have hempty : s'.scanner.segments.isEmpty = s.scanner.segments.isEmpty := by
    rw [hsegments, List.isEmpty_map]
  dsimp only
  rw [hempty]
  infer_instance

instance : Mirrors front (bindingExpression nested) (bindingExpression nested') := by
  unfold bindingExpression
  infer_instance

instance {statement statement' : Parse Nat} [Mirrors front statement statement'] :
    Mirrors front (statementExpression statement) (statementExpression statement') := by
  unfold statementExpression
  infer_instance

instance : Mirrors front (plainPrimary nested) (plainPrimary nested') := by
  refine .seq inferInstance fun k => ?_
  split <;> infer_instance

instance : Mirrors front (primary nested) (primary nested') := by
  unfold primary
  infer_instance

instance : Mirrors front (typeList nested) (typeList nested') := by
  unfold typeList
  infer_instance

instance : Mirrors front (specialization nested) (specialization nested') := by
  refine attempt_mirrors (.seq inferInstance fun _ => .seq inferInstance fun types => ?_)
  cases types <;> infer_instance

instance (pos : Nat) (base : Option Nat) :
    Mirrors front (memberSuffix pos base) (memberSuffix (front.size + pos) base) := by
  unfold memberSuffix
  infer_instance

instance (pos : Nat) (base : Option Nat) :
    Mirrors front (operatorSuffix pos base) (operatorSuffix (front.size + pos) base) := by
  unfold operatorSuffix
  infer_instance

instance (pos : Nat) (base : Option Nat) :
    Mirrors front (callSuffix nested pos base) (callSuffix nested' (front.size + pos) base) := by
  unfold callSuffix
  infer_instance

instance (pos : Nat) (base : Option Nat) :
    Mirrors front (trailingSuffix nested pos base)
      (trailingSuffix nested' (front.size + pos) base) := by
  unfold trailingSuffix
  infer_instance

instance (pos : Nat) (base : Option Nat) :
    Mirrors front (subscriptSuffix nested pos base)
      (subscriptSuffix nested' (front.size + pos) base) := by
  unfold subscriptSuffix
  infer_instance

instance (pos : Nat) (base : Option Nat) :
    Mirrors front (genericSuffix nested pos base)
      (genericSuffix nested' (front.size + pos) base) := by
  refine .seq inferInstance fun arguments => ?_
  cases arguments <;> infer_instance

instance (pos : Nat) (base : Option Nat) :
    Mirrors front (suffix? nested pos base) (suffix? nested' (front.size + pos) base) := by
  refine .seq inferInstance fun k => ?_
  split <;> infer_instance

instance : Mirrors front (suffixedExpression nested) (suffixedExpression nested') := by
  refine .start fun pos => .seq inferInstance fun base => ?_
  refine loop_mirrors base fun expression => .seq inferInstance fun extended => ?_
  cases extended <;> infer_instance

instance : Mirrors front (prefixedExpression nested) (prefixedExpression nested') := by
  refine .start fun pos => .seq inferInstance fun token => ?_
  split
  · dsimp only
    infer_instance
  · dsimp only
    infer_instance
  all_goals infer_instance

instance : Mirrors front (ternaryPart nested) (ternaryPart nested') := by
  unfold ternaryPart
  infer_instance

instance : Mirrors front (infixPart nested) (infixPart nested') := by
  unfold infixPart
  infer_instance

instance : Mirrors front (sequencePart nested) (sequencePart nested') := by
  refine .seq inferInstance fun k => ?_
  split <;> infer_instance

instance : Mirrors front (sequenceExpression nested) (sequenceExpression nested') := by
  unfold sequenceExpression
  infer_instance

instance : Mirrors front (expression nested) (expression nested') := by
  unfold expression
  infer_instance

instance : Mirrors front (operand nested) (operand nested') := by
  unfold operand
  infer_instance

end rules

/-! ## Section 2: Statements -/

instance : Mirrors front atLabelledStatement atLabelledStatement := by
  refine nextIs_mirrors (.seq inferInstance fun colon => ?_)
  split
  · refine .seq inferInstance fun k => ?_
    split <;> infer_instance
  · infer_instance

section rules

variable [hn : ∀ q, Mirrors front (nested q) (nested' q)]

instance : Mirrors front (controlStatement? nested) (controlStatement? nested') := by
  refine .seq inferInstance fun k => ?_
  split <;> infer_instance

instance : Mirrors front (plainStatement nested) (plainStatement nested') := by
  unfold plainStatement
  infer_instance

instance : Mirrors front (anyStatement nested) (anyStatement nested') := by
  refine .seq inferInstance fun k => ?_
  split
  · infer_instance
  · infer_instance
  · refine .seq inferInstance fun control => ?_
    cases control <;> infer_instance

instance : Mirrors front (statement nested) (statement nested') := by
  unfold statement
  infer_instance

end rules

/-! ## Section 3: Readers -/

instance phrase_mirrors [hn : ∀ q, Mirrors front (nested q) (nested' q)] (q : Phrase) :
    Mirrors front (phrase nested q) (phrase nested' q) := by
  cases q <;> (unfold phrase; infer_instance)

/-- Where no phrase may be opened any more, the allowance is used up. -/
theorem noReader_mirrored (q : Phrase) (p : Parse q.Result) : Mirrors front (noReader q) p := by
  cases q <;> exact exhaust_mirrored _ p fun _ _ => rfl

/-- Readers with a larger allowance mirror those with a smaller one. -/
theorem reader_mirrors {count count' : Nat} (h : count ≤ count') (q : Phrase) :
    Mirrors front (reader count q) (reader count' q) := by
  induction count generalizing count' q with
  | zero => exact noReader_mirrored q _
  | succ count ih =>
    obtain ⟨count', rfl⟩ : ∃ n, count' = n + 1 := ⟨count' - 1, by omega⟩
    have hnested : ∀ q, Mirrors front (reader count q) (reader count' q) :=
      fun q => ih (Nat.le_of_succ_le_succ h) q
    exact phrase_mirrors q

/-! ## Section 4: Whole texts -/

/-- The statements of a text are read from its first token, then the root is made. -/
theorem sourceFile_eq {text : String} {statements : List Nat} {s : State}
    (h : statementsUntil (reader (2 * text.toByteArray.size + 2)) (isAt .endOfFile)
      (State.ofText text).advanced = (statements, s)) :
    sourceFile (State.ofText text) =
      (s.tree.nextId, s.made (.sourceFile statements) 0 text.toByteArray.size) := by
  have hread : Ensures sourceFile (State.ofText text) fun root final =>
      root = s.tree.nextId ∧
        final = s.made (.sourceFile statements) 0 text.toByteArray.size := by
    unfold sourceFile
    refine .modify _ (.peek ?_)
    have hstatements : Ensures (statementsUntil (reader (2 * text.toByteArray.size + 2))
        (isAt .endOfFile)) (State.ofText text).advanced fun r s' => r = statements ∧ s' = s :=
      ⟨by rw [h], by rw [h]⟩
    refine hstatements.bind fun r s' hr => ?_
    obtain ⟨rfl, rfl⟩ := hr
    exact ⟨rfl, rfl⟩
  exact Prod.ext hread.holds.1 hread.holds.2

/-- A text and a displaced one have the same statements, if their first tokens correspond. -/
theorem sourceFile_behind {text text' : String}
    (hstart : (State.ofText text).advanced.Displaced front (State.ofText text').advanced) :
    ∃ statements, ∃ s s' : State, s.Displaced front s' ∧
      sourceFile (State.ofText text) =
        (s.tree.nextId, s.made (.sourceFile statements) 0 text.toByteArray.size) ∧
      sourceFile (State.ofText text') =
        (s'.tree.nextId, s'.made (.sourceFile statements) 0 text'.toByteArray.size) := by
  have hbytes : text'.toByteArray = front ++ text.toByteArray :=
    congrArg Scanner.bytes hstart.scanner
  have hsize : text.toByteArray.size ≤ text'.toByteArray.size := by
    rw [hbytes, ByteArray.size_append]
    exact Nat.le_add_left ..
  have hreaders : ∀ q, Mirrors front (reader (2 * text.toByteArray.size + 2) q)
      (reader (2 * text'.toByteArray.size + 2) q) := reader_mirrors (by omega)
  have hread : Mirrors front
      (statementsUntil (reader (2 * text.toByteArray.size + 2)) (isAt .endOfFile))
      (statementsUntil (reader (2 * text'.toByteArray.size + 2)) (isAt .endOfFile)) :=
    inferInstance
  -- What the two runs come to.
  rcases hr : statementsUntil (reader (2 * text.toByteArray.size + 2)) (isAt .endOfFile)
    (State.ofText text).advanced with ⟨statements, s⟩
  rcases hr' : statementsUntil (reader (2 * text'.toByteArray.size + 2)) (isAt .endOfFile)
    (State.ofText text').advanced with ⟨statements', s'⟩
  have hlasts : s.exhausted = false := by
    have hlasts := sourceFile_lasts text
    rwa [sourceFile_eq hr] at hlasts
  have hmirrors := hread.mirrors (State.ofText text).advanced (State.ofText text').advanced hstart
  rw [hr, hr'] at hmirrors
  obtain ⟨rfl, hend⟩ := hmirrors hlasts
  exact ⟨_, s, s', hend, sourceFile_eq hr, sourceFile_eq hr'⟩

/-- The runs start alike if their first tokens correspond. -/
theorem ofText_behind {text text' : String} (hbytes : text'.toByteArray = front ++ text.toByteArray)
    (hscan : (Scanner.ofText text').scan = (Scanner.ofText text).scan.behind front) :
    (State.ofText text).advanced.Displaced front (State.ofText text').advanced where
  scanner := hscan
  tree := by
    show Tree.mk text'.toByteArray #[] = Tree.behind front (Tree.mk text.toByteArray #[])
    rw [hbytes, Tree.behind, Array.map_empty]
  previousStop pos := by
    show max 0 _ = _ + max 0 pos
    rw [Nat.zero_max, Nat.zero_max]
  context := rfl
  diagnostics := Array.map_empty.symm
  lastIssueAt := rfl
  depth := rfl
  exhausted := rfl

theorem ofText_lineFeeds (k : Nat) (rest : String) :
    (State.ofText ("\n" ++ rest)).advanced.Displaced (lineFeeds k).toByteArray
      (State.ofText (lineFeeds k ++ ("\n" ++ rest))).advanced :=
  ofText_behind String.toByteArray_append (Scanner.scan_ofText_behind k rest)

end SelfCapture.Grammar
