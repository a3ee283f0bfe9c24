import SelfCapture.Proofs.Grammar.SkippedBraces

/-! # Bodies in braces

  A body is read from its opening brace: what is in it is balanced, and the
  closing brace after it, if there is one, is the partner of the opening
  one.  `Encloses q s s'` says this of a reading from the opening brace to
  behind the closing one; a block or closure is then made of it.

  The entries of a body in which nothing is consumed are skipped over.  This
  never happens without an issue, since every entry takes a token or is
  reported.
-/

set_option synthInstance.maxSize 1000

namespace SelfCapture.Grammar

open Token (Kind)

variable {q : Nat} {s s' s₁ : State}

/-! ## Section 1: Opening and closing -/

/-- The reading starts at an opening brace and ends behind its partner. -/
structure Encloses (q : Nat) (s s' : State) : Prop extends TalliesIn s'.tree q s s' where
  offset_le_stop : s.offset ≤ s'.previousStop
  partner : s'.Troubled ∨ ∀ {all before row}, s.At all before row → s'.tree.Angled all →
    ∃ rest close, row = s.scanner.token :: rest ∧ Token.partner? 0 rest = some close ∧
      close.stop = s'.previousStop

theorem Encloses.mono {q' : Nat} (h : Encloses q' s s') (hle : q ≤ q') : Encloses q s s' :=
  ⟨h.toTalliesIn.mono hle, h.offset_le_stop, h.partner⟩

/-- The closing brace after a body. -/
theorem Tallies.closed (hs : s.Steady) (hk : s.kind = .openBrace) (hbody : Tallies q s.advanced s₁)
    (hclose : s₁.kind = .closeBrace) : Encloses q s s₁.advanced := by
  have hopen : Moves q s s.advanced := .advanced hs q
  have hend : Moves q s₁ s₁.advanced := .advanced hbody.steady q
  have hmoves := (hopen.trans hbody.toMoves).trans hend
  have hle : s.offset ≤ s₁.advanced.previousStop :=
    Nat.le_trans hs.settled.token_le ((hbody.toMoves.trans hend).previousStop_le)
  have hne : s.kind ≠ .endOfFile := hk ▸ by decide
  have hne₁ : s₁.kind ≠ .endOfFile := hclose ▸ by decide
  -- From the first brace to the last, as long as there is no trouble.
  have hrow : s₁.Troubled ∨ ∀ {all before row}, s.At all before row → s₁.tree.Angled all →
      ∃ inner rest, row = s.scanner.token :: (inner ++ s₁.scanner.token :: rest) ∧
        Token.Balanced inner ∧
        s₁.advanced.At all (before ++ s.scanner.token :: (inner ++ [s₁.scanner.token])) rest := by
    refine hbody.counted.imp_right fun hcounted {all before row} hat hangled => ?_
    obtain ⟨rest, rfl, hat₁⟩ := hat.advanced hs hne
    rcases hcounted hat₁ hangled with hover | ⟨inner, rest', rfl, hat₂, hbalanced⟩
    · exact absurd (hbody.steady.kind_of_over hover) hne₁
    · obtain ⟨rest, rfl, hat₃⟩ := hat₂.advanced hbody.steady hne₁
      exact ⟨inner, rest, rfl, hbalanced, by simpa using hat₃⟩
  refine ⟨⟨hmoves, ?_, ?_⟩, hle, ?_⟩
  · refine hrow.imp hend.troubled fun hrow {all before row} hat hangled => ?_
    obtain ⟨inner, rest, rfl, hbalanced, hat'⟩ := hrow hat hangled
    refine Or.inr ⟨s.scanner.token :: (inner ++ [s₁.scanner.token]), rest, by simp, hat', ?_⟩
    exact hbalanced.enclose hk hclose
  · refine hbody.closes.imp hend.troubled fun hcloses {all before row} hat hangled id hid => ?_
    rcases hat with hover | hat
    · exact absurd (hs.kind_of_over hover) hne
    · obtain ⟨rest, rfl, hat₁⟩ := hat.advanced hs hne
      exact hcloses (Or.inr hat₁) hangled id hid
  · refine hrow.imp hend.troubled fun hrow {all before row} hat hangled => ?_
    obtain ⟨inner, rest, rfl, hbalanced, -⟩ := hrow hat hangled
    exact ⟨_, s₁.scanner.token, rfl, Token.partner?_of_balanced hbalanced hclose, rfl⟩

/-- A body ends with its closing brace, or there is trouble. -/
theorem expect_encloses (hs : s.Steady) (hk : s.kind = .openBrace)
    (hbody : Tallies q s.advanced s₁) (what : String) :
    Ensures (expect .closeBrace what) s₁ fun _ s' => Encloses q s s' := by
  unfold expect
  refine (accept_reads hbody.steady.settled .closeBrace).bind fun found s₂ h₂ =>
    .ite (fun hfound => ?_) fun hno => ?_
  · obtain ⟨hclose, rfl⟩ := h₂.2.1 hfound
    exact .pure (hbody.closed hs hk hclose)
  · obtain rfl := h₂.2.2 (Bool.not_eq_true _ ▸ hno)
    have hbefore : Moves q s s₂ := (Moves.advanced hs q).trans hbody.toMoves
    obtain ⟨hreport, htrouble⟩ := Moves.reported hbody.steady q (.expected what)
    have hle : s.offset ≤ (s₂.reported (.expected what)).previousStop :=
      Nat.le_trans hs.settled.token_le
        (Nat.le_trans hbody.previousStop_le hreport.previousStop_le)
    exact ⟨.of_troubled (hbefore.trans hreport) htrouble, hle, Or.inl htrouble⟩

/-- What is enclosed in braces and what comes after it. -/
theorem enclosed_tallies {α β : Type} {body : Parse α} {next : α → Parse β} {what : String}
    (hs : s.Steady) (hq : q ≤ s.offset) (hk : s.kind = .openBrace) (hbody : Tidy .any q body)
    (hnext : ∀ r, Tidy .any q (next r)) :
    Ensures (do let r ← body; let _ ← expect .closeBrace what; next r) s.advanced
      fun _ s' => Tallies q s s' := by
  have hopen := Moves.advanced hs q
  have hread := hbody.tallies _ hopen.steady (Nat.le_trans hq hopen.offset_le) trivial
  refine .bind (P := fun _ s₁ => Tallies q s.advanced s₁) ⟨hread⟩ fun r s₁ h₁ => ?_
  refine (expect_encloses hs hk h₁ what).bind fun _ s₂ h₂ => ⟨?_⟩
  have htallies : Tallies q s s₂ := h₂.toTalliesIn
  exact htallies.trans
    ((hnext r).tallies s₂ htallies.steady (Nat.le_trans hq htallies.offset_le) trivial)

/-- Braces that have to be there, and what comes after them. -/
theorem braces_tidy {α β : Type} {entry : Entry} {body : Parse α} {next : α → Parse β}
    {other : Parse β} {opens closes : String} (hbody : Tidy .any q body)
    (hnext : ∀ r, Tidy .any q (next r)) (hother : Steps q other) :
    Tidy entry q (do
      if ← expect .openBrace opens then
        let r ← body
        let _ ← expect .closeBrace closes
        next r
      else
        other) where
  tallies s hs hq _ := by
    refine Ensures.holds (Q := fun _ s' => Tallies q s s') ?_
    -- The brace is there and consumed, or its absence is reported.
    have hexpect : Ensures (expect .openBrace opens) s fun found s₁ =>
        (found = true → s.kind = .openBrace ∧ s₁ = s.advanced) ∧
          (found = false → Moves q s s₁ ∧ s₁.Troubled) := by
      unfold expect
      refine (accept_reads hs.settled .openBrace).bind fun found s₁ h₁ =>
        .ite (fun hfound => .pure ⟨fun _ => h₁.2.1 hfound, nofun⟩) fun hno => ?_
      obtain rfl := h₁.2.2 (eq_false_of_ne_true hno)
      exact ⟨nofun, fun _ => Moves.reported hs q (.expected opens)⟩
    refine hexpect.bind fun found s₁ h₁ => .ite (fun hfound => ?_) fun hno => ?_
    · obtain ⟨hk, rfl⟩ := h₁.1 hfound
      exact enclosed_tallies hs hq hk hbody hnext
    · obtain ⟨hmoves, htrouble⟩ := h₁.2 (eq_false_of_ne_true hno)
      have hrest := hother.moves s₁ hmoves.steady (Nat.le_trans hq hmoves.offset_le)
      exact ⟨.then_moves hmoves htrouble hrest⟩

/-- A closure or block is made of its braces and what they enclose. -/
theorem Encloses.made (h : Encloses q s s') (hs : s.Steady) (hq : q ≤ s.offset)
    (hk : s.kind = .openBrace) {form : Form}
    (hopens : ∀ (t : Tree) (before : List Token),
      t.OpensBody form s.offset before s.scanner.token) :
    Tallies q s (s'.made form s.offset (max s'.previousStop s.offset)) := by
  have hstop : max s'.previousStop s.offset ≤ s'.offset :=
    Nat.max_le.mpr ⟨h.steady.behind, h.offset_le⟩
  have htree := Tree.Extends.add s'.tree form s.offset (max s'.previousStop s.offset)
  refine (h.toTalliesIn.extend htree).madeOf hq h.offset_le hstop ?_
  refine h.partner.imp_right fun hpartner {all before row} hat hangled => ?_
  rcases hat with hover | hat
  · have hend := hs.kind_of_over hover
    rw [hk] at hend
    cases hend
  intro form' r hform _ hr _
  simp only [State.made, Tree.form?_add, Tree.range?_add, if_pos] at hform hr
  cases hform
  cases hr
  obtain ⟨rest, close, rfl, hclose, hclosed⟩ := hpartner hat (htree.angled hangled)
  refine ⟨before, s.scanner.token, rest, close, hat.split, hk, hopens _ _, hclose, ?_⟩
  have hle := h.offset_le_stop
  rw [hclosed]
  omega

/-! ## Section 2: Progress in a body -/

instance : Spots .item (do return !(← isAt .closeBrace) && !(← atEnd)) where
  state_eq _ _ := rfl
  admits s _ h := by
    have hboth : (!(s.kind == .closeBrace) && !(s.kind == .endOfFile)) = true := h
    show s.kind ≠ .closeBrace ∧ s.kind ≠ .endOfFile
    simpa using hboth

/-- The reading takes a token, or there is trouble. -/
class Leaves {α : Type} (q : Nat) (p : Parse α) : Prop extends Steps q p where
  leaves : ∀ s : State, s.Steady → q ≤ s.offset → s.kind ≠ .endOfFile →
    (p s).2.Troubled ∨ s.offset < (p s).2.offset

section leaving

variable {α β : Type} {p p' : Parse α} {first : Parse β} {next : β → Parse α}

instance : Leaves q advance := ⟨fun _ hs _ hk => Or.inr (hs.settled.offset_lt hk)⟩

instance (priority := low) Leaves.of_spoils [hp : Spoils q p] : Leaves q p where
  moves s hs hq := (hp.moves s hs hq).1
  leaves s hs hq _ := Or.inl (hp.moves s hs hq).2

instance Leaves.bind [hfirst : Leaves q first] [hnext : ∀ r, Steps q (next r)] :
    Leaves q (first >>= next) where
  leaves s hs hq hk := by
    have hread := hfirst.moves s hs hq
    have hrest := (hnext (first s).1).moves _ hread.steady (Nat.le_trans hq hread.offset_le)
    exact (hfirst.leaves s hs hq hk).imp hrest.troubled fun hlt =>
      Nat.lt_of_lt_of_le hlt hrest.offset_le

/-- Before the end of the text there is a token for the next reading to take. -/
instance (priority := low) Leaves.bind_steps [hfirst : Steps q first]
    [hnext : ∀ r, Leaves q (next r)] : Leaves q (first >>= next) where
  leaves s hs hq hk := by
    have hread := hfirst.moves s hs hq
    have hq' := Nat.le_trans hq hread.offset_le
    by_cases hend : (first s).2.kind = .endOfFile
    · have hrest := (hnext (first s).1).moves _ hread.steady hq'
      have hover := hrest.stillOver (hread.steady.over_of_kind hend)
      rw [State.Over, (hread.trans hrest).stop_eq] at hover
      have hlt : s.offset < s.scanner.stop :=
        Nat.lt_of_not_le fun hle => hk (hs.kind_of_over hle)
      exact Or.inr (Nat.lt_of_lt_of_le hlt hover)
    · exact ((hnext _).leaves _ hread.steady hq' hend).imp_right
        (Nat.lt_of_le_of_lt hread.offset_le)

instance (priority := high) Leaves.position {next : Nat → Parse α}
    [hnext : ∀ pos, Leaves pos (next pos)] : Leaves q (position >>= next) where
  moves s hs hq := ((hnext s.offset).moves s hs (Nat.le_refl s.offset)).mono hq
  leaves s hs _ hk := (hnext s.offset).leaves s hs (Nat.le_refl s.offset) hk

instance Leaves.ite {c : Prop} [Decidable c] [Leaves q p] [Leaves q p'] :
    Leaves q (if c then p else p') := by
  split
  · assumption
  · assumption

/-- The end of the text has not been reached. -/
instance (priority := high) Leaves.unlessEnd [hp : Steps q p] [hp' : Leaves q p'] :
    Leaves q (atEnd >>= fun holds => if holds then p else p') where
  leaves s hs hq hk := by
    have hread : (atEnd >>= fun holds => if holds then p else p') s = p' s := by
      show (if (s.kind == .endOfFile) = true then p else p') s = p' s
      rw [if_neg (by simpa using hk)]
    rw [hread]
    exact hp'.leaves s hs hq hk

/-- A repetition takes what its first step takes. -/
instance {init : β} {step : β → Parse (ForInStep β)} [hstep : ∀ value, Leaves q (step value)] :
    Leaves q (loop init step) where
  toSteps := loop_steps fun value => (hstep value).toSteps
  leaves s hs hq hk := by
    have hfirst : Ensures (step init) s fun _ s₁ => Moves q s s₁ ∧
        (s₁.Troubled ∨ s.offset < s₁.offset) :=
      ⟨(hstep init).moves s hs hq, (hstep init).leaves s hs hq hk⟩
    refine Ensures.holds (Q := fun _ s' => s'.Troubled ∨ s.offset < s'.offset) ?_
    unfold loop
    refine .peek ?_
    unfold iterate
    refine hfirst.bind fun r s₁ h₁ => ?_
    cases r with
    | done value => exact .pure h₁.2
    | yield value =>
      have hrest (count : Nat) : Moves q s₁ (iterate step count value s₁).2 :=
        (iterate_steps (fun value => (hstep value).toSteps) count value).moves s₁
          h₁.1.steady (Nat.le_trans hq h₁.1.offset_le)
      exact ⟨h₁.2.imp (hrest _).troubled fun hlt => Nat.lt_of_lt_of_le hlt (hrest _).offset_le⟩

instance : Leaves q skipLine := by
  unfold skipLine
  infer_instance

instance : Leaves q skipAttribute := by
  unfold skipAttribute
  dsimp only
  infer_instance

instance : Leaves q name where
  leaves _ hs _ hk := Or.inr (hs.settled.offset_lt hk)

end leaving

/-- An entry of a body; one that takes no token is skipped over. -/
theorem entry_tidy {entry : Parse (List Nat)} [htidy : Tidy .item q entry]
    [hleaves : Leaves q entry] :
    Tidy .item q (do
      let before ← position
      let nodes ← entry
      if (← position) == before && !(← atEnd) then advance
      return nodes) where
  tallies s hs hq h := by
    have hread := htidy.tallies s hs hq h
    have hentry : Ensures entry s fun _ s₁ =>
        Tallies q s s₁ ∧ (s₁.Troubled ∨ s.offset < s₁.offset) :=
      ⟨hread, hleaves.leaves s hs hq h.2⟩
    refine Ensures.holds (Q := fun _ s' => Tallies q s s') ?_
    refine .peek (hentry.bind fun nodes s₁ h₁ => .peek (.peek ?_))
    obtain ⟨hread, hmoved⟩ := h₁
    refine .ifThen (P := fun s' => Tallies q s s') (fun hstuck => ?_) (fun _ => hread)
      fun _ hrest => .pure hrest
    -- Nothing was taken, so there is trouble.
    have hsame : s₁.offset = s.offset := eq_of_beq (Bool.and_eq_true_iff.mp hstuck).1
    have htrouble : s₁.Troubled := hmoved.resolve_right (by omega)
    exact ⟨.then_moves hread.toMoves htrouble (.advanced hread.steady q)⟩

/-! ## Section 3: Nested phrases -/

/-- The node ends where reading has got to. -/
def State.EndsWith (s : State) (node : Nat) : Prop :=
  ∃ r, s.tree.range? node = some r ∧ s.previousStop ≤ r.2

/-- The node that the reading gives ends with the last token read. -/
class Ends (q : Nat) (p : Parse Nat) : Prop where
  ends : ∀ s : State, s.Steady → q ≤ s.offset → (p s).2.Troubled ∨ (p s).2.EndsWith (p s).1

/-- Every phrase keeps braces balanced. -/
class Readers.Count (nested : Readers) : Prop where
  tidy : ∀ (phrase : Phrase) (q : Nat), phrase ≠ .branch → Tidy .any q (nested phrase)
  /-- A branch is only read at its keyword. -/
  branch : ∀ q : Nat, Tidy .plain q (nested .branch)
  ends : ∀ q : Nat, Ends q (nested .type)

variable {nested : Readers} [hn : nested.Count]

instance : Tidy .any q (nested .expression) := hn.tidy .expression q nofun
instance : Tidy .any q (nested .operand) := hn.tidy .operand q nofun
instance : Tidy .any q (nested .statement) := hn.tidy .statement q nofun
instance : Tidy .any q (nested .type) := hn.tidy .type q nofun
instance : Tidy .any q (nested .composition) := hn.tidy .composition q nofun
instance : Tidy .plain q (nested .branch) := hn.branch q
instance : Ends q (nested .type) := hn.ends q

/-! ## Section 4: Blocks -/

instance : Tidy .any q (listEntry nested) := by
  unfold listEntry
  dsimp only
  infer_instance

instance (stops : Parse Bool) [Looks stops] : Tidy .any q (statementsUntil nested stops) := by
  unfold statementsUntil
  infer_instance

theorem statementsInBraces_encloses (hs : s.Steady) (hq : q ≤ s.offset) (hk : s.kind = .openBrace)
    (change : Context → Context) :
    Ensures (statementsInBraces nested change) s fun _ s' => Encloses q s s' := by
  have hbody : Tidy .any q (within change (statementsUntil nested (isAt .closeBrace))) :=
    inferInstance
  have hopen := Moves.advanced hs q
  have hread := hbody.tallies _ hopen.steady (Nat.le_trans hq hopen.offset_le) trivial
  unfold statementsInBraces
  refine .modify _ (.bind (P := fun _ s₁ => Tallies q s.advanced s₁) ⟨hread⟩ fun _ s₁ h₁ => ?_)
  exact (expect_encloses hs hk h₁ _).bind fun _ _ h => .pure h

instance : Tidy .any q (block nested) where
  tallies s hs hq _ := by
    refine Ensures.holds (Q := fun _ s' => Tallies q s s') ?_
    unfold block
    refine .peek (.ite (fun hat => .peek ?_) fun _ => ⟨?_⟩)
    · have hk := kind_eq_of_isAt hat
      refine (statementsInBraces_encloses hs hq hk _).bind fun statements s₁ h₁ => ?_
      exact ⟨h₁.made hs hq hk fun _ _ => rfl⟩
    · have hmissing : Tidy .any q (missing "'\x7b'") := inferInstance
      exact hmissing.tallies s hs hq trivial

instance : Tidy .any q (functionBody nested) := by
  unfold functionBody
  infer_instance

end SelfCapture.Grammar
