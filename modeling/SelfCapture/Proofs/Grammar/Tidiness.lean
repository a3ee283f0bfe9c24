import SelfCapture.Proofs.Grammar.Balance

/-! # Judgments on braces

  The judgments on readings by which the rules of the grammar are shown to
  keep braces balanced, rule by rule:

  * `Steps q p`: new nodes start at `q` or later, and what was there stays.
  * `Tidy entry q p`: the reading also keeps count of the braces, from a
    token that the entry admits: any, one that is no brace, an opening
    brace, one before the end of a body, or one of a given kind.
  * `Spoils q p`: the reading ends in trouble.
  * `Spots entry test`: where the test holds, the entry admits the token.

  They are classes, with an instance for each way of putting readings
  together, so that the judgment of a rule is found from those of its parts.
-/

namespace SelfCapture

/-- The condition does not hold; for conditions that can be computed. -/
class IsFalse (b : Bool) : Prop where
  eq_false : b = false

instance : IsFalse false := ⟨rfl⟩

namespace Grammar

open Token (Kind)

/-! ## Section 1: Judgments -/

/-- The tokens at which a reading may start. -/
inductive Entry where
  | any
  /-- A token that is no brace, or the end. -/
  | plain
  /-- An opening brace. -/
  | opening
  /-- A token at which the body in braces goes on. -/
  | item
  | exactly (k : Kind)

/-- Whether a reading with this entry may start at a token of the kind. -/
def Entry.Admits : Entry → Kind → Prop
  | .any, _ => True
  | .plain, k => k.isBrace = false
  | .opening, k => k = .openBrace
  | .item, k => k ≠ .closeBrace ∧ k ≠ .endOfFile
  | .exactly k', k => k = k'

/-- The reading leaves what was there. -/
class Steps {α : Type} (q : Nat) (p : Parse α) : Prop where
  moves : ∀ s : State, s.Steady → q ≤ s.offset → Moves q s (p s).2

/-- The reading keeps count of the braces. -/
class Tidy {α : Type} (entry : Entry) (q : Nat) (p : Parse α) : Prop where
  tallies : ∀ s : State, s.Steady → q ≤ s.offset → entry.Admits s.kind → Tallies q s (p s).2

/-- The reading ends in trouble. -/
class Spoils {α : Type} (q : Nat) (p : Parse α) : Prop where
  moves : ∀ s : State, s.Steady → q ≤ s.offset → Moves q s (p s).2 ∧ (p s).2.Troubled

/-- The test looks for a token that the entry admits. -/
class Spots (entry : outParam Entry) (test : Parse Bool) : Prop extends Looks test where
  admits : ∀ s : State, s.Settled → (test s).1 = true → entry.Admits s.kind

section judgments

variable {α β : Type} {entry : Entry} {q : Nat} {p p' : Parse α} {first : Parse β}
  {next : β → Parse α}

instance (priority := low) Tidy.of_any [hp : Tidy .any q p] : Tidy entry q p :=
  ⟨fun s hs hq _ => hp.tallies s hs hq trivial⟩

instance (priority := low) Steps.of_tidy [hp : Tidy .any q p] : Steps q p :=
  ⟨fun s hs hq => (hp.tallies s hs hq trivial).toMoves⟩

instance (priority := low) Tidy.of_spoils [hp : Spoils q p] : Tidy .any q p :=
  ⟨fun s hs hq _ => .of_troubled (hp.moves s hs hq).1 (hp.moves s hs hq).2⟩

instance Tidy.of_looks [hp : Looks p] : Tidy .any q p where
  tallies s hs _ _ := by
    rw [hp.state_eq s hs.settled]
    exact .refl hs q

/-! ## Section 2: Sequences and branches -/

theorem Tidy.seq (hfirst : Tidy entry q first) (hnext : ∀ r, Tidy .any q (next r)) :
    Tidy entry q (first >>= next) where
  tallies s hs hq h := by
    have hread := hfirst.tallies s hs hq h
    exact hread.trans
      ((hnext _).tallies _ hread.steady (Nat.le_trans hq hread.offset_le) trivial)

instance Tidy.bind [hfirst : Tidy entry q first] [hnext : ∀ r, Tidy .any q (next r)] :
    Tidy entry q (first >>= next) := .seq hfirst hnext

theorem Tidy.after (hfirst : Looks first) (hnext : ∀ r, Tidy entry q (next r)) :
    Tidy entry q (first >>= next) where
  tallies s hs hq h := by
    show Tallies q s (next (first s).1 (first s).2).2
    rw [hfirst.state_eq s hs.settled]
    exact (hnext _).tallies s hs hq h

/-- What only looks leaves the token where it is. -/
instance (priority := 2000) Tidy.bind_next [hfirst : Looks first]
    [hnext : ∀ r, Tidy entry q (next r)] : Tidy entry q (first >>= next) := .after hfirst hnext

instance Steps.bind [hfirst : Steps q first] [hnext : ∀ r, Steps q (next r)] :
    Steps q (first >>= next) where
  moves s hs hq := by
    have hread := hfirst.moves s hs hq
    exact hread.trans ((hnext _).moves _ hread.steady (Nat.le_trans hq hread.offset_le))

/-- After trouble, whatever is read is no worse. -/
theorem Spoils.seq (hfirst : Spoils q first) (hnext : ∀ r, Steps q (next r)) :
    Spoils q (first >>= next) where
  moves s hs hq := by
    obtain ⟨hread, htrouble⟩ := hfirst.moves s hs hq
    have hrest := (hnext (first s).1).moves _ hread.steady (Nat.le_trans hq hread.offset_le)
    exact ⟨hread.trans hrest, hrest.troubled htrouble⟩

instance (priority := 2000) Spoils.bind [hfirst : Spoils q first]
    [hnext : ∀ r, Steps q (next r)] : Spoils q (first >>= next) := .seq hfirst hnext

instance (priority := 2000) Tidy.bind_spoils [hfirst : Spoils q first]
    [hnext : ∀ r, Steps q (next r)] : Tidy entry q (first >>= next) :=
  have := Spoils.seq hfirst hnext
  have : Tidy .any q (first >>= next) := .of_spoils
  .of_any

theorem Tidy.of_plain {k : Kind} (hk : k.isBrace = false) (hp : Tidy .plain q p) :
    Tidy (.exactly k) q p where
  tallies s hs hq h := by
    refine hp.tallies s hs hq ?_
    show s.kind.isBrace = false
    rw [show s.kind = k from h]
    exact hk

/-- A choice by the kind of the current token. -/
theorem Tidy.onExactly {next : Kind → Parse α} (hopen : Tidy .opening q (next .openBrace))
    (hclose : Tidy .any q (next .closeBrace))
    (hplain : ∀ k, k.isBrace = false → Tidy (.exactly k) q (next k)) :
    Tidy entry q (kind >>= next) where
  tallies s hs hq _ := by
    show Tallies q s (next s.kind s).2
    by_cases hk : s.kind = .openBrace
    · rw [hk]
      exact hopen.tallies s hs hq hk
    by_cases hk' : s.kind = .closeBrace
    · rw [hk']
      exact hclose.tallies s hs hq trivial
    exact (hplain s.kind (Kind.isBrace_eq_false hk hk')).tallies s hs hq rfl

/-- A choice in which only braces have to be told from the rest. -/
theorem Tidy.onKind {next : Kind → Parse α} (hopen : Tidy .opening q (next .openBrace))
    (hclose : Tidy .any q (next .closeBrace))
    (hplain : ∀ k, k.isBrace = false → Tidy .plain q (next k)) : Tidy entry q (kind >>= next) :=
  .onExactly hopen hclose fun k hk => .of_plain hk (hplain k hk)

/-- A node may start at the current token. -/
theorem Tidy.fromHere {next : Nat → Parse α} (hnext : ∀ pos, Tidy entry pos (next pos)) :
    Tidy entry q (position >>= next) :=
  ⟨fun s hs hq h => ((hnext s.offset).tallies s hs (Nat.le_refl s.offset) h).mono hq⟩

instance (priority := 3000) Tidy.position {next : Nat → Parse α}
    [hnext : ∀ pos, Tidy entry pos (next pos)] : Tidy entry q (position >>= next) :=
  .fromHere hnext

instance Tidy.map {f : β → α} [hfirst : Tidy entry q first] : Tidy entry q (f <$> first) :=
  ⟨hfirst.tallies⟩

instance Steps.map {f : β → α} [hfirst : Steps q first] : Steps q (f <$> first) :=
  ⟨hfirst.moves⟩

section choice

variable {c : Prop} [Decidable c]

instance Tidy.ite [Tidy entry q p] [Tidy entry q p'] : Tidy entry q (if c then p else p') := by
  split
  · assumption
  · assumption

instance Steps.ite [Steps q p] [Steps q p'] : Steps q (if c then p else p') := by
  split
  · assumption
  · assumption

end choice

section tests

variable {γ : Type} {test : Parse Bool} {other : Parse γ} {found : Entry} {c : Bool → γ → Bool}

/-- Where the test holds, the entry is known. -/
instance (priority := high) Tidy.spots [htest : Spots found test] [hp : Tidy found q p]
    [hp' : Tidy .any q p'] : Tidy entry q (test >>= fun holds => if holds then p else p') where
  tallies s hs hq _ := by
    show Tallies q s ((if (test s).1 = true then p else p') (test s).2).2
    rw [htest.state_eq s hs.settled]
    split
    · exact hp.tallies s hs hq (htest.admits s hs.settled ‹_›)
    · exact hp'.tallies s hs hq trivial

/-- A test made of two readings that look. -/
instance (priority := high) Tidy.spots_pair [Spots found (do return c (← test) (← other))]
    [Tidy found q p] [Tidy .any q p'] :
    Tidy entry q (test >>= fun a => other >>= fun b => if c a b then p else p') :=
  inferInstanceAs
    (Tidy entry q ((do return c (← test) (← other)) >>= fun holds => if holds then p else p'))

/-- A test made of three readings that look. -/
instance (priority := high) Tidy.spots_three {δ : Type} {third : Parse δ}
    {c : Bool → γ → δ → Bool} [Spots found (do return c (← test) (← other) (← third))]
    [Tidy found q p] [Tidy .any q p'] :
    Tidy entry q
      (test >>= fun a => other >>= fun b => third >>= fun d => if c a b d then p else p') :=
  inferInstanceAs (Tidy entry q
    ((do return c (← test) (← other) (← third)) >>= fun holds => if holds then p else p'))

instance Spots.and {f : γ → Bool} [htest : Spots found test] [hother : Looks other] :
    Spots found (do return (← test) && f (← other)) where
  state_eq s hs := by
    show (other (test s).2).2 = s
    rw [htest.state_eq s hs, hother.state_eq s hs]
  admits s hs h := htest.admits s hs (Bool.and_eq_true_iff.mp h).1

instance Spots.or {other : Parse Bool} [htest : Spots found test] [hother : Spots found other] :
    Spots found (do return (← test) || (← other)) where
  state_eq s hs := by
    show (other (test s).2).2 = s
    rw [htest.state_eq s hs, hother.state_eq s hs]
  admits s hs h := by
    have heither : ((test s).1 || (other (test s).2).1) = true := h
    rw [htest.state_eq s hs, Bool.or_eq_true] at heither
    exact heither.elim (htest.admits s hs) (hother.admits s hs)

end tests

end judgments

/-! ## Section 3: Tokens and nodes -/

section tokens

variable {entry : Entry} {q : Nat}

instance : Tidy .plain q advance := ⟨fun _ hs _ hk => .advanced hs q hk⟩

instance : Steps q advance := ⟨fun _ hs _ => .advanced hs q⟩

instance (k : Kind) [hk : IsFalse k.isBrace] : Spots .plain (isAt k) where
  state_eq _ _ := rfl
  admits s _ h := by
    show s.kind.isBrace = false
    rw [kind_eq_of_isAt h]
    exact hk.eq_false

instance : Spots .opening (isAt .openBrace) where
  state_eq _ _ := rfl
  admits _ _ h := kind_eq_of_isAt h

/-- A name is no brace. -/
instance : Spots .plain isName where
  state_eq _ _ := rfl
  admits s _ h := by
    have hname : s.kind.isName = true := h
    apply Kind.isBrace_eq_false
    · intro hk
      rw [hk] at hname
      cases hname
    · intro hk
      rw [hk] at hname
      cases hname

instance (words : List String) : Spots .plain (isOneOf words) where
  state_eq s _ := Peeks.state_eq s
  admits s _ h := by
    show s.kind.isBrace = false
    rw [kind_eq_of_isOneOf h]

instance (k : Kind) [IsFalse k.isBrace] : Tidy .any q (accept k) := by
  unfold accept
  infer_instance

instance (k : Kind) : Steps q (accept k) := by
  unfold accept
  infer_instance

instance (issue : Issue) : Spoils q (report issue) := ⟨fun _ hs _ => Moves.reported hs q issue⟩

instance (what : String) : Spoils q (reportExpected what) :=
  inferInstanceAs (Spoils q (report _))

instance (k : Kind) [IsFalse k.isBrace] (what : String) : Tidy .any q (expect k what) := by
  unfold expect
  infer_instance

instance : Spoils q exhaust := ⟨fun _ hs _ => ⟨.exhausted hs q, Or.inr rfl⟩⟩

/-- A node that is no body, made of what has been read. -/
instance (form : Form) [hform : IsFalse form.isBody] : Tidy .any q (finish form q) where
  tallies s hs hq _ := by
    refine .made hs hform.eq_false (Nat.le_refl q) hq ?_
    exact Nat.max_le.mpr ⟨hs.behind, hq⟩

instance : Steps q name where
  moves s hs hq := by
    have hread : Moves q s s.advanced := .advanced hs q
    have hstop : s.scanner.token.stop ≤ s.advanced.offset := hread.steady.behind
    exact hread.trans (.made hread.steady hq (Nat.le_trans hs.settled.token_le hstop) hstop)

instance : Tidy .plain q name where
  tallies s hs hq hk := by
    have hread : Tallies q s s.advanced := .advanced hs q hk
    have hstop : s.scanner.token.stop ≤ s.advanced.offset := hread.steady.behind
    exact hread.trans (.made hread.steady rfl hq (Nat.le_trans hs.settled.token_le hstop) hstop)

instance (what : String) : Spoils q (missing what) where
  moves s hs hq := by
    obtain ⟨hread, htrouble⟩ := Moves.reported hs q (.expected what)
    have hq' := Nat.le_trans hq hread.offset_le
    have hmade : Moves q _ (missing what s).2 :=
      .made hread.steady hq' (Nat.le_refl _) (Nat.le_refl _)
    exact ⟨hread.trans hmade, hmade.troubled htrouble⟩

instance (what : String) : Tidy .any q (nameOr what) := by
  unfold nameOr
  infer_instance

instance : Tidy .any q name? := by
  unfold name?
  infer_instance

end tokens

/-! ## Section 4: Context, depth and attempts -/

section surroundings

variable {α : Type} {entry : Entry} {q : Nat}

/-- Context and depth may be changed before and after. -/
theorem Tidy.surrounded (body : Parse α) [hbody : Tidy entry q body] {s : State} (hs : s.Steady)
    (hq : q ≤ s.offset) (h : entry.Admits s.kind) (context context' : Context)
    (depth depth' : Nat) :
    Tallies q s
      { (body { s with context, depth }).2 with context := context', depth := depth' } := by
  have hstart : Tallies q s { s with context, depth } := (Tallies.refl hs q).surround context depth
  have hread := hbody.tallies _ hstart.steady hq h
  exact hstart.trans (hread.surround context' depth')

variable {otherwise body : Parse α}

instance (change : Context → Context) [Tidy entry q body] : Tidy entry q (within change body) :=
  ⟨fun _ hs hq h => Tidy.surrounded body hs hq h _ _ _ _⟩

instance (change : Context → Context) [hbody : Steps q body] : Steps q (within change body) where
  moves s hs hq := by
    have hstart := (Moves.refl hs q).surround (change s.context) s.depth
    have hread := hbody.moves _ hstart.steady hq
    exact hstart.trans (hread.surround s.context _)

instance [Tidy entry q body] : Tidy entry q (unrestricted body) :=
  inferInstanceAs (Tidy entry q (within _ body))

instance [Tidy entry q body] : Tidy entry q (asCondition body) :=
  inferInstanceAs (Tidy entry q (within _ body))

/-- What is given up at the nesting limit is reported. -/
theorem giveUp_spoils (otherwise : Parse α) [Steps q otherwise] :
    Spoils q (giveUp otherwise) := by
  unfold giveUp
  dsimp only
  infer_instance

instance [Steps q otherwise] [Tidy entry q body] : Tidy entry q (guarded otherwise body) where
  tallies s hs hq h := by
    show Tallies q s ((if maxDepth ≤ s.depth then _ else _ : Parse α) s).2
    split
    · obtain ⟨hread, htrouble⟩ := (giveUp_spoils otherwise).moves s hs hq
      exact .of_troubled hread htrouble
    · exact Tidy.surrounded body hs hq h _ _ _ _

/-- What a failed attempt has read is undone. -/
theorem attempt_tidy {body : Parse (Option α)} (hbody : Tidy entry q body) :
    Tidy entry q (attempt body) where
  tallies s hs hq h := by
    have hread : Ensures body s fun _ s' => Tallies q s s' := ⟨hbody.tallies s hs hq h⟩
    have hattempt : Ensures (attempt body) s fun _ s' => Tallies q s s' := by
      unfold attempt
      refine .peek (hread.bind fun result s₁ h₁ => ?_)
      cases result with
      | some result => exact .pure h₁
      | none =>
        exact ⟨.stay (h₁.toMoves.rewind hs) h₁.toMoves.nextId_rewind rfl rfl rfl⟩
    exact hattempt.holds

instance {body : Parse (Option α)} [hbody : Tidy entry q body] : Tidy entry q (attempt body) :=
  attempt_tidy hbody

end surroundings

/-! ## Section 5: Repetition -/

section repetition

variable {β : Type} {q : Nat} {init : β} {step : β → Parse (ForInStep β)}

theorem iterate_tidy (hstep : ∀ value, Tidy .any q (step value)) (count : Nat) (value : β) :
    Tidy .any q (iterate step count value) := by
  induction count generalizing value with
  | zero =>
    unfold iterate
    infer_instance
  | succ count ih =>
    unfold iterate
    refine .seq (hstep value) fun r => ?_
    cases r with
    | done value => exact .of_looks
    | yield value => exact ih value

theorem loop_tidy (hstep : ∀ value, Tidy .any q (step value)) : Tidy .any q (loop init step) := by
  unfold loop
  exact .seq inferInstance fun bytes => iterate_tidy hstep (bytes + 1) init

instance [hstep : ∀ value, Tidy .any q (step value)] : Tidy .any q (loop init step) :=
  loop_tidy hstep

/-- A repetition that may meet braces, after trouble. -/
theorem iterate_steps (hstep : ∀ value, Steps q (step value)) (count : Nat) (value : β) :
    Steps q (iterate step count value) := by
  induction count generalizing value with
  | zero =>
    unfold iterate
    infer_instance
  | succ count ih =>
    unfold iterate
    refine @Steps.bind _ _ _ _ _ (hstep value) fun r => ?_
    cases r with
    | done value => infer_instance
    | yield value => exact ih value

theorem loop_steps (hstep : ∀ value, Steps q (step value)) : Steps q (loop init step) := by
  unfold loop
  exact @Steps.bind _ _ _ _ _ inferInstance fun bytes => iterate_steps hstep (bytes + 1) init

instance [hstep : ∀ value, Steps q (step value)] : Steps q (loop init step) := loop_steps hstep

variable {entry : Entry} {test : Parse Bool} {items : Parse (List Nat)}

instance {body : Parse Unit} [Tidy .any q test] [Tidy .any q body] :
    Tidy .any q (repeatWhile test body) := by
  unfold repeatWhile
  infer_instance

instance {body : Parse Unit} [Spots entry test] [Tidy entry q body] :
    Tidy .any q (repeatWhile test body) := by
  unfold repeatWhile
  infer_instance

instance [Tidy .any q test] [Tidy .any q items] : Tidy .any q (gatherWhile test items) := by
  unfold gatherWhile
  infer_instance

instance [Spots entry test] [Tidy entry q items] : Tidy .any q (gatherWhile test items) := by
  unfold gatherWhile
  infer_instance

instance [Tidy .any q items] : Tidy .any q (separated items) := by
  unfold separated
  infer_instance

instance {closer : Kind} [Tidy .any q items] : Tidy .any q (separatedUntil closer items) := by
  unfold separatedUntil
  infer_instance

instance {closer : Kind} [IsFalse closer.isBrace] {item : Parse (Option Nat)}
    [hitem : Tidy .any q item] : Tidy .any q (enclosed? closer item) := by
  unfold enclosed?
  refine .seq (loop_tidy fun nodes => .seq inferInstance fun found => ?_) fun nodes => ?_
  · split
    · infer_instance
    · refine .seq hitem fun node => ?_
      cases node with
      | none => infer_instance
      | some node => infer_instance
  · cases nodes with
    | none => infer_instance
    | some nodes => infer_instance

end repetition

end Grammar
end SelfCapture
