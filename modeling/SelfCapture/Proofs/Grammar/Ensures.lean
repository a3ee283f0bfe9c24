import SelfCapture.Grammar.Phrase
import SelfCapture.Grammar.Repetition
import SelfCapture.Grammar.Speculation
import SelfCapture.Proofs.Grammar.Derivation

/-! # Reasoning about readings

  `Ensures p s Q` says that `p`, run from the state `s`, ends with a result
  and a state for which `Q` holds.  There is one rule for each way of
  putting readings together, and one for each of the combinators of the
  grammar; the rules of the grammar are then followed step by step.

  The rule for `loop` is where repetitions are shown to end: a step that
  goes on has moved on in the text, so the allowance of steps, one more
  than the bytes that remain in the window, is never used up.
-/

namespace SelfCapture.Grammar

open Token (Kind)

/-! ## Section 1: The calculus -/

/-- Running `p` from `s` ends with a result and a state that satisfy `Q`. -/
structure Ensures {α : Type} (p : Parse α) (s : State) (Q : α → State → Prop) : Prop where
  holds : Q (p s).1 (p s).2

/-- The reading leaves every state as it is. -/
class Peeks {α : Type} (p : Parse α) : Prop where
  state_eq : ∀ s : State, (p s).2 = s

section rules

variable {α β : Type} {s : State} {Q : α → State → Prop}

namespace Ensures

theorem mono {P : α → State → Prop} {p : Parse α} (h : Ensures p s P)
    (hPQ : ∀ r s', P r s' → Q r s') : Ensures p s Q := ⟨hPQ _ _ h.holds⟩

theorem pure {r : α} (h : Q r s) : Ensures (Pure.pure r) s Q := ⟨h⟩

theorem bind {p : Parse β} {next : β → Parse α} {P : β → State → Prop} (h : Ensures p s P)
    (hnext : ∀ r s', P r s' → Ensures (next r) s' Q) : Ensures (p >>= next) s Q :=
  ⟨(hnext _ _ h.holds).holds⟩

theorem map {p : Parse β} {f : β → α} (h : Ensures p s fun r s' => Q (f r) s') :
    Ensures (f <$> p) s Q := ⟨h.holds⟩

/-- The last step of a reading only looks. -/
theorem look {p : Parse α} [hp : Peeks p] (h : Q (p s).1 s) : Ensures p s Q := by
  constructor
  rw [hp.state_eq s]
  exact h

theorem peek {p : Parse β} [Peeks p] {next : β → Parse α} (h : Ensures (next (p s).1) s Q) :
    Ensures (p >>= next) s Q := by
  refine bind (P := fun r s' => r = (p s).1 ∧ s' = s) (look ⟨rfl, rfl⟩) ?_
  rintro r s' ⟨rfl, rfl⟩
  exact h

theorem modify {next : PUnit → Parse α} (f : State → State) (h : Ensures (next ⟨⟩) (f s) Q) :
    Ensures (modifyGet (fun s => (PUnit.unit, f s)) >>= next) s Q := ⟨h.holds⟩

theorem ite {c : Prop} [Decidable c] {p q : Parse α} (hthen : c → Ensures p s Q)
    (helse : ¬ c → Ensures q s Q) : Ensures (if c then p else q) s Q := by
  split
  · exact hthen ‹_›
  · exact helse ‹_›

/-- Two branches that come together again. -/
theorem branch {c : Prop} [Decidable c] {p q : Parse β} {next : β → Parse α}
    {P : β → State → Prop} (hthen : c → Ensures p s P) (helse : ¬ c → Ensures q s P)
    (hnext : ∀ r s', P r s' → Ensures (next r) s' Q) :
    Ensures (if c then p >>= next else q >>= next) s Q :=
  ite (fun hc => (hthen hc).bind hnext) (fun hc => (helse hc).bind hnext)

/-- A reading that may be left out. -/
theorem ifThen {c : Prop} [Decidable c] {p : Parse Unit} {next : Unit → Parse α}
    {P : State → Prop} (hthen : c → Ensures p s fun _ s' => P s') (helse : ¬ c → P s)
    (hnext : ∀ s', P s' → Ensures (next ()) s' Q) :
    Ensures (if c then p >>= next else next ()) s Q :=
  ite (fun hc => (hthen hc).bind fun _ s' hs' => hnext s' hs') (fun hc => hnext s (helse hc))

/-- A reading that is left out if a test holds. -/
theorem unlessThen {c : Prop} [Decidable c] {p : Parse Unit} {next : Unit → Parse α}
    {P : State → Prop} (hthen : c → P s) (helse : ¬ c → Ensures p s fun _ s' => P s')
    (hnext : ∀ s', P s' → Ensures (next ()) s' Q) :
    Ensures (if c then next () else p >>= next) s Q :=
  ite (fun hc => hnext s (hthen hc)) (fun hc => (helse hc).bind fun _ s' hs' => hnext s' hs')

end Ensures

/-! ## Section 2: Readings that only look -/

instance Peeks.pure {r : α} : Peeks (Pure.pure r : Parse α) := ⟨fun _ => rfl⟩

instance Peeks.bind {p : Parse β} {next : β → Parse α} [hp : Peeks p]
    [hnext : ∀ r, Peeks (next r)] : Peeks (p >>= next) where
  state_eq s := by
    show ((next (p s).1) (p s).2).2 = s
    rw [(hnext _).state_eq, hp.state_eq]

instance Peeks.ite {c : Prop} [Decidable c] {p q : Parse α} [Peeks p] [Peeks q] :
    Peeks (if c then p else q) := by
  split
  · assumption
  · assumption

instance : Peeks (get : Parse State) := ⟨fun _ => rfl⟩
instance : Peeks kind := ⟨fun _ => rfl⟩
instance (k : Kind) : Peeks (isAt k) := ⟨fun _ => rfl⟩
instance : Peeks atEnd := ⟨fun _ => rfl⟩
instance : Peeks position := ⟨fun _ => rfl⟩
instance : Peeks tokenText := ⟨fun _ => rfl⟩
instance : Peeks afterBlank := ⟨fun _ => rfl⟩
instance : Peeks afterLineBreak := ⟨fun _ => rfl⟩
instance : Peeks beforeBlank := ⟨fun _ => rfl⟩
instance : Peeks isName := ⟨fun _ => rfl⟩
instance : Peeks remaining := ⟨fun _ => rfl⟩

instance (word : String) : Peeks (isWord word) := by
  unfold isWord
  infer_instance

instance (words : List String) : Peeks (isOneOf words) := by
  unfold isOneOf
  infer_instance

end rules

theorem kind_eq_of_isAt {k : Kind} {s : State} (h : (isAt k s).1 = true) : s.kind = k :=
  eq_of_beq h

theorem ne_end_of_kind {k : Kind} {s : State} (h : (kind s).1 = k) (hk : k ≠ .endOfFile) :
    s.kind ≠ .endOfFile :=
  fun hend => hk (h.symm.trans hend)

theorem ne_end_of_isAt {k : Kind} {s : State} (h : (isAt k s).1 = true) (hk : k ≠ .endOfFile) :
    s.kind ≠ .endOfFile := by
  rw [kind_eq_of_isAt h]
  exact hk

theorem kind_ne_of_isAt {k : Kind} {s : State} (h : ¬ (isAt k s).1 = true) : s.kind ≠ k :=
  fun hk => h (beq_iff_eq.mpr hk)

/-- The end of the text cannot serve as a name. -/
theorem ne_end_of_isName {s : State} (h : (isName s).1 = true) : s.kind ≠ .endOfFile := by
  intro hk
  have hname : s.kind.isName = true := h
  rw [hk] at hname
  cases hname

/-- A contextual word is an identifier, whatever its text is tested for. -/
theorem kind_eq_of_word {s : State} (test : String → Bool)
    (h : ((do if ← isAt .identifier then return test (← tokenText) else return false :
      Parse Bool) s).1 = true) :
    s.kind = .identifier := by
  have hword : Ensures
      (do if ← isAt .identifier then return test (← tokenText) else return false : Parse Bool) s
      fun found _ => found = true → s.kind = .identifier := by
    refine .peek (.ite (fun hat => ?_) (fun _ => ?_))
    · exact .peek (.pure fun _ => kind_eq_of_isAt hat)
    · exact Ensures.pure nofun
  exact hword.holds h

theorem kind_eq_of_isOneOf {words : List String} {s : State} (h : (isOneOf words s).1 = true) :
    s.kind = .identifier :=
  kind_eq_of_word (fun text => words.contains text) h

theorem kind_eq_of_isWord {word : String} {s : State} (h : (isWord word s).1 = true) :
    s.kind = .identifier :=
  kind_eq_of_word (fun text => text == word) h

theorem tokenText_eq (s : State) : (tokenText s).1 = s.scanner.tokenText := by
  have htext : Ensures tokenText s fun text _ => text = s.scanner.tokenText := by
    unfold tokenText
    exact .peek (.pure rfl)
  exact htext.holds

/-- A contextual word is an identifier with one of the texts. -/
theorem isOneOf_eq (words : List String) (s : State) :
    (isOneOf words s).1 = (s.kind == .identifier && words.contains s.scanner.tokenText) := by
  have hword : Ensures (isOneOf words) s fun found _ =>
      found = (s.kind == .identifier && words.contains s.scanner.tokenText) := by
    unfold isOneOf
    refine .peek (.ite (fun hat => .peek (.pure ?_)) fun hno => .pure ?_)
    · rw [tokenText_eq, show (s.kind == .identifier) = true from hat, Bool.true_and]
    · rw [show (s.kind == .identifier) = false from eq_false_of_ne_true hno, Bool.false_and]
  exact hword.holds

/-- A contextual word is an identifier with the text. -/
theorem isWord_eq (word : String) (s : State) :
    (isWord word s).1 = (s.kind == .identifier && s.scanner.tokenText == word) := by
  have hword : Ensures (isWord word) s fun found _ =>
      found = (s.kind == .identifier && s.scanner.tokenText == word) := by
    unfold isWord
    refine .peek (.ite (fun hat => .peek (.pure ?_)) fun hno => .pure ?_)
    · rw [tokenText_eq, show (s.kind == .identifier) = true from hat, Bool.true_and]
    · rw [show (s.kind == .identifier) = false from eq_false_of_ne_true hno, Bool.false_and]
  exact hword.holds

/-! ## Section 3: Tokens -/

variable {s : State}

theorem advance_reads (hs : s.Settled) :
    Ensures advance s fun _ s' => s' = s.advanced ∧ Reads s [] s' :=
  ⟨⟨rfl, .advance hs⟩⟩

theorem advance_skips (hs : s.Settled) : Ensures advance s fun _ s' => Reads s [] s' :=
  ⟨.advance hs⟩

/-- Consuming a token other than the end moves on. -/
theorem advance_moves (hs : s.Settled) (hk : s.kind ≠ .endOfFile) :
    Ensures advance s fun _ s' => Reads s [] s' ∧ s.offset < s'.offset :=
  ⟨⟨.advance hs, hs.offset_lt hk⟩⟩

theorem accept_reads (hs : s.Settled) (k : Kind) :
    Ensures (accept k) s fun found s' =>
      Reads s [] s' ∧ (found = true → s.kind = k ∧ s' = s.advanced) ∧ (found = false → s' = s) := by
  unfold accept
  refine .peek (.ite (fun hat => ?_) (fun _ => ?_))
  · refine (advance_reads hs).bind fun _ s' h => .pure ?_
    exact ⟨h.2, fun _ => ⟨kind_eq_of_isAt hat, h.1⟩, nofun⟩
  · exact .pure ⟨.stay hs, nofun, fun _ => rfl⟩

/-- A token that was accepted has been left behind. -/
theorem accept_moves (hs : s.Settled) {k : Kind} (hk : k ≠ .endOfFile) :
    Ensures (accept k) s fun found s' =>
      Reads s [] s' ∧ (found = true → s.offset < s'.offset) := by
  refine (accept_reads hs k).mono fun found s' h => ⟨h.1, fun hfound => ?_⟩
  obtain ⟨hkind, hstate⟩ := h.2.1 hfound
  rw [hstate]
  exact hs.offset_lt (hkind ▸ hk)

theorem report_reads (hs : s.Settled) (issue : Issue) :
    Ensures (report issue) s fun _ s' => Reads s [] s' ∧ s'.scanner = s.scanner :=
  ⟨⟨.report hs issue, s.scanner_reported issue⟩⟩

theorem reportExpected_reads (hs : s.Settled) (what : String) :
    Ensures (reportExpected what) s fun _ s' => Reads s [] s' ∧ s'.scanner = s.scanner :=
  report_reads hs (.expected what)

/-- Reporting a token and skipping it leaves it behind. -/
theorem skipReported_moves {s₁ : State} (h₁ : Reads s [] s₁ ∧ s₁.scanner = s.scanner)
    (hk : s.kind ≠ .endOfFile) :
    Ensures advance s₁ fun _ s' => Reads s [] s' ∧ s.offset < s'.offset := by
  have hk₁ : s₁.kind ≠ .endOfFile := by rwa [State.kind, h₁.2]
  refine (advance_moves h₁.1.settled hk₁).mono fun _ s₂ h₂ => ⟨h₁.1.append h₂.1, ?_⟩
  rw [State.offset, ← h₁.2]
  exact h₂.2

theorem expect_reads (hs : s.Settled) {k : Kind} (hk : k ≠ .endOfFile) (what : String) :
    Ensures (expect k what) s fun found s' =>
      Reads s [] s' ∧ (found = true → s.offset < s'.offset) := by
  unfold expect
  refine (accept_moves hs hk).bind fun found s₁ h₁ => .ite (fun hfound => ?_) (fun _ => ?_)
  · exact .pure ⟨h₁.1, fun _ => h₁.2 hfound⟩
  · refine (reportExpected_reads h₁.1.settled what).bind fun _ s₂ h₂ => .pure ?_
    exact ⟨h₁.1.append h₂.1, nofun⟩

/-! ## Section 4: Nodes -/

/-- A node made of what has been read from `s` on. -/
theorem finish_reads {s' : State} {form : Form} {ids : List Nat} (h : Reads s ids s')
    (hchildren : form.children = ids) (hfits : s'.tree.Fits form) :
    Ensures (finish form s.offset) s' fun id s'' => Reads s [id] s'' := by
  subst hchildren
  exact ⟨.finish h hfits⟩

theorem finish_moves {s' : State} {form : Form} {ids : List Nat} (h : Reads s ids s')
    (hlt : s.offset < s'.offset)
    (hchildren : form.children = ids) (hfits : s'.tree.Fits form) :
    Ensures (finish form s.offset) s' fun id s'' => Reads s [id] s'' ∧ s.offset < s''.offset :=
  ⟨⟨(finish_reads h hchildren hfits).holds, hlt⟩⟩

theorem name_reads (hs : s.Settled) :
    Ensures name s fun id s' => Reads s [id] s' ∧ s'.scanner = s.advanced.scanner :=
  ⟨⟨.name hs, rfl⟩⟩

/-- A name is a token that has been left behind. -/
theorem name_moves (hs : s.Settled) (hk : s.kind ≠ .endOfFile) :
    Ensures name s fun id s' => Reads s [id] s' ∧ s.offset < s'.offset :=
  ⟨⟨.name hs, hs.offset_lt hk⟩⟩

theorem missing_reads (hs : s.Settled) (what : String) :
    Ensures (missing what) s fun id s' => Reads s [id] s' := by
  unfold missing
  refine (reportExpected_reads hs what).bind fun _ s₁ h₁ => .peek ?_
  exact ⟨h₁.1.append (.missing h₁.1.settled)⟩

theorem nameOr_reads (hs : s.Settled) (what : String) :
    Ensures (nameOr what) s fun id s' => Reads s [id] s' := by
  unfold nameOr
  refine .peek (.ite (fun _ => ?_) (fun _ => ?_))
  · exact (name_reads hs).mono fun _ _ h => h.1
  · exact missing_reads hs what

theorem name?_reads (hs : s.Settled) :
    Ensures name? s fun id s' => Reads s id.toList s' := by
  unfold name?
  refine .peek (.ite (fun _ => ?_) (fun _ => ?_))
  · exact .map ((name_reads hs).mono fun _ _ h => h.1)
  · exact .pure (.stay hs)

/-! ## Section 5: Context and depth -/

theorem within_reads {α : Type} {body : Parse α} {nodes : α → List Nat}
    (change : Context → Context)
    (h : Ensures body (s.under (change s.context)) fun r s' =>
      Reads (s.under (change s.context)) (nodes r) s') :
    Ensures (within change body) s fun r s' => Reads s (nodes r) s' :=
  ⟨.under _ h.holds⟩

theorem unrestricted_reads {α : Type} {body : Parse α} {nodes : α → List Nat}
    (h : Ensures body (s.under {}) fun r s' => Reads (s.under {}) (nodes r) s') :
    Ensures (unrestricted body) s fun r s' => Reads s (nodes r) s' :=
  within_reads (fun _ => {}) h

/-- What is done at the nesting limit: the issue is recorded and a token
    skipped, unless none is left. -/
def giveUp {α : Type} (otherwise : Parse α) : Parse α := do
  report .tooDeep
  unless ← atEnd do advance
  otherwise

/-- A guarded phrase is given up or read one level deeper. -/
theorem guarded_cases {α : Type} {otherwise body : Parse α} {Q : α → State → Prop}
    (hdeep : maxDepth ≤ s.depth → Ensures (giveUp otherwise) s Q)
    (hbody : s.depth < maxDepth → Ensures body s.deeper fun r s' => Q r s'.shallower) :
    Ensures (guarded otherwise body) s Q := by
  unfold guarded
  refine .peek (.ite hdeep fun hdepth => .modify _ ?_)
  exact (hbody (Nat.lt_of_not_le hdepth)).bind fun _ _ h => .modify _ (.pure h)

theorem giveUp_reads {α : Type} {otherwise : Parse α} {nodes : α → List Nat} (hs : s.Settled)
    (hotherwise : ∀ s₁, Reads s [] s₁ →
      Ensures otherwise s₁ fun r s' => Reads s₁ (nodes r) s') :
    Ensures (giveUp otherwise) s fun r s' => Reads s (nodes r) s' := by
  unfold giveUp
  refine (report_reads hs .tooDeep).bind fun _ s₁ h₁ => .peek ?_
  refine .unlessThen (P := fun s₂ => Reads s [] s₂) (fun _ => h₁.1) (fun _ => ?_)
    (fun s₂ h₂ => (hotherwise s₂ h₂).mono fun _ _ h₃ => h₂.append h₃)
  exact (advance_reads h₁.1.settled).mono fun _ _ h₂ => h₁.1.append h₂.2

/-- At the nesting limit at most one token is skipped. -/
theorem guarded_reads {α : Type} {otherwise body : Parse α} {nodes : α → List Nat}
    (hs : s.Settled)
    (hotherwise : ∀ s₁, Reads s [] s₁ →
      Ensures otherwise s₁ fun r s' => Reads s₁ (nodes r) s')
    (hbody : Ensures body s.deeper fun r s' => Reads s.deeper (nodes r) s') :
    Ensures (guarded otherwise body) s fun r s' => Reads s (nodes r) s' := by
  refine guarded_cases (fun _ => giveUp_reads hs hotherwise) fun hdepth => ?_
  exact hbody.mono fun _ _ h => .deeper hdepth h

/-! ## Section 6: Looking ahead -/

/-- Looking ahead leaves the state as it was. -/
theorem lookAhead_eq {α : Type} {body : Parse α} {R : α → Prop}
    (h : Ensures body s fun r s' => Reads s [] s' ∧ R r) :
    Ensures (lookAhead body) s fun r s' => s' = s ∧ R r :=
  ⟨⟨h.holds.1.rewind_eq, h.holds.2⟩⟩

theorem nextIs_eq {test : Parse Bool} {R : Bool → Prop} (hs : s.Settled)
    (h : Ensures test s.advanced fun found s' => Reads s.advanced [] s' ∧ R found) :
    Ensures (nextIs test) s fun found s' => s' = s ∧ R found := by
  refine lookAhead_eq ?_
  refine (advance_reads hs).bind fun _ s₁ h₁ => ?_
  obtain ⟨rfl, h₁⟩ := h₁
  exact h.mono fun found s₂ h₂ => ⟨h₁.append h₂.1, h₂.2⟩

/-- An attempt does what its body does, or nothing at all. -/
theorem attempt_ensures {α : Type} {body : Parse (Option α)} {Q : α → State → Prop}
    (h : Ensures body s fun r s' => r.elim (Reads s [] s') fun a => Q a s') :
    Ensures (attempt body) s fun r s' => r.elim (s' = s) fun a => Q a s' := by
  unfold attempt
  refine .peek (h.bind fun r s₁ h₁ => ?_)
  cases r with
  | some result => exact .pure h₁
  | none =>
    -- What a failed attempt has read is undone.
    exact ⟨h₁.rewind_eq⟩

/-- An attempt that has a result does what its body does. -/
theorem attempt_some {α : Type} {body : Parse (Option α)} {Q : α → State → Prop}
    (h : Ensures body s fun r s' => ∃ a, r = some a ∧ Q a s') :
    Ensures (attempt body) s fun r s' => ∃ a, r = some a ∧ Q a s' := by
  unfold attempt
  refine .peek (h.bind fun r s₁ h₁ => ?_)
  obtain ⟨a, rfl, hQ⟩ := h₁
  exact .pure ⟨a, rfl, hQ⟩

/-! ## Section 7: Repetition -/

/-- The second state is in the same window, at a later token. -/
structure Moved (s s' : State) : Prop extends Onward s s' where
  offset_lt : s.offset < s'.offset

theorem Derives.moved {s' : State} {ids : List Nat} (h : Reads s ids s')
    (hlt : s.offset < s'.offset) : Moved s s' :=
  ⟨h.onward rfl, hlt⟩

/-- A node that takes in what was read before the last step.  The step
    alone is then no derivation, but it has moved on. -/
theorem finish_step {s₁ s₂ : State} {form : Form} {ids : List Nat} (h : Reads s ids s₂)
    (hmoved : Moved s₁ s₂) (hchildren : form.children = ids) (hfits : s₂.tree.Fits form) :
    Ensures (finish form s.offset) s₂ fun id s₃ => Reads s [id] s₃ ∧ Moved s₁ s₃ := by
  refine ⟨⟨(finish_reads h hchildren hfits).holds, ?_⟩⟩
  exact ⟨⟨hmoved.start, hmoved.settled, hmoved.stop_eq, hmoved.offset_le⟩, hmoved.offset_lt⟩

/-- What a step of a repetition establishes: the invariant, further on in
    the text, or the result. -/
def Advances {β : Type} (I R : β → State → Prop) (s : State) : ForInStep β → State → Prop
  | .yield value, s' => I value s' ∧ Moved s s'
  | .done value, s' => R value s'

theorem iterate_ensures {β : Type} {step : β → Parse (ForInStep β)} {I R : β → State → Prop}
    (hstep : ∀ value s, I value s → s.Settled → Ensures (step value) s (Advances I R s))
    (count : Nat) {value : β} (hI : I value s) (hs : s.Settled)
    (hcount : s.scanner.stop - s.offset < count) :
    Ensures (iterate step count value) s R := by
  induction count generalizing value s with
  | zero => exact absurd hcount (Nat.not_lt_zero _)
  | succ count ih =>
    unfold iterate
    refine (hstep value s hI hs).bind fun r s₁ h₁ => ?_
    cases r with
    | done value => exact .pure h₁
    | yield value =>
      -- A later token of the same window leaves less than before.
      obtain ⟨hI₁, hmoved⟩ := h₁
      refine ih hI₁ hmoved.settled ?_
      have hlt := hmoved.offset_lt
      have hle : s₁.offset ≤ s₁.scanner.stop := hmoved.settled.token_pos_le
      rw [hmoved.stop_eq] at hle ⊢
      omega

/-- A repetition whose every step moves on in the text is never cut short. -/
theorem loop_ensures {β : Type} {init : β} {step : β → Parse (ForInStep β)}
    {I R : β → State → Prop} (hs : s.Settled) (hinit : I init s)
    (hstep : ∀ value s, I value s → s.Settled → Ensures (step value) s (Advances I R s)) :
    Ensures (loop init step) s R := by
  unfold loop
  exact .peek (iterate_ensures hstep _ hinit hs (Nat.lt_succ_self _))

theorem repeatWhile_reads {test : Parse Bool} {body : Parse Unit} (hs : s.Settled)
    (htest : ∀ s₁, Reads s [] s₁ → Ensures test s₁ fun found s₂ => Reads s₁ [] s₂ ∧
      (found = true → Ensures body s₂ fun _ s₃ => Reads s₂ [] s₃ ∧ s₁.offset < s₃.offset)) :
    Ensures (repeatWhile test body) s fun _ s' => Reads s [] s' := by
  unfold repeatWhile
  refine loop_ensures (I := fun _ s' => Reads s [] s') hs (.stay hs) fun _ s₁ h₁ _ => ?_
  refine (htest s₁ h₁).bind fun found s₂ h₂ => .ite (fun hfound => ?_) (fun _ => ?_)
  · refine (h₂.2 hfound).bind fun _ s₃ h₃ => .pure ?_
    have hstep := h₂.1.append h₃.1
    exact ⟨h₁.append hstep, hstep.moved h₃.2⟩
  · exact .pure (h₁.append h₂.1)

theorem gatherWhile_reads {test : Parse Bool} {items : Parse (List Nat)} (hs : s.Settled)
    (htest : ∀ ids s₁, Reads s ids s₁ → Ensures test s₁ fun found s₂ => Reads s₁ [] s₂ ∧
      (found = true →
        Ensures items s₂ fun more s₃ => Reads s₂ more s₃ ∧ s₁.offset < s₃.offset)) :
    Ensures (gatherWhile test items) s fun nodes s' => Reads s nodes s' := by
  unfold gatherWhile
  refine loop_ensures (I := fun nodes s' => Reads s nodes s') hs (.stay hs)
    fun nodes s₁ h₁ _ => ?_
  refine (htest nodes s₁ h₁).bind fun found s₂ h₂ => .ite (fun hfound => ?_) (fun _ => ?_)
  · refine (h₂.2 hfound).bind fun more s₃ h₃ => .pure ?_
    have hstep := h₂.1.append h₃.1
    exact ⟨h₁.append hstep, hstep.moved h₃.2⟩
  · exact .pure (h₁.skip h₂.1)

/-- Nothing is repeated where the test finds nothing. -/
theorem repeatWhile_none {test : Parse Bool} {body : Parse Unit} (hs : s.Settled)
    (htest : Ensures test s fun found s' => found = false ∧ s' = s) :
    Ensures (repeatWhile test body) s fun _ s' => s' = s := by
  unfold repeatWhile
  refine loop_ensures (I := fun _ s' => s' = s) hs rfl ?_
  rintro _ s₁ rfl -
  refine htest.bind fun found s₂ h₂ => ?_
  obtain ⟨rfl, rfl⟩ := h₂
  exact .pure rfl

/-- Nothing is gathered where the test finds nothing. -/
theorem gatherWhile_none {test : Parse Bool} {items : Parse (List Nat)} (hs : s.Settled)
    (htest : Ensures test s fun found s' => found = false ∧ s' = s) :
    Ensures (gatherWhile test items) s fun nodes s' => nodes = [] ∧ s' = s := by
  unfold gatherWhile
  refine loop_ensures (I := fun nodes s' => nodes = [] ∧ s' = s) hs ⟨rfl, rfl⟩ ?_
  rintro nodes s₁ ⟨rfl, rfl⟩ -
  refine htest.bind fun found s₂ h₂ => ?_
  obtain ⟨rfl, rfl⟩ := h₂
  exact .pure ⟨rfl, rfl⟩

/-- What follows an item of a list: a comma, after which the list goes on,
    or its end. -/
theorem comma_advances {nodes more : List Nat} {s₁ s₂ : State} (h₁ : Reads s nodes s₁)
    (h₂ : Reads s₁ more s₂) :
    Ensures
      (do if ← accept .comma then return .yield (nodes ++ more) else return .done (nodes ++ more))
      s₂ (Advances (fun nodes s' => Reads s nodes s') (fun nodes s' => Reads s nodes s') s₁) := by
  refine (accept_moves h₂.settled (by decide)).bind fun found s₃ h₃ => ?_
  have hstep := h₂.skip h₃.1
  refine .ite (fun hfound => .pure ?_) (fun _ => .pure (h₁.append hstep))
  exact ⟨h₁.append hstep, hstep.moved (Nat.lt_of_le_of_lt h₂.offset_le (h₃.2 hfound))⟩

theorem separated_reads {items : Parse (List Nat)} (hs : s.Settled)
    (hitems : ∀ ids s₁, Reads s ids s₁ → Ensures items s₁ fun more s₂ => Reads s₁ more s₂) :
    Ensures (separated items) s fun nodes s' => Reads s nodes s' := by
  unfold separated
  refine loop_ensures (I := fun nodes s' => Reads s nodes s') hs (.stay hs)
    fun nodes s₁ h₁ _ => ?_
  exact (hitems nodes s₁ h₁).bind fun more s₂ h₂ => comma_advances h₁ h₂

theorem separatedUntil_reads {closer : Kind} {items : Parse (List Nat)} (hs : s.Settled)
    (hitems : ∀ ids s₁, Reads s ids s₁ → Ensures items s₁ fun more s₂ => Reads s₁ more s₂) :
    Ensures (separatedUntil closer items) s fun nodes s' => Reads s nodes s' := by
  unfold separatedUntil
  refine loop_ensures (I := fun nodes s' => Reads s nodes s') hs (.stay hs)
    fun nodes s₁ h₁ _ => ?_
  refine .peek (.peek (.ite (fun _ => .pure h₁) (fun _ => ?_)))
  exact (hitems nodes s₁ h₁).bind fun more s₂ h₂ => comma_advances h₁ h₂

end SelfCapture.Grammar
