import SelfCapture.Proofs.Grammar.Ranges

/-! # Readings that leave no empty node

  A node is empty if no token was consumed between its start and its
  making.  The grammar makes such a node only where it finds something
  missing, and then it reports an issue.  So a text without issues has no
  empty node below its root.

  This cannot be told from a derivation, which does not say what was
  consumed before a node was made.  It is shown rule by rule, with
  judgments on readings about an offset `q` at which a node may start:

  * `Orderly stage q p`: the reading makes no empty node, if a node at `q`
    has come to the given stage before it.
  * `Covers q p`: it also consumes a token at or after `q`, so that a node
    at `q` can be made after it.
  * `Takes q p` and `Begins stage q p`: the same, of a reading that starts
    at a token other than the end.

  All of them allow for trouble.  They are classes, with an instance for
  each way of putting readings together, so that the judgment of a rule is
  found from those of its parts.
-/

namespace SelfCapture

/-! ## Section 1: States without empty nodes -/

/-- No node is empty. -/
structure Tree.Full (t : Tree) : Prop where
  lt : ∀ {id : Nat} {r : Nat × Nat}, t.range? id = some r → r.1 < r.2

theorem Tree.full_empty (bytes : ByteArray) : (Tree.mk bytes #[]).Full := ⟨nofun⟩

theorem Tree.Full.add {t : Tree} (h : t.Full) {form : Form} {pos stop : Nat} (hlt : pos < stop) :
    (t.add form pos stop).Full := by
  refine ⟨fun {id r} hr => ?_⟩
  rw [range?_add] at hr
  split at hr
  · rw [← Option.some.inj hr]
    exact Nat.lt_of_lt_of_le hlt (Nat.le_max_left ..)
  · exact h.lt hr

theorem Tree.range?_truncate (t : Tree) (count id : Nat) :
    (t.truncate count).range? id = if id < count then t.range? id else none := by
  simp only [range?, get?, truncate, ← Array.getElem?_toList, Array.toList_shrink,
    List.getElem?_take]
  split
  · rfl
  · rfl

/-- The scanner is back where it was, except for what it found since. -/
theorem Scanner.Settled.restore {s s' : Scanner} (h : s.Settled) (hbytes : s'.bytes = s.bytes) :
    (s'.restore s.save).Settled := by
  obtain ⟨bytes, _, _, _, _, _⟩ := s'
  subst hbytes
  exact ⟨h.stop_le, h.pos_eq, h.token_le, h.token_stop_le, h.atEnd_iff, h.covers, h.inside, h.brace⟩

namespace Grammar

open Token (Kind)

namespace State

/-- An issue was reported, or reading was cut short. -/
def Troubled (s : State) : Prop := 0 < s.diagnostics.size ∨ s.exhausted = true

/-- There is no empty node without trouble. -/
structure Clean (s : State) : Prop where
  /-- Nothing is noted as an issue without a diagnostic. -/
  issue : s.lastIssueAt ≠ none → s.Troubled
  full : s.Troubled ∨ s.tree.Full

/-- What holds at every token. -/
structure Sane (s : State) : Prop extends Clean s where
  settled : s.Settled
  behind : s.Behind

/-- A token at or after `q` has been consumed, or there is trouble. -/
def Past (q : Nat) (s : State) : Prop := q < s.previousStop ∨ s.Troubled

end State

/-- The second state has the issues and nodes of the first, and maybe more. -/
structure Gains (s s' : State) : Prop where
  bytes_eq : s'.scanner.bytes = s.scanner.bytes
  diagnostics_le : s.diagnostics.size ≤ s'.diagnostics.size
  exhausted_imp : s.exhausted = true → s'.exhausted = true
  nextId_le : s.tree.nextId ≤ s'.tree.nextId
  range_eq : ∀ {id : Nat}, id < s.tree.nextId → s'.tree.range? id = s.tree.range? id

/-- The second state is at the same token as the first or further on. -/
structure Follows (s s' : State) : Prop extends Gains s s' where
  sane : s'.Sane
  offset_le : s.offset ≤ s'.offset
  previousStop_le : s.previousStop ≤ s'.previousStop

/-- On the way a token at or after `q` has been consumed. -/
structure Consumes (q : Nat) (s s' : State) : Prop extends Follows s s' where
  past : s'.Past q

namespace Gains

variable {s s₁ s₂ : State}

theorem refl (s : State) : Gains s s := ⟨rfl, Nat.le_refl _, id, Nat.le_refl _, fun _ => rfl⟩

theorem trans (h : Gains s s₁) (h' : Gains s₁ s₂) : Gains s s₂ where
  bytes_eq := h'.bytes_eq.trans h.bytes_eq
  diagnostics_le := Nat.le_trans h.diagnostics_le h'.diagnostics_le
  exhausted_imp := fun hs => h'.exhausted_imp (h.exhausted_imp hs)
  nextId_le := Nat.le_trans h.nextId_le h'.nextId_le
  range_eq := fun hid => (h'.range_eq (Nat.lt_of_lt_of_le hid h.nextId_le)).trans (h.range_eq hid)

theorem troubled (h : Gains s s₁) (hs : s.Troubled) : s₁.Troubled :=
  hs.imp (fun hlt => Nat.lt_of_lt_of_le hlt h.diagnostics_le) h.exhausted_imp

end Gains

namespace Follows

variable {s s₁ s₂ : State} {q : Nat}

theorem refl (hs : s.Sane) : Follows s s := ⟨.refl s, hs, Nat.le_refl _, Nat.le_refl _⟩

theorem trans (h : Follows s s₁) (h' : Follows s₁ s₂) : Follows s s₂ where
  toGains := h.toGains.trans h'.toGains
  sane := h'.sane
  offset_le := Nat.le_trans h.offset_le h'.offset_le
  previousStop_le := Nat.le_trans h.previousStop_le h'.previousStop_le

theorem past (h : Follows s s₁) (hs : s.Past q) : s₁.Past q :=
  hs.imp (fun hlt => Nat.lt_of_lt_of_le hlt h.previousStop_le) h.toGains.troubled

theorem then_consumes (h : Follows s s₁) (h' : Consumes q s₁ s₂) : Consumes q s s₂ :=
  ⟨h.trans h'.toFollows, h'.past⟩

/-! ## Section 2: Steps -/

theorem advanced (hs : s.Sane) : Follows s s.advanced where
  bytes_eq := rfl
  diagnostics_le := Nat.le_refl _
  exhausted_imp := id
  nextId_le := Nat.le_refl _
  range_eq := fun _ => rfl
  sane := ⟨⟨hs.issue, hs.full⟩, hs.settled.scan, State.advanced_behind hs.settled⟩
  offset_le := (Onward.advanced hs.settled).offset_le
  previousStop_le := Nat.le_trans hs.behind hs.settled.token_le

/-- After a report there is trouble, also if it repeats an earlier one. -/
theorem reported (hs : s.Sane) (issue : Issue) :
    Follows s (s.reported issue) ∧ (s.reported issue).Troubled := by
  unfold State.reported
  split
  · -- What was recorded at this token before is still there.
    rename_i hlast
    refine ⟨refl hs, hs.issue ?_⟩
    rw [eq_of_beq hlast]
    exact Option.some_ne_none _
  · have hsize : 0 < (s.diagnostics.push
        ⟨s.offset, s.scanner.token.stop - s.offset, issue⟩).size := by simp
    have htrouble (s' : State) (h : 0 < s'.diagnostics.size) : s'.Troubled := Or.inl h
    refine ⟨⟨⟨rfl, ?_, id, Nat.le_refl _, fun _ => rfl⟩,
      ⟨⟨fun _ => htrouble _ hsize, Or.inl (htrouble _ hsize)⟩, hs.settled, hs.behind⟩,
      Nat.le_refl _, Nat.le_refl _⟩, htrouble _ hsize⟩
    simp

theorem made (hs : s.Sane) {form : Form} {pos stop : Nat} (h : s.Troubled ∨ pos < stop) :
    Follows s (s.made form pos stop) := by
  refine ⟨⟨rfl, Nat.le_refl _, id, ?_, fun {id} hid => ?_⟩,
    ⟨⟨hs.issue, ?_⟩, hs.settled, hs.behind⟩, Nat.le_refl _, Nat.le_refl _⟩
  · show s.tree.nextId ≤ (s.tree.add form pos stop).nextId
    simp
  · show (s.tree.add form pos stop).range? id = s.tree.range? id
    rw [Tree.range?_add, if_neg (Nat.ne_of_lt hid)]
  · rcases h with htrouble | hlt
    · exact Or.inl htrouble
    · exact hs.full.imp_right fun hfull => hfull.add hlt

/-- Context and depth do not matter. -/
theorem surround (h : Follows s s₁) (context : Context) (depth : Nat) :
    Follows s { s₁ with context, depth } :=
  ⟨⟨h.bytes_eq, h.diagnostics_le, h.exhausted_imp, h.nextId_le, h.range_eq⟩,
    ⟨⟨h.sane.issue, h.sane.full⟩, h.sane.settled, h.sane.behind⟩, h.offset_le, h.previousStop_le⟩

theorem rewind (hs : s.Sane) (h : Follows s s₁) : Follows s (s₁.rewind s.save) := by
  have hdiagnostics : (s₁.rewind s.save).diagnostics.size = s.diagnostics.size := by
    simp only [State.rewind, State.save, Array.size_shrink, Nat.min_eq_left h.diagnostics_le]
  have hgains : Gains s (s₁.rewind s.save) := by
    refine ⟨h.bytes_eq, Nat.le_of_eq hdiagnostics.symm, h.exhausted_imp, ?_, fun {id} hid => ?_⟩
    · simp only [State.rewind, State.save, Tree.nextId, Tree.truncate, Array.size_shrink]
      exact Nat.le_min.mpr ⟨Nat.le_refl _, h.nextId_le⟩
    · simp only [State.rewind, State.save, Tree.range?_truncate]
      rw [if_pos (show id < s.tree.nodes.size from hid)]
      exact h.range_eq hid
  refine ⟨hgains, ⟨⟨fun hissue => hgains.troubled (hs.issue hissue), ?_⟩,
    hs.settled.restore h.bytes_eq, hs.behind⟩, Nat.le_refl _, Nat.le_refl _⟩
  refine hs.full.imp hgains.troubled fun hfull => ⟨fun {id r} hr => ?_⟩
  -- The nodes that are left were there before.
  simp only [State.rewind, State.save, Tree.range?_truncate] at hr
  split at hr
  · exact hfull.lt ((h.range_eq ‹_›).symm.trans hr)
  · cases hr

end Follows

theorem Consumes.then_follows {q : Nat} {s s₁ s₂ : State} (h : Consumes q s s₁)
    (h' : Follows s₁ s₂) : Consumes q s s₂ :=
  ⟨h.toFollows.trans h', h'.past h.past⟩

theorem Consumes.mono {q q' : Nat} {s s' : State} (h : Consumes q' s s') (hle : q ≤ q') :
    Consumes q s s' :=
  ⟨h.toFollows, h.past.imp_left (Nat.lt_of_le_of_lt hle)⟩

theorem Consumes.advanced {q : Nat} {s : State} (hs : s.Sane) (hq : q ≤ s.offset)
    (hk : s.kind ≠ .endOfFile) : Consumes q s s.advanced :=
  ⟨.advanced hs, Or.inl (Nat.lt_of_le_of_lt hq (hs.settled.covers hk))⟩

theorem Consumes.reported {s : State} (hs : s.Sane) (q : Nat) (issue : Issue) :
    Consumes q s (s.reported issue) :=
  ⟨(Follows.reported hs issue).1, Or.inr (Follows.reported hs issue).2⟩

/-- A used up allowance is trouble. -/
theorem Consumes.exhausted {s : State} (hs : s.Sane) (q : Nat) :
    Consumes q s { s with exhausted := true } where
  bytes_eq := rfl
  diagnostics_le := Nat.le_refl _
  exhausted_imp := fun _ => rfl
  nextId_le := Nat.le_refl _
  range_eq := fun _ => rfl
  sane := ⟨⟨fun _ => Or.inr rfl, Or.inl (Or.inr rfl)⟩, hs.settled, hs.behind⟩
  offset_le := Nat.le_refl _
  previousStop_le := Nat.le_refl _
  past := Or.inr (Or.inr rfl)

/-! ## Section 3: Judgments -/

/-- How far reading has come with a node: it has started, or it covers a token. -/
inductive Stage where
  | started
  | covered

/-- Reading has come to a stage of a node that starts at `q`. -/
def Stage.Reached (q : Nat) (s : State) : Stage → Prop
  | .started => q ≤ s.offset
  | .covered => q ≤ s.offset ∧ s.Past q

/-- From this stage on, the reading makes no empty node. -/
class Orderly {α : Type} (stage : Stage) (q : Nat) (p : Parse α) : Prop where
  follows : ∀ s : State, s.Sane → stage.Reached q s → Follows s (p s).2

/-- The reading also consumes a token at or after `q`. -/
class Covers {α : Type} (q : Nat) (p : Parse α) : Prop where
  consumes : ∀ s : State, s.Sane → q ≤ s.offset → Consumes q s (p s).2

/-- The reading consumes a token if there is one. -/
class Takes {α : Type} (q : Nat) (p : Parse α) : Prop where
  consumes : ∀ s : State, s.Sane → q ≤ s.offset → s.kind ≠ .endOfFile → Consumes q s (p s).2

/-- The reading is orderly if there is a token. -/
class Begins {α : Type} (stage : Stage) (q : Nat) (p : Parse α) : Prop where
  follows : ∀ s : State, s.Sane → stage.Reached q s → s.kind ≠ .endOfFile → Follows s (p s).2

/-- The reading leaves every state at a token as it is. -/
class Looks {α : Type} (p : Parse α) : Prop where
  state_eq : ∀ s : State, s.Settled → (p s).2 = s

/-- The test looks for a token other than the end. -/
class Sees (test : Parse Bool) : Prop extends Looks test where
  ne_end : ∀ s : State, s.Settled → (test s).1 = true → s.kind ≠ .endOfFile

namespace Stage

variable {stage : Stage} {q : Nat} {s s' : State}

theorem Reached.started (h : stage.Reached q s) : q ≤ s.offset := by
  cases stage with
  | started => exact h
  | covered => exact h.1

theorem Reached.follows (h : stage.Reached q s) (hs : Follows s s') : stage.Reached q s' := by
  cases stage with
  | started => exact Nat.le_trans h hs.offset_le
  | covered => exact ⟨Nat.le_trans h.1 hs.offset_le, hs.past h.2⟩

theorem reached_covered (h : Consumes q s s') (hq : q ≤ s.offset) : covered.Reached q s' :=
  ⟨Nat.le_trans hq h.offset_le, h.past⟩

end Stage

section judgments

variable {α β : Type} {stage : Stage} {q : Nat} {p p' : Parse α} {first : Parse β}
  {next : β → Parse α}

instance (priority := low) Orderly.of_covers [hp : Covers q p] : Orderly stage q p :=
  ⟨fun s hs h => (hp.consumes s hs h.started).toFollows⟩

instance (priority := low) Takes.of_covers [hp : Covers q p] : Takes q p :=
  ⟨fun s hs hq _ => hp.consumes s hs hq⟩

instance (priority := low) Begins.of_takes [hp : Takes q p] : Begins stage q p :=
  ⟨fun s hs h hk => (hp.consumes s hs h.started hk).toFollows⟩

instance (priority := low) Begins.of_orderly [hp : Orderly stage q p] : Begins stage q p :=
  ⟨fun s hs h _ => hp.follows s hs h⟩

instance Looks.of_peeks [hp : Peeks p] : Looks p := ⟨fun s _ => hp.state_eq s⟩

instance Orderly.of_looks [hp : Looks p] : Orderly stage q p where
  follows s hs _ := by
    rw [hp.state_eq s hs.settled]
    exact .refl hs

/-! ## Section 4: Sequences and branches -/

theorem Orderly.seq (hfirst : Orderly stage q first) (hnext : ∀ r, Orderly stage q (next r)) :
    Orderly stage q (first >>= next) where
  follows s hs h := by
    have hread := hfirst.follows s hs h
    exact hread.trans ((hnext _).follows _ hread.sane (h.follows hread))

/-- After a token has been consumed, a node can be made. -/
theorem Covers.seq (hfirst : Covers q first) (hnext : ∀ r, Orderly .covered q (next r)) :
    Covers q (first >>= next) where
  consumes s hs hq := by
    have hread := hfirst.consumes s hs hq
    exact hread.then_follows
      ((hnext _).follows _ hread.sane (Stage.reached_covered hread hq))

theorem Covers.after (hfirst : Orderly .started q first) (hnext : ∀ r, Covers q (next r)) :
    Covers q (first >>= next) where
  consumes s hs hq := by
    have hread := hfirst.follows s hs hq
    exact hread.then_consumes ((hnext _).consumes _ hread.sane (Nat.le_trans hq hread.offset_le))

instance Orderly.bind [hfirst : Orderly stage q first] [hnext : ∀ r, Orderly stage q (next r)] :
    Orderly stage q (first >>= next) := .seq hfirst hnext

instance (priority := high) Covers.bind [hfirst : Covers q first]
    [hnext : ∀ r, Orderly .covered q (next r)] : Covers q (first >>= next) := .seq hfirst hnext

instance (priority := high) Orderly.bind_covers [hfirst : Covers q first]
    [hnext : ∀ r, Orderly .covered q (next r)] : Orderly stage q (first >>= next) :=
  have := Covers.seq hfirst hnext
  .of_covers

instance Takes.bind [hfirst : Takes q first] [hnext : ∀ r, Orderly .covered q (next r)] :
    Takes q (first >>= next) where
  consumes s hs hq hk := by
    have hread := hfirst.consumes s hs hq hk
    exact hread.then_follows
      ((hnext _).follows _ hread.sane (Stage.reached_covered hread hq))

instance Covers.bind_next [hfirst : Orderly .started q first] [hnext : ∀ r, Covers q (next r)] :
    Covers q (first >>= next) := .after hfirst hnext

/-- What only looks leaves the token where it is. -/
instance Takes.bind_next [hfirst : Looks first] [hnext : ∀ r, Takes q (next r)] :
    Takes q (first >>= next) where
  consumes s hs hq hk := by
    show Consumes q s (next (first s).1 (first s).2).2
    rw [hfirst.state_eq s hs.settled]
    exact (hnext _).consumes s hs hq hk

instance Begins.bind [hfirst : Looks first] [hnext : ∀ r, Begins stage q (next r)] :
    Begins stage q (first >>= next) where
  follows s hs h hk := by
    show Follows s (next (first s).1 (first s).2).2
    rw [hfirst.state_eq s hs.settled]
    exact (hnext _).follows s hs h hk

/-- A choice by the kind of the current token. -/
theorem Orderly.onKind {next : Kind → Parse α} (hend : Orderly stage q (next .endOfFile))
    (htoken : ∀ k, Begins stage q (next k)) : Orderly stage q (kind >>= next) where
  follows s hs h := by
    show Follows s (next s.kind s).2
    by_cases hk : s.kind = .endOfFile
    · rw [hk]
      exact hend.follows s hs h
    · exact (htoken s.kind).follows s hs h hk

theorem Covers.onKind {next : Kind → Parse α} (hend : Covers q (next .endOfFile))
    (htoken : ∀ k, Takes q (next k)) : Covers q (kind >>= next) where
  consumes s hs hq := by
    show Consumes q s (next s.kind s).2
    by_cases hk : s.kind = .endOfFile
    · rw [hk]
      exact hend.consumes s hs hq
    · exact (htoken s.kind).consumes s hs hq hk

/-- A node may start at the current token. -/
theorem Orderly.fromHere {next : Nat → Parse α} (hnext : ∀ pos, Orderly .started pos (next pos)) :
    Orderly stage q (position >>= next) :=
  ⟨fun s hs _ => (hnext s.offset).follows s hs (Nat.le_refl s.offset)⟩

instance (priority := high) Orderly.position {next : Nat → Parse α}
    [hnext : ∀ pos, Orderly .started pos (next pos)] : Orderly stage q (position >>= next) :=
  .fromHere hnext

theorem Covers.fromHere {next : Nat → Parse α} (hnext : ∀ pos, Covers pos (next pos)) :
    Covers q (position >>= next) :=
  ⟨fun s hs hq => ((hnext s.offset).consumes s hs (Nat.le_refl s.offset)).mono hq⟩

instance (priority := high) Covers.position {next : Nat → Parse α}
    [hnext : ∀ pos, Covers pos (next pos)] : Covers q (position >>= next) := .fromHere hnext

instance (priority := high) Takes.position {next : Nat → Parse α}
    [hnext : ∀ pos, Takes pos (next pos)] : Takes q (position >>= next) :=
  ⟨fun s hs hq hk => ((hnext s.offset).consumes s hs (Nat.le_refl s.offset) hk).mono hq⟩

instance Orderly.map {f : β → α} [hfirst : Orderly stage q first] :
    Orderly stage q (f <$> first) := ⟨hfirst.follows⟩

instance Covers.map {f : β → α} [hfirst : Covers q first] : Covers q (f <$> first) :=
  ⟨hfirst.consumes⟩

instance Takes.map {f : β → α} [hfirst : Takes q first] : Takes q (f <$> first) :=
  ⟨hfirst.consumes⟩

section choice

variable {c : Prop} [Decidable c]

instance Orderly.ite [Orderly stage q p] [Orderly stage q p'] :
    Orderly stage q (if c then p else p') := by
  split
  · assumption
  · assumption

instance Covers.ite [Covers q p] [Covers q p'] : Covers q (if c then p else p') := by
  split
  · assumption
  · assumption

instance Begins.ite [Begins stage q p] [Begins stage q p'] :
    Begins stage q (if c then p else p') := by
  split
  · assumption
  · assumption

instance Takes.ite [Takes q p] [Takes q p'] : Takes q (if c then p else p') := by
  split
  · assumption
  · assumption

end choice

section tests

variable {test : Parse Bool}

/-- Where the test holds there is a token. -/
instance (priority := high) Orderly.sees [htest : Sees test] [hp : Begins stage q p]
    [hp' : Orderly stage q p'] :
    Orderly stage q (test >>= fun found => if found then p else p') where
  follows s hs h := by
    show Follows s ((if (test s).1 = true then p else p') (test s).2).2
    rw [htest.state_eq s hs.settled]
    split
    · exact hp.follows s hs h (htest.ne_end s hs.settled ‹_›)
    · exact hp'.follows s hs h

instance (priority := high) Covers.sees [htest : Sees test] [hp : Takes q p] [hp' : Covers q p'] :
    Covers q (test >>= fun found => if found then p else p') where
  consumes s hs hq := by
    show Consumes q s ((if (test s).1 = true then p else p') (test s).2).2
    rw [htest.state_eq s hs.settled]
    split
    · exact hp.consumes s hs hq (htest.ne_end s hs.settled ‹_›)
    · exact hp'.consumes s hs hq

variable {other : Parse Bool} {c : Bool → Bool → Bool}

/-- A test made of two tests. -/
instance (priority := high) Orderly.sees_pair [Sees (do return c (← test) (← other))]
    [Begins stage q p] [Orderly stage q p'] :
    Orderly stage q (test >>= fun a => other >>= fun b => if c a b then p else p') :=
  inferInstanceAs
    (Orderly stage q ((do return c (← test) (← other)) >>= fun found => if found then p else p'))

instance (priority := high) Covers.sees_pair [Sees (do return c (← test) (← other))] [Takes q p]
    [Covers q p'] : Covers q (test >>= fun a => other >>= fun b => if c a b then p else p') :=
  inferInstanceAs
    (Covers q ((do return c (← test) (← other)) >>= fun found => if found then p else p'))

instance Sees.and {f : Bool → Bool} [htest : Sees test] [hother : Looks other] :
    Sees (do return (← test) && f (← other)) where
  state_eq s hs := by
    show (other (test s).2).2 = s
    rw [htest.state_eq s hs, hother.state_eq s hs]
  ne_end s hs h := htest.ne_end s hs (Bool.and_eq_true_iff.mp h).1

instance Sees.or [htest : Sees test] [hother : Sees other] :
    Sees (do return (← test) || (← other)) where
  state_eq s hs := by
    show (other (test s).2).2 = s
    rw [htest.state_eq s hs, hother.state_eq s hs]
  ne_end s hs h := by
    have heither : ((test s).1 || (other (test s).2).1) = true := h
    rw [htest.state_eq s hs, Bool.or_eq_true] at heither
    exact heither.elim (htest.ne_end s hs) (hother.ne_end s hs)

end tests

end judgments

/-! ## Section 5: Tokens and nodes -/

section tokens

variable {stage : Stage} {q : Nat}

instance : Orderly stage q advance := ⟨fun _ hs _ => .advanced hs⟩

instance : Takes q advance := ⟨fun _ hs hq hk => .advanced hs hq hk⟩

instance (k : Kind) : Orderly stage q (accept k) := by
  unfold accept
  infer_instance

instance (issue : Issue) : Covers q (report issue) := ⟨fun _ hs _ => .reported hs q issue⟩

instance (what : String) : Covers q (reportExpected what) :=
  inferInstanceAs (Covers q (report _))

instance (k : Kind) (what : String) : Orderly stage q (expect k what) := by
  unfold expect
  infer_instance

/-- What is expected is consumed or reported. -/
theorem expect_covers {k : Kind} (hk : k ≠ .endOfFile) (what : String) :
    Covers q (expect k what) where
  consumes s hs hq := by
    have hexpect : Ensures (expect k what) s fun _ s' => Consumes q s s' := by
      unfold expect
      refine (accept_reads hs.settled k).bind fun found s₁ h₁ => .ite (fun hfound => ?_) fun hno => ?_
      · obtain ⟨hkind, rfl⟩ := h₁.2.1 hfound
        exact .pure (.advanced hs hq (hkind ▸ hk))
      · obtain rfl := h₁.2.2 (Bool.not_eq_true _ ▸ hno)
        exact ⟨.reported hs q _⟩
    exact hexpect.holds

instance : Covers q exhaust := ⟨fun _ hs _ => .exhausted hs q⟩

/-- A node of what has been read is not empty once a token has been consumed. -/
instance (form : Form) : Orderly .covered q (finish form q) where
  follows s hs h := by
    refine .made hs ?_
    rcases h.2 with hlt | htrouble
    · exact Or.inr (Nat.lt_of_lt_of_le hlt (Nat.le_max_left ..))
    · exact Or.inl htrouble

instance : Takes q name where
  consumes s hs hq hk := by
    have hread : Consumes q s s.advanced := .advanced hs hq hk
    exact hread.then_follows (.made hread.sane (Or.inr (hs.settled.covers hk)))

/-- A node for something missing is empty, but not without trouble. -/
instance (what : String) : Covers q (missing what) where
  consumes s hs _ := by
    have hread : Consumes q s (s.reported (.expected what)) := .reported hs q _
    have htrouble := (Follows.reported hs (.expected what)).2
    exact hread.then_follows (.made hread.sane (Or.inl htrouble))

instance : Sees isName where
  state_eq _ _ := rfl
  ne_end _ _ h := ne_end_of_isName h

instance (what : String) : Covers q (nameOr what) := by
  unfold nameOr
  infer_instance

instance : Orderly stage q name? := by
  unfold name?
  infer_instance

end tokens

/-! ## Section 6: Context, depth and attempts -/

section surroundings

variable {α : Type} {stage : Stage} {q : Nat}

/-- Context and depth may be changed before and after. -/
theorem Orderly.surrounded (body : Parse α) [hbody : Orderly stage q body] {s : State}
    (hs : s.Sane) (h : stage.Reached q s) (context context' : Context) (depth depth' : Nat) :
    Follows s { (body { s with context, depth }).2 with context := context', depth := depth' } := by
  have hstart : Follows s { s with context, depth } := (Follows.refl hs).surround context depth
  have hread := hbody.follows _ hstart.sane (h.follows hstart)
  exact hstart.trans (hread.surround context' depth')

theorem Covers.surrounded (body : Parse α) [hbody : Covers q body] {s : State} (hs : s.Sane)
    (hq : q ≤ s.offset) (context context' : Context) (depth depth' : Nat) :
    Consumes q s
      { (body { s with context, depth }).2 with context := context', depth := depth' } := by
  have hstart : Follows s { s with context, depth } := (Follows.refl hs).surround context depth
  have hread := hbody.consumes _ hstart.sane hq
  exact ⟨hstart.trans (hread.toFollows.surround context' depth'), hread.past⟩

variable {otherwise body : Parse α}

instance (change : Context → Context) [Orderly stage q body] :
    Orderly stage q (within change body) :=
  ⟨fun _ hs h => Orderly.surrounded body hs h _ _ _ _⟩

instance (change : Context → Context) [Covers q body] : Covers q (within change body) :=
  ⟨fun _ hs hq => Covers.surrounded body hs hq _ _ _ _⟩

instance [Orderly stage q body] : Orderly stage q (unrestricted body) :=
  inferInstanceAs (Orderly stage q (within _ body))

instance [Orderly stage q body] : Orderly stage q (asCondition body) :=
  inferInstanceAs (Orderly stage q (within _ body))

instance [Covers q body] : Covers q (asCondition body) :=
  inferInstanceAs (Covers q (within _ body))

/-- What is given up at the nesting limit is reported. -/
theorem giveUp_covers (otherwise : Parse α) [Orderly .covered q otherwise] :
    Covers q (giveUp otherwise) := by
  unfold giveUp
  infer_instance

instance [Orderly .covered q otherwise] [Orderly stage q body] :
    Orderly stage q (guarded otherwise body) where
  follows s hs h := by
    show Follows s ((if maxDepth ≤ s.depth then _ else _ : Parse α) s).2
    split
    · exact ((giveUp_covers otherwise).consumes s hs h.started).toFollows
    · exact Orderly.surrounded body hs h _ _ _ _

instance [Orderly .covered q otherwise] [Covers q body] : Covers q (guarded otherwise body) where
  consumes s hs hq := by
    show Consumes q s ((if maxDepth ≤ s.depth then _ else _ : Parse α) s).2
    split
    · exact (giveUp_covers otherwise).consumes s hs hq
    · exact Covers.surrounded body hs hq _ _ _ _

/-- What a failed attempt has read is undone. -/
theorem attempt_orderly {body : Parse (Option α)} (hbody : Orderly stage q body) :
    Orderly stage q (attempt body) where
  follows s hs h := by
    have hread : Ensures body s fun _ s' => Follows s s' := ⟨hbody.follows s hs h⟩
    have hattempt : Ensures (attempt body) s fun _ s' => Follows s s' := by
      unfold attempt
      refine .peek (hread.bind fun result s₁ h₁ => ?_)
      cases result with
      | some result => exact .pure h₁
      | none => exact ⟨h₁.rewind hs⟩
    exact hattempt.holds

instance {body : Parse (Option α)} [hbody : Orderly stage q body] :
    Orderly stage q (attempt body) := attempt_orderly hbody

end surroundings

/-! ## Section 7: Repetition -/

section repetition

variable {β : Type} {stage : Stage} {q : Nat} {init : β} {step : β → Parse (ForInStep β)}

theorem iterate_orderly (hstep : ∀ value, Orderly stage q (step value)) (count : Nat) (value : β) :
    Orderly stage q (iterate step count value) := by
  induction count generalizing value with
  | zero =>
    unfold iterate
    infer_instance
  | succ count ih =>
    unfold iterate
    refine .seq (hstep value) fun r => ?_
    cases r with
    | done value => exact .of_looks
    | yield value => exact ih value

theorem loop_orderly (hstep : ∀ value, Orderly stage q (step value)) :
    Orderly stage q (loop init step) := by
  unfold loop
  exact .seq inferInstance fun bytes => iterate_orderly hstep (bytes + 1) init

instance [hstep : ∀ value, Orderly stage q (step value)] : Orderly stage q (loop init step) :=
  loop_orderly hstep

/-- The first round is always read. -/
instance [hstep : ∀ value, Covers q (step value)] : Covers q (loop init step) := by
  unfold loop iterate
  refine .after inferInstance fun bytes => .seq (hstep init) fun r => ?_
  cases r with
  | done value => exact .of_looks
  | yield value => exact iterate_orderly (fun value => .of_covers) _ value

variable {test : Parse Bool} {items : Parse (List Nat)}

instance {body : Parse Unit} [Orderly stage q test] [Orderly stage q body] :
    Orderly stage q (repeatWhile test body) := by
  unfold repeatWhile
  infer_instance

instance [Orderly stage q test] [Orderly stage q items] :
    Orderly stage q (gatherWhile test items) := by
  unfold gatherWhile
  infer_instance

instance [Sees test] [Takes q items] : Orderly stage q (gatherWhile test items) := by
  unfold gatherWhile
  infer_instance

instance [Orderly stage q items] : Orderly stage q (separated items) := by
  unfold separated
  infer_instance

instance [Covers q items] : Covers q (separated items) := by
  unfold separated
  infer_instance

instance {closer : Kind} [Orderly stage q items] :
    Orderly stage q (separatedUntil closer items) := by
  unfold separatedUntil
  infer_instance

instance {closer : Kind} {item : Parse (Option Nat)} [hitem : Orderly stage q item] :
    Orderly stage q (enclosed? closer item) := by
  unfold enclosed?
  refine .seq (loop_orderly fun nodes => .seq inferInstance fun found => ?_) fun nodes => ?_
  · split
    · infer_instance
    · refine .seq hitem fun node => ?_
      cases node with
      | none => infer_instance
      | some node => infer_instance
  · cases nodes with
    | none => infer_instance
    | some nodes => infer_instance

end repetition

end Grammar
end SelfCapture
