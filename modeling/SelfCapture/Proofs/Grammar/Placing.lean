import SelfCapture.Proofs.Grammar.Placement
import SelfCapture.Proofs.Grammar.Typing
import SelfCapture.Proofs.Token.Streams

/-! # Judgments on placed nodes

  The judgments on readings by which the rules of the grammar are shown to
  place their nodes, rule by rule.  They are relative to a `Place`: how
  deeply constructs are nested there, whether a brace may open a trailing
  closure, and where in the text it is at the earliest.

  * `Quiet p` : no node is made.
  * `Places place given R p` : if the nodes at hand are as `given`, the new
    nodes follow their law, `Form.Law`, and the result satisfies `R`.

  What is said of a node is said of it in the final tree, as the tree only
  grows.  So it does not depend on the state in which the node is used.
-/

namespace SelfCapture

open Token (Kind)

/-! ## Section 1: Laws -/

/-- The control statements that have a head before or after their bodies. -/
def ControlSort.hasHead : ControlSort → Bool
  | .branch | .guard | .loop | .repeatLoop | .forLoop | .handler => true
  | _ => false

namespace Form

/-- What holds in the end of a node of this form and range.  Leaves are
    tokens, but for a literal that is given up at the nesting limit.  The
    parts of a type declaration come after its first token.  A trailing
    closure is in sight neither from a part of a control statement with a
    head nor from the first part of a `switch`. -/
def Law (text : String) (final : Grammar.State) (r : Nat × Nat) : Form → Prop
  | .literal k => Scanner.IsToken text k r
  | .identifier k => k.isName = true → Scanner.IsToken text k r
  | .stringLiteral parts =>
    Scanner.IsToken text .stringLiteral r ∨
      parts = [] ∧ final.Notes r.1 ∧ ∃ s, Scanner.InStream text s ∧
        s.token.kind = .stringLiteral ∧ s.segments ≠ [] ∧ r = (s.token.pos, s.scan.token.stop)
  | .typeDecl _ name inherits members =>
    ∀ child ∈ name :: (inherits ++ members), ∀ r', final.tree.range? child = some r' → r.1 < r'.1
  | .control sort children =>
    (sort.hasHead = true → ∀ child ∈ children, ¬ final.tree.Exposes child) ∧
      (sort = .switch → ∀ child ∈ children.head?, ¬ final.tree.Exposes child)
  | _ => True

/-- The forms for which there is a law. -/
@[reducible] def isRuled : Form → Bool
  | .literal _ | .stringLiteral _ | .typeDecl .. => true
  | .identifier k => k.isName
  | .control sort _ => sort.hasHead || sort == .switch
  | _ => false

/-- The forms that have no law, shield nothing and can stand anywhere. -/
@[reducible] def isPlain : Form → Bool
  | argument .. | collection _ | ternary _ | closure .. | block _ | control .. => false
  | typeDecl .. | functionDecl .. | missing => false
  | call _ _ trailing _ => trailing.isNone
  | form => !form.isRuled

theorem law_of_not_isRuled {form : Form} (h : form.isRuled = false) (text : String)
    (final : Grammar.State) (r : Nat × Nat) : form.Law text final r := by
  cases form with
  | literal | stringLiteral | typeDecl => cases h
  | identifier k => exact fun hname => absurd (h.symm.trans hname) Bool.false_ne_true
  | control sort children =>
    simp only [isRuled, Bool.or_eq_false_iff, beq_eq_false_iff_ne] at h
    exact ⟨fun hhead => absurd (h.1.symm.trans hhead) Bool.false_ne_true,
      fun hswitch => absurd hswitch h.2⟩
  | _ => trivial

end Form

namespace Form

variable {form : Form}

theorem not_isRuled_of_isPlain (h : form.isPlain = true) : form.isRuled = false := by
  cases form <;> first | rfl | cases h | simpa using h

theorem not_shields_of_isPlain (h : form.isPlain = true) : form.shields = false := by
  cases form <;> first | rfl | cases h

theorem not_needsBraces_of_isPlain (h : form.isPlain = true) : form.needsBraces = false := by
  cases form <;> first | rfl | cases h | simpa [needsBraces, hasTrailing] using h

theorem ne_missing_of_isPlain (h : form.isPlain = true) : form ≠ .missing := by
  rintro rfl
  cases h

end Form

namespace Grammar

/-- The node follows its law. -/
def State.Lawful (final : State) (text : String) (id : Nat) : Prop :=
  ∀ form r, final.tree.form? id = some form → final.tree.range? id = some r →
    form.Law text final r

/-! ## Section 2: Places -/

/-- The state has nothing that the final state has not. -/
structure State.Leads (s final : State) : Prop where
  tree : s.tree.Extends final.tree
  diagnostics : s.diagnostics.toList <+: final.diagnostics.toList
  lasts : s.exhausted = false

namespace Later

variable {s s₁ final : State}

theorem leads (h : Later s s₁) (hfinal : s₁.Leads final) : s.Leads final where
  tree := h.tree.trans hfinal.tree
  diagnostics := h.diagnostics.trans hfinal.diagnostics
  lasts := by
    by_contra hexhausted
    have hend := h.exhausted_imp (by simpa using hexhausted)
    rw [hfinal.lasts] at hend
    cases hend

theorem advanced (hs : s.Settled) : Later s s.advanced :=
  have hbuilds : Builds (fun _ => none) True [] s s.advanced := .advanced hs
  hbuilds.toLater

theorem reported (hs : s.Settled) (issue : Issue) : Later s (s.reported issue) :=
  have hbuilds : Builds (fun _ => none) True [] s (s.reported issue) := .reported hs issue
  hbuilds.toLater

theorem exhausted (hs : s.Settled) : Later s { s with exhausted := true } :=
  have hbuilds : Builds (fun _ => none) True [] s { s with exhausted := true } := .exhausted hs
  hbuilds.toLater

theorem made (hs : s.Settled) {form : Form} {pos stop : Nat}
    (hmissing : form = .missing → s.exhausted = true ∨ (s.Accounted → s.Notes pos)) :
    Later s (s.made form pos stop) := by
  have hbuilds : Builds (fun _ => none) True (form.clause?.toList.map (·, s.tree.nextId)) s
      (s.made form pos stop) := .made hs nofun (fun clause h => by simp [h]) hmissing
  exact hbuilds.toLater

theorem rewind (hs : s.Settled) (h : Later s s₁) : Later s (s₁.rewind s.save) :=
  have hbuilds : Builds (fun _ => none) True [] s (s₁.rewind s.save) := .rewind hs h
  hbuilds.toLater

/-- Context and depth do not matter, if the context is put back. -/
theorem surround {context context' : Context} {depth depth' : Nat}
    (hcontext : context' = s.context) (h : Later { s with context, depth } s₁) :
    Later s { s₁ with context := context', depth := depth' } where
  bytes_eq := h.bytes_eq
  settled := h.settled
  context_eq := hcontext
  diagnostics := h.diagnostics
  exhausted_imp := h.exhausted_imp
  tree := h.tree
  accounted hs :=
    have hall := h.accounted ⟨hs.last, hs.missing⟩
    ⟨hall.last, hall.missing⟩

end Later

/-- A place in the grammar, with the text that is read and the state in
    which reading it ends. -/
structure Place where
  text : String
  final : State
  /-- An offset at or before the current token. -/
  low : Nat
  /-- How many nested constructs are open. -/
  depth : Nat
  /-- A brace does not open a trailing closure. -/
  bare : Bool

namespace Place

variable {place : Place} {tier? : Option Tier} {id : Nat}

/-- The place with or without trailing closures. -/
@[reducible] def under (place : Place) (bare : Bool) : Place := { place with bare }

/-- The place where trailing closures are allowed. -/
@[reducible] def free (place : Place) : Place := place.under false

theorem free_eq {place : Place} (h : place.bare = false) : place.free = place := by
  rw [free, ← h]

/-- The place one level deeper. -/
@[reducible] def deeper (place : Place) : Place := { place with depth := place.depth + 1 }

/-- In the end the node is placed here, in a phrase of the given sort. -/
structure Holds (place : Place) (tier? : Option Tier) (id : Nat) : Prop where
  placed : place.final.tree.Placed tier? place.depth place.bare id
  low_le : ∀ {r : Nat × Nat}, place.final.tree.range? id = some r → place.low ≤ r.1

/-- The node is placed here with or without trailing closures. -/
def Anywhere (place : Place) (tier? : Option Tier) (id : Nat) : Prop :=
  ∀ bare : Bool, (place.under bare).Holds tier? id

/-- The parts of a form are placed here. -/
structure Parts (place : Place) (tier? : Option Tier) (form : Form) : Prop where
  guarded : ∀ child ∈ form.guarded, place.Holds none child
  unguarded : ∀ child ∈ form.unguarded, place.Holds tier? child

/-- The result of reading an expression.  There is none only at the nesting limit. -/
structure Found (place : Place) (limit : Nat) (tier? : Option Tier) (r : Option Nat) : Prop where
  holds : ∀ id ∈ r, place.Holds tier? id
  limit_le : r = none → maxDepth ≤ limit

/-- The result of reading a statement.  At the nesting limit it has no calls. -/
structure Stated (place : Place) (id : Nat) : Prop where
  holds : place.Holds none id
  not_exposes : maxDepth ≤ place.depth + 1 → ¬ place.final.tree.Exposes id

namespace Holds

theorem lift (h : place.Holds none id) : place.Holds tier? id := ⟨h.placed.lift, h.low_le⟩

theorem relax (h : place.Holds tier? id) : place.free.Holds tier? id := ⟨h.placed.relax, h.low_le⟩

/-- What is read one level deeper can stand in any phrase here. -/
theorem shallower {inner : Tier} (hdepth : place.depth < maxDepth)
    (h : place.deeper.Holds (some inner) id) : place.Holds tier? id :=
  ⟨.deeper inner hdepth h.placed, h.low_le⟩

end Holds

theorem Anywhere.here (h : place.Anywhere tier? id) : place.Holds tier? id := h place.bare

theorem Anywhere.lift (h : place.Anywhere none id) : place.Anywhere tier? id :=
  fun bare => (h bare).lift

/-- No trailing closure is in sight of what can stand where none is allowed. -/
theorem Anywhere.not_exposes (h : place.Anywhere tier? id) : ¬ place.final.tree.Exposes id :=
  (h true).placed.not_exposes

end Place

/-- The state is at the place. -/
structure State.Sits (s : State) (place : Place) : Prop where
  settled : s.Settled
  low_le : place.low ≤ s.offset
  depth_eq : s.depth = place.depth
  bare_eq : s.context.noTrailingClosure = place.bare
  streams : Scanner.Streams place.text s.scanner
  accounted : s.Accounted

theorem State.Sits.deeper {s : State} {place : Place} (hs : s.Sits place) :
    s.deeper.Sits place.deeper :=
  ⟨hs.settled, hs.low_le, congrArg (· + 1) hs.depth_eq, hs.bare_eq, hs.streams,
    ⟨hs.accounted.last, hs.accounted.missing⟩⟩

/-! ## Section 3: Readings without nodes -/

/-- No node is made. -/
structure Quiets (s s' : State) : Prop extends Later s s' where
  tree_eq : s'.tree = s.tree
  depth_eq : s'.depth = s.depth
  offset_le : s.offset ≤ s'.offset
  streams : ∀ text, Scanner.Streams text s.scanner → Scanner.Streams text s'.scanner

namespace Quiets

variable {s s₁ s₂ : State} {place : Place}

theorem refl (hs : s.Settled) : Quiets s s := ⟨.refl hs, rfl, rfl, Nat.le_refl _, fun _ h => h⟩

theorem trans (h : Quiets s s₁) (h' : Quiets s₁ s₂) : Quiets s s₂ where
  toLater := h.toLater.trans h'.toLater
  tree_eq := h'.tree_eq.trans h.tree_eq
  depth_eq := h'.depth_eq.trans h.depth_eq
  offset_le := Nat.le_trans h.offset_le h'.offset_le
  streams text hs := h'.streams text (h.streams text hs)

theorem advanced (hs : s.Settled) : Quiets s s.advanced :=
  ⟨.advanced hs, rfl, rfl, (Onward.advanced hs).offset_le, fun _ h => h.scan⟩

theorem reported (hs : s.Settled) (issue : Issue) : Quiets s (s.reported issue) := by
  have hscanner := s.scanner_reported issue
  refine ⟨.reported hs issue, ?_, ?_, ?_, ?_⟩
  · unfold State.reported
    split
    · rfl
    · rfl
  · unfold State.reported
    split
    · rfl
    · rfl
  · rw [State.offset, State.offset, hscanner]
  · rw [hscanner]
    exact fun _ h => h

theorem exhausted (hs : s.Settled) : Quiets s { s with exhausted := true } :=
  ⟨.exhausted hs, rfl, rfl, Nat.le_refl _, fun _ h => h⟩

theorem rewind (hs : s.Settled) (h : Quiets s s₁) : Quiets s (s₁.rewind s.save) := by
  refine ⟨h.toLater.rewind hs, ?_, h.depth_eq, Nat.le_refl _, fun _ hstream => ?_⟩
  · show s₁.tree.truncate s.tree.nodes.size = s.tree
    rw [h.tree_eq]
    have hgrows : s.tree.Grows [] s.tree := .refl s.tree
    exact hgrows.truncate
  · exact hstream.congr (.restore h.bytes_eq)

theorem sits (h : Quiets s s₁) (hs : s.Sits place) : s₁.Sits place where
  settled := h.settled
  low_le := Nat.le_trans hs.low_le h.offset_le
  depth_eq := h.depth_eq.trans hs.depth_eq
  bare_eq := by rw [h.context_eq, hs.bare_eq]
  streams := h.streams _ hs.streams
  accounted := h.accounted hs.accounted

end Quiets

/-- The reading makes no nodes. -/
class Quiet {α : Type} (p : Parse α) : Prop where
  quiets : ∀ s : State, s.Settled → Quiets s (p s).2

section quiet

variable {α β : Type} {p p' : Parse α} {first : Parse β} {next : β → Parse α}

instance Quiet.of_looks [hp : Looks p] : Quiet p where
  quiets s hs := by
    rw [hp.state_eq s hs]
    exact .refl hs

theorem Quiet.seq (hfirst : Quiet first) (hnext : ∀ r, Quiet (next r)) :
    Quiet (first >>= next) where
  quiets s hs := by
    have hread := hfirst.quiets s hs
    exact hread.trans ((hnext _).quiets _ hread.settled)

instance Quiet.bind [hfirst : Quiet first] [hnext : ∀ r, Quiet (next r)] :
    Quiet (first >>= next) := .seq hfirst hnext

instance Quiet.ite {c : Prop} [Decidable c] [Quiet p] [Quiet p'] :
    Quiet (if c then p else p') := by
  split
  · assumption
  · assumption

instance : Quiet advance := ⟨fun _ hs => .advanced hs⟩

instance (k : Kind) : Quiet (accept k) := by
  unfold accept
  infer_instance

instance (issue : Issue) : Quiet (report issue) := ⟨fun _ hs => .reported hs issue⟩

instance (what : String) : Quiet (reportExpected what) := inferInstanceAs (Quiet (report _))

instance (k : Kind) (what : String) : Quiet (expect k what) := by
  unfold expect
  infer_instance

instance [hp : Quiet p] : Quiet (lookAhead p) := ⟨fun s hs => .rewind hs (hp.quiets s hs)⟩

instance {test : Parse Bool} [Quiet test] : Quiet (nextIs test) :=
  inferInstanceAs (Quiet (lookAhead (advance >>= fun _ => test)))

theorem Quiet.loop {init : β} {step : β → Parse (ForInStep β)}
    (hstep : ∀ value, Quiet (step value)) : Quiet (loop init step) where
  quiets s hs := by
    have hloop : Ensures (Grammar.loop init step) s fun _ s' => Quiets s s' := by
      refine loop_keeps (I := fun _ s' => Quiets s s')
        (fun _ s₁ h₁ => h₁.trans (.exhausted h₁.settled)) (fun value s₁ h₁ => ⟨?_⟩) (.refl hs)
      exact h₁.trans ((hstep value).quiets s₁ h₁.settled)
    exact hloop.holds

instance {init : β} {step : β → Parse (ForInStep β)} [hstep : ∀ value, Quiet (step value)] :
    Quiet (loop init step) := .loop hstep

instance {test : Parse Bool} {body : Parse Unit} [Quiet test] [Quiet body] :
    Quiet (repeatWhile test body) := by
  unfold repeatWhile
  infer_instance

end quiet

/-! ## Section 4: Placing nodes -/

/-- Reading goes on at the place, and the new nodes follow their laws if the
    nodes at hand are as `given`. -/
structure Lays (place : Place) (given : Prop) (s s' : State) : Prop extends Later s s' where
  sits : s'.Sits place
  lawful : s'.Leads place.final → given → ∀ {id : Nat}, s.tree.nextId ≤ id →
    id < s'.tree.nextId → place.final.Lawful place.text id

namespace Lays

variable {place : Place} {given given' : Prop} {s s₁ s₂ : State}

theorem of_quiets (h : Quiets s s₁) (hs : s.Sits place) : Lays place given s s₁ where
  toLater := h.toLater
  sits := h.sits hs
  lawful _ _ _ hle hlt := by
    rw [h.tree_eq] at hlt
    exact absurd hlt (Nat.not_lt_of_le hle)

theorem refl (hs : s.Sits place) : Lays place given s s := .of_quiets (.refl hs.settled) hs

theorem weaken (h : Lays place given s s₁) (hgiven : s₁.Leads place.final → given' → given) :
    Lays place given' s s₁ where
  toLater := h.toLater
  sits := h.sits
  lawful hfinal hg := h.lawful hfinal (hgiven hfinal hg)

theorem trans (h : Lays place given s s₁) (h' : Lays place given s₁ s₂) :
    Lays place given s s₂ where
  toLater := h.toLater.trans h'.toLater
  sits := h'.sits
  lawful hfinal hg id hle hlt := by
    rcases Nat.lt_or_ge id s₁.tree.nextId with hfirst | hsecond
    · exact h.lawful (h'.toLater.leads hfinal) hg hle hfirst
    · exact h'.lawful hfinal hg hsecond hlt

theorem quiet (h : Lays place given s s₁) (h' : Quiets s₁ s₂) : Lays place given s s₂ :=
  h.trans (.of_quiets h' h.sits)

/-- The form and range of a new node in the end. -/
theorem made_final {form : Form} {pos stop : Nat} {final : State}
    (hfinal : (s.made form pos stop).Leads final) :
    final.tree.form? s.tree.nextId = some form ∧
      final.tree.range? s.tree.nextId = some (pos, max stop pos) := by
  have hnew : s.tree.nextId < (s.made form pos stop).tree.nextId := by
    show s.tree.nextId < (s.tree.add form pos stop).nextId
    simp
  constructor
  · rw [hfinal.tree.form_eq hnew]
    show (s.tree.add form pos stop).form? s.tree.nextId = some form
    rw [Tree.form?_add, if_pos rfl]
  · rw [hfinal.tree.range_eq hnew]
    show (s.tree.add form pos stop).range? s.tree.nextId = some (pos, max stop pos)
    rw [Tree.range?_add, if_pos rfl]

/-- A node that follows its law. -/
theorem made (hs : s.Sits place) {form : Form} {pos stop : Nat}
    (hmissing : form = .missing → s.exhausted = true ∨ (s.Accounted → s.Notes pos))
    (hlaw : (s.made form pos stop).Leads place.final → given →
      form.Law place.text place.final (pos, max stop pos)) :
    Lays place given s (s.made form pos stop) where
  toLater := .made hs.settled hmissing
  sits := ⟨hs.settled, hs.low_le, hs.depth_eq, hs.bare_eq, hs.streams,
    (Later.made hs.settled hmissing).accounted hs.accounted⟩
  lawful hfinal hg id hle hlt form' r hform hrange := by
    have hsize : (s.made form pos stop).tree.nextId = s.tree.nextId + 1 := by
      show (s.tree.add form pos stop).nextId = s.tree.nextId + 1
      simp
    obtain rfl : id = s.tree.nextId := by omega
    obtain ⟨hform', hrange'⟩ := made_final hfinal
    obtain rfl := Option.some.inj (hform'.symm.trans hform)
    obtain rfl := Option.some.inj (hrange'.symm.trans hrange)
    exact hlaw hfinal hg

/-- What has been made is dropped again. -/
theorem rewind (hs : s.Sits place) (h : Later s s₁) (hdepth : s₁.depth = s.depth) :
    Lays place given s (s₁.rewind s.save) := by
  have hback := h.rewind hs.settled
  refine ⟨hback, ⟨hback.settled, hs.low_le, hdepth.trans hs.depth_eq, hs.bare_eq, ?_,
    hback.accounted hs.accounted⟩, fun _ _ id hle hlt => ?_⟩
  · exact hs.streams.congr (.restore h.bytes_eq)
  · have hsize : (s₁.rewind s.save).tree.nextId ≤ s.tree.nextId := by
      show (s₁.tree.truncate s.tree.nodes.size).nodes.size ≤ s.tree.nodes.size
      simp only [Tree.truncate, Array.size_shrink]
      exact Nat.min_le_left ..
    omega

/-- Back from one level deeper. -/
theorem shallower (h : Lays place.deeper given s.deeper s₁) (hs : s.Sits place) :
    Lays place given s s₁.shallower := by
  have hlater : Later s s₁.shallower := .surround h.context_eq h.toLater
  refine ⟨hlater, ⟨h.sits.settled, h.sits.low_le, ?_, h.sits.bare_eq, h.sits.streams,
    hlater.accounted hs.accounted⟩, fun hfinal => ?_⟩
  · show s₁.depth - 1 = place.depth
    rw [h.sits.depth_eq, Nat.add_sub_cancel]
  · exact h.lawful ⟨hfinal.tree, hfinal.diagnostics, hfinal.lasts⟩

end Lays

/-- From this state the new nodes are placed, and the result is as `R` says. -/
def PlacesFrom {α : Type} (place : Place) (given : Prop) (R : α → Prop) (p : Parse α)
    (s : State) : Prop :=
  Ensures p s fun r s' => Lays place given s s' ∧ (s'.Leads place.final → given → R r)

/-- If the nodes at hand are as `given`, the new nodes are placed, and the
    result is as `R` says. -/
def Places {α : Type} (place : Place) (given : Prop) (R : α → Prop) (p : Parse α) : Prop :=
  ∀ s : State, s.Sits place → PlacesFrom place given R p s

section judgments

variable {α β : Type} {place : Place} {given given' : Prop} {R : α → Prop} {P : β → Prop}
  {p p' : Parse α} {first : Parse β} {next : β → Parse α}

namespace Places

theorem of_quiet [hp : Quiet p] : Places place given (fun _ => True) p :=
  fun s hs => ⟨.of_quiets (hp.quiets s hs.settled) hs, fun _ _ => trivial⟩

theorem pure {r : α} (h : given → R r) : Places place given R (Pure.pure r) :=
  fun _ hs => .pure ⟨.refl hs, fun _ => h⟩

theorem mono {R' : α → Prop} (h : Places place given R p) (hR : ∀ r, given → R r → R' r) :
    Places place given R' p :=
  fun s hs => (h s hs).mono fun r _ hr => ⟨hr.1, fun hfinal hg => hR r hg (hr.2 hfinal hg)⟩

theorem weaken (h : Places place given R p) (hgiven : given' → given) :
    Places place given' R p :=
  fun s hs => (h s hs).mono fun _ _ hr =>
    ⟨hr.1.weaken fun _ => hgiven, fun hfinal hg => hr.2 hfinal (hgiven hg)⟩

theorem bind (hfirst : Places place given P first)
    (hnext : ∀ r, Places place (given ∧ P r) R (next r)) :
    Places place given R (first >>= next) := by
  intro s hs
  refine Ensures.bind (hfirst s hs) fun r s₁ h₁ => ?_
  refine (hnext r s₁ h₁.1.sits).mono fun r' s₂ h₂ => ?_
  have hgiven (hfinal : s₂.Leads place.final) (hg : given) : given ∧ P r :=
    ⟨hg, h₁.2 (h₂.1.toLater.leads hfinal) hg⟩
  exact ⟨h₁.1.trans (h₂.1.weaken hgiven), fun hfinal hg => h₂.2 hfinal (hgiven hfinal hg)⟩

/-- What is read first makes no node. -/
theorem after [Quiet first] (hnext : ∀ r, Places place given R (next r)) :
    Places place given R (first >>= next) :=
  .bind of_quiet fun r => (hnext r).weaken fun h => h.1

/-- What is read first makes nodes that are not used. -/
theorem drop (hfirst : Places place given P first)
    (hnext : ∀ r, Places place given R (next r)) : Places place given R (first >>= next) :=
  hfirst.bind fun r => (hnext r).weaken fun h => h.1

/-- What is looked up is known of every state at the place. -/
theorem look [Looks first] (hfirst : ∀ s : State, s.Sits place → P (first s).1)
    (hnext : ∀ r, P r → Places place given R (next r)) :
    Places place given R (first >>= next) := by
  intro s hs
  refine Ensures.bind (P := fun r s' => r = (first s).1 ∧ s' = s)
    ⟨rfl, Looks.state_eq s hs.settled⟩ fun r s₁ h₁ => ?_
  obtain ⟨rfl, rfl⟩ := h₁
  exact hnext _ (hfirst s₁ hs) s₁ hs

/-- A node will start at the current token. -/
theorem here {next : Nat → Parse α} (hnext : ∀ pos, place.low ≤ pos → Places place given R (next pos)) :
    Places place given R (position >>= next) :=
  look (fun _ hs => hs.low_le) hnext

theorem map {f : β → α} (h : Places place given (fun r => R (f r)) first) :
    Places place given R (f <$> first) := fun s hs => ⟨(h s hs).holds⟩

theorem ite {c : Prop} [Decidable c] (h : c → Places place given R p)
    (h' : ¬ c → Places place given R p') : Places place given R (if c then p else p') := by
  split
  · exact h ‹_›
  · exact h' ‹_›

/-! ## Section 5: Nodes -/

section nodes

variable {tier? : Option Tier} {form : Form} {pos : Nat}

/-- A node from an earlier token to the last one. -/
theorem finish_at {s : State} (hs : s.Sits place) (hmissing : form ≠ .missing)
    (hlaw : (s.made form pos (max s.previousStop pos)).Leads place.final → given →
      form.Law place.text place.final (pos, max s.previousStop pos))
    {R : Nat → Prop} (hR : given → ∀ id stop, place.final.tree.form? id = some form →
      place.final.tree.range? id = some (pos, stop) → R id) :
    PlacesFrom place given R (Grammar.finish form pos) s := by
  have hmax : max (max s.previousStop pos) pos = max s.previousStop pos :=
    Nat.max_eq_left (Nat.le_max_right ..)
  refine ⟨.made hs (absurd · hmissing) (hmax.symm ▸ hlaw), fun hfinal hg => ?_⟩
  obtain ⟨hform, hrange⟩ := Lays.made_final hfinal
  exact hR hg _ _ hform hrange

/-- Where a node is placed whose parts are placed as it is itself. -/
theorem holds_of_parts {stop : Nat} (hpos : place.low ≤ pos) (hopen : form.shields = false)
    (hbare : form.needsBraces = true → place.bare = false)
    (htier : ∀ tier, form.tier? = some tier → tier? = some tier)
    (hparts : place.Parts tier? form) {id : Nat} (hform : place.final.tree.form? id = some form)
    (hrange : place.final.tree.range? id = some (pos, stop)) : place.Holds tier? id := by
  have hsame : (place.bare && !form.shields) = place.bare := by rw [hopen]; exact Bool.and_true _
  refine ⟨.node hform htier hbare ?_ ?_, fun hr => ?_⟩
  · rw [hsame]
    exact fun child hchild => (hparts.guarded child hchild).placed
  · rw [hsame]
    exact fun child hchild => (hparts.unguarded child hchild).placed
  · obtain rfl := Option.some.inj (hrange.symm.trans hr)
    exact hpos

/-- A node for which there is a law, which holds wherever it ends. -/
theorem finish_ruled (hpos : place.low ≤ pos) (hopen : form.shields = false)
    (hbare : form.needsBraces = true → place.bare = false)
    (htier : ∀ tier, form.tier? = some tier → tier? = some tier) (hmissing : form ≠ .missing)
    (hparts : given → place.Parts tier? form)
    (hlaw : given → ∀ stop, form.Law place.text place.final (pos, stop)) :
    Places place given (place.Holds tier?) (Grammar.finish form pos) :=
  fun _ hs => finish_at hs hmissing (fun _ hg => hlaw hg _) fun hg _ _ hform hrange =>
    holds_of_parts hpos hopen hbare htier (hparts hg) hform hrange

/-- A plain node whose parts are placed as it is itself. -/
theorem finish_in (hpos : place.low ≤ pos) (hplain : form.isPlain = true)
    (htier : ∀ tier, form.tier? = some tier → tier? = some tier)
    (hparts : given → place.Parts tier? form) :
    Places place given (place.Holds tier?) (Grammar.finish form pos) := by
  refine finish_ruled hpos (Form.not_shields_of_isPlain hplain) ?_ htier
    (Form.ne_missing_of_isPlain hplain) hparts fun _ _ => ?_
  · rw [Form.not_needsBraces_of_isPlain hplain]
    exact fun hneeds => absurd hneeds Bool.false_ne_true
  · exact Form.law_of_not_isRuled (Form.not_isRuled_of_isPlain hplain) ..

/-- A plain node that can stand in any phrase, as its parts can. -/
theorem finish (hpos : place.low ≤ pos) (hplain : form.isPlain = true) (htier : form.tier? = none)
    (hparts : given → ∀ child ∈ form.children, place.Holds none child) :
    Places place given (place.Holds none) (Grammar.finish form pos) := by
  refine finish_in hpos hplain (fun tier h => ?_) fun hg =>
    ⟨fun child hchild => ?_, fun child hchild => ?_⟩
  · rw [htier] at h
    cases h
  · exact hparts hg child (Form.mem_children_iff.mpr (.inr hchild))
  · exact hparts hg child (Form.mem_children_iff.mpr (.inl hchild))

/-- A node in which trailing closures are allowed. -/
theorem finish_shield_ruled (hpos : place.low ≤ pos) (hshields : form.shields = true)
    (htier : ∀ tier, form.tier? = some tier → tier? = some tier)
    (hparts : given → place.free.Parts tier? form)
    (hlaw : given → ∀ stop, form.Law place.text place.final (pos, stop)) :
    Places place given (place.Anywhere tier?) (Grammar.finish form pos) := by
  have hmissing : form ≠ .missing := by
    rintro rfl
    cases hshields
  intro s hs
  refine finish_at hs hmissing (fun _ hg => hlaw hg _) fun hg id stop hform hrange bare =>
    ⟨?_, fun hr => ?_⟩
  · have hall := hparts hg
    have hinner : (bare && !form.shields) = false := by rw [hshields]; exact Bool.and_false _
    refine .node hform htier ?_ ?_ ?_
    · rw [Form.not_needsBraces_of_shields hshields]
      exact fun hneeds => absurd hneeds Bool.false_ne_true
    · rw [hinner]
      exact fun child hchild => (hall.guarded child hchild).placed
    · rw [hinner]
      exact fun child hchild => (hall.unguarded child hchild).placed
  · obtain rfl := Option.some.inj (hrange.symm.trans hr)
    exact hpos

/-- A node in which trailing closures are allowed, and for which there is no law. -/
theorem finish_shield (hpos : place.low ≤ pos) (hshields : form.shields = true)
    (hruled : form.isRuled = false) (htier : form.tier? = none)
    (hparts : given → ∀ child ∈ form.children, place.free.Holds none child) :
    Places place given (place.Anywhere none) (Grammar.finish form pos) := by
  refine finish_shield_ruled hpos hshields (fun tier h => ?_) (fun hg => ⟨?_, ?_⟩) fun _ _ =>
    Form.law_of_not_isRuled hruled ..
  · rw [htier] at h
    cases h
  · exact fun child hchild => hparts hg child (Form.mem_children_iff.mpr (.inr hchild))
  · exact fun child hchild => hparts hg child (Form.mem_children_iff.mpr (.inl hchild))

/-- A control statement with a head: no part has a trailing closure in sight. -/
theorem finish_head {sort : ControlSort} {children : List Nat} (hpos : place.low ≤ pos)
    (hhead : sort.hasHead = true)
    (htier : ∀ tier, (Form.control sort children).tier? = some tier → tier? = some tier)
    (hparts : given → (place.under true).Parts tier? (.control sort children)) :
    Places place given (place.Anywhere tier?) (Grammar.finish (.control sort children) pos) := by
  refine finish_shield_ruled hpos rfl htier (fun hg => ?_) fun hg stop => ⟨fun _ child hchild => ?_, ?_⟩
  · have hall := hparts hg
    exact ⟨fun child hchild => (hall.guarded child hchild).relax,
      fun child hchild => (hall.unguarded child hchild).relax⟩
  · have hmem : child ∈ (Form.control sort children).children := by
      simpa [Form.children, Form.parts, Form.many] using hchild
    rcases Form.mem_children_iff.mp hmem with hmem | hmem
    · exact ((hparts hg).unguarded child hmem).placed.not_exposes
    · exact ((hparts hg).guarded child hmem).placed.not_exposes
  · rintro rfl
    cases hhead

/-- Something missing has no parts. -/
theorem missing (what : String) :
    Places place given (place.Anywhere none) (Grammar.missing what) := by
  intro s hs
  have hplain : Plain (fun _ => none) s.context.inTypeBody (Grammar.missing what) := inferInstance
  have hlater := (hplain.builds s hs.settled rfl).toLater
  have hoffset : (s.reported (.expected what)).offset = s.offset :=
    congrArg (·.token.pos) (s.scanner_reported _)
  have hreported : Quiets s (s.reported (.expected what)) := .reported hs.settled _
  have hread : Lays place given s ((s.reported (.expected what)).made .missing
      (s.reported (.expected what)).offset (s.reported (.expected what)).offset) := by
    refine .trans (.of_quiets hreported hs) (.made (hreported.sits hs) (fun _ => .inr ?_) ?_)
    · exact fun h => h.last (by rw [hoffset]; exact s.lastIssueAt_reported _)
    · exact fun _ _ => trivial
  refine ⟨hread, fun hfinal _ bare => ?_⟩
  obtain ⟨hform, hrange⟩ := Lays.made_final hfinal
  refine ⟨.node hform nofun nofun nofun nofun, fun hr => ?_⟩
  obtain rfl := Option.some.inj (hrange.symm.trans hr)
  exact (hreported.sits hs).low_le

/-- A name is one token. -/
theorem name : Places place given (place.Anywhere none) Grammar.name := by
  intro s hs
  have hquiet : Quiets s s.advanced := .advanced hs.settled
  have hread : Lays place given s
      (s.advanced.made (.identifier s.kind) s.offset s.scanner.token.stop) := by
    refine .trans (.of_quiets hquiet hs) (.made (hquiet.sits hs) nofun fun _ _ hname => ?_)
    have hne : s.kind ≠ .endOfFile := by
      intro hend
      rw [hend] at hname
      cases hname
    rw [Nat.max_eq_left hs.settled.token_le]
    exact hs.streams.isToken hne
  refine ⟨hread, fun hfinal _ bare => ?_⟩
  obtain ⟨hform, hrange⟩ := Lays.made_final hfinal
  refine ⟨.node hform nofun nofun nofun nofun, fun hr => ?_⟩
  obtain rfl := Option.some.inj (hrange.symm.trans hr)
  exact hs.low_le

theorem nameOr (what : String) : Places place given (place.Anywhere none) (Grammar.nameOr what) := by
  unfold Grammar.nameOr
  exact .after fun _ => .ite (fun _ => name) fun _ => missing what

theorem name? : Places place given (fun r => ∀ id ∈ r, place.Anywhere none id) Grammar.name? := by
  unfold Grammar.name?
  refine .after fun _ => .ite (fun _ => .map (name.mono ?_)) fun _ => .pure fun _ => nofun
  rintro id - hid _ ⟨⟩
  exact hid

end nodes

/-! ## Section 6: Context, depth and coming back -/

section surroundings

variable {bare : Bool} {body : Parse α} {change : Context → Context}

/-- What the change of context says about trailing closures holds inside. -/
theorem within (hchange : ∀ c : Context, c.noTrailingClosure = place.bare →
      (change c).noTrailingClosure = bare)
    (h : Places (place.under bare) given R body) :
    Places place given R (Grammar.within change body) := by
  intro s hs
  have hinner : (s.under (change s.context)).Sits (place.under bare) :=
    ⟨hs.settled, hs.low_le, hs.depth_eq, hchange s.context hs.bare_eq, hs.streams,
      ⟨hs.accounted.last, hs.accounted.missing⟩⟩
  obtain ⟨hread, hresult⟩ := (h _ hinner).holds
  have hlater : Later s ((body (s.under (change s.context))).2.under s.context) :=
    .surround rfl hread.toLater
  refine ⟨⟨hlater, ⟨hread.sits.settled, hread.sits.low_le, hread.sits.depth_eq, hs.bare_eq,
    hread.sits.streams, hlater.accounted hs.accounted⟩, fun hfinal => ?_⟩, fun hfinal => ?_⟩
  · exact hread.lawful ⟨hfinal.tree, hfinal.diagnostics, hfinal.lasts⟩
  · exact hresult ⟨hfinal.tree, hfinal.diagnostics, hfinal.lasts⟩

theorem unrestricted (h : Places place.free given R body) :
    Places place given R (Grammar.unrestricted body) := within (fun _ _ => rfl) h

theorem asCondition (h : Places (place.under true) given R body) :
    Places place given R (Grammar.asCondition body) := within (fun _ _ => rfl) h

/-- Either the nesting limit is reached, or what is read is one level deeper. -/
theorem guarded {otherwise : Parse α} (hotherwise : maxDepth ≤ place.depth →
      Places place given R otherwise)
    (h : place.depth < maxDepth → Places place.deeper given R body) :
    Places place given R (Grammar.guarded otherwise body) := by
  intro s hs
  refine guarded_cases (fun hdeep => ?_) fun hdepth => ?_
  · have hlimit : maxDepth ≤ place.depth := hs.depth_eq ▸ hdeep
    have hgiven : Places place given R (giveUp otherwise) := by
      unfold giveUp
      dsimp only
      refine .after fun _ => .after fun ended => .ite (fun _ => hotherwise hlimit) fun _ => ?_
      exact .after fun _ => hotherwise hlimit
    exact hgiven s hs
  · have hlow : place.depth < maxDepth := hs.depth_eq ▸ hdepth
    refine Ensures.mono (h hlow _ hs.deeper) fun r s₁ h₁ => ?_
    obtain ⟨hread, hresult⟩ := h₁
    exact ⟨hread.shallower hs, fun hfinal =>
      hresult ⟨hfinal.tree, hfinal.diagnostics, hfinal.lasts⟩⟩

/-- What a failed attempt has made is dropped. -/
theorem attempt {body : Parse (Option α)}
    (h : Places place given (fun found => ∀ r ∈ found, R r) body) :
    Places place given (fun found => ∀ r ∈ found, R r) (Grammar.attempt body) := by
  intro s hs
  unfold Grammar.attempt
  refine Ensures.peek (Ensures.bind (h s hs) fun found s₁ h₁ => ?_)
  cases found with
  | some result => exact .pure h₁
  | none =>
    have hdepth : s₁.depth = s.depth := h₁.1.sits.depth_eq.trans hs.depth_eq.symm
    exact ⟨.rewind hs h₁.1.toLater hdepth, fun _ _ => nofun⟩

end surroundings

/-! ## Section 7: Repetition -/

section repetition

variable {init : β} {step : β → Parse (ForInStep β)} {I : β → Prop} {test : Parse Bool}
  {items : Parse (List Nat)} {closer : Kind} {P : Nat → Prop}

theorem loop (hinit : given → I init)
    (hstep : ∀ value, Places place (given ∧ I value) (fun r => I r.value) (step value)) :
    Places place given I (Grammar.loop init step) := by
  intro s hs
  refine loop_keeps
    (I := fun value s' => Lays place given s s' ∧ (s'.Leads place.final → given → I value))
    (fun value s₁ h₁ => ⟨h₁.1.quiet (.exhausted h₁.1.settled), fun hfinal => ?_⟩)
    (fun value s₁ h₁ => ?_) ⟨.refl hs, fun _ => hinit⟩
  · exact h₁.2 ((Later.exhausted h₁.1.settled).leads hfinal)
  · refine (hstep value s₁ h₁.1.sits).mono fun r s₂ h₂ => ?_
    have hgiven (hfinal : s₂.Leads place.final) (hg : given) : given ∧ I value :=
      ⟨hg, h₁.2 (h₂.1.toLater.leads hfinal) hg⟩
    exact ⟨h₁.1.trans (h₂.1.weaken hgiven), fun hfinal hg => h₂.2 hfinal (hgiven hfinal hg)⟩

/-- A single item of a list. -/
theorem single {item : Parse Nat} (h : Places place given P item) :
    Places place given (fun ids => ∀ id ∈ ids, P id) (do return [← item]) :=
  .bind h fun _ => .pure fun h => List.forall_mem_singleton.mpr h.2

/-- A list of at most one item. -/
theorem optional {item : Parse (Option Nat)}
    (h : Places place given (fun r => ∀ id ∈ r, P id) item) :
    Places place given (fun ids => ∀ id ∈ ids, P id) (do return (← item).toList) :=
  .bind h fun _ => .pure fun h id hid => h.2 id (Option.mem_toList.mp hid)

theorem gatherWhile [Quiet test]
    (hitems : Places place given (fun ids => ∀ id ∈ ids, P id) items) :
    Places place given (fun ids => ∀ id ∈ ids, P id) (Grammar.gatherWhile test items) := by
  refine .loop (fun _ => nofun) fun nodes => .after fun found => .ite (fun _ => ?_) fun _ => ?_
  · exact .bind (hitems.weaken fun h => h.1) fun more => .pure forall_mem_append
  · exact .pure fun h => h.2

theorem separated (hitems : Places place given (fun ids => ∀ id ∈ ids, P id) items) :
    Places place given (fun ids => ∀ id ∈ ids, P id) (Grammar.separated items) := by
  refine .loop (fun _ => nofun) fun nodes => .bind (hitems.weaken fun h => h.1) fun more => ?_
  refine .after fun found => .ite (fun _ => ?_) fun _ => ?_
  · exact .pure forall_mem_append
  · exact .pure forall_mem_append

theorem separatedUntil (hitems : Places place given (fun ids => ∀ id ∈ ids, P id) items) :
    Places place given (fun ids => ∀ id ∈ ids, P id)
      (Grammar.separatedUntil closer items) := by
  refine .loop (fun _ => nofun) fun nodes => .after fun closed => .after fun ended => ?_
  refine .ite (fun _ => .pure fun h => h.2) fun _ => ?_
  refine .bind (hitems.weaken fun h => h.1) fun more => .after fun found => ?_
  exact .ite (fun _ => .pure forall_mem_append) fun _ => .pure forall_mem_append

/-- One more node after those collected so far, if there are any. -/
theorem forall_mem_snoc {nodes : Option (List Nat)} {node : Nat}
    (hnodes : ∀ ids ∈ nodes, ∀ id ∈ ids, P id) (hnode : P node) :
    ∀ ids ∈ nodes.map (· ++ [node]), ∀ id ∈ ids, P id := by
  intro ids hids
  obtain ⟨before, hbefore, rfl⟩ := Option.map_eq_some_iff.mp hids
  exact List.forall_mem_append.mpr ⟨hnodes before hbefore, List.forall_mem_singleton.mpr hnode⟩

theorem enclosed? {item : Parse (Option Nat)}
    (hitem : Places place given (fun id => ∀ n ∈ id, P n) item) :
    Places place given (fun ids => ∀ nodes ∈ ids, ∀ id ∈ nodes, P id)
      (Grammar.enclosed? closer item) := by
  unfold Grammar.enclosed?
  refine .bind (.loop (I := fun ids => ∀ nodes ∈ ids, ∀ id ∈ nodes, P id) ?_ fun ids => ?_)
    fun ids => ?_
  · rintro - nodes ⟨⟩
    nofun
  · refine .after fun closed => .ite (fun _ => .pure fun h => h.2) fun _ => ?_
    refine .bind (hitem.weaken fun h => h.1) fun node => ?_
    cases node with
    | none => exact .pure fun _ => nofun
    | some node =>
      have hmore (h : (given ∧ ∀ nodes ∈ ids, ∀ id ∈ nodes, P id) ∧ ∀ n ∈ some node, P n) :
          ∀ nodes ∈ ids.map (· ++ [node]), ∀ id ∈ nodes, P id :=
        forall_mem_snoc h.1.2 (h.2 node rfl)
      exact .after fun found => .ite (fun _ => .pure hmore) fun _ => .pure hmore
  · cases ids with
    | none => exact .pure fun _ => nofun
    | some nodes =>
      exact .after fun found => .ite (fun _ => .pure fun h => h.2) fun _ => .pure fun _ => nofun

end repetition
end Places
end judgments
end SelfCapture.Grammar
