import SelfCapture.Proofs.Grammar.Ensures
import SelfCapture.Proofs.Token.Displacement

/-! # Reading displaced texts

  A text that is put behind another one is read in lockstep with the text
  itself: `State.Displaced front s s'` relates the states of the two runs, and
  `Mirrors front p p'` says that the reading `p'` of the displaced text
  mirrors the reading `p`.  Results are the same, numbers of nodes
  included; what holds an offset is moved.

  The two runs may have different allowances of nested phrases.  They are
  compared as long as the allowance of the first run lasts.
-/

namespace SelfCapture

variable {front : ByteArray}

/-! ## Section 1: Trees -/

theorem shrink_map {α β : Type} (f : α → β) (xs : Array α) (count : Nat) :
    (xs.map f).shrink count = (xs.shrink count).map f := by
  apply Array.toList_inj.mp
  simp only [Array.toList_shrink, Array.toList_map, List.map_take]

/-- The node at offsets moved by `n`. -/
def Node.moved (n : Nat) (node : Node) : Node :=
  { node with pos := n + node.pos, stop := n + node.stop }

namespace Tree

/-- The same tree of the text that stands behind `front`. -/
def behind (front : ByteArray) (t : Tree) : Tree :=
  ⟨front ++ t.bytes, t.nodes.map (Node.moved front.size)⟩

variable (t : Tree)

@[simp] theorem nextId_behind : (t.behind front).nextId = t.nextId := Array.size_map

theorem get?_behind (id : Nat) :
    (t.behind front).get? id = (t.get? id).map (Node.moved front.size) := Array.getElem?_map

@[simp] theorem form?_behind (id : Nat) : (t.behind front).form? id = t.form? id := by
  rw [form?, form?, get?_behind, Option.map_map]
  rfl

theorem adopt_moved (n : Nat) (nodes : Array Node) (parent : Nat) (children : List Nat) :
    adopt (nodes.map (Node.moved n)) parent children =
      (adopt nodes parent children).map (Node.moved n) := by
  induction children generalizing nodes with
  | nil => rfl
  | cons child children ih =>
    have hfirst : (nodes.map (Node.moved n)).modify child
        (fun node => { node with parent := some parent }) =
        (nodes.modify child fun node => { node with parent := some parent }).map
          (Node.moved n) := by
      apply Array.ext_getElem?
      intro i
      simp only [Array.getElem?_modify, Array.getElem?_map]
      split
      · simp only [Option.map_map]
        rfl
      · rfl
    simp only [adopt, List.foldl_cons] at ih ⊢
    rw [hfirst, ih]

theorem add_behind (form : Form) (pos stop : Nat) :
    (t.behind front).add form (front.size + pos) (front.size + stop) =
      (t.add form pos stop).behind front := by
  simp only [add, nextId_behind]
  simp only [behind, adopt_moved, Array.map_push, Node.moved, Nat.add_max_add_left]

theorem truncate_behind (count : Nat) :
    (t.behind front).truncate count = (t.truncate count).behind front := by
  simp only [truncate, behind, shrink_map]

end Tree

namespace Grammar

open Token (Kind)

/-! ## Section 2: States -/

/-- `s'` is the state `s` in the text that stands behind `front`. -/
structure State.Displaced (front : ByteArray) (s s' : State) : Prop where
  scanner : s'.scanner = s.scanner.behind front
  tree : s'.tree = s.tree.behind front
  /-- In a fresh window nothing has been consumed, and both ends are zero. -/
  previousStop : ∀ pos, max s'.previousStop (front.size + pos) =
    front.size + max s.previousStop pos
  context : s'.context = s.context
  diagnostics : s'.diagnostics = s.diagnostics.map (Diagnostic.moved front.size)
  lastIssueAt : s'.lastIssueAt = s.lastIssueAt.map (front.size + ·)
  depth : s'.depth = s.depth
  exhausted : s'.exhausted = s.exhausted

theorem State.exists_displaced (front : ByteArray) (s : State) : ∃ s', s.Displaced front s' := by
  refine ⟨{ scanner := s.scanner.behind front
            tree := s.tree.behind front
            previousStop := front.size + s.previousStop
            context := s.context
            diagnostics := s.diagnostics.map (Diagnostic.moved front.size)
            lastIssueAt := s.lastIssueAt.map (front.size + ·)
            depth := s.depth
            exhausted := s.exhausted }, rfl, rfl, fun pos => ?_, rfl, rfl, rfl, rfl, rfl⟩
  exact Nat.add_max_add_left ..

namespace State.Displaced

variable {s s' s₁ s₁' : State}

theorem token (h : s.Displaced front s') :
    s'.scanner.token = s.scanner.token.moved front.size := by
  rw [h.scanner]
  rfl

theorem kind (h : s.Displaced front s') : s'.scanner.token.kind = s.scanner.token.kind := by
  rw [h.token]
  rfl

theorem tokenText (h : s.Displaced front s') : s'.scanner.tokenText = s.scanner.tokenText := by
  rw [h.scanner]
  exact Text.slice_behind ..

theorem advanced (h : s.Displaced front s') : s.advanced.Displaced front s'.advanced where
  scanner := by
    show s'.scanner.scan = _
    rw [h.scanner, Scanner.scan_behind]
    rfl
  tree := h.tree
  previousStop pos := by
    show max s'.scanner.token.stop _ = _
    rw [h.token]
    exact Nat.add_max_add_left ..
  context := h.context
  diagnostics := h.diagnostics
  lastIssueAt := h.lastIssueAt
  depth := h.depth
  exhausted := h.exhausted

theorem reported (h : s.Displaced front s') (issue : Issue) :
    (s.reported issue).Displaced front (s'.reported issue) := by
  have hlast : (s'.lastIssueAt == some s'.offset) = (s.lastIssueAt == some s.offset) := by
    have hoffset : s'.offset = front.size + s.offset := congrArg Token.pos h.token
    rw [h.lastIssueAt, hoffset]
    cases s.lastIssueAt with
    | none => rfl
    | some last => exact Text.add_beq_add ..
  unfold State.reported
  rw [hlast]
  split
  · exact h
  · refine { h with diagnostics := ?_, lastIssueAt := ?_ }
    · simp only [State.offset, h.token, Token.moved, h.diagnostics, Array.map_push,
        Diagnostic.moved, Nat.add_sub_add_left]
    · simp only [State.offset, h.token, Token.moved, Option.map_some]

theorem made (h : s.Displaced front s') (form : Form) (pos stop : Nat) :
    (s.made form pos stop).Displaced front
      (s'.made form (front.size + pos) (front.size + stop)) where
  scanner := h.scanner
  tree := by
    show s'.tree.add .. = _
    rw [h.tree, Tree.add_behind]
    rfl
  previousStop := h.previousStop
  context := h.context
  diagnostics := h.diagnostics
  lastIssueAt := h.lastIssueAt
  depth := h.depth
  exhausted := h.exhausted

/-- Both runs come back to where they were. -/
theorem rewind (h : s.Displaced front s') (h₁ : s₁.Displaced front s₁') :
    (s₁.rewind s.save).Displaced front (s₁'.rewind s'.save) where
  scanner := by
    simp only [State.rewind, State.save, Scanner.restore, Scanner.save, h.scanner, h₁.scanner,
      Scanner.behind, Array.size_map, shrink_map]
  tree := by
    simp only [State.rewind, State.save, h.tree, h₁.tree, Tree.truncate_behind]
    simp only [Tree.behind, Array.size_map]
  previousStop := h.previousStop
  context := h.context
  diagnostics := by
    simp only [State.rewind, State.save, h.diagnostics, h₁.diagnostics, Array.size_map, shrink_map]
  lastIssueAt := h.lastIssueAt
  depth := h₁.depth
  exhausted := h₁.exhausted

end State.Displaced

/-! ## Section 3: The judgment -/

/-- From a state behind `front`, `p'` reads what `p` reads, if the allowance of `p` lasts. -/
class Mirrors (front : ByteArray) {α : Type} (p p' : Parse α) : Prop where
  lasts : ∀ s : State, (p s).2.exhausted = false → s.exhausted = false
  mirrors : ∀ s s' : State, s.Displaced front s' → (p s).2.exhausted = false →
    (p' s').1 = (p s).1 ∧ (p s).2.Displaced front (p' s').2

section judgment

variable {α β : Type} {p p' q q' : Parse α} {first first' : Parse β}
  {next next' : β → Parse α}

namespace Mirrors

/-- A step that changes the state and has no result worth speaking of. -/
theorem step {r : α} {f f' : State → State} (hp : ∀ s, p s = (r, f s)) (hp' : ∀ s, p' s = (r, f' s))
    (hlasts : ∀ s, (f s).exhausted = s.exhausted)
    (h : ∀ s s', s.Displaced front s' → (f s).Displaced front (f' s')) : Mirrors front p p' where
  lasts s hs := by
    rw [hp, hlasts] at hs
    exact hs
  mirrors s s' hs _ := by
    rw [hp, hp']
    exact ⟨rfl, h s s' hs⟩

/-- A reading that only looks sees the same. -/
theorem look [hp : Peeks p] (h : ∀ s s' : State, s.Displaced front s' → (p s').1 = (p s).1) :
    Mirrors front p p where
  lasts s hs := by rwa [hp.state_eq] at hs
  mirrors s s' hs _ := by
    rw [hp.state_eq, hp.state_eq]
    exact ⟨h s s' hs, hs⟩

instance pure (r : α) : Mirrors front (Pure.pure r) (Pure.pure r) := look fun _ _ _ => rfl

theorem seq (hfirst : Mirrors front first first') (hnext : ∀ r, Mirrors front (next r) (next' r)) :
    Mirrors front (first >>= next) (first' >>= next') where
  lasts s hlasts := hfirst.lasts s ((hnext (first s).1).lasts (first s).2 hlasts)
  mirrors s s' hs hlasts := by
    -- If the allowance lasts to the end, it lasts to the middle.
    have hmiddle := (hnext (first s).1).lasts (first s).2 hlasts
    obtain ⟨hresult, hread⟩ := hfirst.mirrors s s' hs hmiddle
    show (next' (first' s').1 (first' s').2).1 = _ ∧
      State.Displaced front _ (next' (first' s').1 (first' s').2).2
    rw [hresult]
    exact (hnext (first s).1).mirrors _ _ hread hlasts

instance bind [hfirst : Mirrors front first first']
    [hnext : ∀ r, Mirrors front (next r) (next' r)] :
    Mirrors front (first >>= next) (first' >>= next') := seq hfirst hnext

instance map [hfirst : Mirrors front first first'] (f : β → α) :
    Mirrors front (f <$> first) (f <$> first') where
  lasts := hfirst.lasts
  mirrors s s' hs hlasts := (hfirst.mirrors s s' hs hlasts).imp_left (congrArg f)

instance ite {c : Prop} [Decidable c] [Mirrors front p p'] [Mirrors front q q'] :
    Mirrors front (if c then p else q) (if c then p' else q') := by
  split
  · assumption
  · assumption

/-- Going on with the state. -/
theorem get {next next' : State → Parse α}
    (h : ∀ s s' : State, s.Displaced front s' → Mirrors front (next s) (next' s')) :
    Mirrors front (MonadState.get >>= next) (MonadState.get >>= next') where
  lasts s := by
    obtain ⟨s', hs⟩ := s.exists_displaced front
    exact (h s s' hs).lasts s
  mirrors s s' hs := (h s s' hs).mirrors s s' hs

/-- Going on with the offset of the current token. -/
theorem start {next next' : Nat → Parse α}
    (h : ∀ pos, Mirrors front (next pos) (next' (front.size + pos))) :
    Mirrors front (Grammar.position >>= next) (Grammar.position >>= next') where
  lasts s := (h s.scanner.token.pos).lasts s
  mirrors s s' hs hlasts := by
    show (next' s'.scanner.token.pos s').1 = _ ∧
      State.Displaced front _ (next' s'.scanner.token.pos s').2
    rw [hs.token]
    exact (h s.scanner.token.pos).mirrors s s' hs hlasts

instance position {next next' : Nat → Parse α}
    [h : ∀ pos, Mirrors front (next pos) (next' (front.size + pos))] :
    Mirrors front (Grammar.position >>= next) (Grammar.position >>= next') := start h

end Mirrors

end judgment

/-! ## Section 4: Tokens and nodes -/

section tokens

instance : Mirrors front kind kind := .look fun _ _ hs => hs.kind

instance (k : Kind) : Mirrors front (isAt k) (isAt k) :=
  .look fun _ _ hs => congrArg (· == k) hs.kind

instance : Mirrors front atEnd atEnd := inferInstanceAs (Mirrors front (isAt _) (isAt _))

instance : Mirrors front tokenText tokenText := by
  refine .look fun s s' hs => ?_
  rw [tokenText_eq, tokenText_eq, hs.tokenText]

instance : Mirrors front afterBlank afterBlank :=
  .look fun _ _ hs => (congrArg Token.afterBlank hs.token :)

instance : Mirrors front afterLineBreak afterLineBreak :=
  .look fun _ _ hs => (congrArg Token.afterLineBreak hs.token :)

instance : Mirrors front isName isName := .look fun _ _ hs => congrArg Kind.isName hs.kind

instance : Mirrors front beforeBlank beforeBlank := by
  refine .look fun s s' hs => ?_
  have hfollower : s'.scanner.window.peek? s'.scanner.token.stop =
      s.scanner.window.peek? s.scanner.token.stop := by
    rw [hs.scanner]
    exact Window.peek?_behind front s.scanner.window _
  exact congrArg (Option.all _) hfollower

instance : Mirrors front remaining remaining := by
  refine .look fun s s' hs => ?_
  show s'.scanner.stop - s'.scanner.token.pos = _
  rw [hs.scanner]
  exact Nat.add_sub_add_left ..

instance (word : String) : Mirrors front (isWord word) (isWord word) := by
  unfold isWord
  infer_instance

instance (words : List String) : Mirrors front (isOneOf words) (isOneOf words) := by
  unfold isOneOf
  infer_instance

instance : Mirrors front advance advance :=
  .step (fun _ => rfl) (fun _ => rfl) (fun _ => rfl) fun _ _ hs => hs.advanced

instance (k : Kind) : Mirrors front (accept k) (accept k) := by
  unfold accept
  infer_instance

instance (issue : Issue) : Mirrors front (report issue) (report issue) := by
  have hreport (s : State) : report issue s = ((), s.reported issue) := rfl
  refine .step hreport hreport (fun s => ?_) fun _ _ hs => hs.reported issue
  unfold State.reported
  split <;> rfl

instance (what : String) : Mirrors front (reportExpected what) (reportExpected what) :=
  inferInstanceAs (Mirrors front (report _) (report _))

instance (k : Kind) (what : String) : Mirrors front (expect k what) (expect k what) := by
  unfold expect
  infer_instance

/-- Nothing is asked of a reading that mirrors one whose allowance is used up. -/
theorem exhaust_mirrored {α : Type} (next : Unit → Parse α) (p' : Parse α)
    (hnext : ∀ r s, (next r s).2.exhausted = s.exhausted) :
    Mirrors front (exhaust >>= next) p' where
  lasts s hs := by
    have hcut : (next ⟨⟩ { s with exhausted := true }).2.exhausted = false := hs
    rw [hnext] at hcut
    cases hcut
  mirrors s s' _ hs := by
    have hcut : (next ⟨⟩ { s with exhausted := true }).2.exhausted = false := hs
    rw [hnext] at hcut
    cases hcut

instance (form : Form) (pos stop : Nat) :
    Mirrors front (make form pos stop) (make form (front.size + pos) (front.size + stop)) where
  lasts _ hs := hs
  mirrors s s' hs _ := by
    refine ⟨?_, hs.made form pos stop⟩
    show s'.tree.nextId = s.tree.nextId
    rw [hs.tree, Tree.nextId_behind]

instance (form : Form) (pos : Nat) :
    Mirrors front (finish form pos) (finish form (front.size + pos)) where
  lasts _ hs := hs
  mirrors s s' hs _ := by
    show s'.tree.nextId = s.tree.nextId ∧ State.Displaced front _
      (s'.made form (front.size + pos) (max s'.previousStop (front.size + pos)))
    rw [hs.previousStop pos, hs.tree, Tree.nextId_behind]
    exact ⟨rfl, hs.made form pos _⟩

instance : Mirrors front name name where
  lasts _ hs := hs
  mirrors s s' hs _ := by
    refine ⟨?_, ?_⟩
    · show s'.tree.nextId = s.tree.nextId
      rw [hs.tree, Tree.nextId_behind]
    · show State.Displaced front _ (s'.advanced.made (.identifier s'.scanner.token.kind)
        s'.scanner.token.pos s'.scanner.token.stop)
      rw [hs.token]
      exact hs.advanced.made ..

instance (what : String) : Mirrors front (missing what) (missing what) := by
  unfold missing
  infer_instance

instance (what : String) : Mirrors front (nameOr what) (nameOr what) := by
  unfold nameOr
  infer_instance

instance : Mirrors front name? name? := by
  unfold name?
  infer_instance

end tokens

/-! ## Section 5: Combinators -/

section combinators

variable {α β : Type}

theorem within_mirrors (change : Context → Context) {body body' : Parse α}
    (h : Mirrors front body body') : Mirrors front (within change body) (within change body') where
  lasts s hs := h.lasts (s.under (change s.context)) hs
  mirrors s s' hs hlasts := by
    have hstart : (s.under (change s.context)).Displaced front (s'.under (change s'.context)) := by
      rw [hs.context]
      exact { hs with context := rfl }
    obtain ⟨hresult, hread⟩ := h.mirrors _ _ hstart hlasts
    exact ⟨hresult, { hread with context := hs.context }⟩

instance (change : Context → Context) {body body' : Parse α} [h : Mirrors front body body'] :
    Mirrors front (within change body) (within change body') := within_mirrors change h

instance {body body' : Parse α} [h : Mirrors front body body'] :
    Mirrors front (unrestricted body) (unrestricted body') := within_mirrors _ h

instance {body body' : Parse α} [h : Mirrors front body body'] :
    Mirrors front (asCondition body) (asCondition body') := within_mirrors _ h

theorem lookAhead_mirrors {body body' : Parse α} (h : Mirrors front body body') :
    Mirrors front (lookAhead body) (lookAhead body') where
  lasts := h.lasts
  mirrors s s' hs hlasts := (h.mirrors s s' hs hlasts).imp_right hs.rewind

instance {body body' : Parse α} [h : Mirrors front body body'] :
    Mirrors front (lookAhead body) (lookAhead body') := lookAhead_mirrors h

theorem nextIs_mirrors {test test' : Parse Bool} (h : Mirrors front test test') :
    Mirrors front (nextIs test) (nextIs test') :=
  lookAhead_mirrors (.seq inferInstance fun _ => h)

instance {test test' : Parse Bool} [h : Mirrors front test test'] :
    Mirrors front (nextIs test) (nextIs test') := nextIs_mirrors h

theorem attempt_eq (body : Parse (Option α)) (s : State) :
    attempt body s =
      match (body s).1 with
      | some result => (some result, (body s).2)
      | none => (none, (body s).2.rewind s.save) := by
  show (match (body s).1 with
    | some result => (Pure.pure (some result) : Parse (Option α))
    | none => (do modify fun s' : State => s'.rewind s.save; return none)) (body s).2 = _
  cases (body s).1 with
  | some result => rfl
  | none => rfl

/-- Whether an attempt comes back depends on the result alone. -/
theorem attempt_mirrors {body body' : Parse (Option α)} (h : Mirrors front body body') :
    Mirrors front (attempt body) (attempt body') where
  lasts s hs := by
    refine h.lasts s ?_
    rw [attempt_eq] at hs
    split at hs <;> exact hs
  mirrors s s' hs hlasts := by
    have hbody : (body s).2.exhausted = false := by
      rw [attempt_eq] at hlasts
      split at hlasts <;> exact hlasts
    obtain ⟨hresult, hread⟩ := h.mirrors s s' hs hbody
    rw [attempt_eq, attempt_eq, hresult]
    cases (body s).1 with
    | some result => exact ⟨rfl, hread⟩
    | none => exact ⟨rfl, hs.rewind hread⟩

instance {body body' : Parse (Option α)} [h : Mirrors front body body'] :
    Mirrors front (attempt body) (attempt body') := attempt_mirrors h

instance {otherwise otherwise' body body' : Parse α} [Mirrors front otherwise otherwise']
    [h : Mirrors front body body'] :
    Mirrors front (guarded otherwise body) (guarded otherwise' body') := by
  refine .get fun s s' hs => ?_
  rw [hs.depth]
  split
  · infer_instance
  · have hdeeper : Mirrors front (modify State.deeper) (modify State.deeper) :=
      .step (fun _ => rfl) (fun _ => rfl) (fun _ => rfl) fun s s' hs =>
        { hs with depth := congrArg (· + 1) hs.depth }
    refine .seq hdeeper fun _ => .seq h fun result => .seq ?_ fun _ => .pure result
    exact .step (fun _ => rfl) (fun _ => rfl) (fun _ => rfl) fun s s' hs =>
        { hs with depth := congrArg (· - 1) hs.depth }

/-- Both repetitions have the same allowance. -/
theorem iterate_mirrors {step step' : β → Parse (ForInStep β)}
    (h : ∀ value, Mirrors front (step value) (step' value)) (count : Nat) (value : β) :
    Mirrors front (iterate step count value) (iterate step' count value) := by
  induction count generalizing value with
  | zero => exact exhaust_mirrored _ _ fun _ _ => rfl
  | succ count ih =>
    refine .seq (h value) fun r => ?_
    cases r with
    | done value => exact .pure value
    | yield value => exact ih value

theorem loop_mirrors (init : β) {step step' : β → Parse (ForInStep β)}
    (h : ∀ value, Mirrors front (step value) (step' value)) :
    Mirrors front (loop init step) (loop init step') :=
  .seq inferInstance fun bytes => iterate_mirrors h (bytes + 1) init

instance (init : β) {step step' : β → Parse (ForInStep β)}
    [h : ∀ value, Mirrors front (step value) (step' value)] :
    Mirrors front (loop init step) (loop init step') := loop_mirrors init h

variable {test test' : Parse Bool} [Mirrors front test test']

instance {body body' : Parse Unit} [Mirrors front body body'] :
    Mirrors front (repeatWhile test body) (repeatWhile test' body') := by
  unfold repeatWhile
  infer_instance

variable {items items' : Parse (List Nat)}

theorem gatherWhile_mirrors (h : Mirrors front items items') :
    Mirrors front (gatherWhile test items) (gatherWhile test' items') := by
  unfold gatherWhile
  infer_instance

variable [h : Mirrors front items items']

instance : Mirrors front (gatherWhile test items) (gatherWhile test' items') :=
  gatherWhile_mirrors h

omit [Mirrors front test test'] in
instance : Mirrors front (separated items) (separated items') := by
  unfold separated
  infer_instance

omit [Mirrors front test test'] in
instance (closer : Kind) :
    Mirrors front (separatedUntil closer items) (separatedUntil closer items') := by
  unfold separatedUntil
  infer_instance

omit [Mirrors front test test'] h in
instance (closer : Kind) {item item' : Parse (Option Nat)} [Mirrors front item item'] :
    Mirrors front (enclosed? closer item) (enclosed? closer item') := by
  unfold enclosed?
  refine .seq (loop_mirrors _ fun nodes => .seq inferInstance fun closed => ?_) fun nodes => ?_
  · split
    · infer_instance
    · refine .seq inferInstance fun node => ?_
      cases node <;> infer_instance
  · cases nodes <;> infer_instance

end combinators

end Grammar
end SelfCapture
