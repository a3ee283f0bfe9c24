import SelfCapture.Proofs.Grammar.Rescanning

/-! # Braces in a row of tokens

  Braces are counted: `openAfter?` gives the number of braces that some
  tokens leave open, and `partner?` the brace that closes one which has just
  been opened.  Tokens are `Balanced` if they close what they open and
  nothing else; counting over them changes nothing.

  `group?` and `line` cut off what a bracketed group or a line consists of,
  in the way in which such stretches are skipped.

  The tokens of a text are those of its scanner, up to and including the
  end.  `Scanner.Yields` says which ones are still to come.
-/

namespace SelfCapture
namespace Token

/-! ## Section 1: Counting -/

/-- Whether the kind is one of the two braces. -/
@[reducible] def Kind.isBrace : Kind → Bool
  | .openBrace | .closeBrace => true
  | _ => false

theorem Kind.isBrace_eq_false {k : Kind} (hopen : k ≠ .openBrace) (hclose : k ≠ .closeBrace) :
    k.isBrace = false := by
  unfold isBrace
  split
  · exact absurd rfl hopen
  · exact absurd rfl hclose
  · rfl

/-- There is no brace among the tokens. -/
def BraceFree (tokens : List Token) : Prop := ∀ token ∈ tokens, token.kind.isBrace = false

instance (tokens : List Token) : Decidable (BraceFree tokens) :=
  inferInstanceAs (Decidable (∀ token ∈ tokens, token.kind.isBrace = false))

/-- The number of braces that are open after some tokens, if `depth` are open
    before them; nothing if more are closed than opened. -/
def openAfter? : (depth : Nat) → List Token → Option Nat
  | depth, [] => some depth
  | depth, token :: rest =>
    match token.kind with
    | .openBrace => openAfter? (depth + 1) rest
    | .closeBrace => if depth = 0 then none else openAfter? (depth - 1) rest
    | _ => openAfter? depth rest

/-- The tokens close the braces that they open, and no others. -/
def Balanced (tokens : List Token) : Prop := openAfter? 0 tokens = some 0

instance (tokens : List Token) : Decidable (Balanced tokens) :=
  inferInstanceAs (Decidable (openAfter? 0 tokens = some 0))

/-- The closing brace that ends what was opened before some tokens, with
    `depth` further braces to be closed before it. -/
def partner? : (depth : Nat) → List Token → Option Token
  | _, [] => none
  | depth, token :: rest =>
    match token.kind with
    | .openBrace => partner? (depth + 1) rest
    | .closeBrace => if depth = 0 then some token else partner? (depth - 1) rest
    | _ => partner? depth rest

section counting

variable {token : Token} {depth depth' : Nat} {tokens more rest : List Token}

theorem openAfter?_open (h : token.kind = .openBrace) :
    openAfter? depth (token :: rest) = openAfter? (depth + 1) rest := by
  rw [openAfter?, h]

theorem openAfter?_close (h : token.kind = .closeBrace) :
    openAfter? (depth + 1) (token :: rest) = openAfter? depth rest := by
  rw [openAfter?, h]
  rfl

theorem openAfter?_plain (h : token.kind.isBrace = false) :
    openAfter? depth (token :: rest) = openAfter? depth rest := by
  rw [openAfter?]
  split
  · rename_i hkind
    rw [hkind] at h
    cases h
  · rename_i hkind
    rw [hkind] at h
    cases h
  · rfl

theorem openAfter?_append :
    openAfter? depth (tokens ++ more) = (openAfter? depth tokens).bind (openAfter? · more) := by
  induction tokens generalizing depth with
  | nil => rfl
  | cons token tokens ih =>
    simp only [List.cons_append, openAfter?]
    split
    · exact ih
    · split
      · rfl
      · exact ih
    · exact ih

/-- Braces that were open before do not matter. -/
theorem openAfter?_add (h : openAfter? depth tokens = some depth') (count : Nat) :
    openAfter? (depth + count) tokens = some (depth' + count) := by
  induction tokens generalizing depth with
  | nil =>
    rw [openAfter?, Option.some.injEq] at h ⊢
    rw [h]
  | cons token tokens ih =>
    rw [openAfter?] at h ⊢
    split at h
    · rw [Nat.add_right_comm]
      exact ih h
    · split at h
      · cases h
      · rename_i hdepth
        rw [if_neg (by omega), Nat.sub_add_comm (Nat.pos_of_ne_zero hdepth)]
        exact ih h
    · exact ih h

theorem BraceFree.nil : BraceFree [] := List.forall_mem_nil _

theorem BraceFree.cons (h : token.kind.isBrace = false) (hrest : BraceFree rest) :
    BraceFree (token :: rest) :=
  List.forall_mem_cons.mpr ⟨h, hrest⟩

namespace Balanced

theorem nil : Balanced [] := rfl

theorem plain (h : token.kind.isBrace = false) : Balanced [token] := openAfter?_plain h

theorem append (h : Balanced tokens) (h' : Balanced more) : Balanced (tokens ++ more) := by
  rw [Balanced, openAfter?_append, h]
  exact h'

theorem of_braceFree (h : BraceFree tokens) : Balanced tokens := by
  induction tokens with
  | nil => exact nil
  | cons token tokens ih =>
    have hrest := ih fun token htoken => h token (List.mem_cons_of_mem _ htoken)
    exact (plain (h token List.mem_cons_self)).append hrest

/-- Balanced tokens between braces. -/
theorem enclose {opener closer : Token} (hopen : opener.kind = .openBrace) (h : Balanced tokens)
    (hclose : closer.kind = .closeBrace) : Balanced (opener :: (tokens ++ [closer])) := by
  rw [Balanced, openAfter?_open hopen, openAfter?_append, openAfter?_add h 1]
  exact openAfter?_close hclose

end Balanced

/-- Counting over tokens that leave `depth'` braces open. -/
theorem partner?_append (h : openAfter? depth tokens = some depth') :
    partner? depth (tokens ++ rest) = partner? depth' rest := by
  induction tokens generalizing depth with
  | nil =>
    rw [openAfter?, Option.some.injEq] at h
    rw [h, List.nil_append]
  | cons token tokens ih =>
    rw [openAfter?] at h
    rw [List.cons_append, partner?]
    split at h
    · exact ih h
    · split at h
      · cases h
      · rename_i hdepth
        rw [if_neg hdepth]
        exact ih h
    · exact ih h

/-- The brace after balanced tokens closes what was opened before them. -/
theorem partner?_of_balanced {closer : Token} (h : Balanced tokens)
    (hclose : closer.kind = .closeBrace) :
    partner? 0 (tokens ++ closer :: rest) = some closer := by
  rw [partner?_append h, partner?, hclose]
  rfl

end counting

/-! ## Section 2: Groups and lines -/

/-- The tokens up to the one that closes a group, of which `depth` brackets
    are open; nothing if the group is not closed. -/
def group? (opener closer : Kind) : (depth : Nat) → List Token → Option (List Token)
  | _, [] => none
  | depth, token :: rest =>
    if token.kind = opener then (group? opener closer (depth + 1) rest).map (token :: ·)
    else if token.kind = closer then
      if depth ≤ 1 then some [token]
      else (group? opener closer (depth - 1) rest).map (token :: ·)
    else (group? opener closer depth rest).map (token :: ·)

section groups

variable {opener closer : Kind} {depth : Nat} {token : Token} {rest : List Token}

theorem group?_open (h : token.kind = opener) :
    group? opener closer depth (token :: rest) =
      (group? opener closer (depth + 1) rest).map (token :: ·) := by
  rw [group?, if_pos h]

theorem group?_last (hne : token.kind ≠ opener) (h : token.kind = closer) (hdepth : depth ≤ 1) :
    group? opener closer depth (token :: rest) = some [token] := by
  rw [group?, if_neg hne, if_pos h, if_pos hdepth]

theorem group?_close (hne : token.kind ≠ opener) (h : token.kind = closer) (hdepth : ¬ depth ≤ 1) :
    group? opener closer depth (token :: rest) =
      (group? opener closer (depth - 1) rest).map (token :: ·) := by
  rw [group?, if_neg hne, if_pos h, if_neg hdepth]

theorem group?_inner (hne : token.kind ≠ opener) (hne' : token.kind ≠ closer) :
    group? opener closer depth (token :: rest) =
      (group? opener closer depth rest).map (token :: ·) := by
  rw [group?, if_neg hne, if_neg hne']

/-- A group has its closing bracket. -/
theorem group?_ne_nil {tokens : List Token} : group? opener closer depth tokens ≠ some [] := by
  cases tokens with
  | nil => nofun
  | cons token rest =>
    rw [group?]
    split
    · simp
    · split
      · split
        · simp
        · simp
      · simp

end groups

/-- Whether the token goes on with the line of the one before it. -/
def onSameLine (token : Token) : Bool := token.kind != .endOfFile && !token.afterLineBreak

/-- The first token and those that follow it on its line. -/
def line : List Token → List Token
  | [] => []
  | token :: rest => token :: rest.takeWhile onSameLine

/-- A group of braces leaves none of them open. -/
theorem openAfter?_group {depth : Nat} {tokens inner : List Token}
    (h : group? .openBrace .closeBrace depth tokens = some inner) (hdepth : 0 < depth) :
    openAfter? depth inner = some 0 := by
  -- Both walks count the same depth, and the last token of the group closes the last open brace.
  induction tokens generalizing depth inner with
  | nil => cases h
  | cons token tokens ih =>
    rw [group?] at h
    split at h
    · rename_i hopen
      obtain ⟨inner, hinner, rfl⟩ := Option.map_eq_some_iff.mp h
      rw [openAfter?_open hopen]
      exact ih hinner (Nat.succ_pos depth)
    · rename_i hopen
      split at h
      · rename_i hclose
        split at h
        · cases h
          obtain rfl : depth = 1 := by omega
          rw [openAfter?_close hclose]
          rfl
        · obtain ⟨inner, hinner, rfl⟩ := Option.map_eq_some_iff.mp h
          obtain ⟨depth, rfl⟩ : ∃ n, depth = n + 1 := ⟨depth - 1, by omega⟩
          rw [openAfter?_close hclose]
          exact ih hinner (by omega)
      · rename_i hclose
        obtain ⟨inner, hinner, rfl⟩ := Option.map_eq_some_iff.mp h
        rw [openAfter?_plain (Kind.isBrace_eq_false hopen hclose)]
        exact ih hinner hdepth

theorem balanced_group {token : Token} {rest inner : List Token}
    (hopen : token.kind = .openBrace)
    (h : group? .openBrace .closeBrace 0 (token :: rest) = some inner) : Balanced inner := by
  rw [group?, if_pos hopen] at h
  obtain ⟨inner, hinner, rfl⟩ := Option.map_eq_some_iff.mp h
  rw [Balanced, openAfter?_open hopen]
  exact openAfter?_group hinner (Nat.zero_lt_one)

end Token

/-! ## Section 3: The tokens of a scanner -/

namespace Scanner

/-- The tokens from the current one up to and including the end of the window. -/
inductive Yields : Scanner → List Token → Prop where
  | last {s : Scanner} (h : s.token.kind = .endOfFile) : Yields s [s.token]
  | next {s : Scanner} {rest : List Token} (h : s.token.kind ≠ .endOfFile)
      (hrest : Yields s.scan rest) : Yields s (s.token :: rest)

variable {s s' : Scanner} {row : List Token}

theorem Yields.eq_cons (h : s.Yields row) : ∃ rest, row = s.token :: rest := by
  cases h with
  | last => exact ⟨[], rfl⟩
  | next => exact ⟨_, rfl⟩

theorem Yields.scan (h : s.Yields row) (hne : s.token.kind ≠ .endOfFile) :
    ∃ rest, row = s.token :: rest ∧ s.scan.Yields rest := by
  cases h with
  | last hend => exact absurd hend hne
  | next _ hrest => exact ⟨_, rfl, hrest⟩

/-- The diagnostics found so far have no part in what is yet to come. -/
theorem Yields.congr (h : s.Yields row) (hbytes : s'.bytes = s.bytes) (hpos : s'.pos = s.pos)
    (hstop : s'.stop = s.stop) (htoken : s'.token = s.token) : s'.Yields row := by
  induction h generalizing s' with
  | @last s hend =>
    rw [← htoken] at hend ⊢
    exact .last hend
  | @next s rest hne _ ih =>
    have hwindow : s'.window = s.window := by rw [window, window, hbytes, hstop]
    have hscan : s'.scan.Yields rest := by
      refine ih hbytes ?_ hstop ?_
      · simp only [Scanner.scan, hwindow, hpos, htoken]
      · simp only [Scanner.scan, hwindow, hpos, htoken]
    rw [← htoken] at hne ⊢
    exact .next hne hscan

/-- The tokens of a text, the end included. -/
def tokens (text : String) : List Token := (states text).map (·.token)

/-- With more states allowed than there are bytes left, every token is found. -/
theorem Within.yields_run (h : s.Within) {count : Nat} (hcount : s.stop - s.pos < count) :
    s.scan.Yields ((run count s).map (·.token)) := by
  induction count generalizing s with
  | zero => exact absurd hcount (Nat.not_lt_zero _)
  | succ count ih =>
    rw [run]
    by_cases hend : s.scan.token.kind = .endOfFile
    · simpa [hend] using Yields.last hend
    · -- A token other than the end covers a byte, so less is left after it.
      have hsettled := h.settled
      have hnext := hsettled.within
      have hlow := le_scan_pos h.pos_le
      have hcovers := hsettled.covers hend
      have hpos := hsettled.pos_eq
      have hless : s.scan.stop - s.scan.pos < count := by
        have hstop : s.scan.stop = s.stop := rfl
        have hle := hnext.pos_le
        omega
      simpa [hend] using Yields.next hend (ih hnext hless)

theorem yields_tokens (text : String) : (ofText text).scan.Yields (tokens text) := by
  refine (within_ofText text).yields_run ?_
  have hstop : (ofText text).stop = (ofText text).bytes.size := rfl
  omega

end Scanner
end SelfCapture
