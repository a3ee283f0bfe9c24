import SelfCapture.Proofs.Token.Streams

/-! # Kinds of lexemes

  A lexeme is a string literal, a name, or of a plain kind.  A string
  literal has its number signs and a quote at its start.  Only a name can be
  of the kind of a reserved word, and only when it is spelled as that word:
  `IsToken.ofWord?`.
-/

namespace SelfCapture.Token

variable {w : Window}

/-! ## Section 1: Plain kinds -/

/-- Kinds of tokens that are neither reserved words nor string literals. -/
def Kind.isPlain (kind : Kind) : Bool := !kind.isReserved && kind != .stringLiteral

theorem decimalAt_plain (afterMemberDot : Bool) (start : Nat) :
    (decimalAt w afterMemberDot start).kind.isPlain = true := by
  have hkind : ∀ stop whole : Nat,
      (if stop = whole then Kind.integerLiteral else .floatLiteral).isPlain = true := by
    intro stop whole
    split <;> rfl
  unfold decimalAt
  dsimp only
  by_cases hdot : afterMemberDot
  · simp only [hdot, if_true]
    rfl
  · simp only [hdot]
    exact hkind _ _

theorem numberAt_plain (previous : Token) (start : Nat) :
    (numberAt w previous start).kind.isPlain = true := by
  unfold numberAt
  dsimp only
  split
  · split
    · rfl
    · rfl
    · rfl
    · exact decimalAt_plain _ start
  · exact decimalAt_plain _ start

theorem operatorAt_plain (start body : Nat) :
    (operatorAt w start body).kind.isPlain = true := by
  unfold operatorAt
  dsimp only
  split
  · split <;> rfl
  · rfl

theorem escapedNameAt_plain (start : Nat) : (escapedNameAt w start).kind.isPlain = true := by
  unfold escapedNameAt
  dsimp only
  split
  · rfl
  · rfl

theorem punctuation?_plain {c : Char} {kind : Kind} (h : punctuation? c = some kind) :
    kind.isPlain = true := by
  revert h
  fun_cases punctuation? c with
  | case13 =>
    intro h
    cases h
  | _ =>
    rintro ⟨⟩
    rfl

/-! ## Section 2: Families -/

/-- Where a string literal opens: number signs with a quote after them. -/
structure Opens (w : Window) (hashes start : Nat) : Prop where
  sign : ∀ k < hashes, w.get? (start + k) = some '#'
  quote : w.peek? (start + hashes) = some '"'

/-- How a lexeme is read: as a string literal, as a name, or as something plain. -/
inductive Family (w : Window) (start : Nat) : Lexeme → Prop
  | string {hashes : Nat} (hopens : Opens w hashes start) : Family w start (stringAt w hashes start)
  | name : Family w start (nameAt w start)
  | plain {lexeme : Lexeme} (hkind : lexeme.kind.isPlain = true) : Family w start lexeme

theorem hashAt_family (start : Nat) : Family w start (hashAt w start) := by
  unfold hashAt
  dsimp only
  split
  · rename_i hquote
    have hle := w.le_skipWhile (· == '#') start
    refine .string ⟨fun k hk => ?_, ?_⟩
    · have hsign := Window.any_of_lt_skipUpTo (i := start + k) (Nat.le_add_right ..)
        (show start + k < w.skipWhile (· == '#') start by omega)
      obtain ⟨c, hc, hpass⟩ := (Option.any_eq_true _ _).mp hsign
      rw [hc, eq_of_beq hpass]
    · rw [Nat.add_sub_cancel' hle]
      exact eq_of_beq hquote
  · exact .plain rfl

theorem lexemeOf_family (previous : Token) {start : Nat} {c : Char}
    (hc : w.get? start = some c) : Family w start (lexemeOf w previous start c) := by
  fun_cases lexemeOf w previous start c with
  | case1 kind hkind => exact .plain (punctuation?_plain hkind)
  | case2 =>
    rename_i hquote
    refine .string ⟨fun k hk => absurd hk (Nat.not_lt_zero k), ?_⟩
    rw [Nat.add_zero]
    exact Window.peek?_of_get? (eq_of_beq hquote ▸ hc)
  | case3 => exact hashAt_family start
  | case4 => exact .plain (escapedNameAt_plain start)
  | case6 => exact .plain (numberAt_plain previous start)
  | case10 | case12 => exact .plain (operatorAt_plain _ _)
  | case13 => exact .name
  | case14 =>
    unfold otherAt
    split
    · split
      · exact .name
      · exact .plain rfl
    · exact .plain rfl
  | _ => exact .plain rfl

theorem lexemeAt_family (previous : Token) (start : Nat) :
    Family w start (lexemeAt w previous start) := by
  unfold lexemeAt
  split
  · rename_i c hc
    exact lexemeOf_family previous hc
  · exact .plain rfl

theorem nameAt_kind (start : Nat) :
    (nameAt w start).kind = .identifier ∨ (nameAt w start).kind.isReserved = true := by
  unfold nameAt
  dsimp only
  cases hword : Kind.ofWord? (Text.slice w.bytes start (nameEnd w (w.left start) start)) with
  | none => exact .inl rfl
  | some kind =>
    obtain ⟨before, after, hsplit, -⟩ := List.lookup_eq_some_iff.mp hword
    right
    rw [Option.getD_some, Kind.isReserved, hsplit]
    simp

/-- A token of the kind of a string literal has been read as one. -/
theorem lexemeAt_string {previous : Token} {start : Nat}
    (hkind : (lexemeAt w previous start).kind = .stringLiteral) :
    ∃ hashes, lexemeAt w previous start = stringAt w hashes start ∧ Opens w hashes start := by
  have hfamily := lexemeAt_family (w := w) previous start
  generalize lexemeAt w previous start = lexeme at hfamily hkind ⊢
  cases hfamily with
  | string hopens => exact ⟨_, rfl, hopens⟩
  | name =>
    -- A name is an identifier or a reserved word.
    rcases nameAt_kind (w := w) start with hname | hname
    · rw [hkind] at hname
      cases hname
    · rw [hkind] at hname
      cases hname
  | plain hplain =>
    rw [hkind] at hplain
    cases hplain

/-! ## Section 3: Reserved words -/

/-- A lexeme of the kind of a reserved word is spelled as that word. -/
theorem lexemeAt_ofWord? (w : Window) (previous : Token) (start : Nat)
    (hkind : (lexemeAt w previous start).kind.isReserved = true) :
    Kind.ofWord? (Text.slice w.bytes start (lexemeAt w previous start).stop) =
      some (lexemeAt w previous start).kind := by
  have hfamily := lexemeAt_family (w := w) previous start
  generalize lexemeAt w previous start = lexeme at hfamily hkind ⊢
  cases hfamily with
  | string => cases hkind
  | name =>
    unfold nameAt at hkind ⊢
    dsimp only at hkind ⊢
    cases hword : Kind.ofWord? (Text.slice w.bytes start (nameEnd w (w.left start) start)) with
    | some kind => rfl
    | none =>
      -- A name that is no reserved word is an identifier.
      rw [hword] at hkind
      cases hkind
  | plain hplain =>
    simp [Kind.isPlain, hkind] at hplain

theorem Kind.ofWord?_eq_self {word : String} (h : Kind.ofWord? word = some .selfKeyword) :
    word = "self" := by
  have hwords : ∀ entry ∈ Kind.reservedWords, entry.2 = Kind.selfKeyword → entry.1 = "self" := by
    decide
  unfold Kind.ofWord? at h
  obtain ⟨before, after, hsplit, -⟩ := List.lookup_eq_some_iff.mp h
  have hmem : (word, Kind.selfKeyword) ∈ Kind.reservedWords := by
    rw [hsplit]
    simp
  exact hwords _ hmem rfl

end SelfCapture.Token

namespace SelfCapture.Scanner

variable {text : String} {s w : Scanner}

/-! ## Section 4: Tokens of a stream -/

/-- Every state of a run comes from reading a token of the same text. -/
theorem exists_scan_of_mem_run {count : Nat} (h : s ∈ run count w) :
    ∃ before : Scanner, s = before.scan ∧ before.bytes = w.bytes := by
  induction count generalizing w with
  | zero => cases h
  | succ count ih =>
    rw [run] at h
    split at h
    · exact ⟨w, List.mem_singleton.mp h, rfl⟩
    · rcases List.mem_cons.mp h with rfl | hrest
      · exact ⟨w, rfl, rfl⟩
      · exact ih (w := w.scan) hrest

/-- A token of a reserved kind is spelled as the word of its kind. -/
theorem IsToken.ofWord? {k : Token.Kind} {r : Nat × Nat} (h : IsToken text k r)
    (hk : k.isReserved = true) :
    Token.Kind.ofWord? (Text.slice text.toByteArray r.1 r.2) = some k := by
  obtain ⟨s, ⟨w, hw, hs⟩, rfl, rfl⟩ := h
  obtain ⟨before, rfl, hbytes⟩ := exists_scan_of_mem_run hs
  have hword := Token.lexemeAt_ofWord? before.window before.token
    (Token.gapAt before.window before.pos).stop hk
  have hsame : before.window.bytes = text.toByteArray := hbytes.trans hw.bytes_eq
  rw [hsame] at hword
  exact hword

end SelfCapture.Scanner
