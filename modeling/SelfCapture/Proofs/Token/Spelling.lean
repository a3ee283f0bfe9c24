import SelfCapture.Proofs.Text.Characters
import SelfCapture.Token.Scanner

/-! # Spelling

  A `Word` is a token as it is written: its kind, its characters, and
  whether a blank stands before it.  A sequence of words is legible if no
  word runs into the next one, `Legible`; scanning what it spells gives back
  the words, `Scanner.scan_spells`.

  - A name runs into a character that continues a name.
  - `?` runs into a second `?`, and `.` into a second dot.
  - `<`, `!`, `&` and all other operators run into the characters of an operator.
  - Brackets, commas, colons, `@` and `->` run into nothing.
-/

namespace SelfCapture

namespace Token

open Window (Holds)

variable {w : Window} {offset : Nat} {rest : List Char}

/-! ## Section 1: Names -/

/-- Characters that start a name. -/
def isNameHead (c : Char) : Bool :=
  isNameStart c || (!decide (c.toNat < 0x80) && Text.isAlphabetic c)

/-- Characters that continue a name. -/
def isNameChar (c : Char) : Bool :=
  isNamePart c || (!decide (c.toNat < 0x80) && Text.isAlphanumeric c)

/-- Whether the characters make a name, reserved words included. -/
def isNameText : List Char → Bool
  | [] => false
  | c :: rest => isNameHead c && rest.all isNameChar

/-- A name as it is written. -/
structure Name where
  chars : List Char
  valid : isNameText chars = true

/-- The text of a name. -/
def Name.text (name : Name) : String := String.ofList name.chars

/-- The kind of a name: that of a reserved word, or a plain identifier. -/
def Name.kind (name : Name) : Kind := (Kind.ofWord? name.text).getD .identifier

theorem low_of_isNamePart {c : Char} (h : isNamePart c = true) : c.toNat < 0x80 := by
  unfold isNamePart Char.isAlphanum Char.isAlpha Char.isUpper Char.isLower Char.isDigit at h
  simp only [Bool.or_eq_true, Bool.and_eq_true, decide_eq_true_eq, beq_iff_eq,
    UInt32.le_iff_toNat_le, ge_iff_le] at h
  have hval : c.val.toNat = c.toNat := rfl
  rcases h with ((⟨_, h⟩ | ⟨_, h⟩) | ⟨_, h⟩) | h
  · exact Nat.lt_of_le_of_lt (hval ▸ h) (by decide)
  · exact Nat.lt_of_le_of_lt (hval ▸ h) (by decide)
  · exact Nat.lt_of_le_of_lt (hval ▸ h) (by decide)
  · rw [h]
    decide

theorem isNamePart_of_isNameStart {c : Char} (h : isNameStart c = true) : isNamePart c = true := by
  rw [isNameStart, Bool.or_eq_true] at h
  rcases h with h | h
  · simp [isNamePart, Char.isAlphanum, h]
  · simp [isNamePart, h]

theorem isNameChar_of_isNameHead {c : Char} (h : isNameHead c = true) : isNameChar c = true := by
  rw [isNameHead, Bool.or_eq_true] at h
  rcases h with h | h
  · simp [isNameChar, isNamePart_of_isNameStart h]
  · rw [Bool.and_eq_true] at h
    simp [isNameChar, Text.isAlphanumeric, h.1, h.2]

/-- A name ends at once before a character that does not go on with it. -/
theorem nameEnd_stop (count : Nat) (h : w.Holds offset rest)
    (hrest : rest.head?.any isNameChar = false) : nameEnd w count offset = offset := by
  cases count with
  | zero => rfl
  | succ count =>
    have hpart := h.any_get? fun _ => low_of_isNamePart
    rw [nameEnd]
    cases rest with
    | nil => rw [h.get?_nil]
    | cons c rest =>
      rw [List.head?_cons, Option.any_some, isNameChar, Bool.or_eq_false_iff] at hrest
      rw [List.head?_cons, Option.any_some, hrest.1] at hpart
      obtain ⟨byte, hget, -⟩ := h.exists_byte
      rw [hget, Option.any_some] at hpart
      rw [hget]
      dsimp only
      rw [if_neg (by simp [hpart])]
      split
      · rfl
      · rename_i hhigh
        -- The character itself is high, since its first byte is.
        have hc : ¬ c.toNat < 0x80 := by
          intro hlow
          rw [h.get?_eq hlow] at hget
          rw [← Option.some.inj hget] at hhigh
          exact hhigh hlow
        rw [h.char?_eq]
        simp only [hc, decide_false, Bool.not_false, Bool.true_and] at hrest
        dsimp only
        rw [if_neg (by simp [hrest.2])]

/-- A name goes on over its characters and stops before the next one. -/
theorem nameEnd_eq {name : List Char} (count : Nat) (h : w.Holds offset (name ++ rest))
    (hname : name.all isNameChar = true) (hrest : rest.head?.any isNameChar = false)
    (hcount : name.length ≤ count) : nameEnd w count offset = offset + name.utf8Encode.size := by
  induction name generalizing offset count with
  | nil => exact nameEnd_stop count h hrest
  | cons c name ih =>
    rw [List.all_cons, Bool.and_eq_true] at hname
    rw [List.length_cons] at hcount
    obtain ⟨count, rfl⟩ : ∃ n, count = n + 1 := ⟨count - 1, by omega⟩
    have hsize := Text.size_utf8Encode_cons c name
    have hrec := ih count h.tail hname.2 (by omega)
    rw [nameEnd]
    by_cases hpart : isNamePart c = true
    · have hlow := low_of_isNamePart hpart
      rw [Text.utf8Size_of_low hlow] at hrec hsize
      rw [h.get?_eq hlow]
      dsimp only
      rw [if_pos hpart, hrec, hsize, Nat.add_assoc]
    · -- Only a high character goes on with a name otherwise, and it is decoded.
      have hother := hname.1
      simp only [isNameChar, hpart, Bool.false_or, Bool.and_eq_true, Bool.not_eq_true',
        decide_eq_false_iff_not] at hother
      obtain ⟨b, hget, hhigh⟩ := h.exists_high hother.1
      have hbyte : isNamePart b ≠ true := fun hb => hhigh (low_of_isNamePart hb)
      rw [hget]
      dsimp only
      rw [if_neg hbyte, if_neg hhigh, h.char?_eq]
      dsimp only
      rw [if_pos hother.2, hrec, hsize, Nat.add_assoc]

/-! ## Section 2: Words -/

/-- A token as it is written. -/
structure Word where
  kind : Kind
  chars : List Char
  /-- A blank stands before it. -/
  blank : Bool := false

/-- Whether a token of this kind would go on with the character. -/
def Kind.goesOn (kind : Kind) (c : Char) : Bool :=
  match kind with
  | .question => c == '?'
  | .lessThan | .exclamation | .ampersand | .equals | .operator => isOperatorPart c
  | .dot => c == '.'
  | kind => kind.isName && isNameChar c

/-- Tokens with a fixed spelling other than punctuation. -/
def symbols : List (Kind × List Char) := [
  (.arrow, ['-', '>']), (.question, ['?']), (.exclamation, ['!']), (.lessThan, ['<']),
  (.ampersand, ['&']), (.dot, ['.']), (.operator, ['.', '.', '.'])]

/-- Characters that continue an operator without starting a comment. -/
def isOperatorChar (c : Char) : Bool := isOperatorPart c && c != '/'

/-- Characters that start an operator, apart from those with other uses. -/
def isOperatorHead (c : Char) : Bool := c == '<' || (isOperatorChar c && c != '-')

/-- The kind of an operator with the given first character. -/
def operatorKind (c : Char) (part : List Char) : Kind :=
  if part.isEmpty then
    match c with
    | '=' => .equals
    | '<' => .lessThan
    | '&' => .ampersand
    | _ => .operator
  else .operator

/-- Characters that can stand between backticks. -/
def isEscapable (c : Char) : Bool := c != '`' && c != '\n' && c != '\r'

namespace Word

/-- The kind and the characters belong together. -/
inductive Valid : Word → Prop where
  | name (name : Name) (blank : Bool) : Valid ⟨name.kind, name.chars, blank⟩
  | escaped {chars : List Char} (hne : chars ≠ []) (h : chars.all isEscapable = true)
      (blank : Bool) : Valid ⟨.identifier, '`' :: (chars ++ ['`']), blank⟩
  | operator {c : Char} {part : List Char} (hc : isOperatorHead c = true)
      (hpart : part.all isOperatorChar = true) (blank : Bool) :
      Valid ⟨operatorKind c part, c :: part, blank⟩
  | punctuation {c : Char} {kind : Kind} (h : punctuation? c = some kind) (blank : Bool) :
      Valid ⟨kind, [c], blank⟩
  | symbol {kind : Kind} {chars : List Char} (h : (kind, chars) ∈ symbols) (blank : Bool) :
      Valid ⟨kind, chars, blank⟩

/-- The characters of the word, with the blank before them. -/
def spelling (word : Word) : List Char := if word.blank then ' ' :: word.chars else word.chars

end Word

/-! ## Section 3: One word -/

theorem Name.isName_kind (name : Name) : name.kind.isName = true := by
  unfold Name.kind
  cases h : Kind.ofWord? name.text with
  | none => decide
  | some kind =>
    -- Every reserved word can serve as a name.
    have hall : ∀ entry ∈ Kind.reservedWords, entry.2.isName = true := by decide
    unfold Kind.ofWord? at h
    obtain ⟨l₁, l₂, heq, -⟩ := List.lookup_eq_some_iff.mp h
    refine hall (name.text, kind) ?_
    rw [heq]
    simp

theorem Name.kind_ne (name : Name) {kind : Kind} (h : kind.isName = false) : name.kind ≠ kind := by
  intro heq
  rw [← heq, name.isName_kind] at h
  cases h

theorem Name.goesOn_kind (name : Name) (c : Char) : name.kind.goesOn c = isNameChar c := by
  have hname := name.isName_kind
  unfold Kind.goesOn
  split
  all_goals first | (rw [hname, Bool.true_and]) | skip
  all_goals
    rename_i hkind
    rw [hkind] at hname
    cases hname

/-- What a low character is not, if it starts a name. -/
theorem lexemeOf_nameStart {c : Char} (previous : Token) (h : isNameStart c = true) :
    lexemeOf w previous offset c = nameAt w offset := by
  have hall : ∀ c : Char, c.toNat < 0x80 → isNameStart c = true →
      punctuation? c = none ∧ isOperatorStart c = false ∧ c.isDigit = false ∧
      ['"', '#', '`', '$', '.', '-', '?'].contains c = false :=
    Text.forall_low (by decide +kernel)
  obtain ⟨hpunctuation, hoperator, hdigit, hother⟩ :=
    hall c (low_of_isNamePart (isNamePart_of_isNameStart h)) h
  simp only [List.contains_eq_mem, List.mem_cons, List.not_mem_nil, or_false,
    decide_eq_false_iff_not, not_or] at hother
  obtain ⟨h₁, h₂, h₃, h₄, h₅, h₆, h₇⟩ := hother
  simp [lexemeOf, hpunctuation, hoperator, hdigit, h₁, h₂, h₃, h₄, h₅, h₆, h₇, h]

/-- A high byte is part of a character that starts a name or nothing. -/
theorem lexemeOf_high {b : Char} (previous : Token) (h : ¬ b.toNat < 0x80) :
    lexemeOf w previous offset b = otherAt w offset := by
  have hne : ∀ d : Char, d.toNat < 0x80 → b ≠ d := fun d hd heq => h (heq ▸ hd)
  have hpunctuation : punctuation? b = none := by
    unfold punctuation?
    split
    all_goals first | exact absurd rfl (hne _ (by decide)) | rfl
  have hoperator : isOperatorStart b = false := by
    simp only [isOperatorStart, isOperatorPart, List.contains_eq_mem, Bool.or_eq_false_iff,
      decide_eq_false_iff_not, List.mem_cons, List.not_mem_nil, or_false, not_or,
      beq_eq_false_iff_ne]
    refine ⟨⟨⟨?_, ?_, ?_, ?_, ?_, ?_, ?_, ?_, ?_, ?_⟩, ?_⟩, ?_⟩
    all_goals exact hne _ (by decide)
  have hname : isNameStart b = false := by
    refine eq_false_of_ne_true fun hstart => h ?_
    exact low_of_isNamePart (isNamePart_of_isNameStart hstart)
  have hdigit : b.isDigit = false := by
    refine eq_false_of_ne_true fun hd => h (low_of_isNamePart ?_)
    simp [isNamePart, Char.isAlphanum, hd]
  simp [lexemeOf, hpunctuation, hoperator, hname, hdigit, hne]

theorem Name.lexemeAt_eq (name : Name) (previous : Token) (h : w.Holds offset (name.chars ++ rest))
    (hrest : rest.head?.any isNameChar = false) :
    lexemeAt w previous offset =
      { kind := name.kind, stop := offset + name.chars.utf8Encode.size } := by
  have hleft := h.length_le_left
  have hslice := h.slice_eq
  obtain ⟨chars, hvalid⟩ := name
  cases chars with
  | nil => cases hvalid
  | cons c chars =>
    have hparts := hvalid
    rw [isNameText, Bool.and_eq_true] at hparts
    have hall : (c :: chars).all isNameChar = true := by
      rw [List.all_cons, isNameChar_of_isNameHead hparts.1, hparts.2, Bool.and_self]
    have hname : nameAt w offset =
        { kind := Name.kind ⟨c :: chars, hvalid⟩, stop := offset + (c :: chars).utf8Encode.size } := by
      rw [nameAt, nameEnd_eq _ h hall hrest hleft, hslice]
      rfl
    rw [← hname]
    unfold lexemeAt
    by_cases hstart : isNameStart c = true
    · have hlow := low_of_isNamePart (isNamePart_of_isNameStart hstart)
      rw [h.get?_eq hlow]
      exact lexemeOf_nameStart previous hstart
    · -- The first byte says nothing, so the whole character is decoded.
      have hhigh := hparts.1
      simp only [isNameHead, hstart, Bool.false_or, Bool.and_eq_true, Bool.not_eq_true',
        decide_eq_false_iff_not] at hhigh
      obtain ⟨b, hget, hbyte⟩ := h.exists_high hhigh.1
      rw [hget]
      dsimp only
      rw [lexemeOf_high previous hbyte, otherAt, h.char?_eq]
      dsimp only
      rw [if_pos hhigh.2]

theorem low_of_isOperatorPart {c : Char} (h : isOperatorPart c = true) : c.toNat < 0x80 := by
  simp only [isOperatorPart, List.contains_eq_mem, decide_eq_true_eq] at h
  have hall : ∀ d ∈ ['=', '-', '+', '*', '%', '&', '|', '^', '~', '/'], d.toNat < 0x80 := by simp
  exact hall c h

/-- An operator ends at once before a character that does not go on with it. -/
theorem operatorEnd_stop (count : Nat) (h : w.Holds offset rest)
    (hrest : rest.head?.any isOperatorPart = false) : operatorEnd w count offset = offset := by
  have hnext := h.any_get? fun _ => low_of_isOperatorPart
  rw [hrest] at hnext
  cases count with
  | zero => rfl
  | succ count =>
    rw [operatorEnd]
    cases hget : w.get? offset with
    | none => rfl
    | some c =>
      rw [hget, Option.any_some] at hnext
      simp [hnext]

/-- An operator goes on over its characters and stops before the next one. -/
theorem operatorEnd_eq {part : List Char} (count : Nat) (h : w.Holds offset (part ++ rest))
    (hpart : part.all isOperatorChar = true) (hrest : rest.head?.any isOperatorPart = false)
    (hcount : part.length ≤ count) : operatorEnd w count offset = offset + part.length := by
  induction part generalizing offset count with
  | nil => exact operatorEnd_stop count h hrest
  | cons c part ih =>
    rw [List.all_cons, Bool.and_eq_true, isOperatorChar, Bool.and_eq_true, bne_iff_ne] at hpart
    rw [List.length_cons] at hcount
    obtain ⟨count, rfl⟩ : ∃ n, count = n + 1 := ⟨count - 1, by omega⟩
    have hlow := low_of_isOperatorPart hpart.1.1
    have hrec := ih count (h.tail_low hlow) hpart.2 (by omega)
    rw [operatorEnd, h.get?_eq hlow]
    simp only [hpart.1.1, if_true, beq_eq_false_iff_ne.mpr hpart.1.2, Bool.false_and,
      Bool.false_eq_true, if_false, hrec, List.length_cons]
    omega

theorem low_of_isOperatorHead {c : Char} (h : isOperatorHead c = true) : c.toNat < 0x80 := by
  simp only [isOperatorHead, isOperatorChar, Bool.or_eq_true, beq_iff_eq, Bool.and_eq_true] at h
  rcases h with rfl | h
  · decide
  · exact low_of_isOperatorPart h.1.1

theorem goesOn_operatorKind (c : Char) (part : List Char) :
    (operatorKind c part).goesOn = isOperatorPart := by
  unfold operatorKind
  split
  · split <;> rfl
  · rfl

/-- A character that starts an operator has no other use. -/
theorem lexemeOf_operatorHead {c : Char} (previous : Token) (h : isOperatorHead c = true) :
    lexemeOf w previous offset c = operatorAt w offset (offset + 1) := by
  have hall : ∀ c : Char, c.toNat < 0x80 → isOperatorHead c = true →
      punctuation? c = none ∧ isOperatorStart c = true ∧ c.isDigit = false ∧
      ['"', '#', '`', '$', '.', '-', '?'].contains c = false :=
    Text.forall_low (by decide +kernel)
  obtain ⟨hpunctuation, hstart, hdigit, hother⟩ := hall c (low_of_isOperatorHead h) h
  simp only [List.contains_eq_mem, List.mem_cons, List.not_mem_nil, or_false,
    decide_eq_false_iff_not, not_or] at hother
  obtain ⟨h₁, h₂, h₃, h₄, h₅, h₆, h₇⟩ := hother
  simp [lexemeOf, hpunctuation, hstart, hdigit, h₁, h₂, h₃, h₄, h₅, h₆, h₇]

/-- The kind of an operator depends on its first character only if this is all of it. -/
theorem operatorAt_eq {c : Char} {part : List Char} (hc : isOperatorHead c = true)
    (hpart : part.all isOperatorChar = true) (h : w.Holds offset (c :: (part ++ rest)))
    (hrest : rest.head?.any isOperatorPart = false) :
    operatorAt w offset (offset + 1) =
      { kind := operatorKind c part, stop := offset + (1 + part.length) } := by
  have hlow := low_of_isOperatorHead hc
  have htail := h.tail_low hlow
  have hend := operatorEnd_eq (w.left (offset + 1)) htail hpart hrest htail.length_le_left
  have hmark : c ≠ '!' := by
    rintro rfl
    exact absurd hc (by decide)
  rw [operatorAt, hend, h.get?_eq hlow, Nat.add_assoc]
  cases part with
  | nil =>
    simp only [List.length_nil, Nat.add_zero, if_true, operatorKind, List.isEmpty_nil]
    congr 1
    split <;> simp_all
  | cons d part =>
    have hlonger : ¬ offset + (1 + (d :: part).length) = offset + 1 := by
      simp only [List.length_cons]
      omega
    simp only [hlonger, if_false, operatorKind, List.isEmpty_cons, Bool.false_eq_true]

/-- An operator, whatever the token before it. -/
theorem lexemeAt_operator {c : Char} {part : List Char} (previous : Token)
    (hc : isOperatorHead c = true) (hpart : part.all isOperatorChar = true)
    (h : w.Holds offset (c :: (part ++ rest))) (hrest : rest.head?.any isOperatorPart = false) :
    lexemeAt w previous offset =
      { kind := operatorKind c part, stop := offset + (1 + part.length) } := by
  rw [lexemeAt, h.get?_eq (low_of_isOperatorHead hc)]
  dsimp only
  rw [lexemeOf_operatorHead previous hc, operatorAt_eq hc hpart h hrest]

theorem isEscapable_of_high {c : Char} (h : ¬ c.toNat < 0x80) : isEscapable c = true := by
  simp only [isEscapable, Bool.and_eq_true, bne_iff_ne]
  refine ⟨⟨?_, ?_⟩, ?_⟩
  all_goals
    rintro rfl
    exact h (by decide)

/-- A name between backticks. -/
theorem escapedNameAt_eq {chars : List Char} (hne : chars ≠ [])
    (hchars : chars.all isEscapable = true) (h : w.Holds offset ('`' :: (chars ++ '`' :: rest))) :
    escapedNameAt w offset =
      { kind := .identifier, stop := offset + (1 + (chars.utf8Encode.size + 1)) } := by
  have htail := h.tail_low (by decide)
  have hclose : w.skipWhile isEscapable (offset + 1) = offset + 1 + chars.utf8Encode.size :=
    htail.skipWhile_eq (fun _ => isEscapable_of_high) hchars (by rfl)
  have hmark := htail.drop.get?_eq (by decide)
  have hpos : 0 < chars.utf8Encode.size := by
    have hlength := Text.length_le_size chars
    have hsome := List.length_pos_iff.mpr hne
    omega
  unfold escapedNameAt
  rw [show (fun c => c != '`' && c != '\n' && c != '\r') = isEscapable from rfl, hclose]
  simp only [hmark, beq_self_eq_true, Bool.true_and, decide_eq_true_eq]
  rw [if_pos (by omega)]
  congr 1
  omega

theorem lexemeAt_escaped {chars : List Char} (previous : Token) (hne : chars ≠ [])
    (hchars : chars.all isEscapable = true)
    (h : w.Holds offset ('`' :: (chars ++ ['`']) ++ rest)) :
    lexemeAt w previous offset =
      { kind := .identifier, stop := offset + ('`' :: (chars ++ ['`'])).utf8Encode.size } := by
  have htext : '`' :: (chars ++ ['`']) ++ rest = '`' :: (chars ++ '`' :: rest) := by simp
  rw [htext] at h
  have hsize : ('`' :: (chars ++ ['`'])).utf8Encode.size = 1 + (chars.utf8Encode.size + 1) := by
    rw [Text.size_utf8Encode_cons, List.utf8Encode_append, ByteArray.size_append]
    rfl
  rw [lexemeAt, h.get?_eq (by decide)]
  simpa [lexemeOf, punctuation?, hsize] using escapedNameAt_eq hne hchars h

theorem lexemeAt_punctuation {c : Char} {kind : Kind} (previous : Token)
    (hkind : punctuation? c = some kind) (h : w.Holds offset (c :: rest)) :
    lexemeAt w previous offset = { kind, stop := offset + [c].utf8Encode.size } := by
  have hlow : c.toNat < 0x80 := by
    revert hkind
    fun_cases punctuation? c with
    | case13 => exact fun hkind => nomatch hkind
    | _ => exact fun _ => by decide
  rw [lexemeAt, h.get?_eq hlow]
  simp only [lexemeOf, hkind, Text.size_utf8Encode_cons, Text.utf8Size_of_low hlow]
  rfl

/-- A dot before anything but another dot. -/
theorem lexemeAt_dot (previous : Token) (h : w.Holds offset ('.' :: rest))
    (hrest : rest.head?.any (· == '.') = false) :
    lexemeAt w previous offset = { kind := .dot, stop := offset + 1 } := by
  have hdots (last : Char) (hlast : last.toNat < 0x80) :
      w.startsWith offset ['.', '.', last] = false := by
    refine eq_false_of_ne_true fun hstarts => ?_
    have hall : ∀ c ∈ ['.', '.', last], c.toNat < 0x80 := by simp [hlast]
    obtain ⟨more, hmore⟩ := (h.startsWith_iff hall).mp hstarts
    rw [← (List.cons.inj hmore).2] at hrest
    cases hrest
  rw [lexemeAt, h.get?_eq (by decide)]
  simp [lexemeOf, punctuation?, hdots]

/-- A symbol before a character that does not go on with it. -/
theorem lexemeAt_symbol {kind : Kind} {chars : List Char} (previous : Token)
    (hmem : (kind, chars) ∈ symbols) (h : w.Holds offset (chars ++ rest))
    (hrest : rest.head?.any kind.goesOn = false) :
    lexemeAt w previous offset = { kind, stop := offset + chars.length } := by
  simp only [symbols, List.mem_cons, List.not_mem_nil, or_false, Prod.mk.injEq] at hmem
  rcases hmem with ⟨rfl, rfl⟩ | ⟨rfl, rfl⟩ | ⟨rfl, rfl⟩ | ⟨rfl, rfl⟩ | ⟨rfl, rfl⟩ | ⟨rfl, rfl⟩ |
    ⟨rfl, rfl⟩
  · -- `->`
    have hnext := (h.tail_low (by decide)).get?_eq (by decide)
    rw [lexemeAt, h.get?_eq (by decide)]
    simp [lexemeOf, punctuation?, hnext]
  · -- `?`
    have htail : w.Holds (offset + 1) rest := h.tail_low (by decide)
    have hnext : w.get? (offset + 1) ≠ some '?' := by
      refine htail.get?_ne (by decide) fun hhead => ?_
      rw [hhead] at hrest
      exact absurd hrest (by decide)
    rw [lexemeAt, h.get?_eq (by decide)]
    simp [lexemeOf, punctuation?, hnext]
  · -- `!`, which can also be a mark on a type and so is no head of an operator
    have hget := h.get?_eq (by decide)
    have htail : w.Holds (offset + 1) rest := h.tail_low (by decide)
    have hend := operatorEnd_stop (w.left (offset + 1)) htail hrest
    rw [lexemeAt, hget]
    simp [lexemeOf, punctuation?, isOperatorStart, isOperatorPart, operatorAt, hend, hget]
  · -- `<`
    have hnone : w.Holds offset ('<' :: ([] ++ rest)) := h
    exact lexemeAt_operator previous (by decide) (by rfl) hnone hrest
  · -- `&`
    have hnone : w.Holds offset ('&' :: ([] ++ rest)) := h
    exact lexemeAt_operator previous (by decide) (by rfl) hnone hrest
  · exact lexemeAt_dot previous h hrest
  · -- `...`
    have hdots : w.startsWith offset ['.', '.', '.'] = true := by
      rw [h.startsWith_iff (by simp)]
      exact List.prefix_append _ _
    rw [lexemeAt, h.get?_eq (by decide)]
    simp [lexemeOf, punctuation?, hdots]

/-- What a word is read as, whatever the token before it. -/
theorem Word.Valid.lexemeAt_eq {word : Word} (hvalid : word.Valid) (previous : Token)
    (h : w.Holds offset (word.chars ++ rest)) (hrest : rest.head?.any word.kind.goesOn = false) :
    lexemeAt w previous offset =
      { kind := word.kind, stop := offset + word.chars.utf8Encode.size } := by
  cases hvalid with
  | name name blank =>
    refine name.lexemeAt_eq previous h ?_
    rw [← hrest]
    congr 1
    funext c
    exact (name.goesOn_kind c).symm
  | escaped hne hchars blank => exact lexemeAt_escaped previous hne hchars h
  | @operator c part hc hpart blank =>
    have hrest' : rest.head?.any isOperatorPart = false := by
      rw [← goesOn_operatorKind c part]
      exact hrest
    have hsize : (c :: part).utf8Encode.size = 1 + part.length := by
      rw [Text.size_utf8Encode_cons, Text.utf8Size_of_low (low_of_isOperatorHead hc),
        Text.size_of_low]
      intro d hd
      have hd := List.all_eq_true.mp hpart d hd
      rw [isOperatorChar, Bool.and_eq_true] at hd
      exact low_of_isOperatorPart hd.1
    rw [hsize]
    exact lexemeAt_operator previous hc hpart h hrest'
  | punctuation hkind blank => exact lexemeAt_punctuation previous hkind h
  | symbol hmem blank =>
    have hlow : ∀ entry ∈ symbols, ∀ c ∈ entry.2, c.toNat < 0x80 := by simp [symbols]
    rw [Text.size_of_low (hlow _ hmem)]
    exact lexemeAt_symbol previous hmem h hrest

/-! ## Section 4: Gaps -/

/-- Characters that are blank or can start a comment. -/
def startsGap (c : Char) : Bool := [' ', '\t', '\x0b', '\x0c', '\n', '\r', '/'].contains c

theorem low_of_startsGap {c : Char} (h : startsGap c = true) : c.toNat < 0x80 := by
  simp only [startsGap, List.contains_eq_mem, decide_eq_true_eq] at h
  have hall : ∀ d ∈ [' ', '\t', '\x0b', '\x0c', '\n', '\r', '/'], d.toNat < 0x80 := by simp
  exact hall c h

/-- A word does not start with a blank. -/
theorem Word.Valid.head {word : Word} (h : word.Valid) :
    ∃ c rest, word.chars = c :: rest ∧ startsGap c = false := by
  cases h with
  | name name blank =>
    obtain ⟨chars, hvalid⟩ := name
    cases chars with
    | nil => cases hvalid
    | cons c chars =>
      rw [isNameText, Bool.and_eq_true] at hvalid
      refine ⟨c, chars, rfl, eq_false_of_ne_true fun hgap => ?_⟩
      have hall : ∀ c : Char, c.toNat < 0x80 → isNameHead c = true → ¬ startsGap c = true :=
        Text.forall_low (by decide +kernel)
      exact hall c (low_of_startsGap hgap) hvalid.1 hgap
  | escaped hne hchars blank => exact ⟨'`', _, rfl, rfl⟩
  | @operator c part hc hpart blank =>
    have hall : ∀ c : Char, c.toNat < 0x80 → isOperatorHead c = true → startsGap c = false :=
      Text.forall_low (by decide +kernel)
    exact ⟨c, part, rfl, hall c (low_of_isOperatorHead hc) hc⟩
  | @punctuation c kind hkind blank =>
    refine ⟨c, [], rfl, ?_⟩
    revert hkind
    fun_cases punctuation? c with
    | case13 => exact fun hkind => nomatch hkind
    | _ => exact fun _ => by decide
  | @symbol kind chars hmem blank =>
    have hall : ∀ entry ∈ symbols, entry.2.head?.any startsGap = false ∧ entry.2 ≠ [] := by decide
    obtain ⟨hgap, hne⟩ := hall _ hmem
    cases chars with
    | nil => exact absurd rfl hne
    | cons c chars => exact ⟨c, chars, rfl, hgap⟩

theorem Gap.extend_eq {gap : Gap} (count : Nat) (h : w.Holds gap.stop rest)
    (hrest : rest.head?.any startsGap = false) : Gap.extend w count gap = gap := by
  have hgap := h.any_get? fun _ => low_of_startsGap
  rw [hrest] at hgap
  cases count with
  | zero => rfl
  | succ count =>
    unfold Gap.extend
    split
    all_goals first | rfl | skip
    all_goals
      rename_i hget
      rw [hget] at hgap
      cases hgap

/-- Before a word stands its blank, and nothing else. -/
theorem gapAt_eq {word : Word} (hvalid : word.Valid) (h : w.Holds offset (word.spelling ++ rest)) :
    gapAt w offset =
      { stop := if word.blank then offset + 1 else offset, blank := word.blank } := by
  obtain ⟨c, chars, hchars, hc⟩ := hvalid.head
  unfold gapAt
  unfold Word.spelling at h
  cases hblank : word.blank with
  | false =>
    rw [hblank] at h
    refine Gap.extend_eq _ h ?_
    rw [hchars]
    exact hc
  | true =>
    rw [hblank] at h
    have hlt := h.lt_stop
    obtain ⟨count, hcount⟩ : ∃ n, w.left offset = n + 1 :=
      ⟨w.left offset - 1, by unfold Window.left; omega⟩
    rw [hcount, Gap.extend, h.get?_eq (by decide)]
    refine Gap.extend_eq count (h.tail_low (by decide)) ?_
    rw [hchars]
    exact hc

/-! ## Section 5: Sequences of words -/

/-- What the words spell, before the given text. -/
def spellOut : List Word → List Char → List Char
  | [], rest => rest
  | word :: words, rest => word.spelling ++ spellOut words rest

theorem spellOut_append (words more : List Word) (rest : List Char) :
    spellOut (words ++ more) rest = spellOut words (spellOut more rest) := by
  induction words with
  | nil => rfl
  | cons word words ih => rw [List.cons_append, spellOut, ih, spellOut]

theorem spellOut_rest (words : List Word) (rest : List Char) :
    spellOut words rest = spellOut words [] ++ rest := by
  induction words with
  | nil => rfl
  | cons word words ih => rw [spellOut, ih, spellOut, List.append_assoc]

/-- No word runs into what follows it. -/
def Legible : List Word → List Char → Prop
  | [], _ => True
  | word :: words, rest =>
    word.Valid ∧ (spellOut words rest).head?.any word.kind.goesOn = false ∧ Legible words rest

end Token

namespace Scanner

open Token (Word spellOut Legible)

/-- The token read last is the word, and nothing wrong has been found. -/
structure Shows (s : Scanner) (word : Word) : Prop where
  kind_eq : s.token.kind = word.kind
  text_eq : s.tokenText = String.ofList word.chars
  blank_eq : s.token.afterBlank = word.blank
  line_eq : s.token.afterLineBreak = false
  clean : s.diagnostics = #[]

/-- The token read last and those after it are the words. -/
def Spells (s : Scanner) : List Word → Prop
  | [] => True
  | word :: words => s.Shows word ∧ s.scan.Spells words

/-- Scanning what the words spell gives the words, and then what scanning
    the text after them gives. -/
theorem scan_spells_then {s : Scanner} {words more : List Word} {rest : List Char}
    (h : s.window.Holds s.pos (spellOut words rest)) (hclean : s.diagnostics = #[])
    (hwords : Legible words rest)
    (hmore : ∀ s' : Scanner, s'.window.Holds s'.pos rest → s'.diagnostics = #[] →
      s'.scan.Spells more) :
    s.scan.Spells (words ++ more) := by
  induction words generalizing s with
  | nil => exact hmore s h hclean
  | cons word words ih =>
    obtain ⟨hvalid, hapart, hwords⟩ := hwords
    have hgap := Token.gapAt_eq hvalid h
    have hword : s.window.Holds (Token.gapAt s.window s.pos).stop
        (word.chars ++ spellOut words rest) := by
      rw [hgap]
      rw [spellOut, Word.spelling] at h
      cases hblank : word.blank with
      | false =>
        rw [hblank] at h
        exact h
      | true =>
        rw [hblank] at h
        exact h.tail_low (by decide)
    have hlexeme := hvalid.lexemeAt_eq s.token hword hapart
    have hscanned : s.scan.diagnostics = #[] := by
      simp only [scan, hlexeme]
      exact hclean
    refine ⟨⟨?_, ?_, ?_, ?_, hscanned⟩, ih ?_ hscanned hwords⟩
    · simp only [scan, hlexeme]
    · simp only [tokenText, scan, hlexeme]
      exact hword.slice_eq
    · simp only [scan, hgap]
    · simp only [scan, hgap]
    · have hpos : s.scan.pos = (Token.gapAt s.window s.pos).stop + word.chars.utf8Encode.size := by
        simp only [scan, hlexeme]
      rw [hpos]
      exact hword.drop

/-- Scanning what the words spell gives the words. -/
theorem scan_spells {s : Scanner} {words : List Word} {rest : List Char}
    (h : s.window.Holds s.pos (spellOut words rest)) (hclean : s.diagnostics = #[])
    (hwords : Legible words rest) : s.scan.Spells words := by
  have hspells : s.scan.Spells (words ++ []) :=
    scan_spells_then h hclean hwords fun _ _ _ => trivial
  rwa [List.append_nil] at hspells

/-- What is scanned at the end of a text. -/
def ending : Word := ⟨.endOfFile, [], false⟩

/-- At the end of a text there is nothing but its end. -/
theorem scan_ending {s : Scanner} (h : s.window.Holds s.pos []) (hclean : s.diagnostics = #[]) :
    s.scan.Shows ending := by
  have hgap : Token.gapAt s.window s.pos = { stop := s.pos } := Token.Gap.extend_eq _ h rfl
  have hlexeme : Token.lexemeAt s.window s.token s.pos = { kind := .endOfFile, stop := s.pos } := by
    rw [Token.lexemeAt, h.get?_nil]
  refine ⟨?_, ?_, ?_, ?_, ?_⟩
  · simp only [scan, hgap, hlexeme, ending]
  · simp only [tokenText, scan, hgap, hlexeme, ending]
    have hempty : s.window.Holds s.pos ([] ++ []) := h
    exact hempty.slice_eq
  · simp only [scan, hgap, ending]
  · simp only [scan, hgap]
  · simp only [scan, hgap, hlexeme]
    exact hclean

/-- A text that consists of the words is scanned as the words and its end. -/
theorem scan_spells_all {s : Scanner} {words : List Word}
    (h : s.window.Holds s.pos (spellOut words [])) (hclean : s.diagnostics = #[])
    (hwords : Legible words []) : s.scan.Spells (words ++ [ending]) :=
  scan_spells_then h hclean hwords fun _ hend hnone => ⟨scan_ending hend hnone, trivial⟩

end Scanner
end SelfCapture
