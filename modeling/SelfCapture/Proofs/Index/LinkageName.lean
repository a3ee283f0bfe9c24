import SelfCapture.Proofs.Grammar.FunctionReading
import SelfCapture.Proofs.Index.Brackets

/-! # Declarations of linkage names

  A linkage name gives the parameters of a function with their labels and
  types, and the declaration made of it, read as source text, has to have
  the same ones: `LinkageSyntax` is the syntax of linkage names, and
  `LinkageSyntax.declares` follows a name through the decoder and through
  the grammar.

  Two kinds of names are not decoded faithfully.

  - After two generic parameters the name is taken to be the last word,
    which begins after the blank between them.
  - A label is recognized by ASCII characters only, and a parameter with
    another label gets a second one.
-/

namespace SelfCapture

open Token (Name spellOut isNameChar)
open LinkageName (Bracketed Solid isInert)

/-! ## Section 1: How a linkage name is written -/

/-- The type of a parameter in a linkage name. -/
inductive LinkageType where
  /-- `A.B.C` -/
  | named (first : TypeName) (members : List Name)
  /-- `() -> ()` -/
  | plain
  /-- `@escaping () -> ()` -/
  | escaping
  /-- `(() -> ())?` -/
  | optional

/-- A parameter in a linkage name, `label: T` or `T`. -/
structure LinkageParameter where
  label : Option Name
  type : LinkageType

/-- A linkage name in readable form,
    `s:(extension in M):A.B.name<T, U>(label: T, U) -> R`. -/
structure LinkageSyntax where
  /-- The name starts with the mark of the declaring language. -/
  marked : Bool
  context : Option Name
  qualifiers : List Name
  base : Name
  generics : List Name
  parameters : List LinkageParameter
  result : Option (List Char)

def LinkageType.chars : LinkageType → List Char
  | .named first members => first.chars ++ members.flatMap ('.' :: ·.chars)
  | .plain => "() -> ()".toList
  | .escaping => "@escaping () -> ()".toList
  | .optional => "(() -> ())?".toList

/-- What the type tells about a closure. -/
def LinkageType.tells : LinkageType → ParameterType
  | .named .. => {}
  | .plain => { isFunction := true }
  | .escaping => { isFunction := true, isEscaping := true }
  | .optional => { isFunction := true, isOptional := true }

namespace LinkageParameter

def chars (p : LinkageParameter) : List Char :=
  match p.label with
  | some label => label.chars ++ [':', ' '] ++ p.type.chars
  | none => p.type.chars

/-- The label in the declaration, also that of a parameter without one. -/
def declaredLabel (p : LinkageParameter) : Name := p.label.getD ⟨['_'], by decide⟩

/-- The label is recognized as one. -/
def hasPlainLabel (p : LinkageParameter) : Bool :=
  p.label.all fun label => label.chars.all LinkageName.isLabelChar

end LinkageParameter

namespace LinkageSyntax

def genericChars : List Name → List Char
  | [] => []
  | names => ['<'] ++ [',', ' '].intercalate (names.map (·.chars)) ++ ['>']

/-- The qualified name of the function. -/
def qualified (n : LinkageSyntax) : List Char :=
  n.qualifiers.flatMap (·.chars ++ ['.']) ++ (n.base.chars ++ genericChars n.generics)

def resultChars (n : LinkageSyntax) : List Char :=
  match n.result with
  | some result => [' ', '-', '>', ' '] ++ result
  | none => []

/-- The name without the mark and the context. -/
def signature (n : LinkageSyntax) : List Char :=
  n.qualified ++
    '(' :: ([',', ' '].intercalate (n.parameters.map (·.chars)) ++ ')' :: n.resultChars)

def contextChars (n : LinkageSyntax) : List Char :=
  match n.context with
  | some name => '(' :: ("extension in ".toList ++ name.chars) ++ [')', ':']
  | none => []

def chars (n : LinkageSyntax) : List Char :=
  (if n.marked then ['s', ':'] else []) ++ (n.contextChars ++ n.signature)

/-- The text of the name. -/
def text (n : LinkageSyntax) : String := String.ofList n.chars

end LinkageSyntax

/-! ## Section 2: Characters of names -/

/-- No code point lies in two tables whose ranges are apart. -/
theorem not_inRanges {ranges : Array (Nat × Nat)} (others : Array (Nat × Nat)) {code : Nat}
    (hapart : (ranges.toList.all fun a => others.toList.all fun b =>
      Nat.blt a.2 b.1 || Nat.blt b.2 a.1) = true)
    (h : Text.inRanges ranges code = true) : Text.inRanges others code = false := by
  rw [← Bool.not_eq_true]
  intro hother
  rw [Text.inRanges, ← Array.any_toList, List.any_eq_true] at h hother
  obtain ⟨a, ha, hin⟩ := h
  obtain ⟨b, hb, hin'⟩ := hother
  simp only [Bool.and_eq_true, decide_eq_true_eq] at hin hin'
  have hab := List.all_eq_true.mp (List.all_eq_true.mp hapart a ha) b hb
  simp only [Bool.or_eq_true, Nat.blt_eq] at hab
  omega

/-- The characters of ASCII after the space are no blanks. -/
theorem not_isBlank_of_visible {c : Char} (hlow : 0x20 < c.toNat) (hhigh : c.toNat < 0x80) :
    Text.isBlank c = false := by
  simp [Text.isBlank, Text.inRanges, Text.blankRanges]
  omega

theorem not_isBlank_of_isNamePart {c : Char} (h : Token.isNamePart c = true) :
    Text.isBlank c = false := by
  refine not_isBlank_of_visible ?_ (Token.low_of_isNamePart h)
  unfold Token.isNamePart Char.isAlphanum Char.isAlpha Char.isUpper Char.isLower Char.isDigit at h
  simp [UInt32.le_iff_toNat_le] at h
  rcases h with ((hupper | hlower) | hdigit) | rfl
  · omega
  · omega
  · omega
  · decide

/-- No blank is part of a name. -/
theorem not_isNameChar_of_isBlank {c : Char} (h : Text.isBlank c = true) :
    isNameChar c = false := by
  have hpart : Token.isNamePart c = false := by
    rw [← Bool.not_eq_true]
    intro hpart
    rw [not_isBlank_of_isNamePart hpart] at h
    cases h
  by_cases hc : c.toNat < 0x80
  · simp [isNameChar, hpart, hc]
  · have halphabetic := not_inRanges Text.alphabeticRanges (by decide +kernel) h
    have hdigit := not_inRanges Text.decimalDigitRanges (by decide) h
    have hnumber := not_inRanges Text.otherNumberRanges (by decide) h
    simp [isNameChar, hpart, Text.isAlphanumeric, Text.isAlphabetic, Text.isNumeric,
      Text.isDecimalDigit, hc, halphabetic, hdigit, hnumber]

/-- A character that the decoder does not look for. -/
structure Inert (c : Char) : Prop where
  inert : isInert c = true
  ne_minus : c ≠ '-'
  ne_dot : c ≠ '.'
  ne_colon : c ≠ ':'
  ne_space : c ≠ ' '
  notBlank : Text.isBlank c = false

theorem inert_of_isNameChar {c : Char} (h : isNameChar c = true) : Inert c := by
  have hstops : ∀ d ∈ ['(', ')', '[', ']', '<', '>', ',', '-', '.', ':', ' '],
      isNameChar d = false := by simp [isNameChar, Token.isNamePart]
  have hne {d : Char} (hd : isNameChar d = false) : c ≠ d := by
    rintro rfl
    rw [h] at hd
    cases hd
  refine ⟨?_, hne (hstops _ (by decide)), hne (hstops _ (by decide)), hne (hstops _ (by decide)),
    hne (hstops _ (by decide)), ?_⟩
  · rw [LinkageName.isInert_iff]
    refine ⟨hne ?_, hne ?_, hne ?_, hne ?_, hne ?_, hne ?_, hne ?_⟩
    all_goals exact hstops _ (by decide)
  · rw [← Bool.not_eq_true]
    intro hblank
    rw [not_isNameChar_of_isBlank hblank] at h
    cases h

theorem not_isDigit_of_isNameStart {c : Char} (h : Token.isNameStart c = true) :
    c.isDigit = false := by
  unfold Token.isNameStart Char.isAlpha Char.isUpper Char.isLower at h
  simp [Char.isDigit, UInt32.le_iff_toNat_le] at h ⊢
  rcases h with (hupper | hlower) | rfl
  · omega
  · omega
  · decide

namespace Token.Name

variable (name : Name)

theorem isNameChar_of_mem {c : Char} (hc : c ∈ name.chars) : isNameChar c = true := by
  obtain ⟨chars, hvalid⟩ := name
  cases chars with
  | nil => cases hvalid
  | cons d chars =>
    rw [isNameText, Bool.and_eq_true, List.all_eq_true] at hvalid
    rcases List.mem_cons.mp hc with rfl | hc
    · exact isNameChar_of_isNameHead hvalid.1
    · exact hvalid.2 c hc

theorem exists_chars : ∃ c chars, name.chars = c :: chars := by
  obtain ⟨chars, hvalid⟩ := name
  cases chars with
  | nil => cases hvalid
  | cons c chars => exact ⟨c, chars, rfl⟩

/-- Nothing the decoder looks for is part of a name. -/
theorem inert {c : Char} (hc : c ∈ name.chars) : Inert c :=
  inert_of_isNameChar (name.isNameChar_of_mem hc)

theorem bracketed : Bracketed name.chars :=
  LinkageName.bracketed_of_all (List.all_eq_true.mpr fun _ hc => (name.inert hc).inert)

theorem solid : Solid name.chars := by
  obtain ⟨c, chars, hchars⟩ := name.exists_chars
  exact LinkageName.solid_of_all (by simp [hchars]) fun _ hc => (name.inert hc).notBlank

/-- No name starts with a digit. -/
theorem not_isDigit {c : Char} {chars : List Char} (hlow : LinkageName.isLabelChar c = true)
    (hchars : name.chars = c :: chars) : c.isDigit = false := by
  obtain ⟨_, hvalid⟩ := name
  cases hchars
  rw [isNameText, Bool.and_eq_true] at hvalid
  have hpart : isNamePart c = true := hlow
  have hstart : isNameStart c = true := by
    simpa [isNameHead, low_of_isNamePart hpart] using hvalid.1
  exact not_isDigit_of_isNameStart hstart

end Token.Name

/-! ## Section 3: Types and parameters -/

namespace LinkageType

theorem chars_named (first : TypeName) (members : List Name) :
    (named first members).chars = first.chars ++ members.flatMap ('.' :: ·.chars) := rfl

/-- The type as it is read. -/
def type : LinkageType → TypeSyntax
  | .named first members =>
    members.foldl (fun base name => .member base name []) (.named first [])
  | .plain => .function [] [] (.tuple [])
  | .escaping => .attributed [TypeSyntax.escapingName] none (.function [] [] (.tuple []))
  | .optional => .marked (.tuple [.function [] [] (.tuple [])]) .optional

/-- What is shown of members one after the other holds of a dotted name. -/
theorem named_induction {P : TypeSyntax → Prop} (base : TypeSyntax) (members : List Name)
    (hbase : P base) (hmember : ∀ base name, P base → P (.member base name [])) :
    P (members.foldl (fun base name => .member base name []) base) := by
  induction members generalizing base with
  | nil => exact hbase
  | cons name members ih => exact ih _ (hmember base name hbase)

theorem readable_type (T : LinkageType) :
    T.type.isType = true ∧ T.type.readable = true ∧ T.type.nesting ≤ 2 := by
  cases T with
  | named first members =>
    have hnamed := named_induction (.named first []) members
      (P := fun type => type.isPostfix = true ∧ type.readable = true ∧ type.nesting = 0)
      ⟨rfl, rfl, rfl⟩ fun base name h =>
        ⟨rfl, by simp [TypeSyntax.readable, TypeSyntax.readableAll, h],
          by simp [TypeSyntax.nesting, TypeSyntax.nestingAll, h]⟩
    obtain ⟨hmark, hread, hnesting⟩ := hnamed
    refine ⟨Grammar.isType_of_isPlain (Grammar.isPlain_of_isPostfix hmark), hread, ?_⟩
    have hle := Nat.le_of_eq hnesting
    exact Nat.le_trans hle (by decide)
  | plain | escaping | optional => decide

theorem tells_type (T : LinkageType) : T.type.tells {} true = T.tells := by
  cases T with
  | named first members =>
    exact named_induction (.named first []) members
      (P := fun type => type.tells {} true = {}) rfl fun base name _ => rfl
  | plain | escaping | optional => decide

theorem spellOut_member (base : TypeSyntax) (name : Name) :
    spellOut ((TypeSyntax.member base name []).words false) [] =
      spellOut (base.words false) [] ++ '.' :: name.chars := by
  have hmember : spellOut [⟨.dot, ['.'], false⟩, name.word false] [] = '.' :: name.chars := by
    simp [spellOut, Token.Name.word, Token.Word.spelling]
  have hwords : (TypeSyntax.member base name []).words false =
      base.words false ++ [⟨.dot, ['.'], false⟩, name.word false] := by
    simp [TypeSyntax.words, TypeSyntax.listWords, TypeSyntax.angled]
  rw [hwords, Token.spellOut_append, Token.spellOut_rest, hmember]

theorem spellOut_members (base : TypeSyntax) (members : List Name) :
    spellOut ((members.foldl (fun base name => .member base name []) base).words false) [] =
      spellOut (base.words false) [] ++ members.flatMap ('.' :: ·.chars) := by
  induction members generalizing base with
  | nil => simp
  | cons name members ih =>
    rw [List.foldl_cons, ih, spellOut_member, List.append_assoc, List.flatMap_cons]

theorem spellOut_type (T : LinkageType) : spellOut (T.type.words false) [] = T.chars := by
  cases T with
  | named first members =>
    have hfirst : spellOut ((TypeSyntax.named first []).words false) [] = first.chars := by
      simp [TypeSyntax.words, TypeSyntax.listWords, TypeSyntax.angled, spellOut, Token.Name.word,
        Token.Word.spelling]
    have hmembers := spellOut_members (.named first []) members
    rw [hfirst] at hmembers
    exact hmembers
  | plain | escaping | optional => decide

theorem bracketed_chars (T : LinkageType) : Bracketed T.chars := by
  have hfunction : Bracketed "() -> ()".toList :=
    .group .nil (.plain (by decide) (.arrow (.plain (by decide) (.group .nil .nil))))
  cases T with
  | named first members =>
    refine first.bracketed.append ?_
    induction members with
    | nil => exact .nil
    | cons name members ih =>
      have hmember : Bracketed ('.' :: name.chars) := .plain (by decide) name.bracketed
      exact hmember.append ih
  | plain => exact hfunction
  | escaping =>
    have hattribute : Bracketed "@escaping ".toList := LinkageName.bracketed_of_all (by decide)
    exact hattribute.append hfunction
  | optional => exact .group hfunction (.plain (by decide) .nil)

theorem solid_chars (T : LinkageType) : Solid T.chars := by
  cases T with
  | named first members =>
    rw [chars_named]
    obtain ⟨c, chars, hfirst⟩ := first.exists_chars
    refine LinkageName.solid_of_all (by simp [hfirst]) fun c hc => ?_
    rcases List.mem_append.mp hc with hc | hc
    · exact (first.inert hc).notBlank
    · obtain ⟨name, -, hc⟩ := List.mem_flatMap.mp hc
      rcases List.mem_cons.mp hc with rfl | hc
      · exact not_isBlank_of_visible (by decide) (by decide)
      · exact (name.inert hc).notBlank
  | plain | escaping | optional =>
    exact LinkageName.solid_of_ends (by decide +kernel) (by decide +kernel)

theorem no_colon (T : LinkageType) : ':' ∉ T.chars := by
  cases T with
  | named first members =>
    rw [chars_named]
    intro hc
    rcases List.mem_append.mp hc with hc | hc
    · exact (first.inert hc).ne_colon rfl
    · obtain ⟨name, -, hc⟩ := List.mem_flatMap.mp hc
      rcases List.mem_cons.mp hc with hc | hc
      · cases hc
      · exact (name.inert hc).ne_colon rfl
  | plain | escaping | optional => decide

end LinkageType

namespace LinkageParameter

variable {p : LinkageParameter}

theorem bracketed_chars (p : LinkageParameter) : Bracketed p.chars := by
  unfold chars
  cases p.label with
  | none => exact p.type.bracketed_chars
  | some label =>
    have hcolon : Bracketed [':', ' '] := LinkageName.bracketed_of_all (by decide)
    exact (label.bracketed.append hcolon).append p.type.bracketed_chars

theorem solid_chars (p : LinkageParameter) : Solid p.chars := by
  unfold chars
  cases p.label with
  | none => exact p.type.solid_chars
  | some label => exact label.solid.around p.type.solid_chars _

/-- A label of ASCII characters is recognized, and a type is not taken for one. -/
theorem hasLabel_eq (hlabel : p.hasPlainLabel = true) :
    LinkageName.hasLabel p.chars = p.label.isSome := by
  unfold hasPlainLabel at hlabel
  unfold chars
  cases hp : p.label with
  | none =>
    obtain ⟨c, chars, hchars, -⟩ := p.type.solid_chars.head
    -- No colon can be found where there is none.
    have hnone : ((p.type.chars.dropWhile LinkageName.isLabelChar).dropWhile
        Text.isBlank).head? ≠ some ':' := by
      intro hhead
      have hmem := List.mem_of_mem_head? hhead
      exact p.type.no_colon ((List.dropWhile_sublist _).subset ((List.dropWhile_sublist _).subset hmem))
    rw [hchars] at hnone ⊢
    simp [LinkageName.hasLabel, hnone]
  | some label =>
    rw [hp, Option.all_some, List.all_eq_true] at hlabel
    obtain ⟨c, chars, hchars⟩ := label.exists_chars
    have hdigit := label.not_isDigit (hlabel c (by simp [hchars])) hchars
    have hc := hlabel c (by simp [hchars])
    have hblank : Text.isBlank ':' = false := not_isBlank_of_visible (by decide) (by decide)
    have hcolon : LinkageName.isLabelChar ':' = false := by decide
    -- After the label its colon is found.
    have hdrop : (chars ++ ':' :: ' ' :: p.type.chars).dropWhile LinkageName.isLabelChar =
        ':' :: ' ' :: p.type.chars := by
      rw [List.dropWhile_append_of_pos fun d hd => hlabel d (by simp [hchars, hd])]
      simp [hcolon]
    simp [LinkageName.hasLabel, hchars, hdrop, hblank, hc, hdigit]

/-- In the declaration every parameter has a label. -/
theorem labelled_eq (hlabel : p.hasPlainLabel = true) :
    LinkageName.labelled p.chars = p.declaredLabel.chars ++ [':', ' '] ++ p.type.chars := by
  rw [LinkageName.labelled, hasLabel_eq hlabel]
  unfold chars declaredLabel
  cases p.label with
  | none => rfl
  | some label => rfl

end LinkageParameter

namespace LinkageName

/-- A list that begins with something solid is not blank. -/
theorem not_isEmpty_trim_intercalate {entry : List Char} (h : Solid entry)
    (entries : List (List Char)) :
    (trim ([',', ' '].intercalate (entry :: entries))).isEmpty = false := by
  obtain ⟨c, rest, hchars, hc⟩ := h.head
  obtain ⟨more, hmore⟩ : ∃ more, [',', ' '].intercalate (entry :: entries) = c :: more := by
    cases entries with
    | nil => exact ⟨rest, by simp [hchars]⟩
    | cons next entries => exact ⟨_, by rw [List.intercalate_cons_cons, hchars]; rfl⟩
  have hkept : ([] ++ c :: more).rdropWhile Text.isBlank = [] ++ c :: more.rdropWhile Text.isBlank :=
    rdropWhile_append hc
  rw [hmore, trim_of_head hc, ← List.nil_append (c :: more), hkept]
  rfl

/-- The list of parameters, each with a label. -/
theorem parameters?_eq (parameters : List LinkageParameter)
    (hlabels : parameters.all LinkageParameter.hasPlainLabel = true) :
    parameters? ([',', ' '].intercalate (parameters.map (·.chars))) =
      some ([',', ' '].intercalate (parameters.map fun p =>
        p.declaredLabel.chars ++ [':', ' '] ++ p.type.chars)) := by
  cases parameters with
  | nil => decide
  | cons p parameters =>
    have hsolid : ∀ entry ∈ (p :: parameters).map (·.chars), Solid entry := by
      intro entry hentry
      obtain ⟨q, -, rfl⟩ := List.mem_map.mp hentry
      exact q.solid_chars
    have hsplit := splitParameters_entries ((p :: parameters).map (·.chars)) (fun entry hentry => by
      obtain ⟨q, -, rfl⟩ := List.mem_map.mp hentry
      exact q.bracketed_chars) none
    -- Trimmed, the entries are the parameters as they were written.
    have htrimmed : (entriesOf ((p :: parameters).map (·.chars))).map trim =
        (p :: parameters).map (·.chars) := by
      simp only [List.map_cons, entriesOf, List.map_map]
      rw [(hsolid _ List.mem_cons_self).trim_eq]
      congr 1
      refine List.map_congr_left fun q hq => ?_
      exact q.solid_chars.trim_blank
    have hany : ((p :: parameters).map (·.chars)).any (·.isEmpty) = false := by
      rw [List.any_eq_false]
      intro entry hentry
      simpa using (hsolid entry hentry).ne_nil
    have hlabelled : ((p :: parameters).map (·.chars)).map labelled = (p :: parameters).map fun p =>
        p.declaredLabel.chars ++ [':', ' '] ++ p.type.chars := by
      rw [List.map_map]
      refine List.map_congr_left fun q hq => ?_
      exact LinkageParameter.labelled_eq (List.all_eq_true.mp hlabels q hq)
    have hnonempty : (trim ([',', ' '].intercalate ((p :: parameters).map (·.chars)))).isEmpty =
        false := not_isEmpty_trim_intercalate p.solid_chars _
    simp only [parameters?, hnonempty, hsplit, htrimmed, hany, hlabelled, Bool.false_eq_true,
      if_false]

/-! ## Section 4: Names -/

variable {n : LinkageSyntax}

theorem qualified_eq (hgenerics : n.generics.length ≤ 1) :
    n.generics = [] ∨ ∃ generic, n.generics = [generic] := by
  cases hg : n.generics with
  | nil => exact .inl rfl
  | cons generic generics =>
    rw [hg, List.length_cons] at hgenerics
    obtain rfl := List.length_eq_zero_iff.mp (by omega : generics.length = 0)
    exact .inr ⟨generic, rfl⟩

theorem inert_of_mem_qualifiers {qualifiers : List Name} {c : Char}
    (hc : c ∈ qualifiers.flatMap (·.chars ++ ['.'])) :
    isInert c = true ∧ c ≠ '-' ∧ c ≠ ':' ∧ Text.isBlank c = false := by
  obtain ⟨name, -, hc⟩ := List.mem_flatMap.mp hc
  rcases List.mem_append.mp hc with hc | hc
  · exact ⟨(name.inert hc).inert, (name.inert hc).ne_minus, (name.inert hc).ne_colon,
      (name.inert hc).notBlank⟩
  · rw [List.mem_singleton.mp hc]
    exact ⟨by decide, by decide, by decide, not_isBlank_of_visible (by decide) (by decide)⟩

/-- The parameters begin after the qualified name. -/
theorem beforeParameters_qualified (hgenerics : n.generics.length ≤ 1) (rest : List Char) :
    beforeParameters none 0 (n.qualified ++ '(' :: rest) = some (n.qualified, rest) := by
  have hopen (previous : Option Char) :
      beforeParameters previous 0 ('(' :: rest) = some ([], rest) := by
    simp [beforeParameters]
  have hname (name : Name) : ∀ c ∈ name.chars, isInert c = true ∧ c ≠ '-' :=
    fun c hc => ⟨(name.inert hc).inert, (name.inert hc).ne_minus⟩
  have hfront : ∀ c ∈ n.qualifiers.flatMap (·.chars ++ ['.']) ++ n.base.chars,
      isInert c = true ∧ c ≠ '-' := by
    intro c hc
    rcases List.mem_append.mp hc with hc | hc
    · exact ⟨(inert_of_mem_qualifiers hc).1, (inert_of_mem_qualifiers hc).2.1⟩
    · exact hname n.base c hc
  have hnone : none ≠ some '-' := by decide
  unfold LinkageSyntax.qualified
  rcases qualified_eq hgenerics with hg | ⟨generic, hg⟩
  · have hread := beforeParameters_plain hfront (fun previous _ => hopen previous) hnone
    simpa [hg, LinkageSyntax.genericChars] using hread
  · -- Inside the angle brackets no parenthesis is looked for.
    have hclose (previous : Option Char) (hprevious : previous ≠ some '-') :
        beforeParameters previous 1 ('>' :: '(' :: rest) = some (['>'], rest) := by
      simp [beforeParameters, hprevious]
    have hangled (previous : Option Char) :
        beforeParameters previous 0 ('<' :: (generic.chars ++ '>' :: '(' :: rest)) =
          some ('<' :: (generic.chars ++ ['>']), rest) := by
      have hinside := beforeParameters_plain (hname generic) hclose
        (by simp : some '<' ≠ some '-')
      simp [beforeParameters, hinside]
    have hread := beforeParameters_plain hfront (fun previous _ => hangled previous) hnone
    simpa [hg, LinkageSyntax.genericChars] using hread

/-- The qualifiers end with a dot, where the name of the function starts. -/
theorem lastName_qualifiers (qualifiers : List Name) (seen : List Char) :
    lastName (qualifiers.flatMap (·.chars ++ ['.'])).reverse 0 seen = some seen := by
  rcases List.eq_nil_or_concat qualifiers with rfl | ⟨front, name, rfl⟩
  · simp [lastName]
  · simp [lastName]

/-- Read from its end, a qualified name gives what follows its last dot. -/
theorem lastName_qualified (hgenerics : n.generics.length ≤ 1) :
    lastName n.qualified.reverse 0 [] =
      some (n.base.chars ++ LinkageSyntax.genericChars n.generics) := by
  have hname (name : Name) : ∀ c ∈ name.chars, isInert c = true ∧ c ≠ '.' :=
    fun c hc => ⟨(name.inert hc).inert, (name.inert hc).ne_dot⟩
  unfold LinkageSyntax.qualified
  rcases qualified_eq hgenerics with hg | ⟨generic, hg⟩
  · simp [hg, LinkageSyntax.genericChars, lastName_plain 0 _ (hname n.base), lastName_qualifiers]
  · -- The bracket that closes comes first, and is not that of an arrow.
    obtain ⟨c, hc, hhead⟩ : ∃ c, c ∈ generic.chars ∧
        (generic.chars.reverse ++ '<' :: (n.base.chars.reverse ++
          (n.qualifiers.flatMap (·.chars ++ ['.'])).reverse)).head? = some c := by
      obtain ⟨front, c, hchars, -⟩ := generic.solid.last
      exact ⟨c, by simp [hchars], by simp [hchars]⟩
    have hminus : c ≠ '-' := (generic.inert hc).ne_minus
    have hinside : lastName (generic.chars.reverse ++ '<' :: (n.base.chars.reverse ++
        (n.qualifiers.flatMap (·.chars ++ ['.'])).reverse)) 1 ['>'] =
        some (n.base.chars ++ '<' :: (generic.chars ++ ['>'])) := by
      rw [lastName_plain 1 _ (hname generic)]
      simp [lastName, lastName_plain 0 _ (hname n.base), lastName_qualifiers]
    have hreverse : (n.qualifiers.flatMap (·.chars ++ ['.']) ++
        (n.base.chars ++ LinkageSyntax.genericChars n.generics)).reverse =
        '>' :: (generic.chars.reverse ++ '<' :: (n.base.chars.reverse ++
          (n.qualifiers.flatMap (·.chars ++ ['.'])).reverse)) := by
      simp [hg, LinkageSyntax.genericChars]
    rw [hreverse, lastName, hhead]
    simp [hminus, hinside, hg, LinkageSyntax.genericChars]

/-- The name of the function has no blank in it, not even before its generic parameter. -/
theorem notBlank_base (hgenerics : n.generics.length ≤ 1) {c : Char}
    (hc : c ∈ n.base.chars ++ LinkageSyntax.genericChars n.generics) :
    Text.isBlank c = false ∧ c ≠ ' ' := by
  have hin (name : Name) : ∀ c ∈ name.chars, Text.isBlank c = false ∧ c ≠ ' ' :=
    fun c hc => ⟨(name.inert hc).notBlank, (name.inert hc).ne_space⟩
  rcases List.mem_append.mp hc with hc | hc
  · exact hin n.base c hc
  · rcases qualified_eq hgenerics with hg | ⟨generic, hg⟩
    · simp [hg, LinkageSyntax.genericChars] at hc
    · simp only [hg, LinkageSyntax.genericChars, List.map_cons, List.map_nil,
        List.intercalate_singleton, List.mem_append, List.mem_singleton] at hc
      rcases hc with (rfl | hc) | rfl
      · exact ⟨not_isBlank_of_visible (by decide) (by decide), by decide⟩
      · exact hin generic c hc
      · exact ⟨not_isBlank_of_visible (by decide) (by decide), by decide⟩

/-- The name of the function is what follows the last dot, its generic parameter included. -/
theorem baseName?_qualified (hgenerics : n.generics.length ≤ 1) :
    baseName? n.qualified =
      some (n.base.chars ++ LinkageSyntax.genericChars n.generics) := by
  obtain ⟨c, chars, hbase⟩ := n.base.exists_chars
  have hsolid : Solid (n.base.chars ++ LinkageSyntax.genericChars n.generics) :=
    solid_of_all (by simp [hbase]) fun c hc => (notBlank_base hgenerics hc).1
  have hword : lastWord (n.base.chars ++ LinkageSyntax.genericChars n.generics) =
      n.base.chars ++ LinkageSyntax.genericChars n.generics := by
    rw [lastWord, List.takeWhile_eq_self_iff.mpr, List.reverse_reverse]
    intro c hc
    simpa using (notBlank_base hgenerics (List.mem_reverse.mp hc)).2
  rw [baseName?, lastName_qualified hgenerics, Option.map_some, hsolid.trim_eq, hword]

/-! ## Section 5: Declarations -/

/-- The declaration has the parameters of the name; its end is what is left
    of the result. -/
theorem declarationOf?_eq (hgenerics : n.generics.length ≤ 1)
    (hlabels : n.parameters.all LinkageParameter.hasPlainLabel = true) (after : List Char)
    (hbalanced : isBalanced 0 after = true) :
    declarationOf? (n.qualified ++
        '(' :: ([',', ' '].intercalate (n.parameters.map (·.chars)) ++ ')' :: after)) =
      some ("func ".toList ++ (n.base.chars ++ LinkageSyntax.genericChars n.generics) ++ ['('] ++
        [',', ' '].intercalate (n.parameters.map fun p =>
          p.declaredLabel.chars ++ [':', ' '] ++ p.type.chars) ++ [')'] ++
        after.rdropWhile Text.isBlank ++ " \x7b\x7d".toList) := by
  have hbracketed : ∀ entry ∈ n.parameters.map (·.chars), Bracketed entry := by
    intro entry hentry
    obtain ⟨p, -, rfl⟩ := List.mem_map.mp hentry
    exact p.bracketed_chars
  obtain ⟨c, chars, hbase⟩ := n.base.exists_chars
  have hnonempty : (n.base.chars ++ LinkageSyntax.genericChars n.generics).isEmpty = false := by
    simp [hbase]
  have hafter : isBalanced 0 (after.reverse.dropWhile Text.isBlank).reverse = true := by
    have hkept := isBalanced_rdropWhile 0 after
    rw [hbalanced] at hkept
    exact hkept
  simp only [declarationOf?, beforeParameters_qualified hgenerics, baseName?_qualified hgenerics,
    hnonempty, closeGroup_entries hbracketed, parameters?_eq n.parameters hlabels, hafter,
    Bool.false_eq_true, if_false, if_true]
  rfl

/-- A name that is followed by anything but a colon is no mark and no context. -/
theorem withoutLanguage_name (name : Name) {c : Char} (hc : c ≠ ':') (rest : List Char) :
    withoutLanguage (name.chars ++ c :: rest) = some (name.chars ++ c :: rest) ∧
      withoutContext (name.chars ++ c :: rest) = some (name.chars ++ c :: rest) := by
  obtain ⟨first, chars, hchars⟩ := name.exists_chars
  obtain ⟨second, more, hmore, hsecond⟩ :
      ∃ second more, chars ++ c :: rest = second :: more ∧ second ≠ ':' := by
    cases chars with
    | nil => exact ⟨c, rest, rfl, hc⟩
    | cons second chars =>
      exact ⟨second, chars ++ c :: rest, rfl, (name.inert (by simp [hchars])).ne_colon⟩
  have hopen : first ≠ '(' := (isInert_iff.mp (name.inert (by simp [hchars])).inert).1
  rw [hchars, List.cons_append, hmore]
  constructor
  · unfold withoutLanguage
    split
    · simp_all
    · simp_all
    · rfl
  · unfold withoutContext
    split
    · simp_all
    · rfl

/-- The signature starts with a name, and no colon follows it. -/
theorem exists_name (n : LinkageSyntax) (rest : List Char) :
    ∃ (name : Name) (c : Char) (more : List Char), c ≠ ':' ∧
      n.qualified ++ '(' :: rest = name.chars ++ c :: more := by
  unfold LinkageSyntax.qualified
  cases n.qualifiers with
  | cons name qualifiers =>
    exact ⟨name, '.', _, by decide, by simp only [List.flatMap_cons, List.append_assoc]; rfl⟩
  | nil =>
    cases n.generics with
    | nil => exact ⟨n.base, '(', rest, by decide, by simp [LinkageSyntax.genericChars]⟩
    | cons generic generics =>
      exact ⟨n.base, '<', _, by decide, by
        simp only [LinkageSyntax.genericChars, List.flatMap_nil, List.nil_append,
          List.append_assoc]
        rfl⟩

/-- The context goes, and a name without one stays as it is. -/
theorem withoutContext_front (n : LinkageSyntax) (rest : List Char) :
    withoutContext (n.contextChars ++ (n.qualified ++ '(' :: rest)) =
      some (n.qualified ++ '(' :: rest) := by
  unfold LinkageSyntax.contextChars
  cases n.context with
  | none =>
    obtain ⟨name, c, more, hc, heq⟩ := exists_name n rest
    rw [List.nil_append, heq]
    exact (withoutLanguage_name name hc more).2
  | some context =>
    have hgroup : Bracketed ("extension in ".toList ++ context.chars) :=
      (bracketed_of_all (by decide)).append context.bracketed
    have hclose : closeGroup 1 ("extension in ".toList ++ context.chars ++
        ')' :: ':' :: (n.qualified ++ '(' :: rest)) =
        some ("extension in ".toList ++ context.chars, ':' :: (n.qualified ++ '(' :: rest)) :=
      closeGroup_end hgroup
    simp only [List.cons_append, List.append_assoc, List.nil_append, withoutContext] at hclose ⊢
    simp only [hclose]

/-- The mark of the language goes, and a name without one stays as it is. -/
theorem withoutLanguage_front (n : LinkageSyntax) (rest : List Char) :
    withoutLanguage ((if n.marked then ['s', ':'] else []) ++
      (n.contextChars ++ (n.qualified ++ '(' :: rest))) =
      some (n.contextChars ++ (n.qualified ++ '(' :: rest)) := by
  cases n.marked with
  | true => rfl
  | false =>
    unfold LinkageSyntax.contextChars
    cases n.context with
    | none =>
      obtain ⟨name, c, more, hc, heq⟩ := exists_name n rest
      simp only [Bool.false_eq_true, if_false, List.nil_append, heq]
      exact (withoutLanguage_name name hc more).1
    | some context => rfl

/-- What is left of the name without its mark and its context. -/
theorem without_front (n : LinkageSyntax) (rest : List Char) :
    (withoutLanguage ((if n.marked then ['s', ':'] else []) ++
      (n.contextChars ++ (n.qualified ++ '(' :: rest)))).bind withoutContext =
        some (n.qualified ++ '(' :: rest) := by
  rw [withoutLanguage_front, Option.bind_some, withoutContext_front]

end LinkageName

/-! ## Section 6: The declaration as it is read -/

namespace LinkageSyntax

/-- The function of the declaration. -/
def function (n : LinkageSyntax) : FunctionSyntax where
  name := n.base
  generic := n.generics.head?
  parameters := n.parameters.map fun p => ⟨p.declaredLabel, p.type.type⟩

variable {n : LinkageSyntax}

theorem readable_function (n : LinkageSyntax) : n.function.readable = true := by
  rw [FunctionSyntax.readable, List.all_eq_true]
  intro p hp
  obtain ⟨q, -, rfl⟩ := List.mem_map.mp hp
  obtain ⟨htype, hread, hnesting⟩ := q.type.readable_type
  have hdepth : 1 + q.type.type.nesting < Grammar.maxDepth := by
    unfold Grammar.maxDepth
    omega
  simp [ParameterSyntax.readable, htype, hread, hdepth]

theorem spellOut_parameter (p : LinkageParameter) :
    spellOut (ParameterSyntax.words ⟨p.declaredLabel, p.type.type⟩ false) [] =
      p.declaredLabel.chars ++ [':', ' '] ++ p.type.chars := by
  have htype : spellOut (p.type.type.words true ++ []) [] =
      ' ' :: spellOut (p.type.type.words false ++ []) [] :=
    TypeSyntax.spellOut_words_true p.type.type [] p.type.readable_type.2.1
  rw [List.append_nil, List.append_nil, p.type.spellOut_type] at htype
  simp [ParameterSyntax.words, spellOut, Token.Name.word, Token.Word.spelling, htype]

/-- Things with commas between them, spelled out one by one. -/
theorem spellOut_commaWords {α : Type} (wordsOf : α → Bool → List Token.Word)
    (hblank : ∀ x, spellOut (wordsOf x true) [] = ' ' :: spellOut (wordsOf x false) []) (xs : List α) :
    spellOut (Grammar.commaWords wordsOf xs false) [] =
      [',', ' '].intercalate (xs.map fun x => spellOut (wordsOf x false) []) := by
  induction xs with
  | nil => rfl
  | cons x xs ih =>
    cases xs with
    | nil => simp [Grammar.commaWords]
    | cons next xs =>
      -- The first word after the comma has a blank before it.
      have hnext : spellOut (Grammar.commaWords wordsOf (next :: xs) true) [] =
          ' ' :: spellOut (Grammar.commaWords wordsOf (next :: xs) false) [] := by
        cases xs with
        | nil => exact hblank next
        | cons third xs =>
          simp only [Grammar.commaWords, Token.spellOut_append]
          rw [Token.spellOut_rest (wordsOf next true), hblank, Token.spellOut_rest (wordsOf next false)
            (spellOut _ _), List.cons_append]
      simp only [Grammar.commaWords, List.map_cons, List.intercalate_cons_cons] at ih hnext ⊢
      rw [Token.spellOut_append, Token.spellOut_rest, spellOut, hnext, ih]
      simp [Token.Word.spelling]

theorem spellOut_function (hgenerics : n.generics.length ≤ 1) (rest : List Char) :
    spellOut n.function.words rest =
      "func ".toList ++ (n.base.chars ++ genericChars n.generics) ++ ['('] ++
        [',', ' '].intercalate (n.parameters.map fun p =>
          p.declaredLabel.chars ++ [':', ' '] ++ p.type.chars) ++ [')'] ++ rest := by
  -- The parts are spelled one by one, and at the end the words of the whole are cut at their borders.
  have hparameters :
      spellOut (Grammar.commaWords ParameterSyntax.words n.function.parameters false) [] =
      [',', ' '].intercalate (n.parameters.map fun p =>
        p.declaredLabel.chars ++ [':', ' '] ++ p.type.chars) := by
    rw [spellOut_commaWords _ fun p => rfl]
    simp only [function, List.map_map]
    congr 1
    exact List.map_congr_left fun p _ => spellOut_parameter p
  have hname : spellOut (FunctionSyntax.keyword.word false :: n.base.word true :: []) [] =
      "func ".toList ++ n.base.chars := by
    have hkeyword : "func ".toList = FunctionSyntax.keyword.chars ++ [' '] := by decide
    rw [hkeyword]
    simp [spellOut, Token.Name.word, Token.Word.spelling]
  have hgeneric : spellOut (TypeSyntax.angled (n.function.generic.map (·.word false)).toList) [] =
      genericChars n.generics := by
    rcases LinkageName.qualified_eq hgenerics with hg | ⟨generic, hg⟩
    · simp [function, hg, TypeSyntax.angled, genericChars, spellOut]
    · simp [function, hg, TypeSyntax.angled, genericChars, spellOut, Token.Name.word,
        Token.Word.spelling]
  have hwords : n.function.words =
      [FunctionSyntax.keyword.word false, n.base.word true] ++
        (TypeSyntax.angled (n.function.generic.map (·.word false)).toList ++
          (⟨.openParen, ['('], false⟩ ::
            (Grammar.commaWords ParameterSyntax.words n.function.parameters false ++
              [⟨.closeParen, [')'], false⟩]))) := rfl
  rw [hwords, Token.spellOut_append, Token.spellOut_rest, hname, Token.spellOut_append,
    Token.spellOut_rest (TypeSyntax.angled _), hgeneric, spellOut, Token.spellOut_append,
    Token.spellOut_rest (Grammar.commaWords _ _ _), hparameters]
  simp [spellOut, Token.Word.spelling]

/-- A linkage name does not start with a blank. -/
theorem exists_head (n : LinkageSyntax) :
    ∃ c more, n.chars = c :: more ∧ Text.isBlank c = false := by
  unfold chars contextChars signature
  obtain ⟨name, c, more, -, hname⟩ := LinkageName.exists_name n
    ([',', ' '].intercalate (n.parameters.map (·.chars)) ++ ')' :: n.resultChars)
  obtain ⟨first, rest, hfirst⟩ := name.exists_chars
  have hblank : Text.isBlank first = false := (name.inert (by simp [hfirst])).notBlank
  rw [hname, hfirst]
  cases n.marked with
  | true => exact ⟨'s', _, rfl, not_isBlank_of_visible (by decide) (by decide)⟩
  | false =>
    cases n.context with
    | none => exact ⟨first, _, rfl, hblank⟩
    | some context => exact ⟨'(', _, rfl, not_isBlank_of_visible (by decide) (by decide)⟩

/-- A linkage name with at most one generic parameter and labels of ASCII
    characters is made into the declaration of its function. -/
theorem declaration?_eq (hlength : n.text.utf8ByteSize ≤ LinkageName.maxLength)
    (hgenerics : n.generics.length ≤ 1)
    (hlabels : n.parameters.all LinkageParameter.hasPlainLabel = true)
    (hresult : n.result.all (LinkageName.isBalanced 0) = true) :
    ∃ rest, LinkageName.declaration? n.text = some (n.function.text rest) := by
  -- Trimming the name takes blanks away at the end of the result only.
  have htrim : LinkageName.trim n.chars = (if n.marked then ['s', ':'] else []) ++
      (n.contextChars ++ (n.qualified ++ '(' ::
        ([',', ' '].intercalate (n.parameters.map (·.chars)) ++
          ')' :: n.resultChars.rdropWhile Text.isBlank))) := by
    obtain ⟨c, more, heq, hc⟩ := n.exists_head
    have hsplit : n.chars = ((if n.marked then ['s', ':'] else []) ++ (n.contextChars ++
        (n.qualified ++ '(' :: [',', ' '].intercalate (n.parameters.map (·.chars))))) ++
          ')' :: n.resultChars := by
      simp [chars, signature]
    have hclose : Text.isBlank ')' = false := not_isBlank_of_visible (by decide) (by decide)
    rw [heq, LinkageName.trim_of_head hc, ← heq, hsplit, LinkageName.rdropWhile_append hclose]
    simp
  have hbalanced : LinkageName.isBalanced 0 (n.resultChars.rdropWhile Text.isBlank) = true := by
    rw [LinkageName.isBalanced_rdropWhile]
    unfold resultChars
    cases hr : n.result with
    | none => rfl
    | some result =>
      rw [hr, Option.all_some] at hresult
      simpa [LinkageName.isBalanced] using hresult
  have hshort : ¬ LinkageName.maxLength < n.text.utf8ByteSize := Nat.not_lt_of_le hlength
  have hchars : n.text.toList = n.chars := String.toList_ofList
  obtain ⟨body, hlanguage, hcontext⟩ := Option.bind_eq_some_iff.mp (LinkageName.without_front n
    ([',', ' '].intercalate (n.parameters.map (·.chars)) ++
      ')' :: n.resultChars.rdropWhile Text.isBlank))
  refine ⟨(n.resultChars.rdropWhile Text.isBlank).rdropWhile Text.isBlank ++ " \x7b\x7d".toList, ?_⟩
  rw [LinkageName.declaration?, if_neg hshort, hchars, htrim]
  simp only [hlanguage, hcontext, LinkageName.declarationOf?_eq hgenerics hlabels _ hbalanced,
    Option.map_some]
  simp only [FunctionSyntax.text, spellOut_function hgenerics, List.append_assoc]

/-- The declaration made of a linkage name, read as source text, is that of
    a function with the same name and with the same parameters in order,
    each with its label and with what its type tells about a closure. -/
theorem declares (n : LinkageSyntax) (hlength : n.text.utf8ByteSize ≤ LinkageName.maxLength)
    (hgenerics : n.generics.length ≤ 1)
    (hlabels : n.parameters.all LinkageParameter.hasPlainLabel = true)
    (hresult : n.result.all (LinkageName.isBalanced 0) = true) :
    ∃ declaration, LinkageName.declaration? n.text = some declaration ∧
      let file := SourceFile.parse declaration
      ∃ function name parameters result body,
        file.tree.firstFunction? file.root = some function ∧
        file.tree.form? function = some (.functionDecl .function name parameters result body) ∧
        file.tree.text name = n.base.text ∧
        List.Forall₂ (fun p id => ∃ label type,
          file.tree.form? id = some (.parameter label none (some type) none) ∧
          file.tree.text label = p.declaredLabel.text ∧
          file.tree.parameterType (some type) = p.type.tells) n.parameters parameters := by
  obtain ⟨rest, hdeclaration⟩ := declaration?_eq hlength hgenerics hlabels hresult
  refine ⟨_, hdeclaration, ?_⟩
  intro file
  obtain ⟨id, hfirst, name, parameters, result, body, hform, hname, hparameters⟩ :=
    parse_function n.function rest n.readable_function
  refine ⟨id, name, parameters, result, body, hfirst, hform.2 _ (.refl _), hname.2 _ (.refl _), ?_⟩
  have hshows : List.Forall₂ (fun p id => file.tree.ShowsParameter
      ⟨p.declaredLabel, p.type.type⟩ id) n.parameters parameters :=
    List.forall₂_map_left_iff.mp hparameters
  refine hshows.imp fun p id hparameter => ?_
  obtain ⟨label, type, hform, hlabel, htype⟩ := hparameter
  refine ⟨label, type, hform.2 _ (.refl _), hlabel.2 _ (.refl _), ?_⟩
  exact (htype.eq _ (.refl _) {} true).trans p.type.tells_type

/-- The name `f` of a method in a module `M` with the given parameters. -/
def method (generics : List Name) (parameters : List LinkageParameter) : LinkageSyntax where
  marked := true
  context := none
  qualifiers := [⟨['M'], by decide⟩]
  base := ⟨['f'], by decide⟩
  generics := generics
  parameters := parameters
  result := none

/-- `s:M.f<A>(x: () -> (), (() -> ())?)` declares its two parameters. -/
theorem declares_generic :
    let n := method [⟨['A'], by decide⟩]
      [⟨some ⟨['x'], by decide⟩, .plain⟩, ⟨none, .optional⟩]
    n.text = "s:M.f<A>(x: () -> (), (() -> ())?)" ∧
      ∃ declaration, LinkageName.declaration? n.text = some declaration ∧
        ∃ function name parameters result body,
          (SourceFile.parse declaration).tree.firstFunction? (SourceFile.parse declaration).root =
            some function ∧
          (SourceFile.parse declaration).tree.form? function =
            some (.functionDecl .function name parameters result body) ∧
          parameters.length = 2 := by
  intro n
  refine ⟨by decide, ?_⟩
  obtain ⟨declaration, hdeclaration, function, name, parameters, result, body, hfirst, hform, -,
    hparameters⟩ := declares n (by decide) (by decide) (by decide)
      (by decide)
  exact ⟨declaration, hdeclaration, function, name, parameters, result, body, hfirst, hform,
    hparameters.length_eq.symm⟩

/-- With two generic parameters the function of the declaration has no
    parameter, and a label with another letter than those of ASCII is lost. -/
theorem declares_no_second_generic :
    (∃ n : LinkageSyntax, n.text = "s:M.f<A, B>(x: () -> ())" ∧ n.parameters.length = 1 ∧
      ∃ declaration, LinkageName.declaration? n.text = some declaration ∧
        (SourceFile.parse declaration).firstParameters? = some []) ∧
    ∃ n : LinkageSyntax, n.text = "s:M.f(\xe9: () -> ())" ∧ n.parameters.length = 1 ∧
      ∃ declaration, LinkageName.declaration? n.text = some declaration ∧
        ((SourceFile.parse declaration).firstParameters?.getD []).map (fun id =>
          ((SourceFile.parse declaration).tree.bindingName? id).map
            (SourceFile.parse declaration).tree.text) = [some "_"] := by
  constructor
  · refine ⟨method [⟨['A'], by decide⟩, ⟨['B'], by decide⟩]
      [⟨some ⟨['x'], by decide⟩, .plain⟩], by decide, rfl,
      "func B>(x: () -> ()) \x7b\x7d", ?_⟩
    decide +kernel
  · refine ⟨method [] [⟨some ⟨['\xe9'], by decide +kernel⟩, .plain⟩], by decide +kernel, rfl,
      "func f(_: \xe9: () -> ()) \x7b\x7d", ?_⟩
    decide +kernel

end LinkageSyntax

end SelfCapture
