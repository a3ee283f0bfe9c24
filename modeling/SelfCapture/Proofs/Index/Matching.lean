import SelfCapture.Proofs.Index.Brackets
import SelfCapture.Proofs.Index.Pairing

/-! # What the decoder checks of brackets

  Each of the scans of a linkage name counts brackets of some kinds with one
  counter, over its own part of the name: angle and square brackets before
  the parameters, parentheses up to the end of the parameters, all kinds
  inside of them, and parentheses and square brackets in what follows.  So a
  bracket without a partner can pass, if its kind is not counted there or if
  a bracket of another kind makes up for it: `declaration?_unmatched`.
-/

namespace SelfCapture.LinkageName

/-! ## Section 1: Counting in a text -/

def isRound (c : Char) : Bool := c == '(' || c == ')'

def isSquare (c : Char) : Bool := c == '[' || c == ']'

def isAngle (c : Char) : Bool := c == '<' || c == '>'

/-- The brackets that the parentheses of a qualified name have to stand in. -/
def isOuter (c : Char) : Bool := isAngle c || isSquare c

/-- What a character of a text does to the number of open brackets of some kinds. -/
def countStep (kinds : Char → Bool) (previous : Option Char) (depth : Nat) (c : Char) :
    Option Nat :=
  if isBracket previous c && kinds c then depthStep depth c else some depth

/-- How many brackets of some kinds are open after a text. -/
def count (kinds : Char → Bool) (previous : Option Char) (depth : Nat) (text : List Char) :
    Option Nat :=
  depthAfter depth ((brackets previous text).filter kinds)

variable {kinds : Char → Bool} {previous : Option Char} {depth : Nat} {c : Char}
  {text rest name inside after : List Char}

@[simp] theorem count_nil : count kinds previous depth [] = some depth := rfl

theorem count_cons : count kinds previous depth (c :: rest) =
    (countStep kinds previous depth c).bind fun depth => count kinds (some c) depth rest := by
  unfold count countStep
  rw [brackets]
  by_cases hbracket : isBracket previous c = true
  · rw [if_pos hbracket]
    by_cases hkind : kinds c = true
    · rw [List.filter_cons_of_pos hkind, depthAfter_cons, if_pos (by simp [hbracket, hkind])]
    · rw [List.filter_cons_of_neg hkind, if_neg (by simp [hkind]), Option.bind_some]
  · rw [if_neg hbracket, if_neg (by simp [hbracket]), Option.bind_some]

/-- A character is one of the six brackets, or none. -/
theorem bracket_cases (c : Char) :
    c = '(' ∨ c = ')' ∨ c = '[' ∨ c = ']' ∨ c = '<' ∨ c = '>' ∨
      (c ≠ '(' ∧ c ≠ ')' ∧ c ≠ '[' ∧ c ≠ ']' ∧ c ≠ '<' ∧ c ≠ '>') := by
  by_cases hround : c = '(' ∨ c = ')'
  · rcases hround with rfl | rfl <;> simp
  by_cases hsquare : c = '[' ∨ c = ']'
  · rcases hsquare with rfl | rfl <;> simp
  by_cases hangle : c = '<' ∨ c = '>'
  · rcases hangle with rfl | rfl <;> simp
  simp only [not_or] at hround hsquare hangle
  simp [hround, hsquare, hangle]

/-- The character before matters only if it is the stroke of an arrow. -/
theorem brackets_previous (h : previous ≠ some '-') :
    brackets previous text = brackets none text := by
  cases text with
  | nil => rfl
  | cons c text =>
    have hsame : isBracket previous c = isBracket none c := by
      have hstroke : (previous == some '-') = false := by simpa using h
      simp [isBracket, hstroke]
    rw [brackets, brackets, hsame]

/-- A parenthesis is a bracket, whatever comes before it. -/
theorem brackets_round (hc : isRound c = true) :
    brackets previous (c :: rest) = c :: brackets none rest := by
  have hcases : c = '(' ∨ c = ')' := by simpa [isRound] using hc
  have hbracket : isBracket previous c = true := by
    rcases hcases with rfl | rfl <;> rfl
  have hplain : some c ≠ some '-' := by
    rcases hcases with rfl | rfl <;> simp
  rw [brackets, if_pos hbracket, brackets_previous hplain]

/-! ## Section 2: The scans -/

theorem beforeParameters_cons :
    beforeParameters previous depth (c :: rest) =
      if c == '(' && depth == 0 then some ([], rest)
      else (countStep isOuter previous depth c).bind fun depth =>
        (beforeParameters (some c) depth rest).map fun (name, after) => (c :: name, after) := by
  have hnext : (if c == '<' || c == '[' then some (depth + 1)
      else if c == ']' || (c == '>' && previous != some '-') then
        if depth = 0 then none else some (depth - 1)
      else some depth) = countStep isOuter previous depth c := by
    rcases bracket_cases c with rfl | rfl | rfl | rfl | rfl | rfl | hc
    all_goals simp [countStep, isBracket, isOpening, isClosing, isOuter, isAngle, isSquare,
      depthStep, *]
  rw [beforeParameters]
  simp only [hnext]
  split
  · rfl
  · cases countStep isOuter previous depth c <;> rfl

theorem closeGroup_cons (previous : Option Char) :
    closeGroup (depth + 1) (c :: rest) =
      if c == ')' && depth == 0 then some ([], rest)
      else (countStep isRound previous depth c).bind fun depth =>
        (closeGroup (depth + 1) rest).map fun (inside, after) => (c :: inside, after) := by
  rcases bracket_cases c with rfl | rfl | rfl | rfl | rfl | rfl | hc
  case inr.inl =>
    cases depth with
    | zero => simp [closeGroup]
    | succ depth =>
      simp [closeGroup, countStep, isBracket, isOpening, isClosing, isRound, depthStep]
  all_goals simp [closeGroup, countStep, isBracket, isOpening, isClosing, isRound, depthStep, *]

theorem splitParameters_cons :
    splitParameters previous depth (c :: rest) =
      if c == ',' && depth == 0 then (splitParameters (some c) depth rest).map ([] :: ·)
      else (countStep (fun _ => true) previous depth c).bind fun depth =>
        match splitParameters (some c) depth rest with
        | some (first :: others) => some ((c :: first) :: others)
        | _ => none := by
  have hnext : (if c == '(' || c == '[' || c == '<' then some (depth + 1)
      else if c == ')' || c == ']' || (c == '>' && previous != some '-') then
        if depth = 0 then none else some (depth - 1)
      else some depth) = countStep (fun _ => true) previous depth c := by
    rcases bracket_cases c with rfl | rfl | rfl | rfl | rfl | rfl | hc
    all_goals simp [countStep, isBracket, isOpening, isClosing, depthStep, *]
  rw [splitParameters]
  simp only [hnext]
  split
  · rfl
  · cases countStep (fun _ => true) previous depth c <;> rfl

theorem isBalanced_cons (previous : Option Char) :
    isBalanced depth (c :: rest) =
      (countStep (fun c => isRound c || isSquare c) previous depth c).any fun depth =>
        isBalanced depth rest := by
  rcases bracket_cases c with rfl | rfl | rfl | rfl | rfl | rfl | hc
  all_goals
    simp [isBalanced, countStep, isBracket, isOpening, isClosing, isRound, isSquare, depthStep, *]
  all_goals split <;> simp [*]

/-! ## Section 3: What the scans find -/

/-- The brackets of some kinds are in pairs, if these kinds are taken for one. -/
def BalancedIn (kinds : Char → Bool) (text : List Char) : Prop :=
  Balanced ((brackets none text).filter kinds)

theorem balancedIn_iff_count : BalancedIn kinds text ↔ count kinds none 0 text = some 0 :=
  balanced_iff_depthAfter

theorem balanced_iff_count :
    Balanced (brackets none text) ↔ count (fun _ => true) none 0 text = some 0 := by
  rw [count, List.filter_true]
  exact balanced_iff_depthAfter

/-- Each opening parenthesis stands inside of angle or square brackets. -/
def Hides (previous : Option Char) (depth : Nat) (text : List Char) : Prop :=
  ∀ front back, text = front ++ '(' :: back → count isOuter previous depth front ≠ some 0

/-- Angle and square brackets are balanced, taken together, and each opening
    parenthesis stands inside of them. -/
structure HidesParens (text : List Char) : Prop where
  balanced : BalancedIn isOuter text
  hides : ∀ front back, text = front ++ '(' :: back → ¬ BalancedIn isOuter front

theorem hidesParens_iff :
    HidesParens text ↔ count isOuter none 0 text = some 0 ∧ Hides none 0 text := by
  simp only [Hides, ne_eq, ← balancedIn_iff_count]
  exact ⟨fun h => ⟨h.balanced, h.hides⟩, fun h => ⟨h.1, h.2⟩⟩

theorem hides_cons {next : Nat} (hstep : countStep isOuter previous depth c = some next) :
    Hides previous depth (c :: text) ↔ (c = '(' → depth ≠ 0) ∧ Hides (some c) next text := by
  have hcount (front : List Char) : count isOuter previous depth (c :: front) =
      count isOuter (some c) next front := by
    rw [count_cons, hstep, Option.bind_some]
  constructor
  · intro hhides
    constructor
    · rintro rfl rfl
      exact hhides [] text rfl rfl
    · intro front back heq
      rw [← hcount]
      exact hhides (c :: front) back (by rw [heq, List.cons_append])
  · rintro ⟨hhead, htail⟩ front back heq
    -- The parenthesis is the first character, or it stands in the rest.
    cases front with
    | nil =>
      obtain ⟨rfl, -⟩ := List.cons.inj heq
      intro hzero
      exact hhead rfl (Option.some.inj hzero)
    | cons d front =>
      obtain ⟨rfl, hrest⟩ := List.cons.inj heq
      rw [hcount]
      exact htail front back hrest

/-- The scan for the parameters passes a text that hides its parentheses. -/
theorem beforeParameters_append (hcount : count isOuter previous depth text = some 0)
    (hhides : Hides previous depth text) :
    beforeParameters previous depth (text ++ rest) =
      (beforeParameters (text.getLast?.or previous) 0 rest).map
        fun (name, after) => (text ++ name, after) := by
  induction text generalizing previous depth with
  | nil =>
    obtain rfl : depth = 0 := Option.some.inj hcount
    simp
  | cons c text ih =>
    rw [count_cons] at hcount
    obtain ⟨next, hstep, hrest⟩ := Option.bind_eq_some_iff.mp hcount
    obtain ⟨hhead, htail⟩ := (hides_cons hstep).mp hhides
    have hpass : ¬ (c == '(' && depth == 0) = true := by
      simp only [Bool.and_eq_true, beq_iff_eq, not_and]
      exact hhead
    have hlast : (c :: text).getLast?.or previous = text.getLast?.or (some c) := by
      simp [List.getLast?_cons]
    rw [List.cons_append, beforeParameters_cons, if_neg hpass, hstep, Option.bind_some,
      ih hrest htail, Option.map_map, hlast]
    rfl

/-- The scan for the parameters splits a text at the first parenthesis that
    is not hidden. -/
theorem beforeParameters_eq_some_iff :
    beforeParameters previous depth text = some (name, rest) ↔
      text = name ++ '(' :: rest ∧ count isOuter previous depth name = some 0 ∧
        Hides previous depth name := by
  constructor
  · intro h
    -- The scan is followed character by character: it either stops here, or it passes the character
    -- and the same holds of the rest at the next depth.
    induction text generalizing previous depth name with
    | nil => cases h
    | cons c text ih =>
      rw [beforeParameters_cons] at h
      split at h
      · rename_i hstop
        simp only [Bool.and_eq_true, beq_iff_eq] at hstop
        obtain ⟨rfl, rfl⟩ := hstop
        cases h
        refine ⟨rfl, rfl, fun front back heq => ?_⟩
        simp at heq
      · rename_i hpass
        obtain ⟨next, hstep, hrest⟩ := Option.bind_eq_some_iff.mp h
        obtain ⟨⟨name', rest'⟩, hfound, hpair⟩ := Option.map_eq_some_iff.mp hrest
        cases hpair
        obtain ⟨htext, hcount, hhides⟩ := ih hfound
        refine ⟨by rw [htext, List.cons_append], ?_, (hides_cons hstep).mpr ⟨?_, hhides⟩⟩
        · rw [count_cons, hstep]
          exact hcount
        · intro hc hdepth
          apply hpass
          simp [hc, hdepth]
  · rintro ⟨rfl, hcount, hhides⟩
    rw [beforeParameters_append hcount hhides, beforeParameters]
    simp

/-- The text before the parameters is the text before the first parenthesis
    that is not hidden. -/
theorem beforeParameters_iff :
    beforeParameters none 0 text = some (name, rest) ↔
      text = name ++ '(' :: rest ∧ HidesParens name := by
  rw [beforeParameters_eq_some_iff, hidesParens_iff]

/-- The group ends where its parentheses are balanced. -/
theorem closeGroup_eq_some (previous : Option Char)
    (h : closeGroup (depth + 1) text = some (inside, after)) :
    text = inside ++ ')' :: after ∧ count isRound previous depth inside = some 0 := by
  induction text generalizing previous depth inside with
  | nil => cases h
  | cons c text ih =>
    rw [closeGroup_cons previous] at h
    split at h
    · rename_i hstop
      simp only [Bool.and_eq_true, beq_iff_eq] at hstop
      obtain ⟨rfl, rfl⟩ := hstop
      cases h
      exact ⟨rfl, rfl⟩
    · obtain ⟨next, hstep, hrest⟩ := Option.bind_eq_some_iff.mp h
      obtain ⟨⟨inside', after'⟩, hfound, hpair⟩ := Option.map_eq_some_iff.mp hrest
      cases hpair
      obtain ⟨htext, hcount⟩ := ih (some c) hfound
      refine ⟨by rw [htext, List.cons_append], ?_⟩
      rw [count_cons, hstep]
      exact hcount

/-- Brackets of all kinds are balanced in a text that can be split at commas. -/
theorem count_of_splitParameters {entries : List (List Char)}
    (h : splitParameters previous depth text = some entries) :
    count (fun _ => true) previous depth text = some 0 := by
  induction text generalizing previous depth entries with
  | nil =>
    rw [splitParameters] at h
    split at h
    · rename_i hzero
      rw [hzero]
      rfl
    · cases h
  | cons c text ih =>
    rw [splitParameters_cons] at h
    split at h
    · rename_i hcomma
      simp only [Bool.and_eq_true, beq_iff_eq] at hcomma
      obtain ⟨rfl, rfl⟩ := hcomma
      obtain ⟨entries', hrest, -⟩ := Option.map_eq_some_iff.mp h
      -- A comma is no bracket.
      rw [count_cons]
      exact ih hrest
    · obtain ⟨next, hstep, hrest⟩ := Option.bind_eq_some_iff.mp h
      rw [count_cons, hstep]
      cases hsplit : splitParameters (some c) next text with
      | none =>
        rw [hsplit] at hrest
        cases hrest
      | some entries' => exact ih hsplit

theorem isBalanced_iff : isBalanced depth text = true ↔
    count (fun c => isRound c || isSquare c) previous depth text = some 0 := by
  induction text generalizing previous depth with
  | nil => simp [isBalanced]
  | cons c text ih =>
    rw [isBalanced_cons previous, count_cons]
    cases countStep (fun c => isRound c || isSquare c) previous depth c with
    | none => simp
    | some next => exact ih

/-- Blanks are no brackets. -/
theorem brackets_of_blank (h : ∀ c ∈ text, Text.isBlank c = true) :
    brackets previous text = [] := by
  induction text generalizing previous with
  | nil => rfl
  | cons c text ih =>
    have hblank := h c List.mem_cons_self
    have hplain : isBracket previous c = false := by
      rcases bracket_cases c with rfl | rfl | rfl | rfl | rfl | rfl | hc
      case inr.inr.inr.inr.inr.inr => simp [isBracket, isOpening, isClosing, hc]
      all_goals exact absurd hblank (by decide +kernel)
    rw [brackets, hplain]
    exact ih fun d hd => h d (List.mem_cons_of_mem _ hd)

theorem blank_of_trim (h : trim text = []) : ∀ c ∈ text, Text.isBlank c = true := by
  have hall : ∀ c ∈ text.dropWhile Text.isBlank, Text.isBlank c = true := by
    rw [trim, List.reverse_eq_nil_iff, List.dropWhile_eq_nil_iff] at h
    intro c hc
    exact h c (List.mem_reverse.mpr hc)
  apply List.dropWhile_eq_nil_iff.mp
  -- What is left would start with a character that is no blank.
  cases hdrop : text.dropWhile Text.isBlank with
  | nil => rfl
  | cons d rest =>
    have hhead := List.head?_dropWhile_not Text.isBlank text
    rw [hdrop] at hhead hall
    have hblank := hall d List.mem_cons_self
    simp [hblank] at hhead

/-- Parameters that can be split have balanced brackets. -/
theorem balanced_of_parameters? {parameters : List Char} (h : parameters? text = some parameters) :
    Balanced (brackets none text) := by
  unfold parameters? at h
  split at h
  · rename_i hempty
    rw [brackets_of_blank (blank_of_trim (List.isEmpty_iff.mp hempty))]
    exact .nil
  · split at h
    · cases h
    · rename_i entries hsplit
      exact balanced_iff_count.mpr (count_of_splitParameters hsplit)

/-! ## Section 4: The parts of a name -/

/-- A linkage name without blanks at its ends, language mark and context. -/
def body? (linkage : String) : Option (List Char) :=
  (withoutLanguage (trim linkage.toList)).bind withoutContext

theorem declaration?_eq (linkage : String) :
    declaration? linkage =
      if maxLength < linkage.utf8ByteSize then none
      else (body? linkage).bind fun body => (declarationOf? body).map String.ofList := by
  unfold declaration? body?
  cases withoutLanguage (trim linkage.toList) with
  | none => rfl
  | some text =>
    dsimp only
    rw [Option.bind_some]
    cases withoutContext text with
    | none => rfl
    | some body => rfl

/-- What the scans have checked of a name that is decoded. -/
theorem declarationOf?_parts {declared : List Char} (h : declarationOf? text = some declared) :
    ∃ name inside after, text = name ++ '(' :: (inside ++ ')' :: after) ∧ HidesParens name ∧
      (Balanced (brackets none inside) ∧ BalancedIn isRound inside) ∧
      BalancedIn (fun c => isRound c || isSquare c) after := by
  unfold declarationOf? at h
  split at h
  · cases h
  rename_i name rest hfound
  split at h
  · cases h
  split at h
  · cases h
  split at h
  · cases h
  rename_i inside after hgroup
  split at h
  · cases h
  rename_i parameters hparameters
  dsimp only at h
  split at h
  · rename_i hbalanced
    obtain ⟨htext, hhides⟩ := beforeParameters_iff.mp hfound
    obtain ⟨hrest, hround⟩ := closeGroup_eq_some none hgroup
    have hafter : isBalanced 0 after = true := (isBalanced_rdropWhile 0 after).symm.trans hbalanced
    refine ⟨name, inside, after, by rw [htext, hrest], hhides, ⟨?_, ?_⟩, ?_⟩
    · exact balanced_of_parameters? hparameters
    · exact balancedIn_iff_count.mpr hround
    · exact balancedIn_iff_count.mpr (isBalanced_iff.mp hafter)
  · cases h

/-! ## Section 5: Brackets without a partner -/

theorem isOuter_of_isPair (o c : Char) (h : isPair o c = true) : isOuter o = isOuter c := by
  have hpairs : (o, c) = ('(', ')') ∨ (o, c) = ('[', ']') ∨ (o, c) = ('<', '>') := by
    simpa [isPair] using h
  rcases hpairs with hpair | hpair | hpair
  all_goals
    obtain ⟨rfl, rfl⟩ := Prod.mk.inj hpair
    rfl

/-- If the brackets match kind by kind as far as they go, a name that hides
    its parentheses leaves none open: an angle or square bracket would be
    counted, and a parenthesis outside of these is not hidden. -/
theorem HidesParens.stack_eq_nil (h : HidesParens text) {stack : List Char}
    (hstack : stackAfter isPair [] (brackets none text) = some stack) : stack = [] := by
  have hcount := depthAfter_filter isOuter_of_isPair hstack
  have hzero := balanced_iff_depthAfter.mp h.balanced
  rw [List.filter_nil, List.length_nil, hzero] at hcount
  -- No bracket that the name counts is left open, so only parentheses could be on the stack.
  have hnone : ∀ c ∈ stack, isOuter c = false := by
    have hempty := List.eq_nil_of_length_eq_zero (Option.some.inj hcount).symm
    intro c hc
    have hneg := List.filter_eq_nil_iff.mp hempty c hc
    exact Bool.eq_false_iff.mpr hneg
  cases stack using List.reverseRecOn with
  | nil => rfl
  | append_singleton above o =>
    -- The lowest parenthesis was opened where nothing else was open, which the name does not allow.
    exfalso
    obtain ⟨hopening, front, back, hsplit, hfront⟩ := exists_push hstack
    obtain ⟨before, after, htext, hbefore⟩ := exists_split_of_brackets hsplit
    have hround : o = '(' := by
      have houter := hnone o (by simp)
      rcases bracket_cases o with rfl | rfl | rfl | rfl | rfl | rfl | hc
      case inl => rfl
      case inr.inr.inr.inr.inr.inr => simp [isOpening, hc] at hopening
      all_goals simp [isOpening, isOuter, isAngle, isSquare] at hopening houter
    subst hround
    apply h.hides before after htext
    have hcount' := depthAfter_filter isOuter_of_isPair hfront
    rw [BalancedIn, hbefore]
    exact balanced_iff_depthAfter.mpr hcount'

/-- The brackets of a name match kind by kind if those of its parts do. -/
theorem nested_parts_iff (hname : HidesParens name) (hinside : Balanced (brackets none inside)) :
    Nested (brackets none (name ++ '(' :: (inside ++ ')' :: after))) ↔
      Nested (brackets none name) ∧ Nested (brackets none inside) ∧
        Nested (brackets none after) := by
  have hsplit : brackets none (name ++ '(' :: (inside ++ ')' :: after)) =
      brackets none name ++ '(' :: (brackets none inside ++ ')' :: brackets none after) := by
    rw [brackets_append, brackets_round rfl, brackets_append, brackets_round rfl]
  rw [hsplit]
  constructor
  · intro hnested
    have hstack := nested_iff_stackAfter.mp hnested
    rw [stackAfter_append] at hstack
    obtain ⟨stack, hfirst, hrest⟩ := Option.bind_eq_some_iff.mp hstack
    obtain rfl := hname.stack_eq_nil hfirst
    -- The parenthesis is the only open bracket until it is closed.
    rw [stackAfter_cons, stackStep_opening rfl, Option.bind_some, stackAfter_append] at hrest
    obtain ⟨open', hsecond, hlast⟩ := Option.bind_eq_some_iff.mp hrest
    have hdepth : depthAfter ([] : List Char).length (brackets none inside) = some 0 :=
      balanced_iff_depthAfter.mp hinside
    obtain ⟨above, rfl, hlength, hinner⟩ := stackAfter_above hdepth hsecond
    obtain rfl := List.eq_nil_of_length_eq_zero hlength
    rw [List.nil_append, stackAfter_cons, stackStep_closing rfl rfl, Option.bind_some] at hlast
    exact ⟨nested_iff_stackAfter.mpr hfirst, nested_iff_stackAfter.mpr hinner,
      nested_iff_stackAfter.mpr hlast⟩
  · rintro ⟨hfirst, hinner, hlast⟩
    exact Paired.append hfirst (.group rfl rfl rfl hinner hlast)

/-- What it takes for a linkage name to be decoded: it has the parts of a
    function's name, its parameters, and what follows them, and in each part
    the brackets of the kinds that are counted there are balanced.  The
    brackets match kind by kind in the whole name exactly if they do in each
    of its parts. -/
theorem declaration?_brackets (linkage declared : String)
    (h : declaration? linkage = some declared) :
    ∃ name inside after, body? linkage = some (name ++ '(' :: (inside ++ ')' :: after)) ∧
      HidesParens name ∧
      (Balanced (brackets none inside) ∧ BalancedIn isRound inside) ∧
      BalancedIn (fun c => isRound c || isSquare c) after ∧
      (Nested (brackets none (name ++ '(' :: (inside ++ ')' :: after))) ↔
        Nested (brackets none name) ∧ Nested (brackets none inside) ∧
          Nested (brackets none after)) := by
  rw [declaration?_eq] at h
  split at h
  · cases h
  · obtain ⟨body, hbody, hdeclared⟩ := Option.bind_eq_some_iff.mp h
    obtain ⟨declared', hof, -⟩ := Option.map_eq_some_iff.mp hdeclared
    obtain ⟨name, inside, after, rfl, hname, hinside, hafter⟩ := declarationOf?_parts hof
    exact ⟨name, inside, after, hbody, hname, hinside, hafter, nested_parts_iff hname hinside.1⟩

/-- Where the kinds share a counter, or one is not counted, brackets can be
    left without a partner of their kind: an angle bracket after the
    parameters, a square one closed as an angle one, a parenthesis in the
    qualifier. -/
theorem declaration?_unmatched :
    (declaration? "M.f() -> Array<Int" = some "func f() -> Array<Int \x7b\x7d" ∧
      body? "M.f() -> Array<Int" = some "M.f() -> Array<Int".toList ∧
      ¬ Nested (brackets none "M.f() -> Array<Int".toList)) ∧
    (declaration? "M.f(x: [Int>)" = some "func f(x: [Int>) \x7b\x7d" ∧
      body? "M.f(x: [Int>)" = some "M.f(x: [Int>)".toList ∧
      ¬ Nested (brackets none "M.f(x: [Int>)".toList)) ∧
    (declaration? "A).f()" = some "func f() \x7b\x7d" ∧
      body? "A).f()" = some "A).f()".toList ∧
      ¬ Nested (brackets none "A).f()".toList)) := by
  decide +kernel

/-- A name with brackets of all kinds that match. -/
theorem declaration?_brackets_generic :
    let linkage := "s:A<(Int) -> [B]>.f(_: [Int]) -> C<D>"
    ∃ declared, declaration? linkage = some declared ∧
      ∃ name inside after, body? linkage = some (name ++ '(' :: (inside ++ ')' :: after)) ∧
        HidesParens name ∧ Balanced (brackets none inside) := by
  intro linkage
  have hsome : (declaration? linkage).isSome = true := by decide +kernel
  obtain ⟨declared, hdeclared⟩ := Option.isSome_iff_exists.mp hsome
  obtain ⟨name, inside, after, hbody, hname, hinside, -⟩ :=
    declaration?_brackets linkage declared hdeclared
  exact ⟨declared, hdeclared, name, inside, after, hbody, hname, hinside.1⟩

end SelfCapture.LinkageName
