import SelfCapture.Proofs.Index.Matching

/-! # Qualifiers of linkage names

  The parameters are found from the left and the function's own name from
  the right.  Over a qualifier with balanced brackets both scans arrive at
  the dot after it with nothing open, so the declaration is the same without
  the qualifier: `declaration?_qualified`.
-/

namespace SelfCapture.LinkageName

variable {kinds : Char → Bool} {previous : Option Char} {depth : Nat} {c : Char}
  {text rest name qualifier : List Char}

/-! ## Section 1: Back to the last dot -/

/-- The last character is counted after the others. -/
theorem count_concat : count kinds previous depth (text ++ [c]) =
    (count kinds previous depth text).bind fun depth =>
      countStep kinds (text.getLast?.or previous) depth c := by
  have hlast (depth : Nat) : count kinds (text.getLast?.or previous) depth [c] =
      countStep kinds (text.getLast?.or previous) depth c := by
    rw [count_cons]
    simp
  simp only [← hlast]
  rw [count, brackets_append, List.filter_append, depthAfter_append]
  rfl

/-- Going back, a closing bracket adds to the counter and an opening one
    takes from it. -/
theorem lastName_cons (seen : List Char) :
    lastName (c :: rest) depth seen =
      if isBracket rest.head? c then
        if isOpening c then
          if depth = 0 then none else lastName rest (depth - 1) (c :: seen)
        else lastName rest (depth + 1) (c :: seen)
      else if c == '.' && depth == 0 then some seen
      else lastName rest depth (c :: seen) := by
  rw [lastName]
  rcases bracket_cases c with rfl | rfl | rfl | rfl | rfl | rfl | hc
  case inr.inr.inr.inr.inr.inl =>
    -- The one kind that can be the head of an arrow.
    cases harrow : rest.head? == some '-' <;>
      simp [isBracket, isOpening, isClosing, harrow]
  all_goals simp [isBracket, isOpening, isClosing, *]

/-- The scan for the last dot ends at one that has balanced text after it, if
    it has not ended before. -/
theorem lastName_dot (h : count (fun _ => true) none 0 name = some depth) (seen : List Char) :
    lastName (name.reverse ++ '.' :: rest) depth seen = lastName name.reverse depth seen := by
  -- The brackets that are open before a place are those closed after it, so
  -- the two counters agree everywhere.
  induction name using List.reverseRecOn generalizing depth seen with
  | nil =>
    obtain rfl : 0 = depth := Option.some.inj h
    rfl
  | append_singleton name c ih =>
    rw [count_concat] at h
    obtain ⟨before, hbefore, hstep⟩ := Option.bind_eq_some_iff.mp h
    rw [Option.or_none] at hstep
    have hhead : isBracket (name.reverse ++ '.' :: rest).head? c = isBracket name.getLast? c := by
      rw [List.head?_append, List.head?_reverse]
      cases name.getLast? with
      | none => simp [isBracket]
      | some d => rfl
    rw [List.reverse_append, List.reverse_singleton, List.singleton_append, List.cons_append,
      lastName_cons, lastName_cons, hhead, List.head?_reverse]
    unfold countStep at hstep
    rw [Bool.and_true] at hstep
    by_cases hbracket : isBracket name.getLast? c = true
    · rw [if_pos hbracket] at hstep ⊢
      rw [if_pos hbracket]
      by_cases hopening : isOpening c = true
      · rw [depthStep_opening hopening] at hstep
        obtain rfl := Option.some.inj hstep
        rw [if_pos hopening, if_pos hopening]
        exact ih hbefore _
      · rw [if_neg hopening, if_neg hopening]
        cases before with
        | zero =>
          rw [depthStep_zero (Bool.eq_false_iff.mpr hopening)] at hstep
          cases hstep
        | succ before =>
          rw [depthStep_closing (Bool.eq_false_iff.mpr hopening)] at hstep
          obtain rfl := Option.some.inj hstep
          exact ih hbefore _
    · rw [if_neg hbracket] at hstep ⊢
      rw [if_neg hbracket]
      obtain rfl := Option.some.inj hstep
      rw [ih hbefore]

theorem baseName?_dot (h : Balanced (brackets none name)) :
    baseName? (qualifier ++ '.' :: name) = baseName? name := by
  rw [baseName?, baseName?, List.reverse_append, List.reverse_cons, List.append_assoc,
    List.singleton_append, lastName_dot (balanced_iff_count.mp h)]

/-! ## Section 2: Names with a qualifier -/

/-- The scan for the parameters passes the qualifier and the dot after it. -/
theorem beforeParameters_dot (h : HidesParens qualifier) :
    beforeParameters none 0 (qualifier ++ '.' :: text) =
      (beforeParameters none 0 text).map fun (name, rest) => (qualifier ++ '.' :: name, rest) := by
  obtain ⟨hcount, hhides⟩ := hidesParens_iff.mp h
  have hprevious : beforeParameters (some '.') 0 text = beforeParameters none 0 text := by
    cases text with
    | nil => rfl
    | cons c text => simp [beforeParameters]
  have hdot : ∀ previous, beforeParameters previous 0 ('.' :: text) =
      (beforeParameters none 0 text).map fun (name, rest) => ('.' :: name, rest) := by
    intro previous
    rw [← hprevious, beforeParameters_cons]
    simp [countStep, isBracket, isOpening, isClosing]
  rw [beforeParameters_append hcount hhides, hdot, Option.map_map]
  rfl

theorem declarationOf?_qualified (hqualifier : HidesParens qualifier)
    (hname : ∀ name rest, text = name ++ '(' :: rest → HidesParens name →
      Balanced (brackets none name)) :
    declarationOf? (qualifier ++ '.' :: text) = declarationOf? text := by
  unfold declarationOf?
  rw [beforeParameters_dot hqualifier]
  cases hfound : beforeParameters none 0 text with
  | none => rfl
  | some found =>
    obtain ⟨name, rest⟩ := found
    obtain ⟨htext, hhides⟩ := beforeParameters_iff.mp hfound
    -- Of what comes before the parameters only the function's own name is used.
    simp only [Option.map_some, baseName?_dot (hname name rest htext hhides)]

/-! ## Section 3: Texts with a qualifier -/

/-- The text starts with no context group, language mark or blank. -/
structure StartsPlainly (text : List Char) : Prop where
  noContext : text.head? ≠ some '('
  noLanguage : ¬ ['s', ':'] <+: text ∧ ¬ ['c', ':'] <+: text
  notBlank : text.head?.any Text.isBlank = false

theorem StartsPlainly.trim_eq (h : StartsPlainly text) :
    trim text = text.rdropWhile Text.isBlank := by
  cases text with
  | nil => rfl
  | cons c text => exact trim_of_head h.notBlank

/-- A plain start is no language mark and no context, and neither is that of a
    shorter text. -/
theorem StartsPlainly.body_eq (h : StartsPlainly text) (hshort : rest <+: text) :
    (withoutLanguage rest).bind withoutContext = some rest := by
  have hlanguage : withoutLanguage rest = some rest := by
    unfold withoutLanguage
    split
    · exact absurd ((List.prefix_append _ _).trans hshort) h.noLanguage.2
    · exact absurd ((List.prefix_append _ _).trans hshort) h.noLanguage.1
    · rfl
  rw [hlanguage, Option.bind_some]
  unfold withoutContext
  split
  · rename_i rest'
    obtain ⟨back, rfl⟩ := hshort
    exact absurd rfl h.noContext
  · rfl

theorem StartsPlainly.qualified (h : StartsPlainly qualifier) :
    StartsPlainly (qualifier ++ '.' :: text) := by
  have hdot : Text.isBlank '.' = false := by decide +kernel
  obtain ⟨hcontext, ⟨hs, hc⟩, hblank⟩ := h
  cases qualifier with
  | nil =>
    exact ⟨by simp, ⟨by simp, by simp⟩, hdot⟩
  | cons d qualifier =>
    refine ⟨hcontext, ?_, hblank⟩
    -- A mark has two characters, so it would end before the dot or at it.
    cases qualifier with
    | nil => simp
    | cons e qualifier =>
      simp only [List.cons_append, List.cons_prefix_cons, List.nil_prefix, and_true] at hs hc ⊢
      exact ⟨hs, hc⟩

theorem StartsPlainly.declaration?_eq {linkage : String} (h : StartsPlainly linkage.toList)
    (hlength : linkage.utf8ByteSize ≤ maxLength) :
    declaration? linkage =
      (declarationOf? (linkage.toList.rdropWhile Text.isBlank)).map String.ofList := by
  have hshort := List.rdropWhile_prefix Text.isBlank linkage.toList
  rw [LinkageName.declaration?_eq, if_neg (Nat.not_lt.mpr hlength), body?, h.trim_eq,
    h.body_eq hshort, Option.bind_some]

/-- A qualifier does not matter to the decoder.  Its angle and square brackets
    have to be balanced, and its parentheses inside of them; in the text that
    it qualifies, the brackets before the first parenthesis outside of others
    have to be balanced. -/
theorem declaration?_qualified (qualifier linkage : String)
    (hqualifier : StartsPlainly qualifier.toList) (hlinkage : StartsPlainly linkage.toList)
    (hhides : HidesParens qualifier.toList)
    (hname : ∀ name rest, linkage.toList = name ++ '(' :: rest → HidesParens name →
      Balanced (brackets none name))
    (hlength : (qualifier ++ "." ++ linkage).utf8ByteSize ≤ maxLength) :
    declaration? (qualifier ++ "." ++ linkage) = declaration? linkage := by
  have hchars : (qualifier ++ "." ++ linkage).toList =
      qualifier.toList ++ '.' :: linkage.toList := by
    simp
  have hshorter : linkage.utf8ByteSize ≤ maxLength := by
    rw [String.utf8ByteSize_append, String.utf8ByteSize_append] at hlength
    omega
  have hstart : StartsPlainly (qualifier ++ "." ++ linkage).toList := by
    rw [hchars]
    exact hqualifier.qualified
  have hdot : Text.isBlank '.' = false := by decide +kernel
  rw [hstart.declaration?_eq hlength, hlinkage.declaration?_eq hshorter, hchars,
    rdropWhile_append hdot]
  rw [declarationOf?_qualified hhides]
  intro name rest htext hhides
  -- Blanks at the end come after the name.
  obtain ⟨blanks, hblanks⟩ := List.rdropWhile_prefix Text.isBlank linkage.toList
  apply hname name (rest ++ blanks) _ hhides
  rw [← hblanks, htext, List.append_assoc, List.cons_append]

/-- A generic type with a function type in its brackets does not matter, nor
    do the brackets in the name and blanks at the end. -/
theorem declaration?_qualified_generic :
    let qualifier := "Swift.Array<(Int) -> [A.B]>"
    let linkage := "map<(T)>(_: (Int) -> T) -> [T] "
    (StartsPlainly qualifier.toList ∧ StartsPlainly linkage.toList ∧
      HidesParens qualifier.toList ∧
      (∀ name rest, linkage.toList = name ++ '(' :: rest → HidesParens name →
        Balanced (brackets none name)) ∧
      (qualifier ++ "." ++ linkage).utf8ByteSize ≤ maxLength) ∧
    declaration? (qualifier ++ "." ++ linkage) = declaration? linkage ∧
    declaration? linkage = some "func map<(T)>(_: (Int) -> T) -> [T] \x7b\x7d" := by
  intro qualifier linkage
  have hqualifier : StartsPlainly qualifier.toList :=
    ⟨by decide +kernel, by decide +kernel, by decide +kernel⟩
  have hlinkage : StartsPlainly linkage.toList :=
    ⟨by decide +kernel, by decide +kernel, by decide +kernel⟩
  have hhides : HidesParens qualifier.toList := by
    have hscan : beforeParameters none 0 (qualifier.toList ++ ['(']) =
        some (qualifier.toList, []) := by decide +kernel
    exact (beforeParameters_iff.mp hscan).2
  have hname : ∀ name rest, linkage.toList = name ++ '(' :: rest → HidesParens name →
      Balanced (brackets none name) := by
    intro name rest htext hname
    have hscan : (beforeParameters none 0 linkage.toList).map Prod.fst =
        some "map<(T)>".toList := by decide +kernel
    rw [beforeParameters_iff.mpr ⟨htext, hname⟩] at hscan
    obtain rfl := Option.some.inj hscan
    decide +kernel
  have hlength : (qualifier ++ "." ++ linkage).utf8ByteSize ≤ maxLength := by decide +kernel
  refine ⟨⟨hqualifier, hlinkage, hhides, hname, hlength⟩, ?_, by decide +kernel⟩
  exact declaration?_qualified qualifier linkage hqualifier hlinkage hhides hname hlength

end SelfCapture.LinkageName
