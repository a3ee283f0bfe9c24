import Mathlib.Data.List.Induction
import SelfCapture.Index.LinkageName

/-! # Paired brackets

  The decoder of linkage names counts brackets: what opens one adds to a
  counter, what closes one takes from it, and the kinds share the counter.
  Whether the brackets match kind by kind is told by a stack instead.

  - `brackets` : the brackets of a text; the `>` of an arrow is none.
  - `Balanced`, `Nested` : the brackets are in pairs, of any two kinds or
    kind by kind.
  - `balanced_iff_depthAfter`, `nested_iff_stackAfter` : what the counter
    and the stack tell.
-/

namespace SelfCapture.LinkageName

/-! ## Section 1: The brackets of a text -/

def isOpening (c : Char) : Bool := c == '(' || c == '[' || c == '<'

def isClosing (c : Char) : Bool := c == ')' || c == ']' || c == '>'

/-- Whether the character is a bracket; `previous` is the character before. -/
def isBracket (previous : Option Char) (c : Char) : Bool :=
  isOpening c || (isClosing c && !(c == '>' && previous == some '-'))

/-- The brackets of a text, in order. -/
def brackets : (previous : Option Char) → List Char → List Char
  | _, [] => []
  | previous, c :: rest =>
    if isBracket previous c then c :: brackets (some c) rest else brackets (some c) rest

/-- The brackets of two texts in a row; the character before the second text
    is the last one of the first. -/
theorem brackets_append (previous : Option Char) (text rest : List Char) :
    brackets previous (text ++ rest) =
      brackets previous text ++ brackets (text.getLast?.or previous) rest := by
  induction text generalizing previous with
  | nil => rfl
  | cons c text ih =>
    have hlast : (c :: text).getLast?.or previous = text.getLast?.or (some c) := by
      cases text with
      | nil => rfl
      | cons d text => simp [List.getLast?_cons]
    rw [List.cons_append, brackets, brackets, ih, hlast]
    split
    · rfl
    · rfl

/-- What comes before a bracket in the list are the brackets of what comes
    before it in the text. -/
theorem exists_split_of_brackets {previous : Option Char} {text front back : List Char} {c : Char}
    (h : brackets previous text = front ++ c :: back) :
    ∃ before after, text = before ++ c :: after ∧ brackets previous before = front := by
  induction text generalizing previous front with
  | nil => simp [brackets] at h
  | cons d text ih =>
    rw [brackets] at h
    split at h
    · rename_i hbracket
      cases front with
      | nil =>
        obtain ⟨rfl, -⟩ := List.cons.inj h
        exact ⟨[], text, rfl, rfl⟩
      | cons e front =>
        obtain ⟨rfl, hrest⟩ := List.cons.inj h
        obtain ⟨before, after, rfl, hfront⟩ := ih hrest
        exact ⟨d :: before, after, rfl, by rw [brackets, if_pos hbracket, hfront]⟩
    · rename_i hplain
      obtain ⟨before, after, rfl, hfront⟩ := ih h
      exact ⟨d :: before, after, rfl, by rw [brackets, if_neg hplain, hfront]⟩

/-! ## Section 2: Pairs -/

/-- Every bracket is in a pair, and what stands inside a pair is paired in
    itself.  Which brackets may form a pair is said by `fits`. -/
inductive Paired (fits : Char → Char → Bool) : List Char → Prop
  | nil : Paired fits []
  | group {o c : Char} {inside rest : List Char} (ho : isOpening o = true)
      (hc : isOpening c = false) (hfits : fits o c = true) (hinside : Paired fits inside)
      (hrest : Paired fits rest) : Paired fits (o :: inside ++ c :: rest)

/-- Whether the two are an opening bracket and the closing one of its kind. -/
def isPair (o c : Char) : Bool := [('(', ')'), ('[', ']'), ('<', '>')].contains (o, c)

/-- The brackets are in pairs, if all kinds are taken for one. -/
def Balanced (brackets : List Char) : Prop := Paired (fun _ _ => true) brackets

/-- The brackets are in pairs kind by kind. -/
def Nested (brackets : List Char) : Prop := Paired isPair brackets

section

variable {fits : Char → Char → Bool} {xs ys : List Char}

theorem Paired.append (h : Paired fits xs) (h' : Paired fits ys) : Paired fits (xs ++ ys) := by
  induction h with
  | nil => exact h'
  | @group o c inside rest ho hc hfits hinside _ _ ih =>
    have hgroup := Paired.group ho hc hfits hinside ih
    simpa using hgroup

/-! ## Section 3: The stack -/

/-- An opening bracket goes on top of the open ones, another bracket takes the
    top one away. -/
def stackStep (fits : Char → Char → Bool) (stack : List Char) (c : Char) : Option (List Char) :=
  if isOpening c then some (c :: stack)
  else
    match stack with
    | [] => none
    | o :: stack => if fits o c then some stack else none

/-- The brackets left open after some more, the innermost one first. -/
def stackAfter (fits : Char → Char → Bool) (stack xs : List Char) : Option (List Char) :=
  xs.foldlM (stackStep fits) stack

@[simp] theorem stackAfter_nil (stack : List Char) : stackAfter fits stack [] = some stack := rfl

theorem stackAfter_cons (stack : List Char) (c : Char) (xs : List Char) :
    stackAfter fits stack (c :: xs) =
      (stackStep fits stack c).bind fun stack => stackAfter fits stack xs := by
  rw [stackAfter, List.foldlM_cons]
  rfl

theorem stackAfter_append (stack xs ys : List Char) :
    stackAfter fits stack (xs ++ ys) =
      (stackAfter fits stack xs).bind fun stack => stackAfter fits stack ys := by
  rw [stackAfter, List.foldlM_append]
  rfl

theorem stackStep_opening {c : Char} (hc : isOpening c = true) (stack : List Char) :
    stackStep fits stack c = some (c :: stack) := if_pos hc

theorem stackStep_closing {o c : Char} (hc : isOpening c = false) (hfits : fits o c = true)
    (stack : List Char) : stackStep fits (o :: stack) c = some stack := by
  rw [stackStep, if_neg (by simp [hc])]
  exact if_pos hfits

/-- What a bracket does: it is pushed, or it closes the top of the stack. -/
theorem stackStep_cases {stack stack' : List Char} {c : Char}
    (h : stackStep fits stack c = some stack') :
    (isOpening c = true ∧ stack' = c :: stack) ∨
      ∃ o, isOpening c = false ∧ fits o c = true ∧ stack = o :: stack' := by
  unfold stackStep at h
  split at h
  · rename_i hc
    exact .inl ⟨hc, (Option.some.inj h).symm⟩
  · rename_i hc
    cases stack with
    | nil => cases h
    | cons o stack =>
      dsimp only at h
      split at h
      · rename_i hfits
        obtain rfl := Option.some.inj h
        exact .inr ⟨o, Bool.eq_false_iff.mpr hc, hfits, rfl⟩
      · cases h

/-- Paired brackets leave the stack as it was. -/
theorem Paired.stackAfter_eq (h : Paired fits xs) (stack : List Char) :
    stackAfter fits stack xs = some stack := by
  induction h generalizing stack with
  | nil => rfl
  | @group o c inside rest ho hc hfits _ _ ih ih' =>
    rw [List.cons_append, stackAfter_cons, stackStep_opening ho, Option.bind_some,
      stackAfter_append, ih, Option.bind_some, stackAfter_cons, stackStep_closing hc hfits,
      Option.bind_some]
    exact ih' stack

/-- For each open bracket, the innermost first, the brackets go on with paired
    ones and then close it; what follows at the end is paired. -/
def Unwinds (fits : Char → Char → Bool) : (stack : List Char) → List Char → Prop
  | [], xs => Paired fits xs
  | o :: stack, xs => ∃ inside c rest, xs = inside ++ c :: rest ∧ Paired fits inside ∧
      isOpening c = false ∧ fits o c = true ∧ Unwinds fits stack rest

/-- One more bracket is opened and closed before the open ones are. -/
theorem Unwinds.push {o : Char} {stack : List Char} (ho : isOpening o = true)
    (h : Unwinds fits (o :: stack) xs) : Unwinds fits stack (o :: xs) := by
  obtain ⟨inside, c, rest, rfl, hinside, hc, hfits, hrest⟩ := h
  cases stack with
  | nil => exact .group ho hc hfits hinside hrest
  | cons o' stack =>
    obtain ⟨inside', c', rest', rfl, hinside', hc', hfits', hrest'⟩ := hrest
    refine ⟨o :: inside ++ c :: inside', c', rest', by simp, ?_, hc', hfits', hrest'⟩
    exact .group ho hc hfits hinside hinside'

theorem unwinds_of_stackAfter {stack : List Char} (h : stackAfter fits stack xs = some []) :
    Unwinds fits stack xs := by
  induction xs generalizing stack with
  | nil =>
    obtain rfl : stack = [] := Option.some.inj h
    exact Paired.nil
  | cons c xs ih =>
    rw [stackAfter_cons] at h
    obtain ⟨next, hstep, hrest⟩ := Option.bind_eq_some_iff.mp h
    rcases stackStep_cases hstep with ⟨ho, rfl⟩ | ⟨o, hc, hfits, rfl⟩
    · exact (ih hrest).push ho
    · exact ⟨[], c, xs, rfl, .nil, hc, hfits, ih hrest⟩

/-- Brackets are paired if the stack is empty at their end. -/
theorem paired_iff_stackAfter : Paired fits xs ↔ stackAfter fits [] xs = some [] :=
  ⟨fun h => h.stackAfter_eq [], unwinds_of_stackAfter⟩

theorem nested_iff_stackAfter : Nested xs ↔ stackAfter isPair [] xs = some [] :=
  paired_iff_stackAfter

instance (xs : List Char) : Decidable (Nested xs) :=
  decidable_of_iff _ nested_iff_stackAfter.symm

/-- An open bracket stands where the ones outside it, and no others, were open. -/
theorem exists_push {stack above : List Char} {o : Char}
    (h : stackAfter fits stack xs = some (above ++ o :: stack)) :
    isOpening o = true ∧
      ∃ front back, xs = front ++ o :: back ∧ stackAfter fits stack front = some stack := by
  induction xs using List.reverseRecOn generalizing above with
  | nil =>
    have hlength := congrArg List.length (Option.some.inj h)
    simp at hlength
    omega
  | append_singleton xs c ih =>
    rw [stackAfter_append] at h
    obtain ⟨before, hbefore, hlast⟩ := Option.bind_eq_some_iff.mp h
    have hstep : stackStep fits before c = some (above ++ o :: stack) := by
      rw [stackAfter_cons] at hlast
      simpa using hlast
    rcases stackStep_cases hstep with ⟨hc, heq⟩ | ⟨d, -, -, rfl⟩
    · -- The last bracket is on top of the stack: it is the one, or above it.
      cases above with
      | nil =>
        obtain ⟨rfl, rfl⟩ := List.cons.inj heq
        exact ⟨hc, xs, [], rfl, hbefore⟩
      | cons d above =>
        obtain ⟨rfl, rfl⟩ := List.cons.inj heq
        obtain ⟨ho, front, back, rfl, hfront⟩ := ih hbefore
        exact ⟨ho, front, back ++ [d], by simp, hfront⟩
    · -- The last bracket has closed one above.
      have hopen : stackAfter fits stack xs = some ((d :: above) ++ o :: stack) := hbefore
      obtain ⟨ho, front, back, rfl, hfront⟩ := ih hopen
      exact ⟨ho, front, back ++ [c], by simp, hfront⟩

/-! ## Section 4: The counter -/

/-- What a bracket does to the number of open ones, whatever their kinds. -/
def depthStep (depth : Nat) (c : Char) : Option Nat :=
  if isOpening c then some (depth + 1) else if depth = 0 then none else some (depth - 1)

/-- How many brackets are open after some more, whatever their kinds. -/
def depthAfter (depth : Nat) (xs : List Char) : Option Nat := xs.foldlM depthStep depth

@[simp] theorem depthAfter_nil (depth : Nat) : depthAfter depth [] = some depth := rfl

theorem depthAfter_cons (depth : Nat) (c : Char) (xs : List Char) :
    depthAfter depth (c :: xs) = (depthStep depth c).bind fun depth => depthAfter depth xs := by
  rw [depthAfter, List.foldlM_cons]
  rfl

theorem depthAfter_append (depth : Nat) (xs ys : List Char) :
    depthAfter depth (xs ++ ys) = (depthAfter depth xs).bind fun depth => depthAfter depth ys := by
  rw [depthAfter, List.foldlM_append]
  rfl

theorem depthStep_opening {c : Char} (hc : isOpening c = true) (depth : Nat) :
    depthStep depth c = some (depth + 1) := if_pos hc

theorem depthStep_closing {c : Char} (hc : isOpening c = false) (depth : Nat) :
    depthStep (depth + 1) c = some depth := by
  simp [depthStep, hc]

theorem depthStep_zero {c : Char} (hc : isOpening c = false) : depthStep 0 c = none := by
  simp [depthStep, hc]

/-- The counter is the height of the stack. -/
theorem length_stackAfter (stack xs : List Char) :
    (stackAfter (fun _ _ => true) stack xs).map List.length = depthAfter stack.length xs := by
  induction xs generalizing stack with
  | nil => rfl
  | cons c xs ih =>
    rw [stackAfter_cons, depthAfter_cons]
    cases hc : isOpening c with
    | true =>
      rw [stackStep_opening hc, depthStep_opening hc]
      exact ih _
    | false =>
      cases stack with
      | nil =>
        rw [stackStep, if_neg (by simp [hc]), List.length_nil, depthStep_zero hc]
        rfl
      | cons o stack =>
        rw [stackStep_closing hc rfl, List.length_cons, depthStep_closing hc]
        exact ih stack

/-- Brackets are balanced if the counter gets back to where it started. -/
theorem balanced_iff_depthAfter : Balanced xs ↔ depthAfter 0 xs = some 0 := by
  have hlength := length_stackAfter [] xs
  rw [Balanced, paired_iff_stackAfter]
  rw [List.length_nil] at hlength
  rw [← hlength, Option.map_eq_some_iff]
  simp

instance (xs : List Char) : Decidable (Balanced xs) :=
  decidable_of_iff _ balanced_iff_depthAfter.symm

/-- While the counter has not gone below the height of the upper part of the
    stack, the lower part has not been touched. -/
theorem stackAfter_above {above stack stack' : List Char} {depth : Nat}
    (hdepth : depthAfter above.length xs = some depth)
    (h : stackAfter fits (above ++ stack) xs = some stack') :
    ∃ above', stack' = above' ++ stack ∧ above'.length = depth ∧
      stackAfter fits above xs = some above' := by
  induction xs generalizing above with
  | nil =>
    obtain rfl := Option.some.inj h
    exact ⟨above, rfl, Option.some.inj hdepth, rfl⟩
  | cons c xs ih =>
    rw [stackAfter_cons] at h
    obtain ⟨next, hstep, hrest⟩ := Option.bind_eq_some_iff.mp h
    rw [depthAfter_cons] at hdepth
    rcases stackStep_cases hstep with ⟨hc, rfl⟩ | ⟨o, hc, hfits, heq⟩
    · rw [depthStep_opening hc] at hdepth
      have hnext : depthAfter (c :: above).length xs = some depth := hdepth
      obtain ⟨above', rfl, hlength, habove⟩ := ih hnext hrest
      refine ⟨above', rfl, hlength, ?_⟩
      rw [stackAfter_cons, stackStep_opening hc]
      exact habove
    · cases above with
      | nil =>
        -- The bracket would close one of the lower part, but the counter ends there.
        rw [List.length_nil, depthStep_zero hc] at hdepth
        cases hdepth
      | cons d above =>
        obtain ⟨rfl, rfl⟩ := List.cons.inj heq
        rw [List.length_cons, depthStep_closing hc] at hdepth
        obtain ⟨above', rfl, hlength, habove⟩ := ih hdepth hrest
        refine ⟨above', rfl, hlength, ?_⟩
        rw [stackAfter_cons, stackStep_closing hc hfits]
        exact habove

/-- Kinds of brackets that fit only each other can be counted on their own. -/
theorem depthAfter_filter {kinds : Char → Bool}
    (hkinds : ∀ o c, fits o c = true → kinds o = kinds c) {stack stack' : List Char}
    (h : stackAfter fits stack xs = some stack') :
    depthAfter (stack.filter kinds).length (xs.filter kinds) =
      some (stack'.filter kinds).length := by
  induction xs generalizing stack with
  | nil =>
    obtain rfl := Option.some.inj h
    rfl
  | cons c xs ih =>
    rw [stackAfter_cons] at h
    obtain ⟨next, hstep, hrest⟩ := Option.bind_eq_some_iff.mp h
    have hcount := ih hrest
    rcases stackStep_cases hstep with ⟨hc, rfl⟩ | ⟨o, hc, hfits, rfl⟩
    · cases hkind : kinds c with
      | false =>
        have hskip : ¬ kinds c = true := by simp [hkind]
        rw [List.filter_cons_of_neg hskip] at hcount ⊢
        exact hcount
      | true =>
        rw [List.filter_cons_of_pos hkind] at hcount ⊢
        rw [depthAfter_cons, depthStep_opening hc]
        exact hcount
    · -- A bracket is counted exactly if the one that it closes has been.
      have hsame := hkinds o c hfits
      cases hkind : kinds c with
      | false =>
        have hskip : ¬ kinds c = true := by simp [hkind]
        rw [List.filter_cons_of_neg hskip, List.filter_cons_of_neg (hsame ▸ hskip)]
        exact hcount
      | true =>
        rw [List.filter_cons_of_pos hkind, List.filter_cons_of_pos (hsame.trans hkind),
          depthAfter_cons, List.length_cons, depthStep_closing hc]
        exact hcount

end
end SelfCapture.LinkageName
