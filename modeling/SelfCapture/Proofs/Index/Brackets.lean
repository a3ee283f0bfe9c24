import Mathlib.Data.List.DropRight
import SelfCapture.Index.LinkageName

/-! # Reading along brackets

  The decoder of linkage names reads along brackets in several ways: up to
  a closing parenthesis, up to the first parenthesis, back to the last dot,
  from comma to comma.  Over a text whose parentheses are balanced, and in
  which nothing else can stop them, all of these go on behind it.

  - `Bracketed` : balanced text without commas, and with `->` for an arrow.
  - `closeGroup_bracketed`, `splitParameters_bracketed` : such a text is
    passed as a whole.
  - `splitParameters_entries` : entries between commas are found again.
-/

namespace SelfCapture.LinkageName

variable {c : Char} {text rest : List Char}

/-! ## Section 1: Text with balanced parentheses -/

/-- Characters that are neither brackets nor commas. -/
def isInert (c : Char) : Bool := !(['(', ')', '[', ']', '<', '>', ','].contains c)

/-- The parentheses are balanced, and there are no commas and no other
    brackets; the `>` of an arrow is none. -/
inductive Bracketed : List Char → Prop
  | nil : Bracketed []
  | plain {c : Char} {rest : List Char} (hc : isInert c = true) (hrest : Bracketed rest) :
      Bracketed (c :: rest)
  | arrow {rest : List Char} (hrest : Bracketed rest) : Bracketed ('-' :: '>' :: rest)
  | group {inside rest : List Char} (hinside : Bracketed inside) (hrest : Bracketed rest) :
      Bracketed ('(' :: inside ++ ')' :: rest)

theorem isInert_iff : isInert c = true ↔
    c ≠ '(' ∧ c ≠ ')' ∧ c ≠ '[' ∧ c ≠ ']' ∧ c ≠ '<' ∧ c ≠ '>' ∧ c ≠ ',' := by
  simp [isInert]

theorem Bracketed.append (h : Bracketed text) (hrest : Bracketed rest) :
    Bracketed (text ++ rest) := by
  induction h with
  | nil => exact hrest
  | plain hc _ ih => exact .plain hc ih
  | arrow _ ih => exact .arrow ih
  | @group inside rest' hinside _ _ ih =>
    have hgroup := Bracketed.group hinside ih
    simpa using hgroup

theorem bracketed_of_all (h : text.all isInert = true) : Bracketed text := by
  induction text with
  | nil => exact .nil
  | cons c text ih =>
    rw [List.all_cons, Bool.and_eq_true] at h
    exact .plain h.1 (ih h.2)

/-! ## Section 2: Groups -/

/-- Looking for the parenthesis that closes a group passes balanced text. -/
theorem closeGroup_bracketed (h : Bracketed text) (depth : Nat) (rest : List Char) :
    closeGroup (depth + 1) (text ++ rest) =
      (closeGroup (depth + 1) rest).map fun (inside, after) => (text ++ inside, after) := by
  induction h generalizing depth rest with
  | nil => simp
  | plain hc _ ih =>
    obtain ⟨hopen, hclose, -⟩ := isInert_iff.mp hc
    simp [closeGroup, hopen, hclose, ih, Function.comp_def]
  | arrow _ ih => simp [closeGroup, ih, Function.comp_def]
  | @group inside rest' _ _ ih ih' =>
    -- The group is passed one level deeper, and its end leads back.
    have hinside := ih (depth + 1) (')' :: (rest' ++ rest))
    have hend : closeGroup (depth + 1 + 1) (')' :: (rest' ++ rest)) =
        (closeGroup (depth + 1) (rest' ++ rest)).map fun (inside, after) => (')' :: inside, after) := by
      simp [closeGroup]
    rw [hend, ih'] at hinside
    simp [closeGroup, hinside, Function.comp_def]

/-- The group that balanced text stands in. -/
theorem closeGroup_end (h : Bracketed text) :
    closeGroup 1 (text ++ ')' :: rest) = some (text, rest) := by
  rw [closeGroup_bracketed h 0]
  simp [closeGroup]

/-- The group that such texts stand in, with commas between them. -/
theorem closeGroup_entries {entries : List (List Char)} (h : ∀ entry ∈ entries, Bracketed entry) :
    closeGroup 1 ([',', ' '].intercalate entries ++ ')' :: rest) =
      some ([',', ' '].intercalate entries, rest) := by
  induction entries with
  | nil => simp [closeGroup]
  | cons entry entries ih =>
    have hentry := h entry List.mem_cons_self
    cases entries with
    | nil =>
      rw [List.intercalate_singleton]
      exact closeGroup_end hentry
    | cons next entries =>
      have hnext := ih fun entry hentry => h entry (List.mem_cons_of_mem _ hentry)
      rw [List.intercalate_cons_cons, List.append_assoc, List.append_assoc,
        closeGroup_bracketed hentry 0]
      simp [closeGroup, hnext]

/-! ## Section 3: Qualified names -/

/-- Up to the first parenthesis everything that is no bracket is passed. -/
theorem beforeParameters_plain {depth : Nat} {name after : List Char} {previous : Option Char}
    (htext : ∀ c ∈ text, isInert c = true ∧ c ≠ '-')
    (hrest : ∀ previous, previous ≠ some '-' →
      beforeParameters previous depth rest = some (name, after))
    (hprevious : previous ≠ some '-') :
    beforeParameters previous depth (text ++ rest) = some (text ++ name, after) := by
  induction text generalizing previous with
  | nil => exact hrest previous hprevious
  | cons c text ih =>
    obtain ⟨hc, hminus⟩ := htext c List.mem_cons_self
    obtain ⟨hopen, -, hsquare, hsquare', hangle, hangle', -⟩ := isInert_iff.mp hc
    have hafter : some c ≠ some '-' := by simpa using hminus
    have hnext := ih (fun d hd => htext d (List.mem_cons_of_mem _ hd)) hafter
    simp [beforeParameters, hopen, hsquare, hsquare', hangle, hangle', hnext]

/-- Back to the last dot everything that is neither a bracket nor a dot is passed. -/
theorem lastName_plain (depth : Nat) (seen : List Char)
    (htext : ∀ c ∈ text, isInert c = true ∧ c ≠ '.') :
    lastName (text.reverse ++ rest) depth seen = lastName rest depth (text ++ seen) := by
  induction text generalizing rest with
  | nil => rfl
  | cons c text ih =>
    obtain ⟨hc, hdot⟩ := htext c List.mem_cons_self
    obtain ⟨hopen, hclose, hsquare, hsquare', hangle, hangle', -⟩ := isInert_iff.mp hc
    rw [List.reverse_cons, List.append_assoc,
      ih (fun d hd => htext d (List.mem_cons_of_mem _ hd))]
    simp [lastName, hopen, hclose, hsquare, hsquare', hangle, hangle', hdot]

/-! ## Section 4: Commas -/

/-- Looking for a comma passes balanced text, whatever character came before it. -/
theorem splitParameters_bracketed (h : Bracketed text) {depth : Nat} {first : List Char}
    {others : List (List Char)} {rest : List Char}
    (hrest : ∀ previous, splitParameters previous depth rest = some (first :: others))
    (previous : Option Char) :
    splitParameters previous depth (text ++ rest) = some ((text ++ first) :: others) := by
  induction h generalizing depth first rest previous with
  | nil => exact hrest previous
  | plain hc _ ih =>
    obtain ⟨hopen, hclose, hsquare, hsquare', hangle, hangle', hcomma⟩ := isInert_iff.mp hc
    simp [splitParameters, hopen, hclose, hsquare, hsquare', hangle, hangle', hcomma, ih hrest]
  | arrow _ ih => simp [splitParameters, ih hrest]
  | @group inside rest' _ _ ih ih' =>
    have hafter (previous : Option Char) : splitParameters previous (depth + 1)
        (')' :: (rest' ++ rest)) = some ((')' :: (rest' ++ first)) :: others) := by
      simp [splitParameters, ih' hrest]
    have hinside := ih hafter
    simp [splitParameters, hinside]

/-- The entries of a list with commas between them, each but the first with
    the blank before it. -/
def entriesOf : List (List Char) → List (List Char)
  | [] => [[]]
  | entry :: entries => entry :: entries.map (' ' :: ·)

/-- Entries with commas between them are found again. -/
theorem splitParameters_entries (entries : List (List Char)) (h : ∀ entry ∈ entries, Bracketed entry)
    (previous : Option Char) :
    splitParameters previous 0 ([',', ' '].intercalate entries) = some (entriesOf entries) := by
  induction entries generalizing previous with
  | nil => simp [splitParameters, entriesOf]
  | cons entry entries ih =>
    have hentry := h entry List.mem_cons_self
    cases entries with
    | nil =>
      have hend (previous : Option Char) : splitParameters previous 0 [] = some [[]] := by
        rw [splitParameters, if_pos rfl]
      have hsplit := splitParameters_bracketed hentry hend previous
      simpa [entriesOf] using hsplit
    | cons next entries =>
      have hnext := ih fun entry hentry => h entry (List.mem_cons_of_mem _ hentry)
      -- The comma ends the entry, and the blank after it starts the next one.
      have hcomma (previous : Option Char) :
          splitParameters previous 0 (',' :: ' ' :: [',', ' '].intercalate (next :: entries)) =
            some ([] :: (' ' :: next) :: entries.map (' ' :: ·)) := by
        simp [splitParameters, hnext, entriesOf]
      rw [List.intercalate_cons_cons, List.append_assoc]
      have hsplit := splitParameters_bracketed hentry hcomma previous
      simpa [entriesOf] using hsplit

/-! ## Section 5: Blanks at the ends -/

/-- What does not start with a blank is trimmed at its end only. -/
theorem trim_of_head (hc : Text.isBlank c = false) :
    trim (c :: text) = (c :: text).rdropWhile Text.isBlank := by
  simp [trim, List.rdropWhile, hc]

/-- Before a character that is no blank nothing is trimmed. -/
theorem rdropWhile_append (hc : Text.isBlank c = false) :
    (text ++ c :: rest).rdropWhile Text.isBlank = text ++ c :: rest.rdropWhile Text.isBlank := by
  induction rest using List.reverseRecOn with
  | nil =>
    have hneg : ¬ Text.isBlank c = true := by simp [hc]
    rw [List.rdropWhile_concat_neg _ _ _ hneg]
    simp
  | append_singleton rest d ih =>
    have hassoc : text ++ c :: (rest ++ [d]) = (text ++ c :: rest) ++ [d] := by simp
    by_cases hd : Text.isBlank d = true
    · rw [hassoc, List.rdropWhile_concat_pos _ _ _ hd, List.rdropWhile_concat_pos _ _ _ hd, ih]
    · rw [hassoc, List.rdropWhile_concat_neg _ _ _ hd, List.rdropWhile_concat_neg _ _ _ hd]
      simp

/-- A text with no blank at its ends. -/
structure Solid (text : List Char) : Prop where
  head : ∃ c rest, text = c :: rest ∧ Text.isBlank c = false
  last : ∃ front c, text = front ++ [c] ∧ Text.isBlank c = false

theorem Solid.trim_eq (h : Solid text) : trim text = text := by
  obtain ⟨c, rest, heq, hc⟩ := h.head
  obtain ⟨front, d, heq', hd⟩ := h.last
  have hneg : ¬ Text.isBlank d = true := by simp [hd]
  rw [heq, trim_of_head hc, ← heq, heq', List.rdropWhile_concat_neg _ _ _ hneg]

theorem Solid.trim_blank (h : Solid text) : trim (' ' :: text) = text := by
  have hblank : Text.isBlank ' ' = true := by decide +kernel
  have hsame : trim (' ' :: text) = trim text := by
    rw [trim, trim, List.dropWhile_cons_of_pos hblank]
  rw [hsame, h.trim_eq]

theorem Solid.ne_nil (h : Solid text) : text ≠ [] := by
  obtain ⟨c, rest, heq, -⟩ := h.head
  simp [heq]

theorem solid_of_ends (hhead : text.head?.any (!Text.isBlank ·) = true)
    (hlast : text.getLast?.any (!Text.isBlank ·) = true) : Solid text := by
  obtain ⟨c, hc, hblank⟩ := (Option.any_eq_true _ _).mp hhead
  obtain ⟨d, hd, hblank'⟩ := (Option.any_eq_true _ _).mp hlast
  obtain ⟨rest, hrest⟩ := List.head?_eq_some_iff.mp hc
  obtain ⟨front, hfront⟩ := List.getLast?_eq_some_iff.mp hd
  exact ⟨⟨c, rest, hrest, by simpa using hblank⟩, ⟨front, d, hfront, by simpa using hblank'⟩⟩

theorem solid_of_all (hne : text ≠ []) (h : ∀ c ∈ text, Text.isBlank c = false) : Solid text := by
  refine solid_of_ends ?_ ?_
  · simp [List.head?_eq_some_head hne, h _ (List.head_mem hne)]
  · simp [List.getLast?_eq_some_getLast hne, h _ (List.getLast_mem hne)]

/-- Whatever stands between them, the ends count. -/
theorem Solid.around (h : Solid text) (hrest : Solid rest) (between : List Char) :
    Solid (text ++ between ++ rest) := by
  obtain ⟨c, tail, rfl, hc⟩ := h.head
  obtain ⟨front, d, rfl, hd⟩ := hrest.last
  exact ⟨⟨c, tail ++ between ++ (front ++ [d]), by simp, hc⟩,
    ⟨c :: tail ++ between ++ front, d, by simp, hd⟩⟩

/-- Blanks at the end do not unbalance a text. -/
theorem isBalanced_rdropWhile (depth : Nat) (text : List Char) :
    isBalanced depth (text.rdropWhile Text.isBlank) = isBalanced depth text := by
  have hblank (c : Char) (depth : Nat) (text : List Char) (hc : Text.isBlank c = true) :
      isBalanced depth (text ++ [c]) = isBalanced depth text := by
    have hne : c ≠ '(' ∧ c ≠ '[' ∧ c ≠ ')' ∧ c ≠ ']' := by
      refine ⟨?_, ?_, ?_, ?_⟩
      all_goals
        rintro rfl
        revert hc
        decide +kernel
    induction text generalizing depth with
    | nil => simp [isBalanced, hne.1, hne.2.1, hne.2.2.1, hne.2.2.2]
    | cons d text ih => simp [isBalanced, ih]
  induction text using List.reverseRecOn with
  | nil => rfl
  | append_singleton text c ih =>
    by_cases hc : Text.isBlank c = true
    · rw [List.rdropWhile_concat_pos _ _ _ hc, ih, hblank c depth text hc]
    · rw [List.rdropWhile_concat_neg _ _ _ hc]

end SelfCapture.LinkageName
