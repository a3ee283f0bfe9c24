import Mathlib.Data.List.Chain
import Mathlib.Data.List.Induction
import SelfCapture.Proofs.Path.Components

/-! # Normal form of a path

  A path is brought to its normal form from the left, one component after
  the other.  `Path.normalComponents_concat` says all that one more component
  can do: it is kept, or it is `..` and takes away the name before it.
  Whatever holds of every normal form follows by induction from that lemma.

  In a normal form `..` stands only at the start or after another `..`
  (`Path.UpwardFirst`), and such a list of components is its own normal form.
-/

namespace SelfCapture.Path

variable {parts : List (List Char)} {part : List Char} {absolute : Bool} {path : String}

/-! ## Section 1: One more component -/

/-- What one more component does to a normal form. -/
theorem normalComponents_concat (parts : List (List Char)) (part : List Char) :
    (normalComponents (parts ++ [part]) = normalComponents parts ++ [part] ∧
      (part = parentComponent → ∀ last ∈ (normalComponents parts).getLast?,
        last = parentComponent)) ∨
    (part = parentComponent ∧ ∃ last, last ≠ parentComponent ∧
      normalComponents parts = normalComponents (parts ++ [part]) ++ [last]) := by
  simp only [normalComponents, List.foldl_concat, List.getLast?_reverse]
  cases parts.foldl fold [] with
  | nil => exact Or.inl (by simp [fold])
  | cons last others =>
    -- Only `..` looks at what comes before it, and only a name is taken away.
    by_cases hparent : part = parentComponent
    · by_cases hlast : last = parentComponent
      · exact Or.inl (by simp [fold, hparent, hlast])
      · exact Or.inr (by simp [fold, hparent, hlast])
    · exact Or.inl (by simp [fold, hparent])

/-- A name and the `..` after it cancel. -/
theorem fold_name_parent {name : List Char} (h : name ≠ parentComponent)
    (normal : List (List Char)) : fold (fold normal name) parentComponent = normal := by
  simp [fold, h]

/-! ## Section 2: Normal forms -/

/-- `..` stands only at the start or after another `..`. -/
def UpwardFirst (parts : List (List Char)) : Prop :=
  parts.IsChain fun earlier later => later = parentComponent → earlier = parentComponent

theorem upwardFirst_concat :
    UpwardFirst (parts ++ [part]) ↔ UpwardFirst parts ∧
      (part = parentComponent → ∀ last ∈ parts.getLast?, last = parentComponent) := by
  rw [UpwardFirst, List.isChain_append]
  simp only [List.isChain_singleton, List.head?_cons, Option.mem_some_iff, true_and, UpwardFirst,
    forall_eq']
  exact and_congr_right fun _ => ⟨fun h hparent last hlast => h last hlast hparent,
    fun h last hlast hparent => h hparent last hlast⟩

theorem upwardFirst_normalComponents (parts : List (List Char)) :
    UpwardFirst (normalComponents parts) := by
  induction parts using List.reverseRecOn with
  | nil => exact List.isChain_nil
  | append_singleton parts part ih =>
    rcases normalComponents_concat parts part with ⟨hkept, hupward⟩ | ⟨-, last, -, htaken⟩
    · rw [hkept, upwardFirst_concat]
      exact ⟨ih, hupward⟩
    · rw [htaken, upwardFirst_concat] at ih
      exact ih.1

/-- Nothing is put in that was not there. -/
theorem mem_of_mem_normalComponents (h : part ∈ normalComponents parts) : part ∈ parts := by
  induction parts using List.reverseRecOn with
  | nil => exact h
  | append_singleton parts next ih =>
    rw [List.mem_append]
    rcases normalComponents_concat parts next with ⟨hkept, -⟩ | ⟨-, last, -, htaken⟩
    · rw [hkept, List.mem_append] at h
      exact h.imp_left ih
    · exact Or.inl (ih (htaken ▸ List.mem_append_left _ h))

theorem UpwardFirst.normalComponents_eq (h : UpwardFirst parts) :
    normalComponents parts = parts := by
  induction parts using List.reverseRecOn with
  | nil => rfl
  | append_singleton parts part ih =>
    obtain ⟨hparts, hupward⟩ := upwardFirst_concat.mp h
    rcases normalComponents_concat parts part with ⟨hkept, -⟩ | ⟨hparent, last, hname, htaken⟩
    · rw [hkept, ih hparts]
    · -- There would be a name before the `..`.
      rw [ih hparts] at htaken
      refine absurd (hupward hparent last ?_) hname
      rw [htaken, List.getLast?_concat]
      rfl

/-! ## Section 3: Paths with given components -/

theorem intercalate_concat (h : parts ≠ []) :
    ['/'].intercalate (parts ++ [part]) = ['/'].intercalate parts ++ '/' :: part := by
  induction parts with
  | nil => exact absurd rfl h
  | cons first rest ih =>
    cases rest with
    | nil => simp
    | cons second rest =>
      have hleft : ['/'].intercalate (first :: (second :: rest ++ [part])) =
          first ++ ['/'] ++ ['/'].intercalate (second :: rest ++ [part]) :=
        List.intercalate_cons_of_ne_nil (by simp)
      rw [List.cons_append, hleft, ih (List.cons_ne_nil _ _), List.intercalate_cons_cons]
      simp only [List.append_assoc]

theorem ofComponents_slash (absolute : Bool) (h : parts ≠ []) (part : List Char) :
    ofComponents absolute (parts ++ [part]) =
      ofComponents absolute parts ++ "/" ++ String.ofList part := by
  refine String.toList_inj.mp ?_
  rw [toList_slash, ofComponents, ofComponents, intercalate_concat h]
  simp

/-- A path with components ends with the last one. -/
theorem exists_ofComponents_eq (absolute : Bool) (parts : List (List Char)) (last : List Char) :
    ∃ before, ofComponents absolute (parts ++ [last]) = before ++ String.ofList last := by
  by_cases h : parts = []
  · refine ⟨ofComponents absolute [], String.toList_inj.mp ?_⟩
    simp [h, ofComponents]
  · exact ⟨ofComponents absolute parts ++ "/", ofComponents_slash absolute h last⟩

/-- One more component is joined to the path. -/
theorem ofComponents_concat (hparts : ∀ part ∈ parts, IsPart part) (hpart : IsPart part) :
    ofComponents absolute (parts ++ [part]) =
      join (ofComponents absolute parts) (String.ofList part) := by
  have hrelative := hpart.isAbsolute_eq
  cases parts using List.reverseRecOn with
  | nil =>
    cases absolute with
    | true =>
      have hroot : ofComponents true [] = "" ++ "/" := rfl
      rw [hroot, join_slash hrelative]
      exact String.toList_inj.mp (by simp [ofComponents])
    | false =>
      have hempty : ofComponents false [] = "" := rfl
      rw [hempty, join_empty]
      exact String.toList_inj.mp (by simp [ofComponents])
  | append_singleton parts last =>
    -- The path so far ends with its last component, so a slash has to be put in.
    obtain ⟨before, hbefore⟩ := exists_ofComponents_eq absolute parts last
    have hlast : IsPart last := hparts last (by simp)
    have hne : ofComponents absolute (parts ++ [last]) ≠ "" := by
      rw [hbefore]
      simp [hlast.ne_nil]
    have hend : (ofComponents absolute (parts ++ [last])).endsWith "/" = false := by
      rw [hbefore, endsWith_slash_append before (by simp [hlast.ne_nil]), hlast.endsWith_eq]
    rw [ofComponents_slash absolute (by simp), join_open hrelative hne hend]

/-- A property of paths that joining keeps holds of the path with given components. -/
theorem ofComponents_induction {motive : List (List Char) → String → Prop}
    (empty : motive [] (ofComponents absolute []))
    (next : ∀ parts path part, IsPart part → motive parts path →
      motive (parts ++ [part]) (join path (String.ofList part)))
    (hparts : ∀ part ∈ parts, IsPart part) : motive parts (ofComponents absolute parts) := by
  induction parts using List.reverseRecOn with
  | nil => exact empty
  | append_singleton parts part ih =>
    have hbefore : ∀ part ∈ parts, IsPart part := fun other h => hparts other (by simp [h])
    have hpart : IsPart part := hparts part (by simp)
    rw [ofComponents_concat hbefore hpart]
    exact next parts _ part hpart (ih hbefore)

theorem components_ofComponents (absolute : Bool) (hparts : ∀ part ∈ parts, IsPart part) :
    components (ofComponents absolute parts) = parts := by
  refine ofComponents_induction (motive := fun parts path => components path = parts) ?_ ?_ hparts
  · cases absolute <;> rfl
  · intro parts path part hpart ih
    rw [components_join hpart.isAbsolute_eq, ih, hpart.components_eq]

theorem isAbsolute_ofComponents (absolute : Bool) (hparts : ∀ part ∈ parts, IsPart part) :
    isAbsolute (ofComponents absolute parts) = absolute := by
  refine ofComponents_induction (motive := fun _ path => isAbsolute path = absolute) ?_ ?_ hparts
  · cases absolute <;> rfl
  · intro parts path part hpart ih
    rw [isAbsolute_join hpart.isAbsolute_eq, ih]

theorem dot_not_mem_pieces_ofComponents (absolute : Bool) (hparts : ∀ part ∈ parts, IsPart part) :
    ['.'] ∉ pieces (ofComponents absolute parts).toList := by
  refine ofComponents_induction (motive := fun _ path => ['.'] ∉ pieces path.toList) ?_ ?_ hparts
  · cases absolute <;> decide
  · intro parts path part hpart ih hdot
    rcases mem_pieces_join hpart.isAbsolute_eq hdot with hdot | hdot
    · exact ih hdot
    · rw [String.toList_ofList, pieces_of_not_mem hpart.no_slash, List.mem_singleton] at hdot
      exact hpart.ne_dot hdot.symm

/-! ## Section 4: Normal paths -/

theorem isPart_of_mem_normalComponents (path : String) :
    ∀ part ∈ normalComponents (components path), IsPart part :=
  fun _ h => isPart_of_mem_components (mem_of_mem_normalComponents h)

theorem components_normalize (path : String) :
    components (normalize path) = normalComponents (components path) :=
  components_ofComponents _ (isPart_of_mem_normalComponents path)

theorem isAbsolute_normalize (path : String) : isAbsolute (normalize path) = isAbsolute path :=
  isAbsolute_ofComponents _ (isPart_of_mem_normalComponents path)

theorem dot_not_mem_pieces_normalize (path : String) : ['.'] ∉ pieces (normalize path).toList :=
  dot_not_mem_pieces_ofComponents _ (isPart_of_mem_normalComponents path)

theorem normalize_normalize (path : String) : normalize (normalize path) = normalize path := by
  rw [normalize, components_normalize, isAbsolute_normalize,
    (upwardFirst_normalComponents _).normalComponents_eq, ← normalize]

theorem normalize_congr {other : String} (habsolute : isAbsolute other = isAbsolute path)
    (hcomponents : normalComponents (components other) = normalComponents (components path)) :
    normalize other = normalize path := by
  rw [normalize, normalize, habsolute, hcomponents]

/-- What one more component does to a normal path: it is joined to it, or it
    is `..` and takes away the name that was joined last. -/
theorem normalize_join (path : String) (hpart : IsPart part) :
    normalize (join path (String.ofList part)) = join (normalize path) (String.ofList part) ∨
    (part = parentComponent ∧ ∃ last, IsPart last ∧ last ≠ parentComponent ∧
      normalize path = join (normalize (join path (String.ofList part))) (String.ofList last)) := by
  have hrelative := hpart.isAbsolute_eq
  have hnormal := isPart_of_mem_normalComponents path
  simp only [normalize, isAbsolute_join hrelative, components_join hrelative, hpart.components_eq]
  rcases normalComponents_concat (components path) part with
    ⟨hkept, -⟩ | ⟨hparent, last, hname, htaken⟩
  · left
    rw [hkept, ofComponents_concat hnormal hpart]
  · right
    rw [htaken] at hnormal ⊢
    have hlast : IsPart last := hnormal last (by simp)
    refine ⟨hparent, last, hlast, hname, ?_⟩
    rw [ofComponents_concat (fun other h => hnormal other (by simp [h])) hlast]

end SelfCapture.Path
