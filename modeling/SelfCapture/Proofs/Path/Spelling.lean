import Mathlib.Logic.Relation
import SelfCapture.Proofs.Path.NormalForm

/-! # Spellings of a path

  A path can be written in many ways that lead to the same place.
  `Path.Filler` says what can be put in without leading elsewhere, and
  `Path.Padded` where it can stand.  A spelling of a path (`Path.Spelled`)
  has any number of fillers, one inside the other included.

  A filler leaves the normal form as it is, and every path is a spelling of
  its normal form.  So two paths have one normal form exactly if they are
  spellings of one path.
-/

namespace SelfCapture.Path

open Relation

variable {path other filler back name : String} {part : List Char}

/-! ## Section 1: Fillers -/

/-- The name of a file or directory, as a component of a path. -/
structure IsName (name : String) : Prop where
  ne_empty : name ≠ ""
  ne_dot : name ≠ "."
  ne_parent : name ≠ ".."
  no_slash : '/' ∉ name.toList

/-- What can stand between two slashes, or after the last one, without
    leading elsewhere. -/
inductive Filler : String → Prop where
  /-- The slash is repeated, or comes last. -/
  | nothing : Filler ""
  | dot : Filler "."
  | detour {name : String} (h : IsName name) : Filler (name ++ "/..")

/-- The second path is the first one with a filler put in. -/
inductive Padded : String → String → Prop where
  /-- Between two components, the root included, and before a slash at the end. -/
  | between (front back : String) {filler : String} (h : Filler filler) :
    Padded (front ++ "/" ++ back) (front ++ "/" ++ filler ++ "/" ++ back)
  /-- At the end.  `join` puts no slash after an empty path, where it would be the root. -/
  | atEnd (path : String) {filler : String} (h : Filler filler) : Padded path (join path filler)
  /-- Before the first component of a path that does not start at the root. -/
  | atStart (path : String) {filler : String} (h : Filler filler) (hne : filler ≠ "")
      (hpath : isAbsolute path = false) : Padded path (filler ++ "/" ++ path)

/-- The second path is the first one with any number of fillers put in. -/
abbrev Spelled (path other : String) : Prop := ReflTransGen Padded path other

theorem IsName.isPart (h : IsName name) : IsPart name.toList where
  isComponent := by
    have hempty : name.toList ≠ [] := fun heq => h.ne_empty (String.toList_inj.mp heq)
    have hdot : name.toList ≠ ['.'] := fun heq => h.ne_dot (String.toList_inj.mp heq)
    simp [Path.isComponent, hempty, hdot]
  no_slash := h.no_slash

theorem IsName.components_eq (h : IsName name) : components name = [name.toList] := by
  have hcomponents := h.isPart.components_eq
  rwa [String.ofList_toList] at hcomponents

theorem IsPart.isName (h : IsPart part) (hname : part ≠ parentComponent) :
    IsName (String.ofList part) where
  ne_empty := by simpa using h.ne_nil
  ne_dot := fun heq => h.ne_dot (String.ofList_inj.mp heq)
  ne_parent := fun heq => hname (String.ofList_inj.mp heq)
  no_slash := by
    rw [String.toList_ofList]
    exact h.no_slash

namespace Filler

theorem isAbsolute_eq (h : Filler filler) : isAbsolute filler = false := by
  cases h with
  | nothing => rfl
  | dot => rfl
  | @detour name hname =>
    have hrelative := hname.isPart.isAbsolute_eq
    rw [isAbsolute_append hname.ne_empty]
    rwa [String.ofList_toList] at hrelative

/-- A filler adds nothing to a normal form. -/
theorem foldl_components (h : Filler filler) (normal : List (List Char)) :
    (components filler).foldl fold normal = normal := by
  cases h with
  | nothing => rfl
  | dot => rfl
  | @detour name hname =>
    have hsplit : name ++ "/.." = name ++ "/" ++ ".." := by
      rw [String.append_assoc]
      rfl
    have hparent : components ".." = [parentComponent] := rfl
    rw [hsplit, components_slash, hname.components_eq, hparent]
    exact fold_name_parent (fun heq => hname.ne_parent (String.toList_inj.mp heq)) normal

/-- What follows a filler is behind its slash, if it is not empty. -/
theorem join_eq (h : Filler filler) (hback : isAbsolute back = false) :
    (filler = "" ∧ join filler back = back) ∨
      (filler ≠ "" ∧ join filler back = filler ++ "/" ++ back) := by
  cases h with
  | nothing => exact Or.inl ⟨rfl, join_empty back⟩
  | dot => exact Or.inr ⟨by decide, join_open hback (by decide) (by decide +kernel)⟩
  | @detour name hname =>
    have hne : name ++ "/.." ≠ "" := by simp
    have hend : (name ++ "/..").endsWith "/" = false :=
      (endsWith_slash_append name (by decide)).trans (by decide +kernel)
    exact Or.inr ⟨hne, join_open hback hne hend⟩

end Filler

/-! ## Section 2: The normal form stays -/

/-- Nothing that a filler adds is left in the normal form. -/
theorem normalComponents_filler (h : Filler filler) (before after : List (List Char)) :
    normalComponents (before ++ components filler ++ after) =
      normalComponents (before ++ after) := by
  simp only [normalComponents, List.foldl_append, h.foldl_components]

theorem normalize_padded (h : Padded path other) : normalize other = normalize path := by
  cases h with
  | @between front back filler hfiller =>
    have hfront : front ++ "/" ≠ "" := by simp
    refine normalize_congr ?_ ?_
    · rw [String.append_assoc, String.append_assoc, isAbsolute_append hfront,
        isAbsolute_append hfront]
    · rw [components_slash, components_slash, components_slash, normalComponents_filler hfiller]
  | atEnd path hfiller =>
    have hcomponents := normalComponents_filler hfiller (components path) []
    simp only [List.append_nil] at hcomponents
    refine normalize_congr (isAbsolute_join hfiller.isAbsolute_eq path) ?_
    rw [components_join hfiller.isAbsolute_eq, hcomponents]
  | @atStart path filler hfiller hne hpath =>
    have hcomponents := normalComponents_filler hfiller [] (components path)
    simp only [List.nil_append] at hcomponents
    refine normalize_congr ?_ ?_
    · rw [String.append_assoc, isAbsolute_append hne, hfiller.isAbsolute_eq, hpath]
    · rw [components_slash, hcomponents]

theorem normalize_spelled (h : Spelled path other) :
    normalize other = normalize path := by
  induction h with
  | refl => rfl
  | tail _ hstep ih => rw [normalize_padded hstep, ih]

/-! ## Section 3: Every path is a spelling of its normal form -/

/-- A filler that is put into a directory is put into every path from there. -/
theorem Padded.join (h : Padded path other) (hback : isAbsolute back = false) :
    Spelled (Path.join path back) (Path.join other back) := by
  cases h with
  | between front behind hfiller =>
    rw [join_behind_slash hback, join_behind_slash hback]
    exact .single (.between front _ hfiller)
  | @atEnd path filler hfiller =>
    rw [join_assoc hfiller.isAbsolute_eq hback]
    rcases hfiller.join_eq hback with ⟨-, heq⟩ | ⟨hne, heq⟩
    · rw [heq]
    · -- The filler is now between the directory and what follows it.
      have hbehind : isAbsolute (filler ++ "/" ++ back) = false := by
        rw [String.append_assoc, isAbsolute_append hne, hfiller.isAbsolute_eq]
      rw [heq]
      rcases cases_end path with rfl | ⟨front, rfl⟩ | ⟨hpath, hend⟩
      · rw [join_empty, join_empty]
        exact .single (.atStart back hfiller hne hback)
      · rw [join_slash hback, join_slash hbehind, ← String.append_assoc, ← String.append_assoc]
        exact .single (.between front back hfiller)
      · rw [join_open hback hpath hend, join_open hbehind hpath hend, ← String.append_assoc,
          ← String.append_assoc]
        exact .single (.between path back hfiller)
  | atStart path hfiller hne hpath =>
    rw [join_behind_slash hback]
    exact .single (.atStart _ hfiller hne (by rw [isAbsolute_join hback, hpath]))

/-- One filler more in a spelling of the normal form. -/
theorem spelled_padded (h : Padded path other) (ih : Spelled (normalize path) path) :
    Spelled (normalize other) other := by
  rw [normalize_padded h]
  exact ih.tail h

theorem spelled_slash (ih : Spelled (normalize path) path) :
    Spelled (normalize (path ++ "/")) (path ++ "/") := by
  have hnothing : isAbsolute "" = false := rfl
  rcases cases_end path with rfl | ⟨front, rfl⟩ | ⟨hne, hend⟩
  · exact .refl
  · refine spelled_padded ?_ ih
    simpa using Padded.between front "" .nothing
  · refine spelled_padded ?_ ih
    simpa [join_open hnothing hne hend] using Padded.atEnd path .nothing

theorem spelled_part (hpart : IsPart part) (ih : Spelled (normalize path) path) :
    Spelled (normalize (join path (String.ofList part)))
      (join path (String.ofList part)) := by
  have hrelative := hpart.isAbsolute_eq
  have hbehind : Spelled (join (normalize path) (String.ofList part))
      (join path (String.ofList part)) :=
    ih.lift' (join · (String.ofList part)) fun _ _ hstep => hstep.join hrelative
  rcases normalize_join path hpart with hkept | ⟨hparent, last, hlast, hname, htaken⟩
  · rw [hkept]
    exact hbehind
  · -- The name that is taken away comes back together with its `..`, as one filler.
    have hdetour :
        join (String.ofList last) (String.ofList part) = String.ofList last ++ "/.." := by
      rw [join_open hrelative (by simpa using hlast.ne_nil) hlast.endsWith_eq, hparent,
        String.append_assoc]
      rfl
    rw [htaken, join_assoc hlast.isAbsolute_eq hrelative, hdetour] at hbehind
    exact .head (.atEnd _ (.detour (hlast.isName hname))) hbehind

theorem spelled_piece {piece : List Char} (h : '/' ∉ piece)
    (ih : Spelled (normalize path) path) :
    Spelled (normalize (join path (String.ofList piece)))
      (join path (String.ofList piece)) := by
  cases hcomponent : isComponent piece with
  | true => exact spelled_part ⟨hcomponent, h⟩ ih
  | false =>
    have hfiller : Filler (String.ofList piece) := by
      by_cases hempty : piece = []
      · exact hempty ▸ .nothing
      · have hdot : piece = ['.'] := by simpa [isComponent, hempty] using hcomponent
        exact hdot ▸ .dot
    exact spelled_padded (.atEnd path hfiller) ih

theorem spelled_pieces (found : List (List Char)) (h : ∀ piece ∈ found, '/' ∉ piece) :
    Spelled (normalize (ofComponents false found)) (ofComponents false found) := by
  induction found using List.reverseRecOn with
  | nil => exact .refl
  | append_singleton found piece ih =>
    have hpiece : '/' ∉ piece := h piece (by simp)
    have hfound := ih fun other hother => h other (by simp [hother])
    -- Only the first piece has no slash before it.
    by_cases hempty : found = []
    · have hnothing : Spelled (normalize "") "" := .refl
      have hspelled := spelled_piece hpiece hnothing
      rw [join_empty] at hspelled
      simpa [hempty, ofComponents] using hspelled
    · have hspelled := spelled_piece hpiece (spelled_slash hfound)
      rwa [join_slash (isAbsolute_of_not_mem hpiece),
        ← ofComponents_slash false hempty] at hspelled

theorem spelled_normalize (path : String) : Spelled (normalize path) path := by
  have hpath : ofComponents false (pieces path.toList) = path := by
    refine String.toList_inj.mp ?_
    simp [ofComponents, intercalate_pieces]
  have hspelled := spelled_pieces (pieces path.toList) fun _ hpiece => not_mem_of_mem_pieces hpiece
  rwa [hpath] at hspelled

/-- A normal form is its own normal form, has no `.` and no `..` after a
    name, and is the same for all spellings of a path, of which the path is one. -/
theorem normalize_identifies_spellings (path : String) :
    normalize (normalize path) = normalize path ∧
      ['.'] ∉ pieces (normalize path).toList ∧
      UpwardFirst (components (normalize path)) ∧
      (∀ other, Spelled path other → normalize other = normalize path) ∧
      Spelled (normalize path) path := by
  refine ⟨normalize_normalize path, dot_not_mem_pieces_normalize path, ?_,
    fun other h => normalize_spelled h, spelled_normalize path⟩
  rw [components_normalize]
  exact upwardFirst_normalComponents _

/-- One detour inside the other, after a dot and before a slash at the end. -/
theorem normalize_identifies_spellings_nested :
    Spelled "/src/App/Session.swift"
        "/src/App/./Nested/Deep/../../Session.swift/" ∧
      normalize "/src/App/./Nested/Deep/../../Session.swift/" = "/src/App/Session.swift" := by
  have hnested : IsName "Nested" := ⟨by decide, by decide, by decide, by decide⟩
  have hdeep : IsName "Deep" := ⟨by decide, by decide, by decide, by decide⟩
  have hdot : Padded "/src/App/Session.swift" "/src/App/./Session.swift" := by
    simpa using Padded.between "/src/App" "Session.swift" .dot
  have houter : Padded "/src/App/./Session.swift" "/src/App/./Nested/../Session.swift" := by
    simpa using Padded.between "/src/App/." "Session.swift" (.detour hnested)
  have hinner : Padded "/src/App/./Nested/../Session.swift"
      "/src/App/./Nested/Deep/../../Session.swift" := by
    simpa using Padded.between "/src/App/./Nested" "../Session.swift" (.detour hdeep)
  have hjoin : join "/src/App/./Nested/Deep/../../Session.swift" "" =
      "/src/App/./Nested/Deep/../../Session.swift/" := by decide +kernel
  have hslash : Padded "/src/App/./Nested/Deep/../../Session.swift"
      "/src/App/./Nested/Deep/../../Session.swift/" :=
    hjoin ▸ .atEnd "/src/App/./Nested/Deep/../../Session.swift" .nothing
  have hspelling : Spelled "/src/App/Session.swift"
      "/src/App/./Nested/Deep/../../Session.swift/" :=
    .tail (.tail (.tail (.single hdot) houter) hinner) hslash
  have hsame := (normalize_identifies_spellings "/src/App/Session.swift").2.2.2.1 _ hspelling
  exact ⟨hspelling, hsame.trans (by decide +kernel)⟩

end SelfCapture.Path
