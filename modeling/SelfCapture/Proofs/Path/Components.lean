import SelfCapture.Path

/-! # Components of a path

  A slash is a boundary for everything that is read off a path: the pieces
  and the components of `front ++ "/" ++ back` are those of `front` followed
  by those of `back`, and whether the path is absolute is settled before the
  slash.

  `Path.join` puts a slash where one is missing.  What follows a directory is
  put behind it in one of three ways, by how the directory ends
  (`Path.cases_end`); every law of `join` is read off the three.
-/

namespace SelfCapture.Path

variable {front back path directory : String}

/-! ## Section 1: Pieces -/

theorem pieces_eq_splitOn (text : List Char) : pieces text = text.splitOn '/' := by
  induction text with
  | nil => rfl
  | cons c rest ih =>
    rw [pieces, ih, List.splitOn_cons_eq_if_modifyHead]
    cases c == '/' with
    | true => rfl
    | false =>
      cases hrest : rest.splitOn '/' with
      | nil => exact absurd hrest (List.splitOn_ne_nil '/' rest)
      | cons first found => rfl

theorem pieces_slash (front back : List Char) :
    pieces (front ++ '/' :: back) = pieces front ++ pieces back := by
  simp only [pieces_eq_splitOn, List.splitOn_append_cons_self]

theorem pieces_of_not_mem {text : List Char} (h : '/' ∉ text) : pieces text = [text] := by
  rw [pieces_eq_splitOn, List.splitOn_eq_singleton h]

theorem intercalate_pieces (text : List Char) : ['/'].intercalate (pieces text) = text := by
  rw [pieces_eq_splitOn, List.intercalate_splitOn]

theorem not_mem_of_mem_pieces {text piece : List Char} (h : piece ∈ pieces text) :
    '/' ∉ piece := by
  fun_induction pieces text generalizing piece with
  | case1 => simp_all
  | case2 c rest hc ih =>
    rcases List.mem_cons.mp h with rfl | h
    · exact List.not_mem_nil
    · exact ih h
  | case3 c rest first found hfound hc ih =>
    have hne : '/' ≠ c := Ne.symm (beq_eq_false_iff_ne.mp hc)
    rcases List.mem_cons.mp h with rfl | h
    · rw [List.mem_cons, not_or]
      exact ⟨hne, ih (hfound ▸ List.mem_cons_self)⟩
    · exact ih (hfound ▸ List.mem_cons_of_mem _ h)
  | case4 c rest hnone hc ih =>
    rw [pieces_eq_splitOn] at hnone
    exact absurd hnone (List.splitOn_ne_nil '/' rest)

/-! ## Section 2: A slash in a path -/

theorem toList_slash (front back : String) :
    (front ++ "/" ++ back).toList = front.toList ++ '/' :: back.toList := by
  simp

theorem components_slash (front back : String) :
    components (front ++ "/" ++ back) = components front ++ components back := by
  rw [components, toList_slash, pieces_slash, List.filter_append]
  rfl

theorem isAbsolute_of_not_mem {piece : List Char} (h : '/' ∉ piece) :
    isAbsolute (String.ofList piece) = false := by
  rw [isAbsolute, String.toList_ofList]
  cases piece with
  | nil => rfl
  | cons c rest =>
    have hne : c ≠ '/' := fun heq => h (heq ▸ List.mem_cons_self)
    simp [hne]

/-- Whether a path is absolute is settled by its first part, if that is not empty. -/
theorem isAbsolute_append (h : path ≠ "") (after : String) :
    isAbsolute (path ++ after) = isAbsolute path := by
  rw [isAbsolute, isAbsolute, String.toList_append]
  cases hpath : path.toList with
  | nil => exact absurd (String.toList_eq_nil_iff.mp hpath) h
  | cons c rest => rfl

@[simp] theorem components_empty : components "" = [] := rfl

/-! ## Section 3: How a path ends -/

theorem endsWith_slash_iff (path : String) :
    path.endsWith "/" = true ↔ path.toList.getLast? = some '/' := by
  rw [String.endsWith_eq_endsWith_toSlice, String.Slice.endsWith_string_iff, String.copy_toSlice,
    List.getLast?_eq_some_iff]
  exact ⟨fun ⟨front, h⟩ => ⟨front, h.symm⟩, fun ⟨front, h⟩ => ⟨front, h.symm⟩⟩

/-- How a path ends is settled by its last part, if that is not empty. -/
theorem endsWith_slash_append (before : String) (h : path ≠ "") :
    (before ++ path).endsWith "/" = path.endsWith "/" := by
  have hne : path.toList ≠ [] := fun hnil => h (String.toList_eq_nil_iff.mp hnil)
  rw [Bool.eq_iff_iff, endsWith_slash_iff, endsWith_slash_iff, String.toList_append,
    List.getLast?_append, List.getLast?_eq_some_getLast hne, Option.some_or]

/-- A path is empty, or ends with a slash, or ends with something else. -/
theorem cases_end (path : String) :
    path = "" ∨ (∃ front, path = front ++ "/") ∨ (path ≠ "" ∧ path.endsWith "/" = false) := by
  by_cases hempty : path = ""
  · exact Or.inl hempty
  · cases hend : path.endsWith "/" with
    | true =>
      obtain ⟨front, hfront⟩ := List.getLast?_eq_some_iff.mp ((endsWith_slash_iff path).mp hend)
      refine Or.inr (Or.inl ⟨String.ofList front, String.toList_inj.mp ?_⟩)
      rw [hfront, String.toList_append, String.toList_ofList]
      rfl
    | false => exact Or.inr (Or.inr ⟨hempty, rfl⟩)

/-! ## Section 4: Components -/

/-- A component as it can stand in a path. -/
structure IsPart (part : List Char) : Prop where
  isComponent : isComponent part = true
  no_slash : '/' ∉ part

theorem isPart_of_mem_components {part : List Char} (h : part ∈ components path) : IsPart part := by
  obtain ⟨hpiece, hcomponent⟩ := List.mem_filter.mp h
  exact ⟨hcomponent, not_mem_of_mem_pieces hpiece⟩

namespace IsPart

variable {part : List Char}

theorem ne_nil (h : IsPart part) : part ≠ [] := by
  have hcomponent := h.isComponent
  rintro rfl
  cases hcomponent

theorem ne_dot (h : IsPart part) : part ≠ ['.'] := by
  have hcomponent := h.isComponent
  rintro rfl
  cases hcomponent

theorem isAbsolute_eq (h : IsPart part) : isAbsolute (String.ofList part) = false :=
  isAbsolute_of_not_mem h.no_slash

theorem components_eq (h : IsPart part) : components (String.ofList part) = [part] := by
  rw [components, String.toList_ofList, pieces_of_not_mem h.no_slash]
  simp [h.isComponent]

theorem endsWith_eq (h : IsPart part) : (String.ofList part).endsWith "/" = false := by
  rw [← Bool.not_eq_true, endsWith_slash_iff, String.toList_ofList]
  exact fun hlast => h.no_slash (List.mem_of_getLast? hlast)

end IsPart

/-! ## Section 5: Joining -/

theorem join_empty (path : String) : join "" path = path := by
  simp [join]

theorem join_slash (h : isAbsolute back = false) :
    join (front ++ "/") back = front ++ "/" ++ back := by
  have hend : (front ++ "/").endsWith "/" = true := (endsWith_slash_iff _).mpr (by simp)
  simp [join, h, hend]

theorem join_open (h : isAbsolute back = false) (hne : path ≠ "")
    (hend : path.endsWith "/" = false) : join path back = path ++ "/" ++ back := by
  simp [join, h, hend, hne]

theorem components_join (h : isAbsolute back = false) (path : String) :
    components (join path back) = components path ++ components back := by
  rcases cases_end path with rfl | ⟨front, rfl⟩ | ⟨hne, hend⟩
  · rw [join_empty, components_empty, List.nil_append]
  · have hfront : components (front ++ "/") = components front := by
      simpa using components_slash front ""
    rw [join_slash h, components_slash, hfront]
  · rw [join_open h hne hend, components_slash]

theorem isAbsolute_join (h : isAbsolute back = false) (path : String) :
    isAbsolute (join path back) = isAbsolute path := by
  rcases cases_end path with rfl | ⟨front, rfl⟩ | ⟨hne, hend⟩
  · rw [join_empty, h]
    rfl
  · rw [join_slash h, isAbsolute_append (by simp)]
  · rw [join_open h hne hend, String.append_assoc, isAbsolute_append hne]

theorem mem_pieces_join {piece : List Char} (h : isAbsolute back = false)
    (hpiece : piece ∈ pieces (join path back).toList) :
    piece ∈ pieces path.toList ∨ piece ∈ pieces back.toList := by
  rcases cases_end path with rfl | ⟨front, rfl⟩ | ⟨hne, hend⟩
  · rw [join_empty] at hpiece
    exact Or.inr hpiece
  · -- The path has the pieces of `front` and the empty one after its last slash.
    rw [join_slash h, toList_slash, pieces_slash] at hpiece
    rw [← String.append_empty (s := front ++ "/"), toList_slash, pieces_slash, List.mem_append]
    rcases List.mem_append.mp hpiece with hpiece | hpiece
    · exact Or.inl (Or.inl hpiece)
    · exact Or.inr hpiece
  · rw [join_open h hne hend, toList_slash, pieces_slash] at hpiece
    exact List.mem_append.mp hpiece

theorem join_behind_slash (h : isAbsolute back = false) (front path : String) :
    join (front ++ "/" ++ path) back = front ++ "/" ++ join path back := by
  rcases cases_end path with rfl | ⟨inner, rfl⟩ | ⟨hne, hend⟩
  · rw [String.append_empty, join_slash h, join_empty]
  · rw [← String.append_assoc, join_slash h, join_slash h]
    simp only [String.append_assoc]
  · have hbehind : front ++ "/" ++ path ≠ "" := by simp
    rw [join_open h hbehind ((endsWith_slash_append _ hne).trans hend), join_open h hne hend]
    simp only [String.append_assoc]

theorem join_assoc (hpath : isAbsolute path = false) (hback : isAbsolute back = false)
    (directory : String) :
    join (join directory path) back = join directory (join path back) := by
  have hrelative : isAbsolute (join path back) = false := by rw [isAbsolute_join hback, hpath]
  rcases cases_end directory with rfl | ⟨front, rfl⟩ | ⟨hne, hend⟩
  · rw [join_empty, join_empty]
  · rw [join_slash hpath, join_slash hrelative, join_behind_slash hback]
  · rw [join_open hpath hne hend, join_open hrelative hne hend, join_behind_slash hback]

end SelfCapture.Path
