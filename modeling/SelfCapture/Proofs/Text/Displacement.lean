import SelfCapture.Proofs.Text.LineMap
import SelfCapture.Proofs.Text.Window

/-! # Displaced texts

  A text that is put behind another one keeps what is read of it: a read
  at an offset answers as the read at the offset moved by the length of
  what stands in front.  What stands in front never shows.

  - `Window.Shows` : one window reads, at moved offsets, as another one.
  - `Window.behind` : the window of the text behind `front`, which does.
  - `LineMap.location_behind` : if lines stand in front, the line of a place
    grows by their number and the column stays.
-/

namespace SelfCapture

/-! ## Section 1: Bytes and slices -/

namespace Text

/-- Moved offsets are equal if the offsets are. -/
theorem add_beq_add (n a b : Nat) : (n + a == n + b) = (a == b) := by
  rw [Bool.eq_iff_iff, beq_iff_eq, beq_iff_eq, Nat.add_left_cancel_iff]

theorem getElem?_behind (front bytes : ByteArray) (offset : Nat) :
    (front ++ bytes)[front.size + offset]? = bytes[offset]? := by
  rcases Nat.lt_or_ge offset bytes.size with hlt | hle
  · have hbound : front.size + offset < (front ++ bytes).size := by
      rw [ByteArray.size_append]
      omega
    rw [getElem?_pos bytes offset hlt,
      getElem?_pos (front ++ bytes) (front.size + offset) hbound,
      ByteArray.getElem_append_right (Nat.le_add_right ..)]
    simp only [Nat.add_sub_cancel_left]
  · have hbound : ¬ front.size + offset < (front ++ bytes).size := by
      rw [ByteArray.size_append]
      omega
    rw [getElem?_neg bytes offset (Nat.not_lt_of_le hle),
      getElem?_neg (front ++ bytes) (front.size + offset) hbound]

theorem isBoundary_behind (front bytes : ByteArray) (offset : Nat) :
    isBoundary (front ++ bytes) (front.size + offset) = isBoundary bytes offset := by
  simp only [isBoundary, getElem?_behind, ByteArray.size_append, add_beq_add]

theorem slice_behind (front bytes : ByteArray) (start stop : Nat) :
    slice (front ++ bytes) (front.size + start) (front.size + stop) = slice bytes start stop := by
  rw [slice, slice, ByteArray.extract_append_size_add]

theorem utf8DecodeChar?_behind (front bytes : ByteArray) (offset : Nat) :
    (front ++ bytes).utf8DecodeChar? (front.size + offset) = bytes.utf8DecodeChar? offset := by
  rw [ByteArray.utf8DecodeChar?_eq_utf8DecodeChar?_extract, ByteArray.size_append,
    ByteArray.extract_append_size_add, ← ByteArray.utf8DecodeChar?_eq_utf8DecodeChar?_extract]

end Text

/-! ## Section 2: Windows -/

namespace Window

/-- At offsets moved by `n`, the second window reads as the first one does.
    After its end there may be a closing parenthesis where the first window
    has nothing, which makes no difference to a test that fails for it. -/
structure Shows (n : Nat) (w w' : Window) : Prop where
  stop_eq : w'.stop = n + w.stop
  get?_eq : ∀ offset, w'.get? (n + offset) = w.get? offset
  char?_eq : ∀ offset, w'.char? (n + offset) = w.char? offset
  slice_eq : ∀ start {stop}, stop ≤ w.stop →
    Text.slice w'.bytes (n + start) (n + stop) = Text.slice w.bytes start stop
  peek?_any : ∀ {offset}, offset ≤ w.stop → ∀ test : Char → Bool, test ')' = false →
    (w'.peek? (n + offset)).any test = (w.peek? offset).any test

namespace Shows

variable {n : Nat} {w w' : Window}

theorem startsWith_eq (h : w.Shows n w') (offset : Nat) (text : List Char) :
    w'.startsWith (n + offset) text = w.startsWith offset text := by
  induction text generalizing offset with
  | nil => rfl
  | cons c rest ih => simp only [startsWith, h.get?_eq, Nat.add_assoc, ih]

theorem left_eq (h : w.Shows n w') (offset : Nat) : w'.left (n + offset) = w.left offset := by
  rw [left, left, h.stop_eq, Nat.add_sub_add_left]

theorem skipUpTo_eq (h : w.Shows n w') (test : Char → Bool) (count offset : Nat) :
    w'.skipUpTo test count (n + offset) = n + w.skipUpTo test count offset := by
  induction count generalizing offset with
  | zero => rfl
  | succ count ih =>
    simp only [skipUpTo, h.get?_eq, Nat.add_assoc, ih]
    split
    · rfl
    · rfl

theorem skipWhile_eq (h : w.Shows n w') (test : Char → Bool) (offset : Nat) :
    w'.skipWhile test (n + offset) = n + w.skipWhile test offset := by
  rw [skipWhile, skipWhile, h.left_eq, h.skipUpTo_eq]

end Shows

/-- The same window of the text that stands behind `front`. -/
def behind (front : ByteArray) (w : Window) : Window := ⟨front ++ w.bytes, front.size + w.stop⟩

variable (front : ByteArray) (w : Window) (offset : Nat)

@[simp] theorem behind_stop : (w.behind front).stop = front.size + w.stop := rfl

@[simp] theorem get?_behind : (w.behind front).get? (front.size + offset) = w.get? offset := by
  simp only [get?, behind, Nat.add_lt_add_iff_left, Text.getElem?_behind]

@[simp] theorem peek?_behind : (w.behind front).peek? (front.size + offset) = w.peek? offset := by
  simp only [peek?, behind, Text.getElem?_behind]

@[simp] theorem char?_behind : (w.behind front).char? (front.size + offset) = w.char? offset := by
  simp only [char?, behind, Nat.add_lt_add_iff_left, Text.isBoundary_behind,
    Text.utf8DecodeChar?_behind]

/-- Behind another text a window shows the same. -/
theorem shows_behind : w.Shows front.size (w.behind front) where
  stop_eq := rfl
  get?_eq := get?_behind front w
  char?_eq := char?_behind front w
  slice_eq := fun _ _ _ => Text.slice_behind ..
  peek?_any := fun _ _ _ => by rw [peek?_behind]

@[simp] theorem startsWith_behind (text : List Char) :
    (w.behind front).startsWith (front.size + offset) text = w.startsWith offset text :=
  (shows_behind front w).startsWith_eq offset text

end Window

/-! ## Section 3: Line feeds -/

/-- A text of `k` line feeds. -/
def lineFeeds (k : Nat) : String := String.ofList (List.replicate k '\n')

theorem lineFeeds_succ (k : Nat) : lineFeeds (k + 1) = "\n" ++ lineFeeds k := by
  apply String.toList_inj.mp
  simp [lineFeeds, List.replicate_succ]

@[simp] theorem size_lineFeeds (k : Nat) : (lineFeeds k).toByteArray.size = k := by
  induction k with
  | zero => rfl
  | succ k ih =>
    rw [lineFeeds_succ, String.toByteArray_append, ByteArray.size_append, ih, Nat.add_comm]
    rfl

theorem getElem?_lineFeeds {k offset : Nat} (h : offset < k) (bytes : ByteArray) :
    ((lineFeeds k).toByteArray ++ bytes)[offset]? = some 0x0A := by
  induction k generalizing offset with
  | zero => exact absurd h (Nat.not_lt_zero _)
  | succ k ih =>
    rw [lineFeeds_succ, String.toByteArray_append, ByteArray.append_assoc]
    cases offset with
    | zero =>
      have hlt : 0 < ("\n".toByteArray ++ ((lineFeeds k).toByteArray ++ bytes)).size := by
        rw [ByteArray.size_append]
        exact Nat.add_pos_left (by decide) _
      rw [getElem?_pos _ 0 hlt, ByteArray.getElem_append_left (by decide)]
      rfl
    | succ offset =>
      have hrest := Text.getElem?_behind "\n".toByteArray
        ((lineFeeds k).toByteArray ++ bytes) offset
      rw [Nat.add_comm] at hrest
      exact hrest.trans (ih (Nat.lt_of_succ_lt_succ h))

namespace LineMap

variable (k : Nat) (text : String)

theorem breaksAfter_lineFeeds {k offset : Nat} (h : offset < k) (bytes : ByteArray) :
    breaksAfter ((lineFeeds k).toByteArray ++ bytes) offset = true := by
  simp [breaksAfter, getElem?_lineFeeds h]

theorem breaksAfter_behind (front bytes : ByteArray) (offset : Nat) :
    breaksAfter (front ++ bytes) (front.size + offset) = breaksAfter bytes offset := by
  simp only [breaksAfter, Nat.add_assoc, Text.getElem?_behind]

/-- The lines of the line feeds come first, then those of the text. -/
theorem starts_lineFeeds :
    (ofText (lineFeeds k ++ text)).starts.toList =
      (List.range k).map (· + 1) ++ (ofText text).starts.toList.map (k + ·) := by
  simp only [ofText, Array.toList_map, Array.toList_filter, Array.toList_range,
    String.toByteArray_append, ByteArray.size_append, size_lineFeeds, List.range_add,
    List.filter_append, List.map_append]
  congr 1
  · rw [List.filter_eq_self.mpr]
    intro offset hoffset
    exact breaksAfter_lineFeeds (List.mem_range.mp hoffset) _
  · have hbreaks (offset : Nat) :
        breaksAfter ((lineFeeds k).toByteArray ++ text.toByteArray) (k + offset) =
          breaksAfter text.toByteArray offset := by
      have hbehind := breaksAfter_behind (lineFeeds k).toByteArray text.toByteArray offset
      rwa [size_lineFeeds] at hbehind
    simp only [List.filter_map, List.map_map, Function.comp_def, hbreaks, Nat.add_assoc]

theorem getD_starts_lineFeeds {k i : Nat} (h : i < k) :
    (ofText (lineFeeds k ++ text)).starts.getD i 0 = i + 1 := by
  rw [Array.getD_eq_getD_getElem?, ← Array.getElem?_toList, starts_lineFeeds,
    List.getElem?_append_left (by simpa using h)]
  simp [h]

theorem getD_starts_behind {i : Nat} (h : i < (ofText text).starts.size) :
    (ofText (lineFeeds k ++ text)).starts.getD (k + i) 0 =
      k + (ofText text).starts.getD i 0 := by
  rw [Array.getD_eq_getD_getElem?, ← Array.getElem?_toList, starts_lineFeeds,
    List.getElem?_append_right (by simp)]
  simp [h]

theorem size_starts_behind :
    (ofText (lineFeeds k ++ text)).starts.size = k + (ofText text).starts.size := by
  rw [← Array.length_toList, starts_lineFeeds]
  simp

/-- All line feeds in front count. -/
theorem breaksBefore_behind (offset : Nat) :
    (ofText (lineFeeds k ++ text)).breaksBefore (k + offset) =
      k + (ofText text).breaksBefore offset := by
  have hsource := breaksBefore_brackets (ofText_ascending text) offset
  refine Brackets.unique (breaksBefore_brackets (ofText_ascending _) _)
    ⟨Nat.le_refl _, ?_, ?_, ?_⟩
  · rw [size_starts_behind]
    exact Nat.add_le_add_left hsource.high_le k
  · intro i hi
    rcases Nat.lt_or_ge i k with hlt | hle
    · rw [getD_starts_lineFeeds text hlt]
      omega
    · obtain ⟨j, rfl⟩ := Nat.exists_eq_add_of_le hle
      have hj : j < (ofText text).breaksBefore offset := by omega
      rw [getD_starts_behind k text (Nat.lt_of_lt_of_le hj hsource.high_le)]
      exact Nat.add_le_add_left (hsource.before hj) k
  · intro i hi hsize
    obtain ⟨j, rfl⟩ := Nat.exists_eq_add_of_le (Nat.le_trans (Nat.le_add_right k _) hi)
    rw [size_starts_behind] at hsize
    have hj : j < (ofText text).starts.size := by omega
    rw [getD_starts_behind k text hj]
    exact Nat.add_lt_add_left (hsource.after (by omega) hj) k

theorem lineStart_behind {line : Nat} (h : line ≤ (ofText text).starts.size) :
    (ofText (lineFeeds k ++ text)).lineStart (k + line) = k + (ofText text).lineStart line := by
  cases line with
  | zero =>
    cases k with
    | zero => rfl
    | succ k =>
      have hlast := getD_starts_lineFeeds text (Nat.lt_succ_self k)
      simpa [lineStart] using hlast
  | succ line => 
    have hstart := getD_starts_behind k text (Nat.lt_of_succ_le h)
    simpa [lineStart, ← Nat.add_assoc] using hstart

/-- Behind line feeds a place has moved down by as many lines, and its column has stayed. -/
theorem location_behind (offset : Nat) :
    (ofText (lineFeeds k ++ text)).location (k + offset) =
      { offset := k + ((ofText text).location offset).offset
        line := ((ofText text).location offset).line + k
        column := ((ofText text).location offset).column } := by
  have hlength : (ofText (lineFeeds k ++ text)).length = k + (ofText text).length := by
    simp only [ofText, String.toByteArray_append, ByteArray.size_append, size_lineFeeds]
  have hcount := (breaksBefore_brackets (ofText_ascending text)
    (min offset (ofText text).length)).high_le
  rw [location_eq, location_eq, hlength, Nat.add_min_add_left, breaksBefore_behind,
    lineStart_behind k text hcount, Nat.add_sub_add_left, Nat.add_comm k (breaksBefore ..),
    Nat.add_right_comm]

end LineMap
end SelfCapture
