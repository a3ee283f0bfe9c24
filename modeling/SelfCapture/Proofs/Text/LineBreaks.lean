import SelfCapture.Proofs.Text.LineMap

/-! # Locations count line breaks

  Read from the left, a text has line breaks: a line feed, a carriage
  return, or the two in sequence as one break.  `breaks` lists where they
  end.

  The line map finds them by looking at each byte and the one after it, and
  a location is found by halving.  This module ties both to the list:
  `starts_eq_breaks` and `Brackets.filter_eq_take`.  So a line is numbered by
  the breaks that end before it, and a column counts from the last of them.
-/

namespace SelfCapture.LineMap

variable {starts : Array Nat} {offset : Nat}

/-! ## Section 1: The line breaks of a text -/

/-- Where the line breaks among some bytes end, the first byte standing at `offset`. -/
def breakEnds : (offset : Nat) → List UInt8 → List Nat
  | _, [] => []
  | offset, 0x0D :: 0x0A :: rest => (offset + 2) :: breakEnds (offset + 2) rest
  | offset, 0x0D :: rest => (offset + 1) :: breakEnds (offset + 1) rest
  | offset, 0x0A :: rest => (offset + 1) :: breakEnds (offset + 1) rest
  | offset, _ :: rest => breakEnds (offset + 1) rest

/-- Where the line breaks of a text end, in order. -/
def breaks (text : String) : List Nat := breakEnds 0 text.toByteArray.data.toList

theorem getElem?_of_drop {bytes : ByteArray} {tail : List UInt8}
    (h : bytes.data.toList.drop offset = tail) : bytes[offset]? = tail.head? := by
  rw [← h, List.head?_drop, Array.getElem?_toList]
  rfl

theorem drop_succ {bytes : ByteArray} {byte : UInt8} {rest : List UInt8}
    (h : bytes.data.toList.drop offset = byte :: rest) :
    bytes.data.toList.drop (offset + 1) = rest := by
  rw [← List.drop_drop, h, List.drop_one, List.tail_cons]

theorem breaksAfter_of_drop {bytes : ByteArray} {byte : UInt8} {rest : List UInt8}
    (h : bytes.data.toList.drop offset = byte :: rest) :
    breaksAfter bytes offset =
      (byte == 0x0A || (byte == 0x0D && rest.head? != some 0x0A)) := by
  rw [breaksAfter, getElem?_of_drop h, getElem?_of_drop (drop_succ h)]
  rfl

/-- Looking at each byte and the one after it finds the line breaks. -/
theorem breakEnds_eq (bytes : ByteArray) {tail : List UInt8}
    (h : bytes.data.toList.drop offset = tail) :
    breakEnds offset tail =
      ((List.range' offset tail.length).filter (breaksAfter bytes)).map (· + 1) := by
  fun_induction breakEnds offset tail with
  | case1 offset => rfl
  | case2 offset rest ih =>
    -- A return with a line feed behind it: two offsets, of which only the second ends a line.
    have hreturn := breaksAfter_of_drop h
    have hfeed := breaksAfter_of_drop (drop_succ h)
    have hrest := ih (drop_succ (drop_succ h))
    simp [List.range'_succ, hreturn, hfeed, hrest]
  | case3 offset rest hfeed ih =>
    -- A return alone ends the line.
    have hreturn := breaksAfter_of_drop h
    have hrest := ih (drop_succ h)
    have hhead : rest.head? ≠ some 0x0A := by
      intro heq
      obtain ⟨more, rfl⟩ := List.head?_eq_some_iff.mp heq
      exact hfeed more rfl
    simp [List.range'_succ, hreturn, hhead, hrest]
  | case4 offset rest ih =>
    have hbreak := breaksAfter_of_drop h
    have hrest := ih (drop_succ h)
    simp [List.range'_succ, hbreak, hrest]
  | case5 offset byte rest hpair hreturn hfeed ih =>
    have hbreak := breaksAfter_of_drop h
    have hrest := ih (drop_succ h)
    have hnone : breaksAfter bytes offset = false := by
      have hnotReturn : byte ≠ 0x0D := hreturn
      have hnotFeed : byte ≠ 0x0A := hfeed
      simp [hbreak, hnotReturn, hnotFeed]
    simp [List.range'_succ, hnone, hrest]

/-- The line map holds the ends of the line breaks. -/
theorem starts_eq_breaks (text : String) : (ofText text).starts.toList = breaks text := by
  have hwhole : text.toByteArray.data.toList.drop 0 = text.toByteArray.data.toList := List.drop_zero
  rw [breaks, breakEnds_eq text.toByteArray hwhole]
  simp only [ofText, Array.toList_map, Array.toList_filter, Array.toList_range, Array.length_toList,
    List.range_eq_range']
  rfl

/-! ## Section 2: Breaks before an offset -/

theorem getD_eq_getElem_toList {i : Nat} (hi : i < starts.toList.length) :
    starts.getD i 0 = starts.toList[i] := by
  rw [Array.getD_eq_getD_getElem?, ← Array.getElem?_toList, List.getElem?_eq_getElem hi]
  rfl

/-- The entries that are at most the offset are those that the search has counted. -/
theorem Brackets.filter_eq_take {count : Nat} (h : Brackets starts offset count count) :
    starts.toList.filter (· ≤ offset) = starts.toList.take count := by
  have hsize : starts.toList.length = starts.size := Array.length_toList
  have hbefore : ∀ start ∈ starts.toList.take count, decide (start ≤ offset) = true := by
    intro start hstart
    obtain ⟨i, hi, rfl⟩ := List.mem_take_iff_getElem.mp hstart
    have hle := h.before (show i < count by omega)
    rw [getD_eq_getElem_toList (by omega)] at hle
    simpa using hle
  have hafter : ∀ start ∈ starts.toList.drop count, ¬ decide (start ≤ offset) = true := by
    intro start hstart
    obtain ⟨i, hi, rfl⟩ := List.mem_drop_iff_getElem.mp hstart
    have hlt := h.after (Nat.le_add_right count i) (by omega)
    rw [getD_eq_getElem_toList (by omega)] at hlt
    simpa using hlt
  calc starts.toList.filter (· ≤ offset)
      = (starts.toList.take count ++ starts.toList.drop count).filter (· ≤ offset) := by
        rw [List.take_append_drop]
    _ = starts.toList.take count := by
        rw [List.filter_append, List.filter_eq_self.mpr hbefore, List.filter_eq_nil_iff.mpr hafter,
          List.append_nil]

/-- The breaks of a text that end at an offset or before it. -/
def passed (text : String) (offset : Nat) : List Nat := (breaks text).filter (· ≤ offset)

/-- Where the last break ends that a list of them holds, or the start of the text. -/
def lastEnd (ends : List Nat) : Nat := ends.getLast?.getD 0

theorem passed_eq_take (text : String) (offset : Nat) :
    passed text offset = (breaks text).take ((ofText text).breaksBefore offset) := by
  have hbrackets := breaksBefore_brackets (ofText_ascending text) offset
  rw [passed, ← starts_eq_breaks]
  exact hbrackets.filter_eq_take

theorem length_passed (text : String) (offset : Nat) :
    (passed text offset).length = (ofText text).breaksBefore offset := by
  have hbrackets := breaksBefore_brackets (ofText_ascending text) offset
  rw [passed_eq_take, List.length_take, ← starts_eq_breaks, Array.length_toList]
  exact Nat.min_eq_left hbrackets.high_le

/-- The line of an offset starts where the last break before the offset ends. -/
theorem lastEnd_passed (text : String) (offset : Nat) :
    lastEnd (passed text offset) = (ofText text).lineStart ((ofText text).breaksBefore offset) := by
  have hbrackets := breaksBefore_brackets (ofText_ascending text) offset
  have hle := hbrackets.high_le
  rw [lastEnd, passed_eq_take, ← starts_eq_breaks, lineStart, List.getLast?_take]
  split
  · rfl
  · have hlast : (ofText text).breaksBefore offset - 1 < (ofText text).starts.toList.length := by
      rw [Array.length_toList]
      omega
    rw [getD_eq_getElem_toList hlast, List.getElem?_eq_getElem hlast]
    rfl

/-! ## Section 3: Locations -/

/-- The offset of a line and a column in a text. -/
def offsetAt (text : String) (line column : Nat) : Nat :=
  (0 :: breaks text).getD (line - 1) 0 + (column - 1)

/-- The start of a line is found in the text. -/
theorem lineStart_eq_getD (text : String) (line : Nat) :
    (ofText text).lineStart line = (0 :: breaks text).getD line 0 := by
  cases line with
  | zero => rfl
  | succ line =>
    rw [lineStart, if_neg (Nat.succ_ne_zero line), Nat.add_sub_cancel, List.getD_cons_succ,
      ← starts_eq_breaks, Array.getD_eq_getD_getElem?, ← Array.getElem?_toList]
    rfl

/-- A line is numbered by the breaks that end before it, and a column counts
    from the last of them. -/
theorem location_eq_passed {text : String} (h : offset ≤ text.toByteArray.size) :
    (ofText text).location offset =
      { offset
        line := 1 + (passed text offset).length
        column := offset - lastEnd (passed text offset) + 1 } := by
  rw [location_of_le h, length_passed, lastEnd_passed, Nat.add_comm 1]

theorem lastEnd_passed_le (text : String) (offset : Nat) :
    lastEnd (passed text offset) ≤ offset := by
  rw [lastEnd_passed]
  exact lineStart_le (ofText_ascending text) offset

/-- An offset is found again from its line and its column. -/
theorem offsetAt_location {text : String} (h : offset ≤ text.toByteArray.size) :
    offsetAt text ((ofText text).location offset).line ((ofText text).location offset).column =
      offset := by
  have hle := lineStart_le (ofText_ascending text) offset
  rw [location_of_le h]
  simp only [offsetAt, Nat.add_sub_cancel, ← lineStart_eq_getD]
  omega

theorem location_before_iff {text : String} {a b : Nat} (ha : a ≤ text.toByteArray.size)
    (hb : b ≤ text.toByteArray.size) :
    ((ofText text).location a).Before ((ofText text).location b) ↔ a < b := by
  have hascending := ofText_ascending text
  constructor
  · intro hbefore
    apply Nat.lt_of_not_le
    intro hle
    rcases Nat.lt_or_eq_of_le hle with hlt | rfl
    · -- Neither location comes before the other one and after it.
      have hafter := location_before hascending hlt ha
      unfold Location.Before at hbefore hafter
      omega
    · unfold Location.Before at hbefore
      omega
  · intro hlt
    exact location_before hascending hlt hb

/-- A break ends where the byte before it completes one. -/
theorem mem_breaks {text : String} {stop : Nat} :
    stop ∈ breaks text ↔
      ∃ offset < text.toByteArray.size,
        breaksAfter text.toByteArray offset = true ∧ offset + 1 = stop := by
  rw [← starts_eq_breaks]
  simp [ofText, and_assoc]

/-- Of two offsets the second one is on a later line just if a break ends
    after the first one and not after the second one. -/
theorem line_lt_iff {text : String} {a b : Nat} (hab : a ≤ b) (hb : b ≤ text.toByteArray.size) :
    ((ofText text).location a).line < ((ofText text).location b).line ↔
      ∃ stop ∈ breaks text, a < stop ∧ stop ≤ b := by
  have hmono := breaksBefore_mono (ofText_ascending text) hab
  rw [location_eq_passed (Nat.le_trans hab hb), location_eq_passed hb]
  constructor
  · intro hlt
    apply Classical.byContradiction
    intro hnone
    -- Without such a break the same breaks end before both offsets.
    have hsame : passed text b = passed text a := by
      apply List.filter_congr
      intro stop hstop
      have hnot : ¬ (a < stop ∧ stop ≤ b) := fun h => hnone ⟨stop, hstop, h⟩
      simp only [decide_eq_decide]
      omega
    rw [hsame] at hlt
    exact Nat.lt_irrefl _ hlt
  · rintro ⟨stop, hstop, hlow, hhigh⟩
    rw [length_passed, length_passed]
    apply Nat.add_lt_add_left
    apply Nat.lt_of_le_of_ne hmono
    intro heq
    have hsame : passed text a = passed text b := by
      rw [passed_eq_take, passed_eq_take, heq]
    have hmem : stop ∈ passed text a := by
      rw [hsame]
      exact List.mem_filter.mpr ⟨hstop, decide_eq_true hhigh⟩
    have hle := of_decide_eq_true (List.mem_filter.mp hmem).2
    omega

/-- Locations are an order isomorphism between the offsets of a text and
    their lines and columns.  The line is one more than the number of breaks
    that end at or before the offset, the column counts from the end of the
    last of them, and both together with the text give the offset.  The line
    start that is taken away from the offset is the end of that break, so it
    is never after the offset.  An offset past the end is located at the end. -/
theorem location_counts_breaks (text : String) :
    let map := ofText text
    let length := text.toByteArray.size
    (∀ offset ≤ length,
      map.location offset =
        { offset
          line := 1 + (passed text offset).length
          column := offset - lastEnd (passed text offset) + 1 } ∧
      map.lineStart (map.breaksBefore offset) = lastEnd (passed text offset) ∧
      lastEnd (passed text offset) ≤ offset ∧
      offsetAt text (map.location offset).line (map.location offset).column = offset) ∧
    (∀ a b, a ≤ length → b ≤ length → ((map.location a).Before (map.location b) ↔ a < b)) ∧
    ∀ offset, length ≤ offset → map.location offset = map.location length := by
  intro map length
  refine ⟨?_, ?_, ?_⟩
  · intro offset hle
    exact ⟨location_eq_passed hle, (lastEnd_passed text offset).symm,
      lastEnd_passed_le text offset, offsetAt_location hle⟩
  · intro a b ha hb
    exact location_before_iff ha hb
  · intro offset hle
    have hlength : map.length = length := rfl
    rw [location_eq, location_eq, hlength, Nat.min_eq_right hle, Nat.min_self]

/-- Between a carriage return and its line feed, after a carriage return
    alone, and past the end. -/
theorem location_counts_breaks_returns :
    let text := "a\r\nb\rc"
    let map := ofText text
    (2 ≤ text.toByteArray.size ∧ 5 ≤ text.toByteArray.size ∧ text.toByteArray.size ≤ 9) ∧
      map.location 2 = ⟨2, 1, 3⟩ ∧ map.location 5 = ⟨5, 3, 1⟩ ∧
      (map.location 2).Before (map.location 5) ∧
      map.location 9 = map.location text.toByteArray.size := by
  intro text map
  have htwo : 2 ≤ text.toByteArray.size := by decide +kernel
  have hfive : 5 ≤ text.toByteArray.size := by decide +kernel
  have hnine : text.toByteArray.size ≤ 9 := by decide +kernel
  obtain ⟨hlocation, hbefore, hpast⟩ := location_counts_breaks text
  have hfirst : passed text 2 = [] := by decide +kernel
  have hsecond : passed text 5 = [3, 5] := by decide +kernel
  refine ⟨⟨htwo, hfive, hnine⟩, ?_, ?_, ?_, hpast 9 hnine⟩
  · rw [(hlocation 2 htwo).1, hfirst]
    rfl
  · rw [(hlocation 5 hfive).1, hsecond]
    rfl
  · exact (hbefore 2 5 htwo hfive).mpr (by decide)

end SelfCapture.LineMap
