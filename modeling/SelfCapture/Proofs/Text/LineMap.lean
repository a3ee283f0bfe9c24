import SelfCapture.Text.LineMap

/-! # Order of locations

  The starts of the lines of a text ascend, so the search by halving finds
  how many of them are at or before an offset.  From that it follows that
  locations keep the order of offsets, `LineMap.location_before`.
-/

namespace SelfCapture

/-- The first location comes before the second one, by line and then by column. -/
def Location.Before (a b : Location) : Prop :=
  a.line < b.line ∨ a.line = b.line ∧ a.column < b.column

instance (a b : Location) : Decidable (a.Before b) :=
  inferInstanceAs (Decidable (_ ∨ _ ∧ _))

namespace LineMap

variable {starts : Array Nat} {offset : Nat}

/-! ## Section 1: The search -/

/-- Each line starts after the one before it. -/
def Ascending (starts : Array Nat) : Prop := starts.toList.Pairwise (· < ·)

theorem Ascending.getD_lt {i j : Nat} (h : Ascending starts) (hij : i < j) (hj : j < starts.size) :
    starts.getD i 0 < starts.getD j 0 := by
  have hi : i < starts.size := Nat.lt_trans hij hj
  have hlt := List.pairwise_iff_getElem.mp h i j (by simpa using hi) (by simpa using hj) hij
  simpa [Array.getD, hi, hj] using hlt

theorem ofText_ascending (text : String) : Ascending (ofText text).starts := by
  simp only [Ascending, ofText, Array.toList_map, Array.toList_filter, Array.toList_range]
  refine List.pairwise_map.mpr ?_
  refine (List.pairwise_lt_range.filter _).imp fun hlt => ?_
  exact Nat.add_lt_add_right hlt 1

/-- The entries before `low` are at most `offset`, those from `high` on are greater. -/
structure Brackets (starts : Array Nat) (offset low high : Nat) : Prop where
  low_le : low ≤ high
  high_le : high ≤ starts.size
  before : ∀ {i}, i < low → starts.getD i 0 ≤ offset
  after : ∀ {i}, high ≤ i → i < starts.size → offset < starts.getD i 0

namespace Brackets

variable {low high : Nat}

theorem whole (starts : Array Nat) (offset : Nat) : Brackets starts offset 0 starts.size where
  low_le := Nat.zero_le _
  high_le := Nat.le_refl _
  before := fun h => absurd h (Nat.not_lt_zero _)
  after := fun hle hlt => absurd hlt (Nat.not_lt_of_le hle)

/-- An entry that is at most the offset moves the lower end up to it. -/
theorem raise (hs : Ascending starts) (h : Brackets starts offset low high) {middle : Nat}
    (hmiddle : middle < high) (hle : starts.getD middle 0 ≤ offset) :
    Brackets starts offset (middle + 1) high where
  low_le := hmiddle
  high_le := h.high_le
  before := by
    intro i hi
    rcases Nat.lt_or_eq_of_le (Nat.le_of_lt_succ hi) with hlt | rfl
    · have hless := hs.getD_lt hlt (Nat.lt_of_lt_of_le hmiddle h.high_le)
      omega
    · exact hle
  after := h.after

/-- An entry that is greater than the offset moves the upper end down to it. -/
theorem lower (hs : Ascending starts) (h : Brackets starts offset low high) {middle : Nat}
    (hlow : low ≤ middle) (hmiddle : middle < high) (hgt : offset < starts.getD middle 0) :
    Brackets starts offset low middle where
  low_le := hlow
  high_le := Nat.le_trans (Nat.le_of_lt hmiddle) h.high_le
  before := h.before
  after := by
    intro i hi hsize
    rcases Nat.lt_or_eq_of_le hi with hlt | rfl
    · have hless := hs.getD_lt hlt hsize
      omega
    · exact hgt

/-- The search closes the interval, if it may halve it often enough. -/
theorem search (hs : Ascending starts) (steps : Nat) (h : Brackets starts offset low high)
    (hsteps : high - low ≤ steps) :
    Brackets starts offset (LineMap.search starts offset steps low high)
      (LineMap.search starts offset steps low high) := by
  -- Each step shortens the interval, and the entries around it stay compared.
  induction steps generalizing low high with
  | zero =>
    obtain rfl : low = high := by
      have hle := h.low_le
      omega
    exact h
  | succ steps ih =>
    unfold LineMap.search
    split
    · rename_i hlt
      have hlow : low ≤ (low + high) / 2 := by omega
      have hhigh : (low + high) / 2 < high := by omega
      dsimp only
      split
      · rename_i hle
        exact ih (h.raise hs hhigh hle) (by omega)
      · rename_i hgt
        exact ih (h.lower hs hlow hhigh (Nat.lt_of_not_le hgt)) (by omega)
    · rename_i hnot
      obtain rfl : low = high := by
        have hle := h.low_le
        omega
      exact h

/-- Only one number has the smaller entries before it and the others after it. -/
theorem unique {count count' : Nat} (h : Brackets starts offset count count)
    (h' : Brackets starts offset count' count') : count = count' := by
  apply Nat.le_antisymm
  · refine Nat.le_of_not_lt fun hlt => ?_
    exact Nat.lt_irrefl _ (Nat.lt_of_lt_of_le
      (h'.after (Nat.le_refl _) (Nat.lt_of_lt_of_le hlt h.high_le)) (h.before hlt))
  · refine Nat.le_of_not_lt fun hlt => ?_
    exact Nat.lt_irrefl _ (Nat.lt_of_lt_of_le
      (h.after (Nat.le_refl _) (Nat.lt_of_lt_of_le hlt h'.high_le)) (h'.before hlt))

end Brackets

theorem breaksBefore_brackets {map : LineMap} (hs : Ascending map.starts) (offset : Nat) :
    Brackets map.starts offset (map.breaksBefore offset) (map.breaksBefore offset) :=
  (Brackets.whole map.starts offset).search hs _ (Nat.le_refl _)

/-! ## Section 2: Locations -/

/-- Where a line starts, the first line counting as zero. -/
def lineStart (map : LineMap) (line : Nat) : Nat :=
  if line = 0 then 0 else map.starts.getD (line - 1) 0

theorem location_eq (map : LineMap) (offset : Nat) :
    map.location offset =
      { offset := min offset map.length
        line := map.breaksBefore (min offset map.length) + 1
        column := min offset map.length -
          map.lineStart (map.breaksBefore (min offset map.length)) + 1 } := rfl

theorem location_of_le {map : LineMap} (h : offset ≤ map.length) :
    map.location offset =
      { offset
        line := map.breaksBefore offset + 1
        column := offset - map.lineStart (map.breaksBefore offset) + 1 } := by
  rw [location_eq, Nat.min_eq_left h]

theorem lineStart_le {map : LineMap} (hs : Ascending map.starts) (offset : Nat) :
    map.lineStart (map.breaksBefore offset) ≤ offset := by
  unfold lineStart
  split
  · exact Nat.zero_le _
  · exact (breaksBefore_brackets hs offset).before (by omega)

theorem breaksBefore_mono {map : LineMap} (hs : Ascending map.starts) {a b : Nat} (h : a ≤ b) :
    map.breaksBefore a ≤ map.breaksBefore b := by
  have hfirst := breaksBefore_brackets hs a
  have hsecond := breaksBefore_brackets hs b
  refine Nat.le_of_not_lt fun hlt => ?_
  -- The entry at the second count would be at most `a` and greater than `b`.
  have hle := hfirst.before hlt
  have hgt := hsecond.after (Nat.le_refl _) (Nat.lt_of_lt_of_le hlt hfirst.high_le)
  omega

/-- Locations are ordered as the offsets are. -/
theorem location_before {map : LineMap} (hs : Ascending map.starts) {a b : Nat} (h : a < b)
    (hb : b ≤ map.length) : (map.location a).Before (map.location b) := by
  rw [location_of_le hb, location_of_le (Nat.le_of_lt (Nat.lt_of_lt_of_le h hb))]
  rcases Nat.lt_or_eq_of_le (breaksBefore_mono hs (Nat.le_of_lt h)) with hlt | heq
  · exact .inl (Nat.add_lt_add_right hlt 1)
  · -- On the same line both columns count from the same start.
    refine .inr ⟨congrArg (· + 1) heq, ?_⟩
    have hstart := lineStart_le hs a
    simp only [← heq]
    omega

/-- Offsets with one location are one offset. -/
theorem location_injective {map : LineMap} (hs : Ascending map.starts) {a b : Nat}
    (ha : a ≤ map.length) (hb : b ≤ map.length)
    (hline : (map.location a).line = (map.location b).line)
    (hcolumn : (map.location a).column = (map.location b).column) : a = b := by
  have hapart : ∀ {x y : Nat}, x < y → y ≤ map.length →
      (map.location x).line = (map.location y).line →
      (map.location x).column ≠ (map.location y).column := by
    intro x y hlt hy hline hcolumn
    rcases location_before hs hlt hy with hbefore | ⟨-, hbefore⟩
    · omega
    · omega
  rcases Nat.lt_trichotomy a b with hlt | heq | hlt
  · exact absurd hcolumn (hapart hlt hb hline)
  · exact heq
  · exact absurd hcolumn.symm (hapart hlt ha hline.symm)

end LineMap
end SelfCapture
