import SelfCapture.Proofs.Text.Boundary
import SelfCapture.Proofs.Text.Displacement

/-! # Excerpts

  A part of a text that is read in place, through a window, shows what the
  part shows when it is a text of its own.  Reads stay before the end of
  the window, and a character that starts in the part ends in it, because
  the part ends where a character does.  Where a read goes past the end, it
  finds the closing parenthesis that follows the part:
  `Window.shows_excerpt`.
-/

namespace SelfCapture

/-! ## Section 1: Bytes before an end -/

namespace Text

variable {bytes rest : ByteArray} {offset start stop : Nat}

theorem getElem?_before (h : offset < bytes.size) : (bytes ++ rest)[offset]? = bytes[offset]? := by
  have hlt : offset < (bytes ++ rest).size := by
    rw [ByteArray.size_append]
    omega
  rw [getElem?_pos bytes offset h, getElem?_pos (bytes ++ rest) offset hlt,
    ByteArray.getElem_append_left h]

theorem extract_before (h : stop ≤ bytes.size) :
    (bytes ++ rest).extract start stop = bytes.extract start stop := by
  have hnothing : rest.extract (start - bytes.size) (stop - bytes.size) = .empty := by
    rw [ByteArray.extract_eq_empty_iff]
    omega
  rw [ByteArray.extract_append, hnothing, ByteArray.append_empty]

theorem slice_before (h : stop ≤ bytes.size) :
    slice (bytes ++ rest) start stop = slice bytes start stop := by
  rw [slice, slice, extract_before h]

theorem isBoundary_before (h : offset < bytes.size) :
    isBoundary (bytes ++ rest) offset = isBoundary bytes offset := by
  simp only [isBoundary, getElem?_before h, getElem?_pos bytes offset h]

/-- A character that ends before the end of the bytes is there without what follows them. -/
theorem utf8DecodeChar?_of_append {c : Char}
    (h : (bytes ++ rest).utf8DecodeChar? offset = some c) (hle : offset + c.utf8Size ≤ bytes.size) :
    bytes.utf8DecodeChar? offset = some c := by
  rw [ByteArray.utf8DecodeChar?_eq_utf8DecodeChar?_extract] at h
  have hcode := String.toByteArray_utf8EncodeChar_of_utf8DecodeChar?_eq_some h
  have hchar : (String.utf8EncodeChar c).toByteArray =
      bytes.extract offset (offset + c.utf8Size) := by
    rw [hcode, ByteArray.extract_extract, ← extract_before hle]
    congr 1
    rw [ByteArray.size_append]
    omega
  rw [ByteArray.utf8DecodeChar?_eq_utf8DecodeChar?_extract,
    ByteArray.extract_eq_extract_append_extract (offset + c.utf8Size) (by omega) hle, ← hchar,
    ByteArray.utf8DecodeChar?_utf8EncodeChar_append]

theorem utf8DecodeChar?_before (h : offset < bytes.size)
    (hend : isBoundary (bytes ++ rest) bytes.size = true) :
    (bytes ++ rest).utf8DecodeChar? offset = bytes.utf8DecodeChar? offset := by
  cases hread : bytes.utf8DecodeChar? offset with
  | some c => exact ByteArray.utf8DecodeChar?_append_eq_some hread rest
  | none =>
    cases hlonger : (bytes ++ rest).utf8DecodeChar? offset with
    | none => rfl
    | some c =>
      have hle := add_utf8Size_le_of_isBoundary hlonger h hend
      rw [utf8DecodeChar?_of_append hlonger hle] at hread
      cases hread

end Text

/-! ## Section 2: Windows on a part -/

namespace Window

/-- A part of a text, followed by a closing parenthesis, that is read in place. -/
theorem shows_excerpt (front part rest : ByteArray) (hnext : rest[0]? = some 0x29) :
    Window.Shows front.size ⟨part, part.size⟩
      ⟨front ++ (part ++ rest), front.size + part.size⟩ := by
  have hclose : (part ++ rest)[part.size]? = some 0x29 := by
    have hbehind := Text.getElem?_behind part rest 0
    rwa [Nat.add_zero, hnext] at hbehind
  have hend : Text.isBoundary (part ++ rest) part.size = true := by
    rw [Text.isBoundary, hclose]
    rfl
  have hend' : Text.isBoundary part part.size = true := by
    simp [Text.isBoundary]
  -- What stands in front is known not to matter.
  have hfront := shows_behind front ⟨part ++ rest, part.size⟩
  refine ⟨rfl, fun offset => ?_, fun offset => ?_, fun start stop hle => ?_, ?_⟩
  · apply (hfront.get?_eq offset).trans
    unfold get?
    by_cases hlt : offset < part.size
    · simp only [Text.getElem?_before hlt]
    · rw [if_neg hlt, if_neg hlt]
  · apply (hfront.char?_eq offset).trans
    unfold char?
    by_cases hlt : offset < part.size
    · simp only [hend, hend', Text.isBoundary_before hlt, Text.utf8DecodeChar?_before hlt hend]
    · simp only [hlt, decide_false, Bool.false_and, Bool.false_eq_true, if_false]
  · exact (hfront.slice_eq start hle).trans (Text.slice_before hle)
  · intro offset hle test htest
    apply (hfront.peek?_any hle test htest).trans
    unfold peek?
    rcases Nat.lt_or_eq_of_le hle with hlt | rfl
    · simp only [Text.getElem?_before hlt]
    · -- At the end there is the parenthesis, or nothing.
      show ((part ++ rest)[part.size]?.map Char.ofUInt8).any test = _
      have hnone : part[part.size]? = none := getElem?_neg part part.size (Nat.lt_irrefl _)
      rw [hclose, hnone]
      exact htest

end Window
end SelfCapture
