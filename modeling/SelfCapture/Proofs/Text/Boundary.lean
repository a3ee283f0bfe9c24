import SelfCapture.Proofs.Text.Window

/-! # Character boundaries

  A text is read byte by byte, and all offsets count bytes.  An offset is
  aligned when it lies between two characters of the text, or at one of its
  ends.  Only aligned offsets delimit a slice that is a text again.

  A byte below `U+0080` is a character of its own, so both its ends are
  aligned, however the byte was found.  This is why a reading that skips
  bytes one by one, also in the middle of a character, ends on an aligned
  offset if it ends at such a byte.
-/

namespace SelfCapture

/-! ## Section 1: Aligned offsets -/

namespace Text

variable {text : String} {offset start stop : Nat}

/-- What holds of the 256 bytes, one by one, holds of every byte. -/
theorem forall_byte {P : UInt8 → Prop} (h : ∀ n : Fin 256, P (UInt8.ofNat n.val))
    (byte : UInt8) : P byte := by
  have hbyte := h ⟨byte.toNat, byte.toNat_lt⟩
  rwa [UInt8.ofNat_toNat] at hbyte

theorem isContinuation_of_isUTF8FirstByte :
    ∀ byte : UInt8, byte.IsUTF8FirstByte → isContinuation byte = false := by
  apply forall_byte
  decide +kernel

theorem isUTF8FirstByte_of_lt :
    ∀ byte : UInt8, byte.toNat < 0x80 → byte.IsUTF8FirstByte := by
  apply forall_byte
  decide +kernel

/-- The offset lies between two characters of the text, or at one of its ends. -/
def Aligned (text : String) (offset : Nat) : Prop := (String.Pos.Raw.mk offset).IsValid text

theorem aligned_zero : Aligned text 0 := String.Pos.Raw.isValid_zero

theorem aligned_size : Aligned text text.toByteArray.size := by
  rw [String.size_toByteArray]
  exact String.Pos.Raw.isValid_rawEndPos

theorem Aligned.le (h : Aligned text offset) : offset ≤ text.toByteArray.size := by
  rw [String.size_toByteArray]
  exact String.Pos.Raw.IsValid.le_utf8ByteSize h

theorem Aligned.max (h : Aligned text start) (h' : Aligned text stop) :
    Aligned text (max start stop) := by
  rcases Nat.le_total start stop with hle | hle
  · rwa [Nat.max_eq_right hle]
  · rwa [Nat.max_eq_left hle]

/-- A character starts at an aligned offset before the end. -/
theorem Aligned.exists_char (h : Aligned text offset) (hlt : offset < text.toByteArray.size) :
    ∃ c, text.toByteArray.utf8DecodeChar? offset = some c := by
  rw [String.size_toByteArray] at hlt
  rcases String.Pos.Raw.isValid_iff_isSome_utf8DecodeChar?.mp h with heq | hsome
  · have hsize : offset = text.utf8ByteSize := congrArg String.Pos.Raw.byteIdx heq
    omega
  · exact Option.isSome_iff_exists.mp hsome

/-- The bytes of a character are a text. -/
theorem isValidUTF8_char {bytes : ByteArray} {c : Char}
    (h : bytes.utf8DecodeChar? offset = some c) :
    (bytes.extract offset (offset + c.utf8Size)).IsValidUTF8 := by
  have hle := ByteArray.le_size_of_utf8DecodeChar?_eq_some h
  rw [ByteArray.utf8DecodeChar?_eq_utf8DecodeChar?_extract] at h
  have henc := String.toByteArray_utf8EncodeChar_of_utf8DecodeChar?_eq_some h
  refine ⟨[c], ?_⟩
  rw [List.utf8Encode_singleton, henc, ByteArray.extract_extract]
  congr 1
  omega

/-- A character ends at an aligned offset. -/
theorem aligned_after_char {c : Char} (h : text.toByteArray.utf8DecodeChar? offset = some c) :
    Aligned text (offset + c.utf8Size) := by
  have hle := ByteArray.le_size_of_utf8DecodeChar?_eq_some h
  have hvalid := isValidUTF8_char h
  have hpos := c.utf8Size_pos
  have hends := (String.Pos.Raw.isValidUTF8_extract_iff ⟨offset⟩ ⟨offset + c.utf8Size⟩
    (by simp [String.Pos.Raw.le_iff]) (by simpa [String.Pos.Raw.le_iff] using hle)).mp hvalid
  rcases hends with heq | hends
  · have hsame : offset = offset + c.utf8Size := congrArg String.Pos.Raw.byteIdx heq
    omega
  · exact hends.2

theorem Aligned.isBoundary (h : Aligned text offset) :
    isBoundary text.toByteArray offset = true := by
  rcases Nat.lt_or_ge offset text.toByteArray.size with hlt | hge
  · -- The first byte of a character is no continuation.
    obtain ⟨c, hc⟩ := h.exists_char hlt
    have hfirst := ByteArray.isUTF8FirstByte_of_isSome_utf8DecodeChar? (by rw [hc]; rfl)
    have hnot := isContinuation_of_isUTF8FirstByte _ hfirst
    simp [Text.isBoundary, getElem?_pos text.toByteArray offset hlt, hnot]
  · have heq : offset = text.toByteArray.size := Nat.le_antisymm h.le hge
    simp [Text.isBoundary, heq]

/-- Both ends of a byte below `U+0080` are aligned. -/
theorem aligned_of_ascii {byte : UInt8} (hbyte : text.toByteArray[offset]? = some byte)
    (hlow : byte.toNat < 0x80) : Aligned text offset ∧ Aligned text (offset + 1) := by
  obtain ⟨hlt, hget⟩ := getElem?_eq_some_iff.mp hbyte
  have hself : Aligned text offset := by
    refine String.Pos.Raw.isValid_iff_isUTF8FirstByte.mpr (Or.inr ⟨?_, ?_⟩)
    · rw [String.size_toByteArray] at hlt
      exact hlt
    · rw [String.getUTF8Byte]
      exact hget ▸ isUTF8FirstByte_of_lt byte hlow
  obtain ⟨c, hc⟩ := hself.exists_char hlt
  have hsize : c.utf8Size = 1 := by
    rw [eq_ofUInt8_of_utf8DecodeChar? hc hbyte hlow, Char.utf8Size_eq_one_iff,
      UInt32.le_iff_toNat_le]
    show (Char.ofUInt8 byte).toNat ≤ 127
    rw [toNat_ofUInt8]
    omega
  exact ⟨hself, hsize ▸ aligned_after_char hc⟩

/-- A character that starts with the first byte of a byte order mark has three bytes. -/
theorem utf8Size_of_mark {bytes : ByteArray} {c : Char}
    (h : bytes.utf8DecodeChar? offset = some c) (hbyte : bytes[offset]? = some 0xEF) :
    c.utf8Size = 3 := by
  have hsome : (bytes.utf8DecodeChar? offset).isSome := by simp [h]
  obtain ⟨hlt, hget⟩ := getElem?_eq_some_iff.mp hbyte
  have hdecoded := ByteArray.utf8Size_utf8DecodeChar (b := bytes) (i := offset) (h := hsome)
  simp only [ByteArray.utf8DecodeChar, h, Option.get_some, hget] at hdecoded
  exact hdecoded

/-- Between aligned offsets the slice is exact. -/
theorem toByteArray_slice (hstart : Aligned text start) (hstop : Aligned text stop)
    (hle : start ≤ stop) :
    (slice text.toByteArray start stop).toByteArray = text.toByteArray.extract start stop := by
  have hvalid : (text.toByteArray.extract start stop).IsValidUTF8 :=
    (String.Pos.Raw.isValidUTF8_extract_iff ⟨start⟩ ⟨stop⟩ hle
      (String.Pos.Raw.IsValid.le_rawEndPos hstop)).mpr (Or.inr ⟨hstart, hstop⟩)
  rw [slice, String.fromUTF8?, dif_pos hvalid]
  rfl

end Text

/-! ## Section 2: Windows on a text -/

namespace Window

variable {text : String} {w : Window} {offset : Nat}

/-- A window on the text that ends at an aligned offset. -/
structure Fits (w : Window) (text : String) : Prop where
  bytes_eq : w.bytes = text.toByteArray
  stop : Text.Aligned text w.stop

namespace Fits

theorem stop_le (hw : w.Fits text) : w.stop ≤ w.bytes.size := by
  rw [hw.bytes_eq]
  exact hw.stop.le

theorem exists_byte (hw : w.Fits text) {c : Char} (h : w.get? offset = some c) :
    ∃ byte : UInt8, text.toByteArray[offset]? = some byte ∧ byte.toNat = c.toNat := by
  unfold get? at h
  split at h
  · obtain ⟨byte, hbyte, rfl⟩ := Option.map_eq_some_iff.mp h
    exact ⟨byte, hw.bytes_eq ▸ hbyte, (Text.toNat_ofUInt8 byte).symm⟩
  · cases h

theorem of_get? (hw : w.Fits text) {c : Char} (h : w.get? offset = some c)
    (hlow : c.toNat < 0x80) : Text.Aligned text offset ∧ Text.Aligned text (offset + 1) := by
  obtain ⟨byte, hbyte, hval⟩ := hw.exists_byte h
  exact Text.aligned_of_ascii hbyte (hval ▸ hlow)

theorem after_get? (hw : w.Fits text) {c : Char} (h : w.get? offset = some c)
    (hlow : c.toNat < 0x80) : Text.Aligned text (offset + 1) := (hw.of_get? h hlow).2

/-- Where no byte is left, the window ends. -/
theorem of_get?_none (hw : w.Fits text) (h : w.get? offset = none) (hle : offset ≤ w.stop) :
    Text.Aligned text offset := by
  have hge := (get?_eq_none_iff hw.stop_le).mp h
  rw [Nat.le_antisymm hle hge]
  exact hw.stop

theorem decode_of_char? (hw : w.Fits text) {c : Char} (h : w.char? offset = some c) :
    text.toByteArray.utf8DecodeChar? offset = some c := by
  unfold char? at h
  split at h
  · exact hw.bytes_eq ▸ h
  · cases h

theorem of_char? (hw : w.Fits text) {c : Char} (h : w.char? offset = some c) :
    Text.Aligned text (offset + c.utf8Size) :=
  Text.aligned_after_char (hw.decode_of_char? h)

/-- Before the end of the window a whole character stands at every aligned offset. -/
theorem exists_char? (hw : w.Fits text) (h : Text.Aligned text offset) (hlt : offset < w.stop) :
    ∃ c, w.char? offset = some c := by
  have hsize : offset < text.toByteArray.size := Nat.lt_of_lt_of_le hlt hw.stop.le
  obtain ⟨c, hc⟩ := h.exists_char hsize
  refine ⟨c, ?_⟩
  simp [char?, hw.bytes_eq, hlt, h.isBoundary, hw.stop.isBoundary, hc]

theorem of_startsWith (hw : w.Fits text) {expected : List Char}
    (h : w.startsWith offset expected = true) (hlow : ∀ c ∈ expected, c.toNat < 0x80)
    (hne : expected ≠ []) : Text.Aligned text (offset + expected.length) := by
  induction expected generalizing offset with
  | nil => exact absurd rfl hne
  | cons c rest ih =>
    simp only [startsWith, Bool.and_eq_true, beq_iff_eq] at h
    cases rest with
    | nil => exact hw.after_get? h.1 (hlow c List.mem_cons_self)
    | cons d rest =>
      have hrest := ih h.2 (fun c hc => hlow c (List.mem_cons_of_mem _ hc)) (by simp)
      rwa [List.length_cons, Nat.add_comm _ 1, ← Nat.add_assoc]

/-- Skipping bytes below `U+0080` keeps the offset aligned. -/
theorem skipUpTo (hw : w.Fits text) {test : Char → Bool}
    (htest : ∀ c, test c = true → c.toNat < 0x80) (count : Nat) (h : Text.Aligned text offset) :
    Text.Aligned text (w.skipUpTo test count offset) := by
  induction count generalizing offset with
  | zero => exact h
  | succ count ih =>
    unfold Window.skipUpTo
    split
    · rename_i hany
      obtain ⟨c, hc, hpass⟩ := (Option.any_eq_true _ _).mp hany
      exact ih (hw.after_get? hc (htest c hpass))
    · exact h

theorem skipWhile (hw : w.Fits text) {test : Char → Bool}
    (htest : ∀ c, test c = true → c.toNat < 0x80) (h : Text.Aligned text offset) :
    Text.Aligned text (w.skipWhile test offset) :=
  hw.skipUpTo htest _ h

end Fits

/-- A skip stops at a byte that fails the test, or where no byte is left. -/
theorem skipUpTo_stops {test : Char → Bool} {count : Nat} (hcount : w.stop - offset ≤ count) :
    (w.get? (w.skipUpTo test count offset)).any test = false := by
  induction count generalizing offset with
  | zero =>
    have hnone : w.get? offset = none := by
      rw [get?, if_neg (by omega)]
    simp [skipUpTo, hnone]
  | succ count ih =>
    unfold skipUpTo
    split
    · exact ih (by omega)
    · rename_i hstop
      simpa using hstop

/-- A skip that only a byte below `U+0080` can stop ends on an aligned
    offset, wherever it starts. -/
theorem Fits.skipWhile_until (hw : w.Fits text) {test : Char → Bool}
    (htest : ∀ c, test c = false → c.toNat < 0x80) (hle : offset ≤ w.stop) :
    Text.Aligned text (w.skipWhile test offset) := by
  have hstops : (w.get? (w.skipWhile test offset)).any test = false :=
    skipUpTo_stops (Nat.le_refl _)
  cases hget : w.get? (w.skipWhile test offset) with
  | none => exact hw.of_get?_none hget (skipWhile_le hle)
  | some c =>
    rw [hget, Option.any_some] at hstops
    exact (hw.of_get? hget (htest c hstops)).1

end Window
end SelfCapture
