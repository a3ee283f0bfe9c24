import SelfCapture.Proofs.Text.Boundary

/-! # Windows character by character

  A window gives bytes, and a text is a sequence of characters.
  `Window.Holds w offset chars` says that from an offset on the window
  consists of the given characters, up to its end, which is the end of the
  text.  Reads of the window are then reads of the list: a test that only
  characters below `U+0080` can pass has the same answer on the byte at the
  offset and on the first character, `Window.Holds.any_get?`.
-/

namespace SelfCapture.Text

/-! ## Section 1: Sizes and slices -/

/-- What holds of all characters below `U+0080` can be checked on one after the other. -/
theorem forall_low {P : Char → Prop} (h : ∀ n : Fin 128, P (Char.ofNat n.val)) (c : Char)
    (hlow : c.toNat < 0x80) : P c := by
  have hc := h ⟨c.toNat, hlow⟩
  rwa [Char.ofNat_toNat] at hc

theorem utf8Size_of_low {c : Char} (h : c.toNat < 0x80) : c.utf8Size = 1 := by
  rw [Char.utf8Size_eq_one_iff, UInt32.le_iff_toNat_le]
  exact Nat.le_of_lt_succ h

theorem size_utf8Encode_cons (c : Char) (chars : List Char) :
    (c :: chars).utf8Encode.size = c.utf8Size + chars.utf8Encode.size := by
  rw [List.utf8Encode_cons, ByteArray.size_append, List.utf8Encode_singleton,
    List.size_toByteArray, String.length_utf8EncodeChar]

theorem length_le_size (chars : List Char) : chars.length ≤ chars.utf8Encode.size := by
  induction chars with
  | nil => exact Nat.zero_le _
  | cons c chars ih =>
    have hpos := c.utf8Size_pos
    rw [size_utf8Encode_cons, List.length_cons]
    omega

theorem size_of_low {chars : List Char} (h : ∀ c ∈ chars, c.toNat < 0x80) :
    chars.utf8Encode.size = chars.length := by
  induction chars with
  | nil => rfl
  | cons c chars ih =>
    rw [size_utf8Encode_cons, utf8Size_of_low (h c List.mem_cons_self),
      ih fun d hd => h d (List.mem_cons_of_mem _ hd), List.length_cons, Nat.add_comm]

/-- Bytes that encode characters are sliced as these characters. -/
theorem slice_of_extract {bytes : ByteArray} {start stop : Nat} {chars : List Char}
    (h : bytes.extract start stop = chars.utf8Encode) :
    slice bytes start stop = String.ofList chars := by
  have hvalid : chars.utf8Encode.IsValidUTF8 := ⟨chars, rfl⟩
  rw [slice, h, String.fromUTF8?, dif_pos hvalid, Option.getD_some]
  rfl

/-- A slice that is not empty is exact. -/
theorem extract_of_slice {bytes : ByteArray} {start stop : Nat} {chars : List Char}
    (hne : chars ≠ []) (h : slice bytes start stop = String.ofList chars) :
    bytes.extract start stop = chars.utf8Encode := by
  rw [slice, String.fromUTF8?] at h
  split at h
  · rw [Option.getD_some] at h
    rw [← String.toByteArray_ofList, ← h]
    rfl
  · rw [Option.getD_none] at h
    have hnone : chars = [] := by simpa using congrArg String.toList h.symm
    exact absurd hnone hne

/-- Slices that adjoin make one slice. -/
theorem slice_append {bytes : ByteArray} {start middle stop : Nat} {chars more : List Char}
    (hstart : start ≤ middle) (hstop : middle ≤ stop) (hne : chars ≠ []) (hne' : more ≠ [])
    (h : slice bytes start middle = String.ofList chars)
    (h' : slice bytes middle stop = String.ofList more) :
    slice bytes start stop = String.ofList (chars ++ more) := by
  apply slice_of_extract
  rw [ByteArray.extract_eq_extract_append_extract middle hstart hstop, extract_of_slice hne h,
    extract_of_slice hne' h', List.utf8Encode_append]

end SelfCapture.Text

namespace SelfCapture.Window

/-- From the offset on, the window consists of the characters. -/
structure Holds (w : Window) (offset : Nat) (chars : List Char) : Prop where
  stop_eq : w.stop = w.bytes.size
  offset_le : offset ≤ w.bytes.size
  bytes_eq : w.bytes.extract offset w.bytes.size = chars.utf8Encode

/-- A text is held from its start. -/
theorem holds_text (chars : List Char) :
    Holds ⟨(String.ofList chars).toByteArray, (String.ofList chars).toByteArray.size⟩ 0 chars where
  stop_eq := rfl
  offset_le := Nat.zero_le _
  bytes_eq := by rw [ByteArray.extract_zero_size, String.toByteArray_ofList]

namespace Holds

variable {w : Window} {offset : Nat} {c : Char} {chars rest : List Char}

theorem size_eq (h : w.Holds offset chars) : w.bytes.size - offset = chars.utf8Encode.size := by
  rw [← h.bytes_eq, ByteArray.size_extract, Nat.min_self]

/-- The window is long enough for the characters. -/
theorem size_le_left (h : w.Holds offset (chars ++ rest)) :
    chars.utf8Encode.size ≤ w.left offset := by
  have hsize := h.size_eq
  rw [List.utf8Encode_append, ByteArray.size_append] at hsize
  rw [left, h.stop_eq]
  omega

theorem length_le_left (h : w.Holds offset (chars ++ rest)) : chars.length ≤ w.left offset :=
  Nat.le_trans (Text.length_le_size chars) h.size_le_left

/-! ## Section 2: The first character -/

theorem decode (h : w.Holds offset (c :: chars)) : w.bytes.utf8DecodeChar? offset = some c := by
  rw [ByteArray.utf8DecodeChar?_eq_utf8DecodeChar?_extract, h.bytes_eq,
    List.utf8DecodeChar?_utf8Encode_cons]

theorem lt_stop (h : w.Holds offset (c :: chars)) : offset < w.stop := by
  have hle := ByteArray.le_size_of_utf8DecodeChar?_eq_some h.decode
  have hpos := c.utf8Size_pos
  rw [h.stop_eq]
  omega

theorem char?_eq (h : w.Holds offset (c :: chars)) : w.char? offset = some c := by
  have hlt := h.lt_stop
  have hsize : offset < w.bytes.size := h.stop_eq ▸ hlt
  have hfirst := ByteArray.isUTF8FirstByte_of_isSome_utf8DecodeChar? (by rw [h.decode]; rfl)
  have hstart : Text.isBoundary w.bytes offset = true := by
    have hnot := Text.isContinuation_of_isUTF8FirstByte _ hfirst
    simp [Text.isBoundary, getElem?_pos w.bytes offset hsize, hnot]
  have hstop : Text.isBoundary w.bytes w.stop = true := by
    rw [h.stop_eq]
    simp [Text.isBoundary]
  simp [char?, hlt, hstart, hstop, h.decode]

/-- The first byte of a character is low exactly if the character is. -/
theorem exists_byte (h : w.Holds offset (c :: chars)) :
    ∃ byte : UInt8, w.get? offset = some (Char.ofUInt8 byte) ∧
      (byte.toNat < 0x80 → c = Char.ofUInt8 byte) ∧ (c.toNat < 0x80 → byte.toNat < 0x80) := by
  have hlt := h.lt_stop
  have hsize : offset < w.bytes.size := h.stop_eq ▸ hlt
  have hbyte : w.bytes[offset]? = some w.bytes[offset] := getElem?_pos w.bytes offset hsize
  refine ⟨w.bytes[offset], by simp [get?, hlt, hbyte], ?_, ?_⟩
  · exact Text.eq_ofUInt8_of_utf8DecodeChar? h.decode hbyte
  · intro hlow
    have hone := Text.utf8Size_of_low hlow
    have hfirst := Text.getElem?_of_utf8DecodeChar? h.decode c.utf8Size_pos
    rw [Nat.add_zero, hbyte, String.utf8EncodeChar_eq_singleton hone] at hfirst
    have hval : w.bytes[offset] = c.val.toUInt8 := by simpa using hfirst
    rw [hval, UInt32.toNat_toUInt8]
    exact Nat.lt_of_le_of_lt (Nat.mod_le _ _) hlow

theorem get?_eq (h : w.Holds offset (c :: chars)) (hlow : c.toNat < 0x80) :
    w.get? offset = some c := by
  obtain ⟨byte, hget, heq, hiff⟩ := h.exists_byte
  rw [hget, ← heq (hiff hlow)]

/-- A character above `U+007F` shows as a byte above it. -/
theorem exists_high (h : w.Holds offset (c :: chars)) (hhigh : ¬ c.toNat < 0x80) :
    ∃ b, w.get? offset = some b ∧ ¬ b.toNat < 0x80 := by
  obtain ⟨byte, hget, heq, -⟩ := h.exists_byte
  refine ⟨_, hget, fun hlow => hhigh ?_⟩
  rw [Text.toNat_ofUInt8] at hlow
  rw [heq hlow, Text.toNat_ofUInt8]
  exact hlow

theorem get?_nil (h : w.Holds offset []) : w.get? offset = none := by
  have hsize := h.size_eq
  rw [List.utf8Encode_nil, ByteArray.size_empty] at hsize
  have hstop := h.stop_eq
  rw [get?, if_neg (by omega)]

/-- A test for low characters sees the first character. -/
theorem any_get? {test : Char → Bool} (htest : ∀ d, test d = true → d.toNat < 0x80)
    (h : w.Holds offset chars) : (w.get? offset).any test = chars.head?.any test := by
  cases chars with
  | nil => rw [h.get?_nil, List.head?_nil, Option.any_none]
  | cons c chars =>
    rw [List.head?_cons, Option.any_some]
    by_cases hlow : c.toNat < 0x80
    · rw [h.get?_eq hlow, Option.any_some]
    · -- A high character fails the test, and so does its first byte.
      obtain ⟨b, hget, hhigh⟩ := h.exists_high hlow
      rw [hget, Option.any_some, Bool.eq_iff_iff]
      exact ⟨fun hb => absurd (htest b hb) hhigh, fun hc => absurd (htest c hc) hlow⟩

theorem get?_ne (h : w.Holds offset chars) (hlow : c.toNat < 0x80) (hne : chars.head? ≠ some c) :
    w.get? offset ≠ some c := by
  have hany : (w.get? offset).any (· == c) = chars.head?.any (· == c) := by
    refine h.any_get? fun d hd => ?_
    rw [eq_of_beq hd]
    exact hlow
  intro hget
  rw [hget, Option.any_some, BEq.rfl] at hany
  obtain ⟨d, hd, heq⟩ := (Option.any_eq_true _ _).mp hany.symm
  rw [eq_of_beq heq] at hd
  exact hne hd

/-! ## Section 3: Going on -/

theorem drop (h : w.Holds offset (chars ++ rest)) :
    w.Holds (offset + chars.utf8Encode.size) rest where
  stop_eq := h.stop_eq
  offset_le := by
    have hsize := h.size_eq
    have hle := h.offset_le
    rw [List.utf8Encode_append, ByteArray.size_append] at hsize
    omega
  bytes_eq := by
    have hbytes := congrArg (fun bytes => bytes.extract chars.utf8Encode.size bytes.size) h.bytes_eq
    simp only [List.utf8Encode_append, ByteArray.extract_extract, ByteArray.size_extract,
      ByteArray.size_append, Nat.min_self] at hbytes
    rw [ByteArray.extract_append_eq_right rfl (by simp)] at hbytes
    rw [← hbytes]
    congr 1
    omega

theorem tail (h : w.Holds offset (c :: chars)) : w.Holds (offset + c.utf8Size) chars := by
  have hcut : w.Holds offset ([c] ++ chars) := h
  have hdrop := hcut.drop
  rw [Text.size_utf8Encode_cons] at hdrop
  exact hdrop

theorem tail_low (h : w.Holds offset (c :: chars)) (hlow : c.toNat < 0x80) :
    w.Holds (offset + 1) chars := by
  have htail := h.tail
  rw [Text.utf8Size_of_low hlow] at htail
  exact htail

theorem startsWith_iff {expected : List Char} (hlow : ∀ d ∈ expected, d.toNat < 0x80)
    (h : w.Holds offset chars) : w.startsWith offset expected = true ↔ expected <+: chars := by
  induction expected generalizing offset chars with
  | nil => simp [startsWith]
  | cons d expected ih =>
    rw [startsWith, Bool.and_eq_true, beq_iff_eq]
    have hd := hlow d List.mem_cons_self
    cases chars with
    | nil => simp [h.get?_nil]
    | cons c chars =>
      rw [List.cons_prefix_cons]
      by_cases heq : d = c
      · subst heq
        rw [h.get?_eq hd, ih (fun e he => hlow e (List.mem_cons_of_mem _ he)) (h.tail_low hd)]
        simp
      · have hne := h.get?_ne hd (by simpa using Ne.symm heq)
        simp [hne, heq]

/-- All bytes of a character above `U+007F` are above it. -/
theorem exists_high_of_lt {k : Nat} (h : w.Holds offset (c :: chars)) (hhigh : ¬ c.toNat < 0x80)
    (hk : k < c.utf8Size) : ∃ b, w.get? (offset + k) = some b ∧ ¬ b.toNat < 0x80 := by
  rcases Nat.eq_zero_or_pos k with rfl | hpos
  · exact h.exists_high hhigh
  · have hlength : k < (String.utf8EncodeChar c).length := by simpa using hk
    have hbyte := Text.getElem?_of_utf8DecodeChar? h.decode hk
    rw [List.getElem?_eq_getElem hlength] at hbyte
    have hcontinues := Text.isContinuation_utf8EncodeChar hpos hlength
    have hstop : offset + k < w.stop := by
      rw [h.stop_eq]
      exact (getElem?_eq_some_iff.mp hbyte).1
    refine ⟨_, by rw [get?, if_pos hstop, hbyte, Option.map_some], ?_⟩
    rw [Text.toNat_ofUInt8]
    simp only [Text.isContinuation, Bool.and_eq_true, decide_eq_true_eq,
      UInt8.le_iff_toNat_le] at hcontinues
    exact Nat.not_lt.mpr hcontinues.1

/-- A skip stops at a character that fails the test, which is a low one. -/
theorem skipUpTo_stop {test : Char → Bool} (count : Nat)
    (htest : ∀ d : Char, ¬ d.toNat < 0x80 → test d = true)
    (hrest : rest.head?.any test = false) (h : w.Holds offset rest) :
    w.skipUpTo test count offset = offset := by
  have hget : (w.get? offset).any test = false := by
    cases rest with
    | nil => rw [h.get?_nil, Option.any_none]
    | cons c rest =>
      rw [List.head?_cons, Option.any_some] at hrest
      have hlow : c.toNat < 0x80 := by
        refine Decidable.byContradiction fun hhigh => ?_
        rw [htest c hhigh] at hrest
        cases hrest
      rw [h.get?_eq hlow, Option.any_some, hrest]
  cases count with
  | zero => rfl
  | succ count =>
    rw [skipUpTo, hget]
    rfl

/-- What passes the test is skipped; characters above `U+007F` have to pass it. -/
theorem skipWhile_eq {test : Char → Bool} (htest : ∀ d : Char, ¬ d.toNat < 0x80 → test d = true)
    (hchars : chars.all test = true) (hrest : rest.head?.any test = false)
    (h : w.Holds offset (chars ++ rest)) :
    w.skipWhile test offset = offset + chars.utf8Encode.size := by
  -- By induction on the characters, each of which is skipped byte by byte.
  have hskip : ∀ count, chars.utf8Encode.size ≤ count →
      w.skipUpTo test count offset = offset + chars.utf8Encode.size := by
    induction chars generalizing offset with
    | nil => exact fun count _ => h.skipUpTo_stop count htest hrest
    | cons c chars ih =>
      intro count hcount
      rw [List.all_cons, Bool.and_eq_true] at hchars
      rw [Text.size_utf8Encode_cons] at hcount ⊢
      obtain ⟨more, rfl⟩ : ∃ more, count = c.utf8Size + more := ⟨count - c.utf8Size, by omega⟩
      have hbytes : ∀ k < c.utf8Size, (w.get? (offset + k)).any test = true := by
        intro k hk
        by_cases hlow : c.toNat < 0x80
        · rw [Text.utf8Size_of_low hlow] at hk
          obtain rfl : k = 0 := by omega
          rw [Nat.add_zero, h.get?_eq hlow, Option.any_some]
          exact hchars.1
        · obtain ⟨b, hget, hhigh⟩ := h.exists_high_of_lt hlow hk
          rw [hget, Option.any_some]
          exact htest b hhigh
      rw [skipUpTo_add more _ hbytes, ih hchars.2 h.tail more (by omega), Nat.add_assoc]
  exact hskip _ h.size_le_left

/-- The characters as a slice of the text. -/
theorem slice_eq (h : w.Holds offset (chars ++ rest)) :
    Text.slice w.bytes offset (offset + chars.utf8Encode.size) = String.ofList chars := by
  have hbytes := congrArg (fun bytes => bytes.extract 0 chars.utf8Encode.size) h.bytes_eq
  simp only [List.utf8Encode_append, ByteArray.extract_extract, Nat.add_zero] at hbytes
  have hsize := h.size_eq
  rw [List.utf8Encode_append, ByteArray.size_append] at hsize
  have hle := h.offset_le
  rw [ByteArray.extract_append_eq_left rfl] at hbytes
  refine Text.slice_of_extract (Eq.trans ?_ hbytes)
  congr 1
  omega

end Holds
end SelfCapture.Window
