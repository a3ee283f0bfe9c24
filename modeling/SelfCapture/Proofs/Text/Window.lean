import SelfCapture.Text.Window

/-! # Reads inside a window

  Every read of a window stays inside it: a byte that is there lies before
  the end, a skip stops at the end at the latest, and a whole character
  that starts before the end also ends there or before.

  - `Window.get?_eq_none_iff` : inside the text, only the end of the window
    has no byte.
  - `Window.char?_le` : a character does not reach over the end.
  - `Window.skipWhile_le`, `Window.lt_skipWhile` : where a skip stops.
-/

namespace SelfCapture

/-! ## Section 1: Bytes of a character -/

namespace Text

theorem isContinuation_tail (x : UInt8) : isContinuation (x &&& 0x3f ||| 0x80) = true := by
  have h : ∀ n : Fin 256, isContinuation (UInt8.ofNat n.val &&& 0x3f ||| 0x80) = true := by
    decide +kernel
  have := h ⟨x.toNat, x.toNat_lt⟩
  simpa using this

/-- Every byte of a character but the first is a continuation. -/
theorem isContinuation_utf8EncodeChar {c : Char} {k : Nat} (hk : 0 < k)
    (hlt : k < (String.utf8EncodeChar c).length) :
    isContinuation (String.utf8EncodeChar c)[k] = true := by
  have hsize : (String.utf8EncodeChar c).length = c.utf8Size := String.length_utf8EncodeChar c
  rcases c.utf8Size_eq with h | h | h | h
  · omega
  · obtain rfl : k = 1 := by omega
    simp [String.utf8EncodeChar_eq_cons_cons h, isContinuation_tail]
  · obtain rfl | rfl : k = 1 ∨ k = 2 := by omega
    all_goals simp [String.utf8EncodeChar_eq_cons_cons_cons h, isContinuation_tail]
  · obtain rfl | rfl | rfl : k = 1 ∨ k = 2 ∨ k = 3 := by omega
    all_goals simp [String.utf8EncodeChar_eq_cons_cons_cons_cons h, isContinuation_tail]

theorem getElem?_of_utf8DecodeChar? {bytes : ByteArray} {i k : Nat} {c : Char}
    (h : bytes.utf8DecodeChar? i = some c) (hk : k < c.utf8Size) :
    bytes[i + k]? = (String.utf8EncodeChar c)[k]? := by
  have hle := ByteArray.le_size_of_utf8DecodeChar?_eq_some h
  rw [ByteArray.utf8DecodeChar?_eq_utf8DecodeChar?_extract] at h
  have henc := String.toByteArray_utf8EncodeChar_of_utf8DecodeChar?_eq_some h
  have hlen : k < (String.utf8EncodeChar c).length := by simpa using hk
  rw [getElem?_pos (String.utf8EncodeChar c) k hlen, getElem?_pos bytes (i + k) (by omega)]
  rw [List.getElem_eq_getElem_toByteArray]
  simp only [henc, ByteArray.getElem_extract]
  congr 2
  omega

/-- A character that starts before a boundary ends at it or before it. -/
theorem add_utf8Size_le_of_isBoundary {bytes : ByteArray} {i stop : Nat} {c : Char}
    (h : bytes.utf8DecodeChar? i = some c) (hlt : i < stop)
    (hb : isBoundary bytes stop = true) : i + c.utf8Size ≤ stop := by
  apply Nat.le_of_not_lt
  -- Otherwise the boundary would be at a later byte of the character, which
  -- is a continuation.
  intro hcon
  obtain ⟨k, rfl⟩ : ∃ k, stop = i + k := ⟨stop - i, by omega⟩
  have hk : k < c.utf8Size := by omega
  have hlen : k < (String.utf8EncodeChar c).length := by simpa using hk
  have hbyte := getElem?_of_utf8DecodeChar? h hk
  rw [List.getElem?_eq_getElem hlen] at hbyte
  have hcont := isContinuation_utf8EncodeChar (by omega) hlen
  simp [isBoundary, hbyte, hcont] at hb

theorem toNat_ofUInt8 (byte : UInt8) : (Char.ofUInt8 byte).toNat = byte.toNat :=
  UInt8.toNat_toUInt32 byte

/-- A byte below `U+0080` is a character of its own. -/
theorem eq_ofUInt8_of_utf8DecodeChar? {bytes : ByteArray} {i : Nat} {c : Char} {byte : UInt8}
    (h : bytes.utf8DecodeChar? i = some c) (hbyte : bytes[i]? = some byte)
    (hlow : byte.toNat < 0x80) : c = Char.ofUInt8 byte := by
  have hsome : (bytes.utf8DecodeChar? i).isSome := by simp [h]
  have hand : ∀ n : Fin 256, n.val < 0x80 → UInt8.ofNat n.val &&& 0x80 = 0 := by decide +kernel
  have hmask : byte &&& 0x80 = 0 := by
    have := hand ⟨byte.toNat, byte.toNat_lt⟩ hlow
    simpa using this
  obtain ⟨hlt, hget⟩ := getElem?_eq_some_iff.mp hbyte
  -- The top bit is clear, so the character has one byte, its own code.
  have hsize : c.utf8Size = 1 := by
    have hdecoded := ByteArray.utf8Size_utf8DecodeChar (b := bytes) (i := i) (h := hsome)
    simp only [ByteArray.utf8DecodeChar, h, Option.get_some, hget] at hdecoded
    rw [hdecoded]
    simp [UInt8.utf8ByteSize, hmask]
  have hfirst := getElem?_of_utf8DecodeChar? h c.utf8Size_pos
  rw [Nat.add_zero, hbyte, String.utf8EncodeChar_eq_singleton hsize] at hfirst
  have hval : c.val.toNat ≤ 127 := by
    simpa [UInt32.le_iff_toNat_le] using Char.utf8Size_eq_one_iff.mp hsize
  simp only [List.getElem?_cons_zero, Option.some.injEq] at hfirst
  apply Char.ext
  apply UInt32.toNat_inj.mp
  rw [hfirst]
  show c.val.toNat = c.val.toUInt8.toUInt32.toNat
  rw [UInt8.toNat_toUInt32, UInt32.toNat_toUInt8]
  omega

end Text

/-! ## Section 2: Reads of a window -/

namespace Window

variable {w : Window} {offset : Nat}

theorem lt_stop_of_get? {c : Char} (h : w.get? offset = some c) : offset < w.stop := by
  unfold get? at h
  split at h
  · assumption
  · cases h

/-- A window whose end lies inside the text has a byte at each offset before the end. -/
theorem get?_eq_none_iff (hw : w.stop ≤ w.bytes.size) :
    w.get? offset = none ↔ w.stop ≤ offset := by
  unfold get?
  split
  · have hlt : offset < w.bytes.size := by omega
    simp [getElem?_pos w.bytes offset hlt]
    omega
  · simp
    omega

/-- A byte inside the window is there wherever the window ends. -/
theorem peek?_of_get? {c : Char} (h : w.get? offset = some c) : w.peek? offset = some c := by
  unfold get? at h
  split at h
  · exact h
  · cases h

/-- A text that the window goes on with can be read part after part. -/
theorem startsWith_append (offset : Nat) (text rest : List Char) :
    w.startsWith offset (text ++ rest) =
      (w.startsWith offset text && w.startsWith (offset + text.length) rest) := by
  induction text generalizing offset with
  | nil => simp [startsWith]
  | cons c text ih =>
    rw [List.cons_append, startsWith, startsWith, ih, List.length_cons, Bool.and_assoc,
      Nat.add_assoc, Nat.add_comm 1]

theorem startsWith_replicate {count : Nat} {c : Char}
    (h : ∀ k < count, w.get? (offset + k) = some c) :
    w.startsWith offset (List.replicate count c) = true := by
  induction count generalizing offset with
  | zero => rfl
  | succ count ih =>
    have hfirst := h 0 (Nat.succ_pos count)
    rw [Nat.add_zero] at hfirst
    rw [List.replicate_succ, startsWith, hfirst, beq_self_eq_true, Bool.true_and]
    apply ih
    intro k hk
    rw [Nat.add_assoc, Nat.add_comm 1]
    exact h (k + 1) (Nat.succ_lt_succ hk)

theorem startsWith_le {text : List Char} (h : w.startsWith offset text = true) (hne : text ≠ []) :
    offset + text.length ≤ w.stop := by
  induction text generalizing offset with
  | nil => exact absurd rfl hne
  | cons c rest ih =>
    simp only [startsWith, Bool.and_eq_true, beq_iff_eq] at h
    have hlt := lt_stop_of_get? h.1
    cases rest with
    | nil => exact hlt
    | cons d rest =>
      have hrest := ih h.2 (by simp)
      simp only [List.length_cons] at hrest ⊢
      omega

theorem char?_le {c : Char} (h : w.char? offset = some c) : offset + c.utf8Size ≤ w.stop := by
  unfold char? at h
  split at h
  · rename_i hc
    simp only [Bool.and_eq_true, decide_eq_true_eq] at hc
    exact Text.add_utf8Size_le_of_isBoundary h hc.1.1 hc.2
  · cases h

/-- A byte below `U+0080` that is read as a character is that character. -/
theorem char?_eq_of_lt {b c : Char} (hb : w.get? offset = some b)
    (hc : w.char? offset = some c) (hlow : b.toNat < 0x80) : c = b := by
  unfold get? at hb
  unfold char? at hc
  split at hc
  · split at hb
    · obtain ⟨byte, hbyte, rfl⟩ := Option.map_eq_some_iff.mp hb
      refine Text.eq_ofUInt8_of_utf8DecodeChar? hc hbyte ?_
      rwa [Text.toNat_ofUInt8] at hlow
    · cases hb
  · cases hc

theorem le_skipUpTo (w : Window) (test : Char → Bool) (count offset : Nat) :
    offset ≤ w.skipUpTo test count offset := by
  induction count generalizing offset with
  | zero => exact Nat.le_refl _
  | succ count ih =>
    unfold skipUpTo
    split
    · have := ih (offset + 1)
      omega
    · exact Nat.le_refl _

theorem skipUpTo_le {test : Char → Bool} {count : Nat} (h : offset ≤ w.stop) :
    w.skipUpTo test count offset ≤ w.stop := by
  induction count generalizing offset with
  | zero => exact h
  | succ count ih =>
    unfold skipUpTo
    split
    · rename_i hany
      obtain ⟨c, hc, -⟩ := (Option.any_eq_true _ _).mp hany
      exact ih (lt_stop_of_get? hc)
    · exact h

/-- No more bytes are skipped than are counted. -/
theorem skipUpTo_le_add (w : Window) (test : Char → Bool) (count offset : Nat) :
    w.skipUpTo test count offset ≤ offset + count := by
  induction count generalizing offset with
  | zero => exact Nat.le_refl _
  | succ count ih =>
    unfold skipUpTo
    split
    · have hrest := ih (offset + 1)
      omega
    · exact Nat.le_add_right ..

/-- Every byte that is skipped passes the test. -/
theorem any_of_lt_skipUpTo {test : Char → Bool} {count i : Nat} (hlow : offset ≤ i)
    (hhigh : i < w.skipUpTo test count offset) : (w.get? i).any test = true := by
  induction count generalizing offset with
  | zero =>
    have hlt : i < offset := hhigh
    omega
  | succ count ih =>
    unfold skipUpTo at hhigh
    split at hhigh
    · rename_i hany
      rcases Nat.eq_or_lt_of_le hlow with rfl | hlt
      · exact hany
      · exact ih hlt hhigh
    · omega

/-- Bytes that pass the test are skipped one by one. -/
theorem skipUpTo_add {test : Char → Bool} (count passed : Nat)
    (h : ∀ k < passed, (w.get? (offset + k)).any test = true) :
    w.skipUpTo test (passed + count) offset = w.skipUpTo test count (offset + passed) := by
  induction passed generalizing offset with
  | zero => rw [Nat.zero_add, Nat.add_zero]
  | succ passed ih =>
    have hfirst := h 0 (Nat.succ_pos passed)
    rw [Nat.add_zero] at hfirst
    rw [Nat.add_right_comm, skipUpTo, if_pos hfirst, ih, Nat.add_assoc, Nat.add_comm 1]
    intro k hk
    have hnext := h (k + 1) (Nat.succ_lt_succ hk)
    rwa [← Nat.add_assoc, Nat.add_right_comm] at hnext

theorem le_skipWhile (w : Window) (test : Char → Bool) (offset : Nat) :
    offset ≤ w.skipWhile test offset := le_skipUpTo ..

theorem skipWhile_le {test : Char → Bool} (h : offset ≤ w.stop) :
    w.skipWhile test offset ≤ w.stop :=
  skipUpTo_le h

/-- A byte that passes the test is skipped. -/
theorem lt_skipWhile {test : Char → Bool} {c : Char} (h : w.get? offset = some c)
    (hc : test c = true) : offset < w.skipWhile test offset := by
  have hlt := lt_stop_of_get? h
  obtain ⟨n, hn⟩ : ∃ n, w.left offset = n + 1 := ⟨w.stop - offset - 1, by unfold left; omega⟩
  have hstep := le_skipUpTo w test n (offset + 1)
  simp only [skipWhile, hn, skipUpTo, h, Option.any_some, hc, if_true]
  omega

end Window
end SelfCapture
