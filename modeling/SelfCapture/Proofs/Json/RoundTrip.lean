import SelfCapture.Json.Printer
import SelfCapture.Json.Reader
import SelfCapture.Json.Record
import Mathlib.Data.List.Basic
import Std.Data.String.ToNat

/-! # JSON that is written is read back

  `Json.parse?` reads what `Json.pretty` wrote as the same value, if its
  numbers are words and it is not nested too deeply.

  The reader has an arm for each kind of value, and there is one lemma for
  each.  Each reader takes its part off the front of the text and leaves the
  rest; only a number has to know what follows it.  The budget of the reader
  is enough if it exceeds the length of what was written, because each of
  its steps passes a character: a step into a list passes the bracket, a
  step to the next item the comma.
-/

namespace SelfCapture.Json

/-! ## Section 1: Gaps -/

/-- Nothing but white space. -/
def Blank (gap : List Char) : Prop := ∀ c ∈ gap, isGap c = true

theorem blank_newline (level : Nat) : Blank (newline level).toList := by
  intro c hmem
  simp only [newline, String.toList_append, String.toList_ofList, List.mem_append] at hmem
  rcases hmem with hbreak | hspace
  · obtain rfl := List.mem_singleton.mp hbreak
    rfl
  · obtain rfl := List.eq_of_mem_replicate hspace
    rfl

theorem skipGap_append {gap : List Char} (hgap : Blank gap) (text : List Char) :
    skipGap (gap ++ text) = skipGap text :=
  List.dropWhile_append_of_pos hgap

theorem skipGap_cons {c : Char} (hc : isGap c = false) (text : List Char) :
    skipGap (c :: text) = c :: text :=
  List.dropWhile_cons_of_neg (by simp [hc])

theorem skipGap_append_cons {gap : List Char} (hgap : Blank gap) {c : Char} (hc : isGap c = false)
    (text : List Char) : skipGap (gap ++ c :: text) = c :: text := by
  rw [skipGap_append hgap, skipGap_cons hc]

section

variable {gap : List Char} (count depth : Nat)

theorem readValue_append (hgap : Blank gap) (text : List Char) :
    readValue count depth (gap ++ text) = readValue count depth text := by
  cases count with
  | zero => rw [readValue, readValue]
  | succ count => rw [readValue, readValue, skipGap_append hgap]

theorem readItems_append (hgap : Blank gap) (text : List Char) :
    readItems count depth (gap ++ text) = readItems count depth text := by
  cases count with
  | zero => rw [readItems, readItems]
  | succ count => rw [readItems, readItems, readValue_append count depth hgap]

theorem readMembers_append (hgap : Blank gap) (text : List Char) :
    readMembers count depth (gap ++ text) = readMembers count depth text := by
  cases count with
  | zero => rw [readMembers, readMembers]
  | succ count => rw [readMembers, readMembers, skipGap_append hgap]

end

/-! ## Section 2: Numbers -/

/-- A number that stands before the text ends there. -/
def EndsNumber (text : List Char) : Prop :=
  ∀ c ∈ text.head?, c.isDigit = false ∧ c ≠ '.' ∧ c ≠ 'e' ∧ c ≠ 'E'

theorem endsNumber_cons {c : Char} (hdigit : c.isDigit = false) (hc : c ≠ '.' ∧ c ≠ 'e' ∧ c ≠ 'E')
    (text : List Char) : EndsNumber (c :: text) := by
  rintro _ ⟨⟩
  exact ⟨hdigit, hc⟩

theorem endsNumber_comma (text : List Char) : EndsNumber (',' :: text) :=
  endsNumber_cons rfl (by decide) text

theorem endsNumber_append_cons {gap : List Char} (hgap : Blank gap) {c : Char} {text : List Char}
    (htext : EndsNumber (c :: text)) : EndsNumber (gap ++ c :: text) := by
  cases gap with
  | nil => exact htext
  | cons space gap =>
    have hspace := hgap space List.mem_cons_self
    simp only [isGap, Bool.or_eq_true, beq_iff_eq] at hspace
    rcases hspace with ((rfl | rfl) | rfl) | rfl <;> exact endsNumber_cons rfl (by decide) _

theorem isDigit_of_mem {n : Nat} {c : Char} (hmem : c ∈ Nat.toDigits 10 n) : c.isDigit = true :=
  Nat.isDigit_of_mem_toDigits (by decide) (by decide) hmem

theorem exists_digit (n : Nat) :
    ∃ c digits, Nat.toDigits 10 n = c :: digits ∧ c.isDigit = true := by
  obtain ⟨c, digits, heq⟩ := List.exists_cons_of_ne_nil (Nat.toDigits_ne_nil (b := 10) (n := n))
  exact ⟨c, digits, heq, isDigit_of_mem (heq ▸ List.mem_cons_self)⟩

/-- The digits of a number other than zero do not start with a zero. -/
theorem exists_digit_of_pos {n : Nat} (hn : 0 < n) :
    ∃ c digits, Nat.toDigits 10 n = c :: digits ∧ c ≠ '0' := by
  induction n using Nat.strongRecOn with
  | ind n ih =>
    by_cases hlt : n < 10
    · refine ⟨_, [], Nat.toDigits_of_lt_base hlt, ?_⟩
      rw [Ne, Nat.digitChar_eq_zero]
      omega
    · -- The last digit comes after those of a tenth of the number.
      obtain ⟨c, digits, heq, hc⟩ := ih (n / 10) (by omega) (by omega)
      refine ⟨c, digits ++ [(n % 10).digitChar], ?_, hc⟩
      rw [Nat.toDigits_of_base_le (by decide) (by omega), heq, List.cons_append]

section

variable {rest : List Char} (hrest : EndsNumber rest)
include hrest

theorem takeWhile_digits {digits : List Char} (hdigits : ∀ c ∈ digits, c.isDigit = true) :
    (digits ++ rest).takeWhile Char.isDigit = digits := by
  rw [List.takeWhile_append_of_pos hdigits]
  cases rest with
  | nil => exact List.append_nil digits
  | cons c rest => simp [(hrest c rfl).1]

theorem dropWhile_digits {digits : List Char} (hdigits : ∀ c ∈ digits, c.isDigit = true) :
    (digits ++ rest).dropWhile Char.isDigit = rest := by
  rw [List.dropWhile_append_of_pos hdigits]
  cases rest with
  | nil => rfl
  | cons c rest => simp [(hrest c rfl).1]

theorem wholePart_digits (n : Nat) :
    wholePart (Nat.toDigits 10 n ++ rest) = some (Nat.toDigits 10 n, rest) := by
  have htake := takeWhile_digits hrest (fun _ => isDigit_of_mem (n := n))
  have hdrop := dropWhile_digits hrest (fun _ => isDigit_of_mem (n := n))
  -- A zero stands alone, and no other number starts with one.
  rcases Nat.eq_zero_or_pos n with rfl | hn
  · cases rest with
    | nil => rfl
    | cons c rest => simp [wholePart, (hrest c rfl).1]
  · obtain ⟨c, digits, heq, hc⟩ := exists_digit_of_pos hn
    rw [heq] at htake hdrop ⊢
    unfold wholePart
    split
    · rename_i hzero
      exact absurd (List.head_eq_of_cons_eq hzero) hc
    · dsimp only
      rw [htake, hdrop]
      rfl

theorem fractionPart_rest : fractionPart rest = some ([], rest) := by
  unfold fractionPart
  split
  · exact absurd rfl (hrest '.' rfl).2.1
  · rfl

theorem exponentPart_rest : exponentPart rest = some (none, rest) := by
  cases rest with
  | nil => rfl
  | cons c rest =>
    obtain ⟨-, -, he, hE⟩ := hrest c rfl
    simp [exponentPart, he, hE]

end

theorem inRange_of_length {digits : List Char} (h : digits.length < 300) :
    inRange digits 0 = true := by
  have hle : (digits.dropWhile (· == '0')).length ≤ digits.length :=
    (List.dropWhile_sublist _).length_le
  have hshort : ¬ ((digits.dropWhile (· == '0')).length : Int) + 0 > 310 := by omega
  have hsmall : ((digits.dropWhile (· == '0')).length : Int) + 0 < 300 := by omega
  simp only [inRange, if_neg hshort, if_pos hsmall, ite_self]

theorem length_toDigits_lt {n : Nat} (hn : n < wordBound) : (Nat.toDigits 10 n).length < 300 := by
  have hpow : n < 10 ^ 10 := Nat.lt_trans hn (by decide)
  have hlength := (Nat.length_toDigits_le_iff (by decide) (by decide)).mpr hpow
  omega

/-- A word is read up to the end of its digits. -/
theorem readNumber_word {n : Nat} (hn : n < wordBound) {rest : List Char}
    (hrest : EndsNumber rest) :
    readNumber (Nat.toDigits 10 n ++ rest) = some (nat n, rest) := by
  have hsign : ¬ ((Nat.toDigits 10 n ++ rest).head? == some '-') = true := by
    obtain ⟨c, digits, heq, hc⟩ := exists_digit n
    rw [beq_iff_eq, heq]
    intro hhead
    obtain rfl : c = '-' := Option.some.inj hhead
    cases hc
  have hrange : inRange (Nat.toDigits 10 n) 0 = true := inRange_of_length (length_toDigits_lt hn)
  have hsize : (Nat.toDigits 10 n ++ rest).length - rest.length = (Nat.toDigits 10 n).length := by
    rw [List.length_append, Nat.add_sub_cancel]
  simp only [readNumber, if_neg hsign, wholePart_digits hrest, fractionPart_rest hrest,
    exponentPart_rest hrest, Option.bind_eq_bind, Option.bind_some, List.append_nil,
    Option.getD_none, List.length_nil, hsize, List.take_left, nat, Nat.toString_eq_ofList_toDigits]
  exact if_pos hrange

/-! ## Section 3: Strings -/

theorem hexDigit?_hexChar : ∀ value < 16, Text.hexDigit? (Text.hexChar value) = some value := by
  decide

/-- A control character is read from the four digits of its code. -/
theorem readUnit_control {code : Nat} (hcode : code < 0x20) (rest : List Char) :
    readUnit ('0' :: '0' :: Text.hexChar (code / 16) :: Text.hexChar (code % 16) :: rest) =
      some (code, rest) := by
  have hzero : Text.hexDigit? '0' = some 0 := rfl
  have hhigh := hexDigit?_hexChar (code / 16) (by omega)
  have hlow := hexDigit?_hexChar (code % 16) (by omega)
  have hvalue : ((0 * 16 + 0) * 16 + code / 16) * 16 + code % 16 = code := by omega
  simp only [readUnit, hzero, hhigh, hlow, Option.bind_eq_bind, Option.bind_some, hvalue]

theorem readEscapedUnit_control {c : Char} (hc : c.toNat < 0x20) (rest : List Char) :
    readEscapedUnit
      ('0' :: '0' :: Text.hexChar (c.toNat / 16) :: Text.hexChar (c.toNat % 16) :: rest) =
        some (c, rest) := by
  have hlow : ¬ 0xDC00 ≤ c.toNat := by omega
  have hhigh : ¬ 0xD800 ≤ c.toNat := by omega
  simp [readEscapedUnit, readUnit_control hc, hlow, hhigh]

/-- A character is read back from what is written for it. -/
theorem readString_escapeChar (c : Char) (count : Nat) (seen text : List Char) :
    readString (count + 1) seen (escapeChar c ++ text) = readString count (c :: seen) text := by
  unfold escapeChar
  split_ifs with hquote hbackslash hbackspace hfeed hline hreturn htab hcontrol
  -- Seven characters have an escape of their own.
  · rw [eq_of_beq hquote]; rfl
  · rw [eq_of_beq hbackslash]; rfl
  · rw [eq_of_beq hbackspace]; rfl
  · rw [eq_of_beq hfeed]; rfl
  · rw [eq_of_beq hline]; rfl
  · rw [eq_of_beq hreturn]; rfl
  · rw [eq_of_beq htab]; rfl
  · -- The other control characters are written by their codes.
    have hunit : readEscape ('u' :: '0' :: '0' :: Text.hexChar (c.toNat / 16) ::
        Text.hexChar (c.toNat % 16) :: text) = some (c, text) :=
      readEscapedUnit_control hcontrol text
    simp [readString, hunit]
  · simp [readString, hquote, hbackslash, hcontrol]

/-- The characters of a string are read back up to the closing quote. -/
theorem readString_escaped (chars : List Char) {count : Nat} (seen rest : List Char)
    (hcount : chars.length < count) :
    readString count seen (chars.flatMap escapeChar ++ '"' :: rest) =
      some (String.ofList (seen.reverse ++ chars), rest) := by
  induction chars generalizing count seen with
  | nil =>
    obtain ⟨count, rfl⟩ := Nat.exists_eq_add_of_lt hcount
    simp [readString]
  | cons c chars ih =>
    obtain ⟨count, rfl⟩ := Nat.exists_eq_succ_of_ne_zero (Nat.ne_zero_of_lt hcount)
    rw [List.flatMap_cons, List.append_assoc, readString_escapeChar,
      ih (c :: seen) (Nat.lt_of_succ_lt_succ hcount), List.reverse_cons, List.append_assoc]
    rfl

theorem length_escapeChar_pos (c : Char) : 0 < (escapeChar c).length := by
  unfold escapeChar
  split_ifs <;> exact Nat.succ_pos _

theorem length_le_length_escaped (chars : List Char) :
    chars.length ≤ (chars.flatMap escapeChar).length := by
  induction chars with
  | nil => exact Nat.le_refl 0
  | cons c chars ih =>
    have hpos := length_escapeChar_pos c
    rw [List.flatMap_cons, List.length_append, List.length_cons]
    omega

/-- A string is read back after its opening quote. -/
theorem readString_quoted (value : String) (rest : List Char) :
    let text := value.toList.flatMap escapeChar ++ '"' :: rest
    readString (text.length + 1) [] text = some (value, rest) := by
  intro text
  have hcount : value.toList.length < text.length + 1 := by
    have hlength := length_le_length_escaped value.toList
    rw [List.length_append]
    omega
  rw [readString_escaped value.toList [] rest hcount, List.reverse_nil, List.nil_append,
    String.ofList_toList]

theorem toList_quote (value : String) :
    (quote value).toList = '"' :: (value.toList.flatMap escapeChar ++ ['"']) := by
  rw [quote, String.toList_ofList, List.cons_append]

theorem quote_append (value : String) (rest : List Char) :
    (quote value).toList ++ rest = '"' :: (value.toList.flatMap escapeChar ++ '"' :: rest) := by
  rw [toList_quote, List.cons_append, List.append_assoc, List.singleton_append]

/-! ## Section 4: Values -/

/-- The numbers of a value are words, and arrays and objects are nested at most `depth` deep. -/
inductive Legible : (depth : Nat) → Json → Prop where
  | null {depth : Nat} : Legible depth null
  | bool {depth : Nat} {value : Bool} : Legible depth (bool value)
  | word {depth n : Nat} (hn : n < wordBound) : Legible depth (nat n)
  | string {depth : Nat} {value : String} : Legible depth (string value)
  | array {depth : Nat} {items : List Json} (hitems : ∀ item ∈ items, Legible depth item) :
      Legible (depth + 1) (array items)
  | object {depth : Nat} {members : List (String × Json)}
      (hmembers : ∀ member ∈ members, Legible depth member.2) :
      Legible (depth + 1) (object members)

/-- The value is read back from what is written for it, whatever follows, if
    the budget exceeds the length of what is written. -/
def Reads (level depth : Nat) (json : Json) : Prop :=
  ∀ count rest, EndsNumber rest → (json.pretty level).toList.length ≤ count →
    readValue (count + 1) depth ((json.pretty level).toList ++ rest) = some (json, rest)

theorem reads_null (level depth : Nat) : Reads level depth null := by
  intro count rest _ _
  rw [pretty, readValue]
  rfl

theorem reads_bool (level depth : Nat) (value : Bool) : Reads level depth (bool value) := by
  intro count rest _ _
  cases value <;> rw [pretty, readValue] <;> rfl

theorem reads_string (level depth : Nat) (value : String) : Reads level depth (string value) := by
  intro count rest _ _
  rw [pretty, quote_append, readValue, skipGap_cons rfl]
  simp only [readString_quoted, Option.map_some]

theorem isGap_digit {c : Char} (hc : c.isDigit = true) : isGap c = false := by
  simp only [isGap, Bool.or_eq_false_iff, beq_eq_false_iff_ne]
  refine ⟨⟨⟨?_, ?_⟩, ?_⟩, ?_⟩ <;> rintro rfl <;> cases hc

theorem readValue_digit {c : Char} (hc : c.isDigit = true) (count depth : Nat) (text : List Char) :
    readValue (count + 1) depth (c :: text) = readNumber (c :: text) := by
  rw [readValue, skipGap_cons (isGap_digit hc)]
  split
  case h_8 => rfl
  -- None of the other arms is for a digit.
  all_goals
    rename_i heq
    cases heq <;> cases hc

theorem toList_nat (level n : Nat) : ((nat n).pretty level).toList = Nat.toDigits 10 n := by
  rw [nat, pretty, Nat.toString_eq_ofList_toDigits, String.toList_ofList]

theorem reads_word (level depth : Nat) {n : Nat} (hn : n < wordBound) :
    Reads level depth (nat n) := by
  intro count rest hrest _
  obtain ⟨c, digits, heq, hc⟩ := exists_digit n
  rw [toList_nat, ← readNumber_word hn hrest, heq]
  exact readValue_digit hc count depth _

/-! ## Section 5: Lists of values -/

theorem isGap_quote : isGap '"' = false := rfl

theorem isGap_colon : isGap ':' = false := rfl

theorem isGap_bracket : isGap '[' = false := rfl

theorem isGap_brace : isGap '\x7b' = false := rfl

section

variable {count depth : Nat} {text rest rest' : List Char}

theorem readItems_last {item : Json} (hitem : readValue count depth text = some (item, rest))
    (hend : skipGap rest = ']' :: rest') :
    readItems (count + 1) depth text = some ([item], rest') := by
  simp only [readItems, hitem, hend]

theorem readItems_more {item : Json} (hitem : readValue count depth text = some (item, rest))
    (hmore : skipGap rest = ',' :: rest') :
    readItems (count + 1) depth text =
      (readItems count depth rest').map fun (items, rest) => (item :: items, rest) := by
  simp only [readItems, hitem, hmore]

/-- A member is read if its key and its value are. -/
def ReadsMember (count depth : Nat) (text : List Char) (member : String × Json)
    (rest : List Char) : Prop :=
  ∃ keyText valueText, text = '"' :: keyText ∧
    readString (keyText.length + 1) [] keyText = some (member.1, ':' :: valueText) ∧
    readValue count depth valueText = some (member.2, rest)

theorem readMembers_last {member : String × Json}
    (hmember : ReadsMember count depth text member rest) (hend : skipGap rest = '\x7d' :: rest') :
    readMembers (count + 1) depth text = some ([member], rest') := by
  obtain ⟨keyText, valueText, rfl, hkey, hvalue⟩ := hmember
  simp only [readMembers, skipGap_cons isGap_quote, hkey, skipGap_cons isGap_colon, hvalue, hend]

theorem readMembers_more {member : String × Json}
    (hmember : ReadsMember count depth text member rest) (hmore : skipGap rest = ',' :: rest') :
    readMembers (count + 1) depth text =
      (readMembers count depth rest').map fun (members, rest) => (member :: members, rest) := by
  obtain ⟨keyText, valueText, rfl, hkey, hvalue⟩ := hmember
  simp only [readMembers, skipGap_cons isGap_quote, hkey, skipGap_cons isGap_colon, hvalue, hmore]

end

/-- What is written for items, each at a level of indentation. -/
def itemsText (level : Nat) (items : List Json) : List Char :=
  (joined ("," ++ newline level) (prettyItems level items)).toList

/-- What is written for members, each at a level of indentation. -/
def membersText (level : Nat) (members : List (String × Json)) : List Char :=
  (joined ("," ++ newline level) (prettyMembers level members)).toList

/-- What is written for a member. -/
def memberText (level : Nat) (member : String × Json) : List Char :=
  (quote member.1).toList ++ ':' :: ' ' :: (member.2.pretty level).toList

theorem joined_cons_cons (level : Nat) (first second : String) (texts : List String) :
    (joined ("," ++ newline level) (first :: second :: texts)).toList =
      first.toList ++ ',' :: ((newline level).toList ++
        (joined ("," ++ newline level) (second :: texts)).toList) := by
  rw [joined, joined, String.intercalate_cons_cons, String.toList_append, String.toList_append,
    String.toList_append, List.append_assoc, List.append_assoc]
  rfl

theorem itemsText_singleton (level : Nat) (item : Json) :
    itemsText level [item] = (item.pretty level).toList := by
  rw [itemsText, prettyItems, prettyItems, joined, String.intercalate_singleton]

theorem itemsText_cons_cons (level : Nat) (item next : Json) (items : List Json) :
    itemsText level (item :: next :: items) =
      (item.pretty level).toList ++
        ',' :: ((newline level).toList ++ itemsText level (next :: items)) := by
  rw [itemsText, itemsText, prettyItems, prettyItems, joined_cons_cons]

theorem toList_member (level : Nat) (key : String) (value : Json) :
    (quote key ++ ": " ++ value.pretty level).toList = memberText level (key, value) := by
  rw [memberText, String.toList_append, String.toList_append, List.append_assoc]
  rfl

theorem membersText_singleton (level : Nat) (member : String × Json) :
    membersText level [member] = memberText level member := by
  rw [membersText, prettyMembers, prettyMembers, joined, String.intercalate_singleton,
    toList_member]

theorem membersText_cons_cons (level : Nat) (member next : String × Json)
    (members : List (String × Json)) :
    membersText level (member :: next :: members) =
      memberText level member ++
        ',' :: ((newline level).toList ++ membersText level (next :: members)) := by
  rw [membersText, membersText, prettyMembers, prettyMembers, joined_cons_cons, toList_member]

/-- Items are read back up to the closing bracket. -/
theorem readItems_itemsText {level depth : Nat} {items : List Json} (hne : items ≠ [])
    (hitems : ∀ item ∈ items, Reads level depth item) {gap : List Char} (hgap : Blank gap)
    (count : Nat) (rest : List Char) (hcount : (itemsText level items).length ≤ count) :
    readItems (count + 2) depth (itemsText level items ++ (gap ++ ']' :: rest)) =
      some (items, rest) := by
  induction items generalizing count with
  | nil => exact absurd rfl hne
  | cons item items ih =>
    have hitem := hitems item List.mem_cons_self
    cases items with
    | nil =>
      have hrest : EndsNumber (gap ++ ']' :: rest) :=
        endsNumber_append_cons hgap (endsNumber_cons rfl (by decide) rest)
      rw [itemsText_singleton] at hcount ⊢
      exact readItems_last (hitem count _ hrest hcount) (skipGap_append_cons hgap rfl rest)
    | cons next items =>
      have hothers : ∀ item ∈ next :: items, Reads level depth item := fun item hmem =>
        hitems item (List.mem_cons_of_mem _ hmem)
      rw [itemsText_cons_cons] at hcount ⊢
      simp only [List.length_append, List.length_cons] at hcount
      -- The step to the next item passes the comma.
      obtain ⟨count, rfl⟩ : ∃ less, count = less + 1 := ⟨count - 1, by omega⟩
      have htail := ih (List.cons_ne_nil next items) hothers count (by omega)
      have hread (text : List Char) := hitem (count + 1) _ (endsNumber_comma text) (by omega)
      rw [List.append_assoc, List.cons_append, List.append_assoc,
        readItems_more (hread _) (skipGap_cons rfl _),
        readItems_append (count + 2) depth (blank_newline level), htail, Option.map_some]

/-- A member is read back up to what follows its value. -/
theorem readsMember_memberText {level depth : Nat} {member : String × Json}
    (hmember : Reads level depth member.2) (count : Nat)
    (hcount : (memberText level member).length ≤ count) {rest : List Char}
    (hrest : EndsNumber rest) :
    ReadsMember (count + 1) depth (memberText level member ++ rest) member rest := by
  have hlength : (member.2.pretty level).toList.length ≤ count := by
    rw [memberText, List.length_append, List.length_cons, List.length_cons] at hcount
    omega
  refine ⟨_, ' ' :: ((member.2.pretty level).toList ++ rest), ?_, readString_quoted member.1 _, ?_⟩
  · rw [memberText, List.append_assoc, quote_append]
    rfl
  · have hspace : Blank [' '] := by simp [Blank, isGap]
    rw [← List.singleton_append, readValue_append (count + 1) depth hspace]
    exact hmember count rest hrest hlength

/-- Members are read back up to the closing brace. -/
theorem readMembers_membersText {level depth : Nat} {members : List (String × Json)}
    (hne : members ≠ []) (hmembers : ∀ member ∈ members, Reads level depth member.2)
    {gap : List Char} (hgap : Blank gap) (count : Nat) (rest : List Char)
    (hcount : (membersText level members).length ≤ count) :
    readMembers (count + 2) depth (membersText level members ++ (gap ++ '\x7d' :: rest)) =
      some (members, rest) := by
  induction members generalizing count with
  | nil => exact absurd rfl hne
  | cons member members ih =>
    have hmember := hmembers member List.mem_cons_self
    cases members with
    | nil =>
      have hrest : EndsNumber (gap ++ '\x7d' :: rest) :=
        endsNumber_append_cons hgap (endsNumber_cons rfl (by decide) rest)
      rw [membersText_singleton] at hcount ⊢
      exact readMembers_last (readsMember_memberText hmember count hcount hrest)
        (skipGap_append_cons hgap rfl rest)
    | cons next members =>
      have hothers : ∀ member ∈ next :: members, Reads level depth member.2 := fun member hmem =>
        hmembers member (List.mem_cons_of_mem _ hmem)
      rw [membersText_cons_cons] at hcount ⊢
      simp only [List.length_append, List.length_cons] at hcount
      obtain ⟨count, rfl⟩ : ∃ less, count = less + 1 := ⟨count - 1, by omega⟩
      have htail := ih (List.cons_ne_nil next members) hothers count (by omega)
      have hread (text : List Char) :=
        readsMember_memberText hmember (count + 1) (by omega) (endsNumber_comma text)
      rw [List.append_assoc, List.cons_append, List.append_assoc,
        readMembers_more (hread _) (skipGap_cons rfl _),
        readMembers_append (count + 2) depth (blank_newline level), htail, Option.map_some]

/-! ## Section 6: The round trip -/

theorem toList_array {items : List Json} (hne : items ≠ []) (level : Nat) :
    ((array items).pretty level).toList =
      '[' :: ((newline (level + 1)).toList ++
        (itemsText (level + 1) items ++ ((newline level).toList ++ [']']))) := by
  obtain ⟨item, items, rfl⟩ := List.exists_cons_of_ne_nil hne
  simp only [pretty, String.toList_append, List.append_assoc, itemsText, prettyItems]
  rfl

theorem toList_object {members : List (String × Json)} (hne : members ≠ []) (level : Nat) :
    ((object members).pretty level).toList =
      '\x7b' :: ((newline (level + 1)).toList ++
        (membersText (level + 1) members ++ ((newline level).toList ++ ['\x7d']))) := by
  obtain ⟨⟨key, value⟩, members, rfl⟩ := List.exists_cons_of_ne_nil hne
  simp only [pretty, String.toList_append, List.append_assoc, membersText, prettyMembers]
  rfl

/-- What is written for a value starts neither with white space nor with a
    closing bracket. -/
theorem Legible.exists_head {depth : Nat} {json : Json} (h : Legible depth json) (level : Nat) :
    ∃ c text, (json.pretty level).toList = c :: text ∧ isGap c = false ∧ c ≠ ']' := by
  cases h with
  | null => exact ⟨'n', ['u', 'l', 'l'], by rw [pretty]; rfl, rfl, by decide⟩
  | @bool depth value =>
    cases value with
    | true => exact ⟨'t', ['r', 'u', 'e'], by rw [pretty]; rfl, rfl, by decide⟩
    | false => exact ⟨'f', ['a', 'l', 's', 'e'], by rw [pretty]; rfl, rfl, by decide⟩
  | @word depth n hn =>
    obtain ⟨c, digits, heq, hc⟩ := exists_digit n
    exact ⟨c, digits, (toList_nat level n).trans heq, isGap_digit hc, by rintro rfl; cases hc⟩
  | @string depth value => exact ⟨'"', _, by rw [pretty, toList_quote], rfl, by decide⟩
  | @array depth items hitems =>
    by_cases hne : items = []
    · subst hne
      exact ⟨'[', [']'], by rw [pretty]; rfl, rfl, by decide⟩
    · exact ⟨'[', _, toList_array hne level, rfl, by decide⟩
  | @object depth members hmembers =>
    by_cases hne : members = []
    · subst hne
      exact ⟨'\x7b', ['\x7d'], by rw [pretty]; rfl, rfl, by decide⟩
    · exact ⟨'\x7b', _, toList_object hne level, rfl, by decide⟩

theorem itemsText_head {level : Nat} {item : Json} {c : Char} {text : List Char}
    (hitem : (item.pretty level).toList = c :: text) (items : List Json) :
    ∃ text, itemsText level (item :: items) = c :: text := by
  cases items with
  | nil => exact ⟨text, by rw [itemsText_singleton, hitem]⟩
  | cons next items => exact ⟨_, by rw [itemsText_cons_cons, hitem, List.cons_append]⟩

theorem membersText_head (level : Nat) (member : String × Json) (members : List (String × Json)) :
    ∃ text, membersText level (member :: members) = '"' :: text := by
  cases members with
  | nil => exact ⟨_, by rw [membersText_singleton, memberText, quote_append]⟩
  | cons next members =>
    exact ⟨_, by rw [membersText_cons_cons, memberText, quote_append, List.cons_append]⟩

section

variable {rest text : List Char} {c : Char}

theorem readValue_array (count depth : Nat) (hrest : skipGap rest = c :: text) (hc : c ≠ ']') :
    readValue (count + 1) (depth + 2) ('[' :: rest) =
      (readItems count (depth + 1) (c :: text)).map fun (items, rest) => (array items, rest) := by
  have hdepth : ¬ depth + 2 ≤ 1 := by omega
  simp only [readValue, skipGap_cons isGap_bracket, hrest, if_neg hdepth]
  split
  · rename_i heq
    exact absurd (List.head_eq_of_cons_eq heq) hc
  · rfl

theorem readValue_object (count depth : Nat) (hrest : skipGap rest = c :: text)
    (hc : c ≠ '\x7d') :
    readValue (count + 1) (depth + 2) ('\x7b' :: rest) =
      (readMembers count (depth + 1) (c :: text)).map fun (members, rest) =>
        (object members, rest) := by
  have hdepth : ¬ depth + 2 ≤ 1 := by omega
  simp only [readValue, skipGap_cons isGap_brace, hrest, if_neg hdepth]
  split
  · rename_i heq
    exact absurd (List.head_eq_of_cons_eq heq) hc
  · rfl

end

theorem reads_array {level depth : Nat} {items : List Json}
    (hlegible : ∀ item ∈ items, Legible depth item)
    (hitems : ∀ item ∈ items, Reads (level + 1) (depth + 1) item) :
    Reads level (depth + 2) (array items) := by
  intro count rest _ hcount
  cases items with
  | nil =>
    rw [pretty]
    simp [readValue, skipGap, isGap]
  | cons item items =>
    -- The reader tells the list from an empty one by the first character of an item.
    obtain ⟨c, _, hitem, hgap, hc⟩ := (hlegible item List.mem_cons_self).exists_head (level + 1)
    obtain ⟨text, htext⟩ := itemsText_head hitem items
    rw [toList_array (List.cons_ne_nil item items)] at hcount ⊢
    simp only [List.length_append, List.length_cons] at hcount
    -- The steps into the list and to its first item pass the brackets.
    obtain ⟨count, rfl⟩ : ∃ less, count = less + 2 := ⟨count - 2, by omega⟩
    have hskip (tail : List Char) :
        skipGap ((newline (level + 1)).toList ++ (itemsText (level + 1) (item :: items) ++ tail)) =
          c :: (text ++ tail) := by
      rw [skipGap_append (blank_newline _), htext, List.cons_append, skipGap_cons hgap]
    have hread := readItems_itemsText (List.cons_ne_nil item items) hitems (blank_newline level)
      count rest (by omega)
    rw [htext, List.cons_append] at hread
    simp only [List.cons_append, List.append_assoc, List.nil_append]
    rw [readValue_array (count + 2) depth (hskip _) hc, hread, Option.map_some]

theorem reads_object {level depth : Nat} {members : List (String × Json)}
    (hmembers : ∀ member ∈ members, Reads (level + 1) (depth + 1) member.2) :
    Reads level (depth + 2) (object members) := by
  intro count rest _ hcount
  cases members with
  | nil =>
    rw [pretty]
    simp [readValue, skipGap, isGap]
  | cons member members =>
    obtain ⟨text, htext⟩ := membersText_head (level + 1) member members
    rw [toList_object (List.cons_ne_nil member members)] at hcount ⊢
    simp only [List.length_append, List.length_cons] at hcount
    obtain ⟨count, rfl⟩ : ∃ less, count = less + 2 := ⟨count - 2, by omega⟩
    have hskip (tail : List Char) :
        skipGap ((newline (level + 1)).toList ++
            (membersText (level + 1) (member :: members) ++ tail)) =
          '"' :: (text ++ tail) := by
      rw [skipGap_append (blank_newline _), htext, List.cons_append, skipGap_cons isGap_quote]
    have hread := readMembers_membersText (List.cons_ne_nil member members) hmembers
      (blank_newline level) count rest (by omega)
    rw [htext, List.cons_append] at hread
    simp only [List.cons_append, List.append_assoc, List.nil_append]
    rw [readValue_object (count + 2) depth (hskip _) (by decide), hread, Option.map_some]

theorem Legible.reads {depth : Nat} {json : Json} (h : Legible depth json) (level : Nat) :
    Reads level (depth + 1) json := by
  induction h generalizing level with
  | null => exact reads_null level _
  | bool => exact reads_bool level _ _
  | word hn => exact reads_word level _ hn
  | string => exact reads_string level _ _
  | array hitems ih => exact reads_array hitems fun item hmem => ih item hmem (level + 1)
  | object hmembers ih => exact reads_object fun member hmem => ih member hmem (level + 1)

/-- A text that holds a value, and a line break after it, is read as this value. -/
theorem Legible.parse?_pretty {json : Json} (h : Legible (depthLimit - 1) json) :
    parse? (json.pretty 0 ++ "\n") = some json := by
  have htext : (json.pretty 0 ++ "\n").toList = (json.pretty 0).toList ++ ['\n'] :=
    String.toList_append
  have hend : EndsNumber ['\n'] := endsNumber_cons rfl (by decide) []
  have hread := h.reads 0 (2 * (json.pretty 0 ++ "\n").toList.length + 1) ['\n'] hend
    (by rw [htext, List.length_append]; omega)
  rw [← htext] at hread
  change readValue _ depthLimit _ = _ at hread
  rw [parse?, hread]
  rfl

end SelfCapture.Json
