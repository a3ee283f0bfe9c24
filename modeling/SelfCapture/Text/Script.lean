import SelfCapture.Text.CharClass

/-! # Scripts

  The characters of the scripts that patterns can name.
-/

namespace SelfCapture.Text

/-- Ranges of the script `Latin`. -/
def latinRanges : Array (Nat × Nat) := #[
  (0x41, 0x5A), (0x61, 0x7A), (0xAA, 0xAA), (0xBA, 0xBA), (0xC0, 0xD6), (0xD8, 0xF6), (0xF8, 0x2B8),
  (0x2E0, 0x2E4), (0x363, 0x36F), (0x485, 0x486), (0x951, 0x952), (0x10FB, 0x10FB),
  (0x1D00, 0x1D25), (0x1D2C, 0x1D5C), (0x1D62, 0x1D65), (0x1D6B, 0x1D77), (0x1D79, 0x1DBE),
  (0x1E00, 0x1EFF), (0x202F, 0x202F), (0x2071, 0x2071), (0x207F, 0x207F), (0x2090, 0x209C),
  (0x20F0, 0x20F0), (0x212A, 0x212B), (0x2132, 0x2132), (0x214E, 0x214E), (0x2160, 0x2188),
  (0x2C60, 0x2C7F), (0xA700, 0xA707), (0xA722, 0xA787), (0xA78B, 0xA7CD), (0xA7D0, 0xA7D1),
  (0xA7D3, 0xA7D3), (0xA7D5, 0xA7DC), (0xA7F2, 0xA7FF), (0xA92E, 0xA92E), (0xAB30, 0xAB5A),
  (0xAB5C, 0xAB64), (0xAB66, 0xAB69), (0xFB00, 0xFB06), (0xFF21, 0xFF3A), (0xFF41, 0xFF5A),
  (0x10780, 0x10785), (0x10787, 0x107B0), (0x107B2, 0x107BA), (0x1DF00, 0x1DF1E),
  (0x1DF25, 0x1DF2A)]

/-- Ranges of the script `Greek`. -/
def greekRanges : Array (Nat × Nat) := #[
  (0x342, 0x342), (0x345, 0x345), (0x370, 0x373), (0x375, 0x377), (0x37A, 0x37D), (0x37F, 0x37F),
  (0x384, 0x384), (0x386, 0x386), (0x388, 0x38A), (0x38C, 0x38C), (0x38E, 0x3A1), (0x3A3, 0x3E1),
  (0x3F0, 0x3FF), (0x1D26, 0x1D2A), (0x1D5D, 0x1D61), (0x1D66, 0x1D6A), (0x1DBF, 0x1DC1),
  (0x1F00, 0x1F15), (0x1F18, 0x1F1D), (0x1F20, 0x1F45), (0x1F48, 0x1F4D), (0x1F50, 0x1F57),
  (0x1F59, 0x1F59), (0x1F5B, 0x1F5B), (0x1F5D, 0x1F5D), (0x1F5F, 0x1F7D), (0x1F80, 0x1FB4),
  (0x1FB6, 0x1FC4), (0x1FC6, 0x1FD3), (0x1FD6, 0x1FDB), (0x1FDD, 0x1FEF), (0x1FF2, 0x1FF4),
  (0x1FF6, 0x1FFE), (0x2126, 0x2126), (0xAB65, 0xAB65), (0x10140, 0x1018E), (0x101A0, 0x101A0),
  (0x1D200, 0x1D245)]

/-- Ranges of the script `Cyrillic`. -/
def cyrillicRanges : Array (Nat × Nat) := #[
  (0x400, 0x52F), (0x1C80, 0x1C8A), (0x1D2B, 0x1D2B), (0x1D78, 0x1D78), (0x1DF8, 0x1DF8),
  (0x2DE0, 0x2DFF), (0x2E43, 0x2E43), (0xA640, 0xA69F), (0xFE2E, 0xFE2F), (0x1E030, 0x1E06D),
  (0x1E08F, 0x1E08F)]

/-- Ranges of the script `Armenian`. -/
def armenianRanges : Array (Nat × Nat) := #[
  (0x531, 0x556), (0x559, 0x58A), (0x58D, 0x58F), (0xFB13, 0xFB17)]

/-- Ranges of the script `Georgian`. -/
def georgianRanges : Array (Nat × Nat) := #[
  (0x10A0, 0x10C5), (0x10C7, 0x10C7), (0x10CD, 0x10CD), (0x10D0, 0x10FF), (0x1C90, 0x1CBA),
  (0x1CBD, 0x1CBF), (0x2D00, 0x2D25), (0x2D27, 0x2D27), (0x2D2D, 0x2D2D)]

/-- Ranges of the script `Hebrew`. -/
def hebrewRanges : Array (Nat × Nat) := #[
  (0x591, 0x5C7), (0x5D0, 0x5EA), (0x5EF, 0x5F4), (0xFB1D, 0xFB36), (0xFB38, 0xFB3C),
  (0xFB3E, 0xFB3E), (0xFB40, 0xFB41), (0xFB43, 0xFB44), (0xFB46, 0xFB4F)]

/-- Ranges of the script `Arabic`. -/
def arabicRanges : Array (Nat × Nat) := #[
  (0x600, 0x604), (0x606, 0x6DC), (0x6DE, 0x6FF), (0x750, 0x77F), (0x870, 0x88E), (0x890, 0x891),
  (0x898, 0x8E1), (0x8E3, 0x8FF), (0xFB50, 0xFBC2), (0xFBD3, 0xFD8F), (0xFD92, 0xFDC7),
  (0xFDCF, 0xFDCF), (0xFDF0, 0xFDFF), (0xFE70, 0xFE74), (0xFE76, 0xFEFC), (0x102E0, 0x102FB),
  (0x10E60, 0x10E7E), (0x10EC2, 0x10EC4), (0x10EFC, 0x10EFF), (0x1EE00, 0x1EE03),
  (0x1EE05, 0x1EE1F), (0x1EE21, 0x1EE22), (0x1EE24, 0x1EE24), (0x1EE27, 0x1EE27),
  (0x1EE29, 0x1EE32), (0x1EE34, 0x1EE37), (0x1EE39, 0x1EE39), (0x1EE3B, 0x1EE3B),
  (0x1EE42, 0x1EE42), (0x1EE47, 0x1EE47), (0x1EE49, 0x1EE49), (0x1EE4B, 0x1EE4B),
  (0x1EE4D, 0x1EE4F), (0x1EE51, 0x1EE52), (0x1EE54, 0x1EE54), (0x1EE57, 0x1EE57),
  (0x1EE59, 0x1EE59), (0x1EE5B, 0x1EE5B), (0x1EE5D, 0x1EE5D), (0x1EE5F, 0x1EE5F),
  (0x1EE61, 0x1EE62), (0x1EE64, 0x1EE64), (0x1EE67, 0x1EE6A), (0x1EE6C, 0x1EE72),
  (0x1EE74, 0x1EE77), (0x1EE79, 0x1EE7C), (0x1EE7E, 0x1EE7E), (0x1EE80, 0x1EE89),
  (0x1EE8B, 0x1EE9B), (0x1EEA1, 0x1EEA3), (0x1EEA5, 0x1EEA9), (0x1EEAB, 0x1EEBB),
  (0x1EEF0, 0x1EEF1)]

/-- Ranges of the script `Devanagari`. -/
def devanagariRanges : Array (Nat × Nat) := #[
  (0x900, 0x952), (0x955, 0x97F), (0x1CD0, 0x1CF6), (0x1CF8, 0x1CF9), (0x20F0, 0x20F0),
  (0xA830, 0xA839), (0xA8E0, 0xA8FF), (0x11B00, 0x11B09)]

/-- Ranges of the script `Thai`. -/
def thaiRanges : Array (Nat × Nat) := #[
  (0xE01, 0xE3A), (0xE40, 0xE5B)]

/-- Ranges of the script `Hangul`. -/
def hangulRanges : Array (Nat × Nat) := #[
  (0x1100, 0x11FF), (0x3001, 0x3003), (0x3008, 0x3011), (0x3013, 0x301F), (0x302E, 0x3030),
  (0x3037, 0x3037), (0x30FB, 0x30FB), (0x3131, 0x318E), (0x3200, 0x321E), (0x3260, 0x327E),
  (0xA960, 0xA97C), (0xAC00, 0xD7A3), (0xD7B0, 0xD7C6), (0xD7CB, 0xD7FB), (0xFE45, 0xFE46),
  (0xFF61, 0xFF65), (0xFFA0, 0xFFBE), (0xFFC2, 0xFFC7), (0xFFCA, 0xFFCF), (0xFFD2, 0xFFD7),
  (0xFFDA, 0xFFDC)]

/-- Ranges of the script `Han`. -/
def hanRanges : Array (Nat × Nat) := #[
  (0x2E80, 0x2E99), (0x2E9B, 0x2EF3), (0x2F00, 0x2FD5), (0x3001, 0x3003), (0x3005, 0x3011),
  (0x3013, 0x301F), (0x3021, 0x302D), (0x3030, 0x3030), (0x3037, 0x303F), (0x30FB, 0x30FB),
  (0x3190, 0x319F), (0x31C0, 0x31E3), (0x3220, 0x3247), (0x3280, 0x32B0), (0x32C0, 0x32CB),
  (0x32FF, 0x32FF), (0x3358, 0x3370), (0x337B, 0x337F), (0x33E0, 0x33FE), (0x3400, 0x4DBF),
  (0x4E00, 0x9FFF), (0xA700, 0xA707), (0xF900, 0xFA6D), (0xFA70, 0xFAD9), (0xFE45, 0xFE46),
  (0xFF61, 0xFF65), (0x16FE2, 0x16FE3), (0x16FF0, 0x16FF1), (0x1D360, 0x1D371), (0x1F250, 0x1F251),
  (0x20000, 0x2A6DF), (0x2A700, 0x2B739), (0x2B740, 0x2B81D), (0x2B820, 0x2CEA1),
  (0x2CEB0, 0x2EBE0), (0x2EBF0, 0x2EE5D), (0x2F800, 0x2FA1D), (0x30000, 0x3134A),
  (0x31350, 0x323AF)]

/-- Ranges of the script `Hiragana`. -/
def hiraganaRanges : Array (Nat × Nat) := #[
  (0x3001, 0x3003), (0x3008, 0x3011), (0x3013, 0x301F), (0x3030, 0x3035), (0x3037, 0x3037),
  (0x303C, 0x303D), (0x3041, 0x3096), (0x3099, 0x30A0), (0x30FB, 0x30FC), (0xFE45, 0xFE46),
  (0xFF61, 0xFF65), (0xFF70, 0xFF70), (0xFF9E, 0xFF9F), (0x1B001, 0x1B11F), (0x1B132, 0x1B132),
  (0x1B150, 0x1B152), (0x1F200, 0x1F200)]

/-- Ranges of the script `Katakana`. -/
def katakanaRanges : Array (Nat × Nat) := #[
  (0x3001, 0x3003), (0x3008, 0x3011), (0x3013, 0x301F), (0x3030, 0x3035), (0x3037, 0x3037),
  (0x303C, 0x303D), (0x3099, 0x309C), (0x30A0, 0x30FF), (0x31F0, 0x31FF), (0x32D0, 0x32FE),
  (0x3300, 0x3357), (0xFE45, 0xFE46), (0xFF61, 0xFF9F), (0x1AFF0, 0x1AFF3), (0x1AFF5, 0x1AFFB),
  (0x1AFFD, 0x1AFFE), (0x1B000, 0x1B000), (0x1B120, 0x1B122), (0x1B155, 0x1B155),
  (0x1B164, 0x1B167)]

/-- The scripts by the names and short names that they have in patterns. -/
def scripts : List (String × Array (Nat × Nat)) := [
  ("latin", latinRanges), ("latn", latinRanges),
  ("greek", greekRanges), ("grek", greekRanges),
  ("cyrillic", cyrillicRanges), ("cyrl", cyrillicRanges),
  ("armenian", armenianRanges), ("armn", armenianRanges),
  ("georgian", georgianRanges), ("geor", georgianRanges),
  ("hebrew", hebrewRanges), ("hebr", hebrewRanges),
  ("arabic", arabicRanges), ("arab", arabicRanges),
  ("devanagari", devanagariRanges), ("deva", devanagariRanges),
  ("thai", thaiRanges),
  ("hangul", hangulRanges), ("hang", hangulRanges),
  ("han", hanRanges), ("hani", hanRanges),
  ("hiragana", hiraganaRanges), ("hira", hiraganaRanges),
  ("katakana", katakanaRanges), ("kana", katakanaRanges)]

end SelfCapture.Text
