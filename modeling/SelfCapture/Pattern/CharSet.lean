import SelfCapture.Text.CaseFold
import SelfCapture.Text.CharClass

/-! # Sets of characters

  The sets that patterns are made of: ranges, the Perl classes, and the
  usual operations on sets.  `fold` closes a set under changes of case.
-/

namespace SelfCapture.Pattern

/-- A set of characters. -/
inductive CharSet where
  | none
  /-- Code points from `first` to `last`, both included. -/
  | range (first last : Nat)
  /-- The characters with a property. -/
  | having (property : Char → Bool)
  | union (a b : CharSet)
  | inter (a b : CharSet)
  | diff (a b : CharSet)
  | symmDiff (a b : CharSet)
  | compl (a : CharSet)
  /-- Everything that differs from a member by case only. -/
  | fold (a : CharSet)
  /-- Everything that differs from a member by the case of an ASCII letter only. -/
  | foldAscii (a : CharSet)

namespace CharSet

/-- The code points that differ from the given one by the case of an ASCII letter only. -/
def asciiVariants (code : Nat) : List Nat :=
  if 0x41 ≤ code && code ≤ 0x5A then [code, code + 0x20]
  else if 0x61 ≤ code && code ≤ 0x7A then [code, code - 0x20]
  else [code]

/-- Whether a code point is in the set. -/
def contains : CharSet → Nat → Bool
  | none, _ => false
  | range first last, code => first ≤ code && code ≤ last
  | having property, code => property (Char.ofNat code)
  | union a b, code => a.contains code || b.contains code
  | inter a b, code => a.contains code && b.contains code
  | diff a b, code => a.contains code && !b.contains code
  | symmDiff a b, code => a.contains code != b.contains code
  | compl a, code => !a.contains code
  | fold a, code => (Text.caseVariants code).any a.contains
  | foldAscii a, code => (asciiVariants code).any a.contains

/-- The set of one character. -/
def single (c : Char) : CharSet := range c.toNat c.toNat

/-- The union of some sets. -/
def unions (sets : List CharSet) : CharSet := sets.foldl union none

/-- Every character. -/
def all : CharSet := compl none

/-- Decimal digits of any script. -/
def digit : CharSet := having Text.isDecimalDigit

/-- Characters of words in any script. -/
def word : CharSet := having Text.isWordChar

/-- White space. -/
def blank : CharSet := having Text.isBlank

/-- Ranges given by their ends. -/
def ranges (ends : List (Char × Char)) : CharSet :=
  unions (ends.map fun (a, b) => range a.toNat b.toNat)

/-- ASCII digits. -/
def asciiDigit : CharSet := ranges [('0', '9')]

/-- ASCII characters of words. -/
def asciiWord : CharSet := ranges [('0', '9'), ('A', 'Z'), ('_', '_'), ('a', 'z')]

/-- ASCII white space. -/
def asciiBlank : CharSet := ranges [('\t', '\r'), (' ', ' ')]

/-- The named ASCII classes. -/
def namedAscii : List (String × CharSet) := [
  ("alnum", ranges [('0', '9'), ('A', 'Z'), ('a', 'z')]),
  ("alpha", ranges [('A', 'Z'), ('a', 'z')]),
  ("ascii", range 0 0x7F),
  ("blank", ranges [('\t', '\t'), (' ', ' ')]),
  ("cntrl", union (range 0 0x1F) (range 0x7F 0x7F)),
  ("digit", asciiDigit),
  ("graph", ranges [('!', '~')]),
  ("lower", ranges [('a', 'z')]),
  ("print", ranges [(' ', '~')]),
  ("punct", ranges [('!', '/'), (':', '@'), ('[', '`'), ('\x7b', '~')]),
  ("space", asciiBlank),
  ("upper", ranges [('A', 'Z')]),
  ("word", asciiWord),
  ("xdigit", ranges [('0', '9'), ('A', 'F'), ('a', 'f')])]

end CharSet
end SelfCapture.Pattern
