/-! # Windows on UTF-8 text

  Offsets into a source text count UTF-8 bytes.  A `Window` is the text's
  bytes together with the offset at which reading must stop, so that a part
  of a text can be scanned in place with every offset kept absolute.

  Reads at or past `stop` answer `none`; the few rules that look past the
  window read `bytes` directly.
-/

namespace SelfCapture.Text

/-! ## Section 1: Slices on character boundaries -/

/-- A byte that continues a multi-byte character. -/
def isContinuation (byte : UInt8) : Bool := 0x80 ≤ byte && byte < 0xC0

/-- Whether a character starts at the offset, or the text ends there. -/
def isBoundary (bytes : ByteArray) (offset : Nat) : Bool :=
  match bytes[offset]? with
  | some byte => !isContinuation byte
  | none => offset == bytes.size

/-- The text between two offsets, empty when they do not delimit whole characters. -/
def slice (bytes : ByteArray) (start stop : Nat) : String :=
  (String.fromUTF8? (bytes.extract start stop)).getD ""

end SelfCapture.Text

/-! ## Section 2: Windows -/

namespace SelfCapture

/-- The bytes of a text, read up to the offset `stop`. -/
structure Window where
  /-- All bytes of the text. -/
  bytes : ByteArray
  /-- Offset at which the window ends. -/
  stop : Nat

namespace Window

/-- The byte at the offset, read as a character below `U+0100`. -/
def get? (w : Window) (offset : Nat) : Option Char :=
  if offset < w.stop then w.bytes[offset]?.map Char.ofUInt8 else none

/-- The byte at the offset wherever the window ends. -/
def peek? (w : Window) (offset : Nat) : Option Char :=
  w.bytes[offset]?.map Char.ofUInt8

/-- The whole character at the offset.  There is none when the offset or
    the end of the window falls inside a character. -/
def char? (w : Window) (offset : Nat) : Option Char :=
  if offset < w.stop && Text.isBoundary w.bytes offset && Text.isBoundary w.bytes w.stop then
    w.bytes.utf8DecodeChar? offset
  else
    none

/-- Whether the window continues with the given bytes at the offset. -/
def startsWith (w : Window) (offset : Nat) : List Char → Bool
  | [] => true
  | c :: rest => w.get? offset == some c && w.startsWith (offset + 1) rest

/-- Number of bytes from the offset to the end of the window. -/
def left (w : Window) (offset : Nat) : Nat := w.stop - offset

/-- First offset, at most `count` bytes on, whose byte fails the test. -/
def skipUpTo (w : Window) (test : Char → Bool) : (count offset : Nat) → Nat
  | 0, offset => offset
  | count + 1, offset =>
    if (w.get? offset).any test then w.skipUpTo test count (offset + 1) else offset

/-- First offset from the given one whose byte fails the test, or the end of the window. -/
def skipWhile (w : Window) (test : Char → Bool) (offset : Nat) : Nat :=
  w.skipUpTo test (w.left offset) offset

end Window
end SelfCapture
