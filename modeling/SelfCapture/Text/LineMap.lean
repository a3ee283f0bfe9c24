/-! # Lines and columns

  Reports and symbol indexes speak of lines and columns, both counted from
  one, columns in UTF-8 bytes; the parser speaks of byte offsets.  A
  `LineMap` converts offsets to locations.

  A line ends after a line feed, after a carriage return, or after the two
  in sequence.
-/

namespace SelfCapture

/-- A place in a text: byte offset, line and column. -/
structure Location where
  offset : Nat
  /-- Line number, counted from one. -/
  line : Nat
  /-- Byte column, counted from one. -/
  column : Nat
  deriving DecidableEq, Repr

/-- The offsets at which the lines of a text start, and the text's length. -/
structure LineMap where
  /-- Start of each line after the first, in ascending order. -/
  starts : Array Nat
  /-- Length of the text in bytes. -/
  length : Nat

namespace LineMap

/-- Whether a line break ends right after the byte at the offset: a line
    feed, or a carriage return that no line feed follows. -/
def breaksAfter (bytes : ByteArray) (offset : Nat) : Bool :=
  bytes[offset]? == some 0x0A ||
    (bytes[offset]? == some 0x0D && bytes[offset + 1]? != some 0x0A)

/-- The line map of a text. -/
def ofText (text : String) : LineMap :=
  let bytes := text.toByteArray
  { starts := ((Array.range bytes.size).filter (breaksAfter bytes)).map (· + 1)
    length := bytes.size }

/-- Number of leading entries of `starts` between `low` and `high` that are
    at most `offset`, found by halving the interval at most `steps` times. -/
def search (starts : Array Nat) (offset : Nat) : (steps low high : Nat) → Nat
  | 0, low, _ => low
  | steps + 1, low, high =>
    if low < high then
      let middle := (low + high) / 2
      if starts.getD middle 0 ≤ offset then search starts offset steps (middle + 1) high
      else search starts offset steps low middle
    else low

/-- Number of line breaks that end at or before the offset. -/
def breaksBefore (map : LineMap) (offset : Nat) : Nat :=
  search map.starts offset map.starts.size 0 map.starts.size

/-- The location of an offset; offsets past the end count as the end. -/
def location (map : LineMap) (offset : Nat) : Location :=
  let offset := min offset map.length
  let line := map.breaksBefore offset
  let start := if line = 0 then 0 else map.starts.getD (line - 1) 0
  { offset, line := line + 1, column := offset - start + 1 }

end LineMap
end SelfCapture
