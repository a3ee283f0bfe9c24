import SelfCapture.Text.Window

/-! # Blanks and comments

  Between two tokens stands a `Gap`: white space, line comments and nested
  block comments, in any order.  A gap knows whether it is non-empty and
  whether a line break lies in it.

  A line comment runs up to the next line feed, which is not part of it.
  Inside a block comment only a line feed counts as a line break.
-/

namespace SelfCapture.Token

/-- What stands before a token. -/
structure Gap where
  /-- Offset at which the gap ends. -/
  stop : Nat
  /-- The gap is not empty. -/
  blank : Bool := false
  /-- A line break lies in the gap. -/
  lineBreak : Bool := false
  deriving DecidableEq, Repr

/-- The end of a block comment of which `depth` openings are still to be
    closed, and whether a line feed lies in it.  `count` bounds the bytes
    left in the window. -/
def blockComment (w : Window) : (count depth offset : Nat) → (lineFeed : Bool) → Nat × Bool
  | 0, _, offset, lineFeed => (offset, lineFeed)
  | count + 1, depth, offset, lineFeed =>
    if depth = 0 then
      (offset, lineFeed)
    else if w.startsWith offset ['/', '*'] then
      blockComment w count (depth + 1) (offset + 2) lineFeed
    else if w.startsWith offset ['*', '/'] then
      blockComment w count (depth - 1) (offset + 2) lineFeed
    else
      match w.get? offset with
      | some c => blockComment w count depth (offset + 1) (lineFeed || c == '\n')
      | none => (offset, lineFeed)

/-- Extends a gap that has reached `gap.stop` over everything blank that
    follows.  `count` bounds the bytes left in the window. -/
def Gap.extend (w : Window) : (count : Nat) → Gap → Gap
  | 0, gap => gap
  | count + 1, gap =>
    match w.get? gap.stop with
    | some ' ' | some '\t' | some '\x0b' | some '\x0c' =>
      Gap.extend w count { gap with stop := gap.stop + 1, blank := true }
    | some '\n' | some '\r' =>
      Gap.extend w count { stop := gap.stop + 1, blank := true, lineBreak := true }
    | some '/' =>
      match w.get? (gap.stop + 1) with
      | some '/' =>
        Gap.extend w count { gap with stop := w.skipWhile (· != '\n') gap.stop, blank := true }
      | some '*' =>
        let comment := blockComment w count 1 (gap.stop + 2) false
        Gap.extend w count
          { stop := comment.1, blank := true, lineBreak := gap.lineBreak || comment.2 }
      | _ => gap
    | _ => gap

/-- The gap that starts at an offset. -/
def gapAt (w : Window) (offset : Nat) : Gap := Gap.extend w (w.left offset) { stop := offset }

end SelfCapture.Token
