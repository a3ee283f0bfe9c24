import SelfCapture.Text.Window
import SelfCapture.Token.Basic

/-! # String literals

  A string literal opens with any number of `#`, then one quote or three,
  and closes with the same quotes followed by as many `#`.  Three quotes
  let the literal run over line breaks.  A backslash followed by the
  literal's number of `#` and an opening parenthesis starts an interpolated
  expression; its end is the matching closing parenthesis, where plain
  string literals inside the expression are skipped as a whole.
-/

namespace SelfCapture.Token

/-- How a string literal is delimited. -/
structure Quote where
  /-- Number of `#` before the opening quote. -/
  hashes : Nat
  /-- The literal is opened by three quotes. -/
  multiline : Bool
  deriving DecidableEq, Repr

/-- Number of quote characters in each delimiter. -/
def Quote.width (quote : Quote) : Nat := if quote.multiline then 3 else 1

/-- Where a string literal ends. -/
structure Quoted where
  /-- Offset after the literal. -/
  stop : Nat
  /-- The closing delimiter was found. -/
  closed : Bool
  /-- The interpolated expressions, in order. -/
  segments : List Segment
  deriving DecidableEq, Repr

/-- The quote that opens at an offset, after `hashes` number signs. -/
def quoteAt (w : Window) (hashes offset : Nat) : Quote :=
  { hashes, multiline := w.startsWith (offset + hashes) ['"', '"', '"'] }

/-- Whether the closing delimiter of `quote` stands at the offset. -/
def closesAt (w : Window) (quote : Quote) (offset : Nat) : Bool :=
  w.startsWith offset (List.replicate quote.width '"' ++ List.replicate quote.hashes '#')

mutual

/-- Reads the body of a string literal from an offset up to its end.
    `count` bounds the bytes left in the window. -/
def quotedBody (w : Window) (quote : Quote) (segments : List Segment) :
    (count offset : Nat) → Quoted
  | 0, _ => { stop := w.stop, closed := false, segments }
  | count + 1, offset =>
    match w.get? offset with
    | none => { stop := w.stop, closed := false, segments }
    | some '\n' | some '\r' =>
      if quote.multiline then quotedBody w quote segments count (offset + 1)
      else { stop := offset, closed := false, segments }
    | some '\\' =>
      let escaped := w.skipUpTo (· == '#') quote.hashes (offset + 1)
      if escaped < offset + 1 + quote.hashes then
        quotedBody w quote segments count (offset + 1)
      else if w.get? escaped == some '(' then
        match interpolationEnd w count 1 (escaped + 1) with
        | some close =>
          quotedBody w quote (segments ++ [⟨escaped + 1, close⟩]) count (close + 1)
        | none => { stop := w.stop, closed := false, segments }
      else
        quotedBody w quote segments count (min (escaped + 1) w.stop)
    | some '"' =>
      if closesAt w quote offset then
        { stop := offset + quote.width + quote.hashes, closed := true, segments }
      else
        quotedBody w quote segments count (offset + 1)
    | some _ => quotedBody w quote segments count (offset + 1)

/-- The offset of the parenthesis that closes an interpolated expression of
    which `depth` parentheses are open.  `count` bounds the bytes left. -/
def interpolationEnd (w : Window) : (count depth offset : Nat) → Option Nat
  | 0, _, _ => none
  | count + 1, depth, offset =>
    match w.get? offset with
    | none => none
    | some '(' => interpolationEnd w count (depth + 1) (offset + 1)
    | some ')' =>
      if depth ≤ 1 then some offset else interpolationEnd w count (depth - 1) (offset + 1)
    | some '"' =>
      let quote := quoteAt w 0 offset
      let inner := quotedBody w quote [] count (offset + quote.width)
      if inner.closed then interpolationEnd w count depth inner.stop else none
    | some _ => interpolationEnd w count depth (offset + 1)

end

/-- The string literal that opens at an offset with `hashes` number signs. -/
def quotedAt (w : Window) (hashes offset : Nat) : Quoted :=
  let quote := quoteAt w hashes offset
  quotedBody w quote [] (w.left offset) (offset + hashes + quote.width)

end SelfCapture.Token
