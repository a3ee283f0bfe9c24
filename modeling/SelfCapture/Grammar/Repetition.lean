import SelfCapture.Grammar.State

/-! # Repetition

  Every repetition of the grammar consumes a token each time round, so the
  bytes that remain bound the number of rounds.  `loop` is the one place
  where that allowance is spent; the other combinators are built from it.
-/

namespace SelfCapture.Grammar

open Token (Kind)

/-- Repeats a step that threads a value, at most `count` times. -/
def iterate {β : Type} (step : β → Parse (ForInStep β)) : (count : Nat) → β → Parse β
  | 0, value => do
    exhaust
    return value
  | count + 1, value => do
    match ← step value with
    | .done value => return value
    | .yield value => iterate step count value

/-- Repeats a step that threads a value until it is done. -/
def loop {β : Type} (init : β) (step : β → Parse (ForInStep β)) : Parse β := do
  let bytes ← remaining
  iterate step (bytes + 1) init

/-- Repeats `body` as long as the test holds. -/
def repeatWhile (test : Parse Bool) (body : Parse Unit) : Parse Unit :=
  loop () fun _ => do
    if ← test then
      body
      return .yield ()
    else
      return .done ()

/-- Collects the nodes that `items` makes as long as the test holds. -/
def gatherWhile (test : Parse Bool) (items : Parse (List Nat)) : Parse (List Nat) :=
  loop [] fun nodes => do
    if ← test then
      let more ← items
      return .yield (nodes ++ more)
    else
      return .done nodes

/-- One or more items, separated by commas. -/
def separated (items : Parse (List Nat)) : Parse (List Nat) :=
  loop [] fun nodes => do
    let more ← items
    if ← accept .comma then return .yield (nodes ++ more) else return .done (nodes ++ more)

/-- Items separated by commas, up to a closing token or the end. -/
def separatedUntil (closer : Kind) (items : Parse (List Nat)) : Parse (List Nat) :=
  loop [] fun nodes => do
    if (← isAt closer) || (← atEnd) then
      return .done nodes
    else
      let more ← items
      if ← accept .comma then return .yield (nodes ++ more) else return .done (nodes ++ more)

/-- Items separated by commas, up to a closing token, which is consumed.
    There is no result if an item or the closing token is not there. -/
def enclosed? (closer : Kind) (item : Parse (Option Nat)) : Parse (Option (List Nat)) := do
  let nodes ← loop (some []) fun nodes => do
    if ← isAt closer then
      return .done nodes
    else
      match ← item with
      | none => return .done none
      | some node =>
        let nodes := nodes.map (· ++ [node])
        if ← accept .comma then return .yield nodes else return .done nodes
  match nodes with
  | none => return none
  | some nodes => if ← accept closer then return some nodes else return none

end SelfCapture.Grammar
