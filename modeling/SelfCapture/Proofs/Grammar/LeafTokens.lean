import SelfCapture.Proofs.Grammar.Nesting
import SelfCapture.Proofs.Grammar.PlacedTrees

/-! # Leaves are tokens

  A literal or a name is exactly one token of the stream it was read from,
  `parse_leaf_tokens`, with one exception: an interpolated string literal
  that is given up at the nesting limit takes the next token with it,
  `deep_string_swallows_brace`.
-/

namespace SelfCapture

/-- The leaves of every text.  Literals and names are one token of the
    recorded kind, in the stream of the text or of an interpolated
    expression.  So are string literals, unless something is wrong at their
    first byte: then one without parts may end with the token that follows
    an interpolated literal. -/
theorem parse_leaf_tokens (text : String) :
    let file := SourceFile.parse text
    ∀ (id : Nat) (node : Node), file.tree.get? id = some node →
      (∀ k, node.form = .literal k → Scanner.IsToken text k (node.pos, node.stop)) ∧
      (∀ k, node.form = .identifier k → k.isName = true →
        Scanner.IsToken text k (node.pos, node.stop)) ∧
      ∀ parts, node.form = .stringLiteral parts →
        Scanner.IsToken text .stringLiteral (node.pos, node.stop) ∨
          parts = [] ∧ (∃ d ∈ file.diagnostics, d.start = node.pos) ∧
            ∃ s, Scanner.InStream text s ∧ s.token.kind = .stringLiteral ∧ s.segments ≠ [] ∧
              node.pos = s.token.pos ∧ node.stop = s.scan.token.stop := by
  intro file id node hnode
  have hrange := Tree.range?_of_get? hnode
  have hlaw {form : Form} (hform : node.form = form) :
      form.Law text (Grammar.sourceFile (.ofText text)).2 (node.pos, node.stop) := by
    refine Grammar.parse_lawful text ?_ hrange
    rw [Tree.form?, hnode, ← hform]
    rfl
  refine ⟨fun k hform => hlaw hform, fun k hform => hlaw hform, fun parts hform => ?_⟩
  refine (hlaw hform).imp_right ?_
  rintro ⟨hparts, ⟨d, hd, hstart⟩, s, hs, hk, hsegments, hends⟩
  refine ⟨hparts, ⟨d, ?_, hstart⟩, s, hs, hk, hsegments, Prod.mk.inj hends⟩
  exact List.mem_mergeSort.mpr (List.mem_append_left _ hd)

/-- An interpolated name is a token of the window of its expression. -/
theorem parse_leaf_tokens_interpolated :
    let text := "\"a\\(x)\""
    (SourceFile.parse text).tree.form? 0 = some (.identifier .identifier) ∧
      Scanner.IsToken text .identifier (4, 5) := by
  intro text
  have hform : (SourceFile.parse text).tree.form? 0 = some (.identifier .identifier) := by
    decide +kernel
  have hrange : (SourceFile.parse text).tree.range? 0 = some (4, 5) := by decide +kernel
  obtain ⟨node, hnode, hplace⟩ := Option.map_eq_some_iff.mp hrange
  have hsame : node.form = .identifier .identifier := by
    rw [Tree.form?, hnode] at hform
    exact Option.some.inj hform
  exact ⟨hform, hplace ▸ (parse_leaf_tokens text 0 node hnode).2.1 .identifier hsame rfl⟩

/-- A string literal nested as deeply as can be, with an interpolation. -/
def deepString : String := String.join (List.replicate 127 "\x7b") ++ "\"\\(1)\"\x7d"

/-- At the nesting limit an interpolated literal swallows the brace after it. -/
theorem deep_string_swallows_brace :
    let t := (SourceFile.parse deepString).tree
    (t.form? 0 = some (.stringLiteral []) ∧ t.range? 0 = some (127, 134)) ∧
      ¬ Scanner.IsToken deepString .stringLiteral (127, 134) := by
  intro t
  have hread : t.form? 0 = some (.stringLiteral []) ∧ t.range? 0 = some (127, 134) := by
    decide +kernel
  refine ⟨hread, fun htoken => ?_⟩
  have hsize : deepString.toByteArray.size = 134 := by decide +kernel
  obtain ⟨s, hs, hk, hends⟩ := htoken.mem_states hsize.symm
  have hstates : ∀ s ∈ Scanner.states deepString, s.token.kind = .stringLiteral →
      s.token.stop = 133 := by decide +kernel
  have hstop : 134 = s.token.stop := congrArg Prod.snd hends
  rw [hstates s hs hk] at hstop
  cases hstop

end SelfCapture
