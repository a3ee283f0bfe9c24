import SelfCapture.Tree.Basic

/-! # Outlines

  Textual listings of a syntax tree: the nodes under a root with their
  depth and role, and all nodes in the order of their making.
-/

namespace SelfCapture

/-- Name of a form with its variant. -/
def Form.title (form : Form) : String :=
  match form.variantName? with
  | some variant => form.name ++ ":" ++ variant
  | none => form.name

/-- The byte range of a node. -/
def Node.range (node : Node) : String := s!"{node.pos}..{node.stop}"

namespace Tree

/-- The line of a node in an outline. -/
def outlineLine (node : Node) (depth : Nat) (role : String) : String :=
  let title := node.form.title
  let range := node.range
  s!"{depth} {role} {title} {range}"

/-- One line for each node under `id`, each node before its children. -/
def outline (t : Tree) (depth : Nat) (role : String) (id : Nat) : List String :=
  match t.get? id with
  | none => []
  | some node =>
    outlineLine node depth role ::
      node.form.parts.flatMap fun part =>
        if part.2 < id then t.outline (depth + 1) part.1 part.2 else []
termination_by id

/-- One line for each node in the order of its making. -/
def listing (t : Tree) : List String :=
  t.nodes.toList.map fun node =>
    let name := node.form.name
    let range := node.range
    let parent := match node.parent with
      | some parent => toString parent
      | none => "-"
    s!"{name} {range} {parent}"

end Tree
end SelfCapture
