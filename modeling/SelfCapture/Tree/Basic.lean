import SelfCapture.Text.Window
import SelfCapture.Tree.Form

/-! # Syntax trees

  A `Tree` holds the nodes of one source text in the order in which they
  were made.  A node is made after the nodes it is made of, so a child has
  a smaller number than its parent; making a node records it as the parent
  of its children.  Nodes that were made and then not used stay in the
  tree without a parent.
-/

namespace SelfCapture

/-- A node of a syntax tree. -/
structure Node where
  form : Form
  /-- Offset of the first byte. -/
  pos : Nat
  /-- Offset after the last byte. -/
  stop : Nat
  /-- The node this one is a part of. -/
  parent : Option Nat := none
  deriving Repr

/-- The nodes made for a text. -/
structure Tree where
  /-- The bytes of the text. -/
  bytes : ByteArray
  /-- The nodes in the order of their making. -/
  nodes : Array Node := #[]

namespace Tree

/-! ## Section 1: Growth -/

/-- Records `parent` as the parent of each of the given nodes. -/
def adopt (nodes : Array Node) (parent : Nat) (children : List Nat) : Array Node :=
  children.foldl
    (fun nodes child => nodes.modify child fun node => { node with parent := some parent })
    nodes

/-- The number that the next node will get. -/
def nextId (t : Tree) : Nat := t.nodes.size

/-- Adds a node and makes it the parent of its children.  A node that would
    end before its start is empty. -/
def add (t : Tree) (form : Form) (pos stop : Nat) : Tree :=
  { t with
    nodes := (adopt t.nodes t.nextId form.children).push { form, pos, stop := max stop pos } }

/-- Drops the nodes from number `count` on. -/
def truncate (t : Tree) (count : Nat) : Tree := { t with nodes := t.nodes.shrink count }

/-! ## Section 2: Access -/

/-- The node with a number. -/
def get? (t : Tree) (id : Nat) : Option Node := t.nodes[id]?

/-- The form of a node. -/
def form? (t : Tree) (id : Nat) : Option Form := (t.get? id).map (·.form)

/-- The parent of a node. -/
def parent? (t : Tree) (id : Nat) : Option Nat := (t.get? id).bind (·.parent)

/-- Offset of the first byte of a node. -/
def pos? (t : Tree) (id : Nat) : Option Nat := (t.get? id).map (·.pos)

/-- The source text that a node covers, empty for a node that does not exist. -/
def text (t : Tree) (id : Nat) : String :=
  match t.get? id with
  | some node => Text.slice t.bytes node.pos node.stop
  | none => ""

/-- The children of a node, in source order. -/
def children (t : Tree) (id : Nat) : List Nat := ((t.form? id).map (·.children)).getD []

/-- The children of a node that were made before it, which all children are. -/
def earlierChildren (t : Tree) (id : Nat) : List Nat :=
  (t.children id).filter (· < id)

/-- The nodes that contain a node, from its parent up to the root.  A
    parent has a larger number than its child. -/
def ancestors (t : Tree) (id : Nat) : List Nat :=
  match t.parent? id with
  | some parent =>
    if id < parent ∧ parent < t.nodes.size then parent :: t.ancestors parent else []
  | none => []
termination_by t.nodes.size - id
decreasing_by omega

end Tree
end SelfCapture
