import TreeLint.Syntax.Tree

/-!
# Places in a tree

A tree knows nothing of the nodes above it. A cursor is a node together with its place: the offset
at which it starts and the way up to the root, one frame for each node above, which keeps the
siblings on both sides. Parents, siblings and ranges are read off a cursor, and the tree around it
can be rebuilt with another node in its place.

## Main definitions

* `TreeLint.Frame`, `TreeLint.Cursor` — one step of the way up, and a node with its place.
* `TreeLint.Node.cursor`, `TreeLint.Cursor.cursors` — the root of a tree, and the nodes from a
  cursor down in preorder.
* `TreeLint.Cursor.parent?`, `TreeLint.Cursor.ancestors` — the nodes above, the nearest first.
* `TreeLint.Cursor.before`, `TreeLint.Cursor.after` — the siblings, the nearest first.
* `TreeLint.Cursor.rebuild` — the whole tree with the node at the cursor replaced.
-/

namespace TreeLint

/-- Something of a tree together with the offset at which it starts. -/
structure Placed (α : Type) where
  /-- What stands there. -/
  item : α
  /-- The offset of its first byte. -/
  start : Nat

/-- The range of a token that stands at a known offset. -/
def Placed.range (p : Placed Token) : Range := .ofLength p.start p.item.length

/-- Consecutive elements with their offsets, the first at `start`. -/
def Element.place (start : Nat) : List Element → List (Placed Element)
  | [] => []
  | e :: es => ⟨e, start⟩ :: Element.place (start + e.length) es

/-- One step from a node to its parent: the parent's kind and offset, and the siblings of the node
on both sides. -/
structure Frame where
  /-- The kind of the parent. -/
  kind : Kind
  /-- The offset at which the parent starts. -/
  start : Nat
  /-- The siblings before the node, the nearest first. -/
  before : List Element
  /-- The siblings behind the node, the nearest first. -/
  after : List Element
deriving DecidableEq

/-- A node and its place in a tree. -/
structure Cursor where
  /-- The node at the cursor. -/
  node : Node
  /-- The offset at which the node starts. -/
  start : Nat
  /-- The way up to the root, the nearest step first. -/
  path : List Frame
deriving DecidableEq

/-- The node around a node, by the frame between them. -/
def Frame.plug (f : Frame) (n : Node) : Node := ⟨f.kind, f.before.reverse ++ n.toElement :: f.after⟩

/-- The cursor at the root of a tree. -/
def Node.cursor (root : Node) : Cursor := ⟨root, 0, []⟩

namespace Cursor

/-- The kind of the node at the cursor. -/
def kind (c : Cursor) : Kind := c.node.kind

/-- The bytes that the node at the cursor spans. -/
def range (c : Cursor) : Range := .ofLength c.start c.node.length

/-- The cursor at the parent; the root has none. -/
def parent? (c : Cursor) : Option Cursor :=
  match c.path with
  | [] => none
  | f :: path => some ⟨f.plug c.node, f.start, path⟩

/-- The nodes from one node up to the root along a path. -/
def ancestorsAlong (n : Node) (start : Nat) : List Frame → List Cursor
  | [] => [⟨n, start, []⟩]
  | f :: path => ⟨n, start, f :: path⟩ :: ancestorsAlong (f.plug n) f.start path

/-- The node at the cursor and the nodes above it, the nearest first. -/
def ancestors (c : Cursor) : List Cursor := ancestorsAlong c.node c.start c.path

/-- The siblings before the node, the nearest first. -/
def before (c : Cursor) : List Element := (c.path.head?.map Frame.before).getD []

/-- The siblings behind the node, the nearest first. -/
def after (c : Cursor) : List Element := (c.path.head?.map Frame.after).getD []

/-- The root of the tree along a path with a given node at its lower end. -/
def rebuildAlong (n : Node) : List Frame → Node
  | [] => n
  | f :: path => rebuildAlong (f.plug n) path

/-- The whole tree with another node in place of the one at the cursor. -/
def rebuild (c : Cursor) (n : Node) : Node := rebuildAlong n c.path

/-- The children of the node at the cursor with their offsets. -/
def elements (c : Cursor) : List (Placed Element) := Element.place c.start c.node.children

/-- The direct tokens of the node at the cursor with their offsets. -/
def tokens (c : Cursor) : List (Placed Token) :=
  c.elements.filterMap fun p => p.item.token?.map (⟨·, p.start⟩)

end Cursor

mutual
/-- The cursors at an element and at the nodes below it, in preorder, for an element at a given
place. -/
def Element.cursors (path : List Frame) (start : Nat) : Element → List Cursor
  | .token _ => []
  | .node k cs => ⟨⟨k, cs⟩, start, path⟩ :: Element.cursorsList path k start [] start cs
/-- The cursors at some children of a node and below them, in preorder. The node has the given kind
and starts at `start`; the children before these are `before`, the nearest first, and the first of
these starts at `offset`. -/
def Element.cursorsList (path : List Frame) (kind : Kind) (start : Nat) (before : List Element)
    (offset : Nat) : List Element → List Cursor
  | [] => []
  | e :: es =>
    e.cursors (⟨kind, start, before, es⟩ :: path) offset
      ++ Element.cursorsList path kind start (e :: before) (offset + e.length) es
end

namespace Cursor

/-- The cursors at the node and at the nodes below it, in preorder. -/
def cursors (c : Cursor) : List Cursor := c.node.toElement.cursors c.path c.start

/-- The cursors at some children of a node, tokens left out. -/
def childrenFrom (path : List Frame) (kind : Kind) (start : Nat) (before : List Element)
    (offset : Nat) : List Element → List Cursor
  | [] => []
  | e :: es =>
    let rest := childrenFrom path kind start (e :: before) (offset + e.length) es
    match e with
    | .token _ => rest
    | .node k cs => ⟨⟨k, cs⟩, offset, ⟨kind, start, before, es⟩ :: path⟩ :: rest

/-- The cursors at the child nodes. -/
def children (c : Cursor) : List Cursor :=
  childrenFrom c.path c.kind c.start [] c.start c.node.children

/-- The cursor at the first child node of a kind. -/
def child? (c : Cursor) (kind : Kind) : Option Cursor := c.children.find? (·.kind = kind)

end Cursor

/-- The cursors at the nodes of a tree, in preorder. -/
def Node.cursors (root : Node) : List Cursor := root.cursor.cursors

end TreeLint
