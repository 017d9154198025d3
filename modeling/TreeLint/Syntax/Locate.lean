import TreeLint.Syntax.Cursor

/-!
# From ranges to nodes

A range that was recorded earlier is looked up in a tree by walking down from the root. At each node
the children are searched by halving, under the three-way position of a child against the range;
the child found is entered only if it contains the range. Then the walk climbs back to the outermost
node with exactly this range.

A node is remembered across steps by its kind and range, which together are its target.

## Main definitions

* `TreeLint.narrow` — the search by halving.
* `TreeLint.Cursor.covering` — the end of the walk down: the lowest element reached that contains
  the range.
* `TreeLint.Node.find?` — the outermost node with a range.
* `TreeLint.Target`, `TreeLint.Target.resolve?` — a node by kind and range, and its recovery.
-/

namespace TreeLint

/-! ## Searching by halving -/

/-- Halves the window of `size` positions from `base` on until one position is left. A position in
the middle that lies above what is sought cuts off the upper half, any other the lower half. -/
def narrow (position : Nat → Ordering) (base size : Nat) : Nat :=
  if 1 < size then
    let half := size / 2
    narrow position (if position (base + half) = .gt then base else base + half) (size - half)
  else base
termination_by size
decreasing_by omega

/-- The position to which a search by halving leads: the one where it ends, or the one before if
that lies above what is sought. -/
def searchIndex (position : Nat → Ordering) (size : Nat) : Nat :=
  let i := narrow position 0 size
  if position i = .gt then i - 1 else i

/-! ## The walk down -/

/-- An element at its place: a node, or a token below a node. -/
inductive Located where
  /-- A node. -/
  | node (c : Cursor)
  /-- A token with the offset at which it starts, below a node. -/
  | token (t : Placed Token) (parent : Cursor)

/-- The kind of a located element. -/
def Located.kind : Located → Kind
  | .node c => c.kind
  | .token t _ => t.item.kind

/-- The nearest node: the element itself, or the node above a token. -/
def Located.enclosing : Located → Cursor
  | .node c => c
  | .token _ parent => parent

namespace Cursor

/-- The child at an index, at its place. -/
def childAt? (c : Cursor) (i : Nat) : Option Located :=
  let offset := c.start + Element.lengthList (c.node.children.take i)
  match c.node.children[i]? with
  | none => none
  | some (.token t) => some (.token ⟨t, offset⟩ c)
  | some (.node k cs) =>
    let frame := ⟨c.kind, c.start, (c.node.children.take i).reverse, c.node.children.drop (i + 1)⟩
    some (.node ⟨⟨k, cs⟩, offset, frame :: c.path⟩)

/-- The range of the child at an index; behind the last child, the empty range at the end. -/
def childRange (c : Cursor) (i : Nat) : Range :=
  .ofLength (c.start + Element.lengthList (c.node.children.take i))
    ((c.node.children[i]?.map Element.length).getD 0)

/-- The child that the walk enters on its way to a range, if it contains the range. -/
def step? (c : Cursor) (r : Range) : Option Located :=
  let i := searchIndex (fun i => (c.childRange i).relation r) c.node.children.length
  if (c.childRange i).contains r then c.childAt? i else none

/-- A child node is smaller than its parent. -/
theorem sizeOf_lt_of_step? {c d : Cursor} {r : Range} (h : c.step? r = some (.node d)) :
    sizeOf d.node.children < sizeOf c.node.children := by
  unfold step? at h
  simp only at h
  split at h
  · unfold childAt? at h
    simp only at h
    split at h
    · cases h
    · cases h
    · rename_i k cs hget
      cases h
      have hmem := List.mem_of_getElem? hget
      have := List.sizeOf_lt_of_mem hmem
      simp only [Element.node.sizeOf_spec] at this
      show sizeOf cs < _
      omega
  · cases h

/-- The end of the walk down from a node that contains the range: the lowest element reached that
contains it as well. -/
def covering (c : Cursor) (r : Range) : Located :=
  match _h : c.step? r with
  | none => .node c
  | some (.token t parent) => .token t parent
  | some (.node d) => d.covering r
termination_by sizeOf c.node.children
decreasing_by exact sizeOf_lt_of_step? _h

end Cursor

/-- The bytes that a whole tree spans. -/
def Node.fullRange (root : Node) : Range := .ofLength 0 root.length

/-- The lowest element on the walk to a range, if the range lies inside the tree. -/
def Node.covering? (root : Node) (r : Range) : Option Located :=
  if root.fullRange.contains r then some (root.cursor.covering r) else none

/-- The outermost node whose range is exactly `r`. There is none if the range lies outside the tree
or no node spans it exactly, which is how a stale range is noticed. -/
def Node.find? (root : Node) (r : Range) : Option Cursor := do
  let located ← root.covering? r
  (located.enclosing.ancestors.takeWhile (·.range = r)).getLast?

/-! ## Targets -/

/-- A node of a tree, remembered by its kind and its range. -/
structure Target where
  /-- The kind of the node. -/
  kind : Kind
  /-- The range of the node. -/
  range : Range
deriving DecidableEq

/-- The target of the node at a cursor. -/
def Cursor.target (c : Cursor) : Target := ⟨c.kind, c.range⟩

/-- The node that a target stands for: below the outermost node with the range, the first in
preorder that has the kind, as long as the range stays the same. -/
def Target.resolve? (t : Target) (root : Node) : Option Cursor := do
  let outermost ← root.find? t.range
  (outermost.cursors.takeWhile (·.range = t.range)).find? (·.kind = t.kind)

end TreeLint
