import TreeLint.Syntax.Tree

/-!
# Building trees step by step

A builder takes the tokens of a tree from left to right, interleaved with requests to open and close
nodes. A node can also be opened around elements that are already there, from a remembered position
on. A request that cannot be met has no result.

## Main definitions

* `TreeLint.Builder` — the finished elements and the open nodes.
* `TreeLint.Builder.open_`, `TreeLint.Builder.token`, `TreeLint.Builder.close?`,
  `TreeLint.Builder.openAt?` — the requests.
* `TreeLint.Builder.finish?` — the tree, if exactly one node is finished.
-/

namespace TreeLint

/-- A tree under construction. -/
structure Builder where
  /-- The elements that no open node has taken in yet, in order. -/
  elements : List Element := []
  /-- The open nodes, the innermost first: the kind, and the number of elements before the first
  child. -/
  pending : List (Kind × Nat) := []

namespace Builder

/-- Opens a node whose children are the elements from here on. -/
def open_ (b : Builder) (kind : Kind) : Builder :=
  { b with pending := (kind, b.elements.length) :: b.pending }

/-- Adds a token. -/
def token (b : Builder) (t : Token) : Builder := { b with elements := b.elements ++ [.token t] }

/-- Closes the innermost open node. There has to be one. -/
def close? (b : Builder) : Option Builder :=
  match b.pending with
  | [] => none
  | (kind, first) :: pending =>
    some ⟨b.elements.take first ++ [.node kind (b.elements.drop first)], pending⟩

/-- The current position, from which a node can be opened later. -/
def position (b : Builder) : Nat := b.elements.length

/-- Opens a node whose children are the elements from a remembered position on. The position has to
lie neither behind the last element nor before the first child of the innermost open node. -/
def openAt? (b : Builder) (position : Nat) (kind : Kind) : Option Builder :=
  let first := (b.pending.head?.map Prod.snd).getD 0
  if first ≤ position ∧ position ≤ b.elements.length then
    some { b with pending := (kind, position) :: b.pending }
  else none

/-- The finished tree: there has to be exactly one element, and it has to be a node. Open nodes are
dropped. -/
def finish? (b : Builder) : Option Node :=
  match b.elements with
  | [.node kind children] => some ⟨kind, children⟩
  | _ => none

end Builder

end TreeLint
