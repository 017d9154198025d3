import TreeLint.Syntax.Cursor
import TreeLint.Text.Quoted

/-!
# Outlines of trees

An outline shows the shape of a tree: one line for each node and each token that is not trivia,
indented by depth, tokens with their text. Beside it stands the check that the nodes of a tree are
trimmed.

## Main definitions

* `TreeLint.Node.outline` — the outline of a tree.
* `TreeLint.Node.ofKind` — the nodes of a kind, in preorder.
* `TreeLint.Untrimmed`, `TreeLint.Node.untrimmed?` — the first node below the root that starts or
  ends with trivia.
-/

namespace TreeLint

mutual
/-- The outline of an element at a depth. -/
def Element.outline (depth : Nat) : Element → List Char
  | .token t =>
    if t.kind.isTrivia then []
    else List.replicate (2 * depth) ' ' ++ (t.kind.name ++ " " ++ quoted t.text).toList ++ ['\n']
  | .node k cs =>
    List.replicate (2 * depth) ' ' ++ k.name.toList ++ '\n' :: Element.outlineList (depth + 1) cs
/-- The outlines of consecutive elements at a depth. -/
def Element.outlineList (depth : Nat) : List Element → List Char
  | [] => []
  | e :: es => e.outline depth ++ Element.outlineList depth es
end

/-- The outline of a tree. -/
def Node.outline (root : Node) : String := .ofList (root.toElement.outline 0)

/-- The cursors at the nodes of a kind, in preorder. -/
def Node.ofKind (root : Node) (kind : Kind) : List Cursor := root.cursors.filter (·.kind = kind)

/-- What is reported when a tree has no node of a kind that is asked for. -/
def missingMessage (kind : Kind) (root : Node) : String :=
  "no " ++ kind.name ++ " node in:\n" ++ root.text

/-! ## Trimmed nodes -/

/-- A node that starts or ends with trivia. -/
structure Untrimmed where
  /-- The kind of the node. -/
  kind : Kind
  /-- The range of the node. -/
  range : Range
  /-- The text of the trivia at its end. -/
  text : String

/-- The wording of the complaint about an untrimmed node. -/
def Untrimmed.message (u : Untrimmed) : String :=
  u.kind.name ++ " at " ++ toString u.range.start ++ ".." ++ toString u.range.stop
    ++ " has boundary trivia " ++ quoted u.text

/-- The trivia at the start of a node, or else at its end. -/
def Node.boundaryTrivia? (n : Node) : Option Token :=
  (n.children.head?.toList ++ n.children.getLast?.toList).filterMap Element.token?
    |>.find? (·.kind.isTrivia)

/-- The first node below the root, in preorder, that starts or ends with trivia. -/
def Node.untrimmed? (root : Node) : Option Untrimmed :=
  root.cursors.tail.findSome? fun c =>
    c.node.boundaryTrivia?.map fun t => ⟨c.kind, c.range, t.text⟩

end TreeLint
