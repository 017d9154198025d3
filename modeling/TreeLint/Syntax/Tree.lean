import TreeLint.Data.Total
import TreeLint.Syntax.Token
import TreeLint.Text.Range

/-!
# Lossless syntax trees

A syntax tree is a node whose children are tokens and further nodes. Trivia are tokens like all
others, so the tokens of a tree spell its source text. Trees carry no positions: an element's
offset follows from the lengths of the elements before it.

## Main definitions

* `TreeLint.Element` — a token, or a node with its children.
* `TreeLint.Node` — a node by itself; the root of a tree is one.
* `TreeLint.Element.leaves`, `TreeLint.Element.text`, `TreeLint.Element.length` — the tokens of an
  element, the text that they spell, and its number of bytes.
* `TreeLint.Element.dump` — the elements below a node in preorder, with depths and ranges.

## Main results

* `TreeLint.Element.length_eq` — the length of an element is the sum of the lengths of its tokens.
-/

namespace TreeLint

/-- An element of a tree: a token, or a node with its children in order. -/
inductive Element where
  /-- A leaf. -/
  | token (t : Token)
  /-- An inner node; it may have no children. -/
  | node (kind : Kind) (children : List Element)
deriving Repr

/-- A node of a tree: its kind and its children in order. -/
structure Node where
  /-- The kind of the node. -/
  kind : Kind
  /-- The children, tokens and nodes mixed. -/
  children : List Element
deriving Repr

/-! ## Equality -/

mutual
/-- Structural equality of elements. -/
def Element.beq : Element → Element → Bool
  | .token t, .token u => t == u
  | .node k cs, .node l ds => k == l && Element.beqList cs ds
  | _, _ => false
/-- Structural equality of lists of elements. -/
def Element.beqList : List Element → List Element → Bool
  | [], [] => true
  | e :: es, d :: ds => e.beq d && Element.beqList es ds
  | _, _ => false
end

mutual
/-- The structural test is reflexive. -/
theorem Element.beq_refl : ∀ e : Element, e.beq e = true
  | .token t => by simp [Element.beq]
  | .node k cs => by simp [Element.beq, Element.beqList_refl cs]
/-- The structural test on lists is reflexive. -/
theorem Element.beqList_refl : ∀ es : List Element, Element.beqList es es = true
  | [] => rfl
  | e :: es => by simp [Element.beqList, Element.beq_refl e, Element.beqList_refl es]
end

mutual
/-- The structural test accepts equal elements only. -/
theorem Element.eq_of_beq : ∀ {e d : Element}, e.beq d = true → e = d
  | .token t, .token u, h => by simp_all [Element.beq]
  | .node k cs, .node l ds, h => by
    simp only [Element.beq, Bool.and_eq_true, beq_iff_eq] at h
    rw [h.1, Element.eq_of_beqList h.2]
  | .token _, .node _ _, h => by simp [Element.beq] at h
  | .node _ _, .token _, h => by simp [Element.beq] at h
/-- The structural test accepts equal lists only. -/
theorem Element.eq_of_beqList : ∀ {es ds : List Element}, Element.beqList es ds = true → es = ds
  | [], [], _ => rfl
  | e :: es, d :: ds, h => by
    simp only [Element.beqList, Bool.and_eq_true] at h
    rw [Element.eq_of_beq h.1, Element.eq_of_beqList h.2]
  | [], _ :: _, h => by simp [Element.beqList] at h
  | _ :: _, [], h => by simp [Element.beqList] at h
end

instance : DecidableEq Element := fun e d =>
  if h : e.beq d = true then isTrue (Element.eq_of_beq h)
  else isFalse fun heq => h (heq ▸ Element.beq_refl e)

instance : DecidableEq Node := fun m n =>
  match decEq m.kind n.kind, decEq m.children n.children with
  | isTrue hk, isTrue hc => isTrue (by cases m; cases n; simp_all)
  | isFalse hk, _ => isFalse fun h => hk (h ▸ rfl)
  | _, isFalse hc => isFalse fun h => hc (h ▸ rfl)

namespace Element

/-- The kind of an element. -/
def kind : Element → Kind
  | token t => t.kind
  | node k _ => k

/-- The node that an element is, if it is one. -/
def node? : Element → Option Node
  | token _ => none
  | node k cs => some ⟨k, cs⟩

/-- The token that an element is, if it is one. -/
def token? : Element → Option Token
  | token t => some t
  | node _ _ => none

/-- A trivia token. -/
def isTrivia : Element → Bool
  | token t => t.kind.isTrivia
  | node _ _ => false

mutual
/-- The tokens of an element, in order. -/
def leaves : Element → List Token
  | token t => [t]
  | node _ cs => leavesList cs
/-- The tokens of a list of elements, in order. -/
def leavesList : List Element → List Token
  | [] => []
  | e :: es => e.leaves ++ leavesList es
end

mutual
/-- The number of bytes of an element. -/
def length : Element → Nat
  | token t => t.length
  | node _ cs => lengthList cs
/-- The number of bytes of a list of elements. -/
def lengthList : List Element → Nat
  | [] => 0
  | e :: es => e.length + lengthList es
end

/-- The text that an element spells. -/
def text (e : Element) : String := String.join (e.leaves.map Token.text)

mutual
/-- The length of an element is the sum of the lengths of its tokens. -/
theorem length_eq : ∀ e : Element, e.length = total (e.leaves.map Token.length)
  | token t => by simp [length, leaves]
  | node _ cs => by simp [length, leaves, lengthList_eq cs]
/-- The length of a list of elements is the sum of the lengths of its tokens. -/
theorem lengthList_eq :
    ∀ es : List Element, lengthList es = total ((leavesList es).map Token.length)
  | [] => rfl
  | e :: es => by simp [lengthList, leavesList, length_eq e, lengthList_eq es]
end

end Element

namespace Node

/-- A node as an element of its parent. -/
def toElement (n : Node) : Element := .node n.kind n.children

instance : Coe Node Element := ⟨toElement⟩

/-- The tokens of a node, in order. -/
def leaves (n : Node) : List Token := Element.leavesList n.children

/-- The number of bytes of a node. -/
def length (n : Node) : Nat := Element.lengthList n.children

/-- The text that a node spells. -/
def text (n : Node) : String := n.toElement.text

/-- The child nodes, in order. -/
def childNodes (n : Node) : List Node := n.children.filterMap Element.node?

/-- The direct tokens, in order. -/
def childTokens (n : Node) : List Token := n.children.filterMap Element.token?

/-- The first child node of a kind. -/
def child? (n : Node) (kind : Kind) : Option Node := n.childNodes.find? (·.kind = kind)

/-- The first direct token of a kind. -/
def token? (n : Node) (kind : Kind) : Option Token := n.childTokens.find? (·.kind = kind)

/-- A compilation unit with no children. -/
def emptyUnit : Node := ⟨.compilationUnit, []⟩

end Node

/-! ## Preorder -/

mutual
/-- The nodes of an element in preorder, the element itself included if it is a node. -/
def Element.nodes : Element → List Node
  | .token _ => []
  | .node k cs => ⟨k, cs⟩ :: Element.nodesList cs
/-- The nodes of a list of elements in preorder. -/
def Element.nodesList : List Element → List Node
  | [] => []
  | e :: es => e.nodes ++ Element.nodesList es
end

/-- The nodes of a tree in preorder, the root first. -/
def Node.nodes (n : Node) : List Node := n.toElement.nodes

/-- One entry of a dump: an element's depth, kind and range, and its text if it is a token. -/
structure DumpEntry where
  /-- The number of nodes above the element. -/
  depth : Nat
  /-- The kind of the element. -/
  kind : Kind
  /-- The bytes that the element spans. -/
  range : Range
  /-- The text of a token. -/
  text? : Option String
deriving DecidableEq, Repr

mutual
/-- The entries of an element that starts at an offset, in preorder. -/
def Element.dump (depth start : Nat) : Element → List DumpEntry
  | .token t => [⟨depth, t.kind, .ofLength start t.length, some t.text⟩]
  | .node k cs =>
    ⟨depth, k, .ofLength start (Element.lengthList cs), none⟩
      :: Element.dumpList (depth + 1) start cs
/-- The entries of consecutive elements of which the first starts at an offset, in preorder. -/
def Element.dumpList (depth start : Nat) : List Element → List DumpEntry
  | [] => []
  | e :: es => e.dump depth start ++ Element.dumpList depth (start + e.length) es
end

/-- The entries of a tree in preorder, from depth and offset zero. -/
def Node.dump (n : Node) : List DumpEntry := n.toElement.dump 0 0

end TreeLint
