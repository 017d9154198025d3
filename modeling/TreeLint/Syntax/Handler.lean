import TreeLint.Syntax.Cursor

/-!
# Views of statements and handlers

Questions about blocks, guarded blocks and their handlers, answered from the children of their
nodes.

## Main definitions

* `TreeLint.Node.statements` — the statements of a block.
* `TreeLint.Node.handlers`, `TreeLint.Node.hasFinally` — the handlers of a guarded block, and
  whether a clause runs in any case.
* `TreeLint.Node.isFiltered`, `TreeLint.Node.onlyRethrows`, `TreeLint.Node.isRedundantHandler` —
  what a handler does.
-/

namespace TreeLint

namespace Node

/-- The statements directly inside a block, in order. -/
def statements (n : Node) : List Node := n.childNodes.filter (·.kind.isStatement)

/-! ## Guarded blocks -/

/-- The handlers of a guarded block, in order. -/
def handlers (n : Node) : List Node := n.childNodes.filter (·.kind = .catchClause)

/-- A clause runs in any case. -/
def hasFinally (n : Node) : Bool := (n.child? .finallyClause).isSome

/-! ## Handlers -/

/-- The name of the exception type that a handler declares. -/
def exceptionType? (n : Node) : Option String := do
  let declaration ← n.child? .catchDeclaration
  let type ← declaration.child? .typeRef
  (type.token? .ident).map Token.text

/-- A handler with a filter handles only the exceptions that pass it. -/
def isFiltered (n : Node) : Bool := (n.child? .catchFilter).isSome

/-- Kinds of nodes that a throw statement can throw. -/
def isThrownValue (n : Node) : Bool := n.kind = .expression ∨ n.kind = .objectCreationExpression

/-- A throw statement without an expression raises the caught exception again, unchanged. -/
def isBareRethrow (n : Node) : Bool := !n.childNodes.any isThrownValue

/-- The only statement of a handler's block is a bare rethrow. -/
def onlyRethrows (n : Node) : Bool :=
  match (n.child? .block).map statements with
  | some [only] => only.kind = .throwStatement && only.isBareRethrow
  | _ => false

/-- A handler that could as well be absent, as far as it alone is concerned: it has no filter and
only rethrows. -/
def isRedundantHandler (n : Node) : Bool := !n.isFiltered && n.onlyRethrows

end Node

namespace Cursor

/-- The cursors at the handlers of a guarded block. -/
def handlers (c : Cursor) : List Cursor := c.children.filter (·.kind = .catchClause)

/-- The guarded block that a handler belongs to. -/
def tryStatement? (c : Cursor) : Option Cursor := c.parent?.filter (·.kind = .tryStatement)

/-- What a throw statement throws, if anything. -/
def thrown? (c : Cursor) : Option Cursor := c.children.find? (·.node.isThrownValue)

end Cursor

end TreeLint
