import TreeLint.Check.Rethrow
import TreeLint.Data.Assoc
import TreeLint.Fix.Edit
import TreeLint.Syntax.Trivia

/-!
# Removing handlers that only rethrow

A handler is removed together with the trivia that belong to it. If no handler is left and no clause
runs in any case, the guarded block itself is pointless, and the contents of its body take its
place. Handlers with a filter are never removed.

Several removals from one guarded block are reconciled: removals that share trivia become one, and
the removal of all handlers becomes a replacement of the whole by the contents of the body.

## Main definitions

* `TreeLint.Rethrow.flatten` — the edit that puts the contents of the body in place of the whole.
* `TreeLint.Rethrow.removal` — the edit that removes one handler.
* `TreeLint.Rethrow.computeEdit` — the edit for the handler around a place.
* `TreeLint.Rethrow.reconcile` — the edits of one batch, made to fit together.
-/

namespace TreeLint

/-- Blanks and line ends, as opposed to comments and code. -/
def Element.isLayout (e : Element) : Bool := e.kind.isLayout

/-- The elements without blanks and line ends at the two ends. -/
def trimLayout (es : List Element) : List Element :=
  ((es.dropWhile Element.isLayout).reverse.dropWhile Element.isLayout).reverse

namespace Rethrow

/-- The elements of a block between its braces. -/
def body (block : Node) : List Element :=
  ((block.children.dropWhile fun e => e.kind ≠ .lBrace).drop 1).takeWhile fun e => e.kind ≠ .rBrace

/-- The edit that puts the contents of the body of a guarded block in the place of the whole. -/
def flatten (tryStatement : Cursor) : Except FixUnavailable Edit :=
  match tryStatement.node.child? .block with
  | none => .error .notApplicable
  | some block => .ok (.replacement tryStatement.target (trimLayout (body block)))

/-- The blanks and line ends before the trivia that lead to a node, the nearest first. -/
def layoutBefore (c : Cursor) : List Element :=
  (c.before.drop c.leadingTrivia.length).takeWhile Element.isLayout

/-- Where the blanks and line ends before the trivia of a node start, if there are any. -/
def layoutStart? (c : Cursor) : Option Nat :=
  if (layoutBefore c).isEmpty then none
  else some (c.rangeWithTrivia.start - Element.lengthList (layoutBefore c))

/-- A range widened to the left so that it begins no later than an offset, if there is one. -/
def widenTo (start : Option Nat) (r : Range) : Range := start.elim r r.extendLeft

/-- Nothing but trivia follows a node among its siblings. -/
def isLast (c : Cursor) : Bool := c.after.all fun e => e.kind.isTrivia

/-- The edit that removes a handler with its trivia. The last one takes the blanks and line ends
before it along, so that no dangling indentation is left. -/
def removal (handler : Cursor) : Edit :=
  .removal handler.target
    (if isLast handler then widenTo (layoutStart? handler) handler.rangeWithTrivia
      else handler.rangeWithTrivia)

/-- The edit for the nearest handler of a guarded block around the node with a range. -/
def computeEdit (root : Node) (r : Range) : Except FixUnavailable Edit := do
  let some node := root.find? r | throw .targetNotFound
  let some handler := node.ancestors.find? fun c =>
      c.kind = .catchClause && c.tryStatement?.isSome
    | throw .notApplicable
  if handler.node.isFiltered then throw .notFixable
  let some tryStatement := handler.tryStatement? | throw .notApplicable
  if tryStatement.handlers.length = 1 ∧ ¬tryStatement.node.hasFinally then flatten tryStatement
  else return removal handler

/-! ## Reconciliation -/

/-- A run of removals, of which the first is given, with the removals that overlap it merged into
it, and the runs behind it. -/
def mergeFrom (run : Edit) : List Edit → List Edit
  | [] => [run]
  | e :: es =>
    if run.overlaps e then mergeFrom { run with removed := run.removed.cover e.removed } es
    else run :: mergeFrom e es

/-- Removals in order, those that overlap merged. -/
def mergeRuns : List Edit → List Edit
  | [] => []
  | e :: es => mergeFrom e es

/-- A run of removals, widened to the blanks and line ends before its first handler if it holds the
last handler. -/
def widen (handlers : List Cursor) (lastRange : Range) (run : Edit) : Edit :=
  if run.removed.contains lastRange then
    let first? := handlers.find? fun c => c.target = run.target
    { run with removed := widenTo (first?.bind layoutStart?) run.removed }
  else run

/-- Removals of handlers of one guarded block as runs that do not overlap. A run that reaches the
last handler, if nothing follows it, begins at the blanks and line ends before its first handler. -/
def mergeRemovals (tryStatement : Cursor) (removals : List Edit) : List Edit :=
  let runs := mergeRuns (sortEdits removals)
  match tryStatement.handlers.getLast? with
  | some last =>
    if tryStatement.node.hasFinally then runs
    else runs.map (widen tryStatement.handlers last.range)
  | none => runs

/-- The guarded block of the handler that an edit removes. -/
def owner? (root : Node) (e : Edit) : Option Cursor :=
  if e.target.kind = .catchClause then (e.target.resolve? root).bind Cursor.tryStatement? else none

/-- The removals from one guarded block as edits that fit together. -/
def reconcileGroup (root : Node) (target : Target) (removals : List Edit) :
    Except FixUnavailable (List Edit) :=
  match target.resolve? root with
  | none => .error .targetNotFound
  | some tryStatement =>
    -- there are as many edits as handlers only if all handlers go
    if tryStatement.node.hasFinally ∨ tryStatement.handlers.length ≠ removals.length then
      .ok (mergeRemovals tryStatement removals)
    else (flatten tryStatement).map fun e => [e]

/-- The edits of one batch, made to fit together: first those that remove no handler, then those of
each guarded block. -/
def reconcile (root : Node) (edits : List Edit) : Except FixUnavailable (List Edit) := do
  let owned := edits.filterMap fun e => (owner? root e).map fun c => (c.target, e)
  let free := edits.filter fun e => (owner? root e).isNone
  let groups ← (groupBy Prod.fst owned).mapM fun g => reconcileGroup root g.1 (g.2.map Prod.snd)
  return free ++ groups.flatten

end Rethrow

end TreeLint
