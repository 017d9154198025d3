import TreeLint.Rule.Descriptor
import TreeLint.Syntax.Handler

/-!
# Handlers that only rethrow

A handler that does nothing but raise the caught exception again could as well be absent, provided
that no later handler of the same guarded block does anything else: without it, the exception would
be offered to the later ones.

## Main definitions

* `TreeLint.Rethrow.isSuperfluous` — the handlers that are reported.
* `TreeLint.Rethrow.check` — the check.
-/

namespace TreeLint.Rethrow

/-- The identifier of the rule. -/
def ruleId : String := "S2737"

/-- The rule. -/
def rule : Descriptor where
  id := ruleId
  title := "\"catch\" clauses should do more than rethrow"
  messageTemplate :=
    "Add logic to this catch clause or eliminate it and rethrow the exception automatically."
  category := .redundancy
  severity := .minor
  kind := .structural

/-- The title of the fix. -/
def fixTitle : String := "Remove redundant catch"

/-- The rule that fixes the findings. -/
def fixRule : Descriptor where
  id := "S2737-fix"
  title := fixTitle
  messageTemplate := fixTitle
  category := .redundancy
  kind := .fix ruleId

/-- The handlers behind a node among its siblings. -/
def laterHandlers (c : Cursor) : List Node :=
  (c.after.filterMap Element.node?).filter (·.kind = .catchClause)

/-- A handler is superfluous if it only rethrows, and so do all handlers behind it. -/
def isSuperfluous (c : Cursor) : Bool :=
  c.kind = .catchClause && c.node.isRedundantHandler
    && (laterHandlers c).all Node.isRedundantHandler

/-- Reports superfluous handlers in the order of the text. -/
def check (root : Node) (rule : Descriptor) : List Diagnostic :=
  (root.cursors.filter isSuperfluous).map fun c => rule.finding [] c.range

end TreeLint.Rethrow
