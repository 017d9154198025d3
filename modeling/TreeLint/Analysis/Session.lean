import TreeLint.Analysis.Analyzer
import TreeLint.Text.Edit

/-!
# Sessions

A session is what a host keeps while a document is worked on: the analyzer, the trees that the
document has gone through, the current one last, and the findings of the last analysis. The findings
are kept as they are when the tree changes, so they may be stale.

## Main definitions

* `TreeLint.Session` — the state.
* `TreeLint.Session.analyze`, `TreeLint.Session.fix?`, `TreeLint.Session.fixRepeatedly?`,
  `TreeLint.Session.undo` — the steps.
* `TreeLint.Analyzer.fixFirst?`, `TreeLint.Analyzer.fixSteps?` — one finding fixed after the
  other.
-/

namespace TreeLint

namespace Analyzer

/-- The tree with the first finding fixed that can be fixed; nothing if there is none or its fix is
not available. There is no answer if its span stands for no range. -/
def fixFirst? (a : Analyzer) (root : Node) : Option (Option Node) :=
  match (a.analyze root).find? a.canFix with
  | none => some none
  | some d => (a.engine.fix? root d).map FixOutcome.tree?

/-- The trees that follow when the first finding is fixed again and again, at most `fuel` times. -/
def fixSteps? (a : Analyzer) : Nat → Node → Option (List Node)
  | 0, _ => some []
  | fuel + 1, root =>
    match a.fixFirst? root with
    | none => none
    | some none => some []
    | some (some tree) => (a.fixSteps? fuel tree).map (tree :: ·)

end Analyzer

/-- What a host keeps while a document is worked on. -/
structure Session where
  /-- The analyzer. -/
  analyzer : Analyzer
  /-- The current tree. -/
  tree : Node
  /-- The trees before it, the latest first. -/
  earlier : List Node := []
  /-- The findings of the last analysis. -/
  findings : List Diagnostic := []

namespace Session

/-- The session with another tree as the current one. -/
def become (s : Session) (tree : Node) : Session := { s with tree, earlier := s.tree :: s.earlier }

/-- The session with its findings brought up to date. -/
def analyze (s : Session) : Session := { s with findings := s.analyzer.analyze s.tree }

/-- The findings at some positions; positions without a finding are passed over. -/
def findingsAt (s : Session) (positions : List Nat) : List Diagnostic :=
  positions.filterMap fun i => s.findings[i]?

/-- The findings that can be fixed. -/
def fixable (s : Session) : List Diagnostic := s.findings.filter s.analyzer.canFix

/-- The outcome of fixing some findings together, and the session after it. -/
def fix? (s : Session) (findings : List Diagnostic) : Option (FixOutcome × Session) :=
  (s.analyzer.engine.fixAll? s.tree findings).map fun outcome =>
    (outcome, outcome.tree?.elim s s.become)

/-- How often the first finding is fixed at most. -/
def maxSteps : Nat := 50

/-- Fixes the first finding again and again. The answer is the trees on the way, and the session
with the last of them as the current one, which counts as a change even if there was none. -/
def fixRepeatedly? (s : Session) : Option (List Node × Session) :=
  (s.analyzer.fixSteps? maxSteps s.tree).map fun trees =>
    (trees, s.become (trees.getLastD s.tree))

/-- The session before the last change; the first tree stays. -/
def undo (s : Session) : Session :=
  match s.earlier with
  | [] => s
  | tree :: earlier => { s with tree, earlier }

end Session

end TreeLint
