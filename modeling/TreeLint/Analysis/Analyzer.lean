import TreeLint.Fix.Engine
import TreeLint.Rule.Builtin
import TreeLint.Rule.Comment
import TreeLint.Text.Edit

/-!
# Analysis

An analyzer runs the rules of a registry that a configuration enables, with the severities that it
gives to them, and offers the fixes that are enabled. It never changes once it is built.

## Main definitions

* `TreeLint.Analyzer`, `TreeLint.Analyzer.ofConfig` — the enabled rules of a registry.
* `TreeLint.Analyzer.analyze` — the findings in a tree, by start.
* `TreeLint.Analyzer.analyzeUnless` — the same, unless the run is cancelled.
* `TreeLint.FixOutcome.textEditsBy?` — a fixed tree as edits of the text of the tree before.
-/

namespace TreeLint

/-- The enabled rules of a registry. -/
structure Analyzer where
  /-- The registry. -/
  registry : Registry
  /-- The rules that test comments. -/
  comments : List Descriptor
  /-- The structural rules with their checks. -/
  checks : List (Descriptor × Check)
  /-- The fixes. -/
  engine : FixEngine

/-- The rules of a registry that a configuration enables, with the severities that it gives. -/
def enabledRules (registry : Registry) (c : LinterConfig) : List Descriptor :=
  (registry.rules.filter fun d => c.isEnabled d.id d.enabled).map fun d => d.effective c

/-- Findings in the order of their starts; those with the same start keep their order. -/
def sortFindings (findings : List Diagnostic) : List Diagnostic :=
  findings.mergeSort fun d e => d.span.start ≤ e.span.start

namespace Analyzer

/-- The analyzer of the rules that a configuration enables. Structural rules without a check do not
run, and fixes for which there is no provider are not offered. -/
def ofConfig (registry : Registry) (c : LinterConfig) : Analyzer :=
  let enabled := enabledRules registry c
  { registry
    comments := enabled.filter Descriptor.isPattern
    checks := (enabled.filter Descriptor.isStructural).filterMap fun d =>
      (check? d.id).map fun check => (d, check)
    engine := (enabled.filterMap Descriptor.fixes?).foldl
      (fun e fixed => (FixEngine.builtin.provider? fixed).elim e e.add) {} }

/-- The analyzer of the builtin rules as they are. -/
def builtin : Except Error Analyzer := return ofConfig (← Registry.builtin) {}

/-- The analyzer that a configuration describes. -/
def ofConfiguration (c : Config) : Except Error Analyzer :=
  return ofConfig (← Registry.ofCatalog c.catalog) c.linter

/-- The identifiers of the rules that run. -/
def activeIds (a : Analyzer) : List String :=
  (a.comments ++ a.checks.map Prod.fst).map Descriptor.id

/-- The findings of the structural rules, in the order of the rules. -/
def structuralFindings (a : Analyzer) (root : Node) : List Diagnostic :=
  a.checks.flatMap fun (d, check) => check root d

/-- The findings in a tree by start. Of those with the same start, findings about comments come
first, then those of the structural rules. -/
def analyze (a : Analyzer) (root : Node) : List Diagnostic :=
  sortFindings (commentFindings a.comments root ++ a.structuralFindings root)

/-- The findings of structural rules, unless the run has been cancelled; this is asked before each
of them. -/
def checkUnless (cancelled : Bool) (root : Node) :
    List (Descriptor × Check) → Except Error (List Diagnostic)
  | [] => .ok []
  | (d, check) :: rest =>
    if cancelled then .error .cancelled
    else do return check root d ++ (← checkUnless cancelled root rest)

/-- The findings in a tree by start, unless the run has been cancelled. -/
def analyzeUnless (a : Analyzer) (cancelled : Bool) (root : Node) :
    Except Error (List Diagnostic) := do
  let comments ← commentFindingsUnless cancelled a.comments root
  let structural ← checkUnless cancelled root a.checks
  return sortFindings (comments ++ structural)

/-- A finding can be fixed. -/
def canFix (a : Analyzer) (d : Diagnostic) : Bool := a.engine.canFix d.ruleId

/-- What the fix of a finding is called. -/
def fixTitle? (a : Analyzer) (d : Diagnostic) : Option String :=
  (a.engine.provider? d.ruleId).map FixProvider.title

end Analyzer

/-- The edits that lead from the text of a tree to that of the fixed tree, if there is one. There is no
answer if the comparison of the texts is not about their lines. -/
def FixOutcome.textEditsBy? (compare : String → String → LineScript) (original : Node)
    (outcome : FixOutcome) : Option (Option (List TextEdit)) :=
  match outcome.tree? with
  | none => some none
  | some fixed => (deriveTextEditsBy? compare original.text fixed.text).map some

end TreeLint
