import TreeLint.Diagnostic.Basic
import TreeLint.Fix.Rethrow
import TreeLint.Text.Quoted

/-!
# Fixing findings

A provider computes the edits for the findings of some rules and reconciles those of one batch. The
engine asks the provider of each finding and applies the edits of all findings as one change, or
says why it cannot.

A finding whose span ends behind the largest offset describes no place at all; the engine gives no
answer to it.

## Main definitions

* `TreeLint.FixProvider` — the computation of edits for some rules.
* `TreeLint.FixEngine` — the providers by rule.
* `TreeLint.FixOutcome` — a fixed tree, or why there is none.
* `TreeLint.FixEngine.fixAll?` — the outcome for several findings.

## Main results

* `TreeLint.FixEngine.provider?_add` — who is asked after a provider has been added.
-/

namespace TreeLint

/-- The computation of edits for the findings of some rules. -/
structure FixProvider where
  /-- The identifiers of the rules. -/
  ruleIds : List String
  /-- What the fix is called. -/
  title : String
  /-- The edit for a finding at a range. -/
  computeEdit : Node → Range → Except FixUnavailable Edit
  /-- Makes the edits of one batch fit together. -/
  reconcile : Node → List Edit → Except FixUnavailable (List Edit) := fun _ edits => .ok edits

namespace FixProvider

/-- The provider that removes handlers that only rethrow. -/
def rethrow : FixProvider where
  ruleIds := [Rethrow.ruleId]
  title := Rethrow.fixTitle
  computeEdit := Rethrow.computeEdit
  reconcile := Rethrow.reconcile

/-- A provider that removes the node at the range of a finding, with its trivia. -/
def removeNode (ruleIds : List String) (title : String) : FixProvider where
  ruleIds
  title
  computeEdit root r :=
    match root.find? r with
    | none => .error .targetNotFound
    | some c => .ok (.removal c.target c.rangeWithTrivia)

end FixProvider

/-- The outcome of a fix. -/
inductive FixOutcome where
  /-- The fixed tree, and the ranges in it whose contents were put there. -/
  | applied (tree : Node) (reformat : List Range)
  /-- There is no fix. -/
  | unavailable (reason : FixUnavailable)
deriving DecidableEq

/-- The fixed tree, or the failure. -/
def FixOutcome.result : FixOutcome → Except Error Node
  | applied tree _ => .ok tree
  | unavailable reason => .error reason.toError

/-- The fixed tree, if there is one. -/
def FixOutcome.tree? : FixOutcome → Option Node
  | applied tree _ => some tree
  | unavailable _ => none

/-- The members of a list without repetitions, in the order in which they first occur. -/
def distinct {α : Type} [DecidableEq α] : List α → List α
  | [] => []
  | a :: as => a :: (distinct as).filter (· ≠ a)

/-- The providers by rule, in the order in which rules were first provided for. -/
structure FixEngine where
  /-- The providers. -/
  providers : Assoc FixProvider := []

namespace FixEngine

/-- The engine with one more provider, which replaces earlier ones for its rules. -/
def add (e : FixEngine) (p : FixProvider) : FixEngine :=
  ⟨p.ruleIds.foldl (fun providers ruleId => providers.insert ruleId p) e.providers⟩

/-- The engine with the builtin providers. -/
def builtin : FixEngine := ({} : FixEngine).add .rethrow

/-- The provider for the findings of a rule. -/
def provider? (e : FixEngine) (ruleId : String) : Option FixProvider := e.providers.find? ruleId

/-- An added provider is asked about its own rules, and other rules keep their providers. -/
theorem provider?_add (e : FixEngine) (p : FixProvider) (ruleId : String) :
    (e.add p).provider? ruleId = if ruleId ∈ p.ruleIds then some p else e.provider? ruleId := by
  have key : ∀ (ids : List String) (m : Assoc FixProvider),
      (ids.foldl (fun m id => m.insert id p) m).find? ruleId =
        if ruleId ∈ ids then some p else m.find? ruleId := by
    intro ids
    induction ids with
    | nil => simp
    | cons id ids ih =>
      intro m
      rw [List.foldl_cons, ih, Assoc.find?_insert]
      by_cases hid : ruleId = id <;> simp [hid]
  exact key p.ruleIds e.providers

/-- The builtin providers fix the findings of one rule. -/
theorem provider?_builtin (ruleId : String) : builtin.provider? ruleId =
    if ruleId = Rethrow.ruleId then some .rethrow else none := by
  rw [builtin, provider?_add]
  simp [FixProvider.rethrow, provider?, Assoc.find?]

/-- The engine as it is shown to developers: the rules that are provided for. -/
def describe (e : FixEngine) : String :=
  "FixEngine \x7b rules: [" ++ ", ".intercalate (e.providers.map fun p => quoted p.1) ++ "] \x7d"

/-- Findings of a rule can be fixed. -/
def canFix (e : FixEngine) (ruleId : String) : Bool := (e.provider? ruleId).isSome

/-- The edit for a finding of a rule at a range. -/
def editAt (e : FixEngine) (root : Node) (ruleId : String) (r : Range) :
    Except FixUnavailable Edit :=
  if root.fullRange.contains r then
    match e.provider? ruleId with
    | none => .error .notApplicable
    | some p => p.computeEdit root r
  else .error .targetNotFound

/-- The edits for several findings, each with its rule, up to the first failure. There is no answer
if a span that is reached stands for no range. -/
def edits? (e : FixEngine) (root : Node) :
    List Diagnostic → Option (Except FixUnavailable (List (String × Edit)))
  | [] => some (.ok [])
  | d :: ds =>
    d.range?.bind fun r =>
      match e.editAt root d.ruleId r with
      | .error reason => some (.error reason)
      | .ok edit => (e.edits? root ds).map fun rest => rest.map fun rest => (d.ruleId, edit) :: rest

/-- The edits of one rule, without repetitions and made to fit together. -/
def reconcileRule (e : FixEngine) (root : Node) (ruleId : String) (edits : List Edit) :
    Except FixUnavailable (List Edit) :=
  match e.provider? ruleId with
  | none => .error .notApplicable
  | some p => p.reconcile root (distinct edits)

/-- The tree with the edits of several rules applied as one change. -/
def applyRules (e : FixEngine) (root : Node) (edits : List (String × Edit)) :
    Except FixUnavailable (Node × List Range) := do
  let groups ← (groupBy Prod.fst edits).mapM fun g => e.reconcileRule root g.1 (g.2.map Prod.snd)
  applyEdits root groups.flatten

/-- The outcome for several findings: all are fixed together, or none is. -/
def fixAll? (e : FixEngine) (root : Node) (findings : List Diagnostic) : Option FixOutcome :=
  if findings.isEmpty then some (.unavailable .notApplicable)
  else
    (e.edits? root findings).map fun edits =>
      match edits.bind (e.applyRules root) with
      | .ok (tree, reformat) => .applied tree reformat
      | .error reason => .unavailable reason

/-- The outcome for one finding. -/
def fix? (e : FixEngine) (root : Node) (finding : Diagnostic) : Option FixOutcome :=
  e.fixAll? root [finding]

/-- The fixed tree, or the tree as it is if there is nothing to fix or no fix. -/
def fixOrKeep? (e : FixEngine) (root : Node) (findings : List Diagnostic) : Option Node :=
  (e.fixAll? root findings).map fun outcome => outcome.tree?.getD root

end FixEngine

end TreeLint
