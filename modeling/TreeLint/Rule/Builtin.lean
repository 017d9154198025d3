import TreeLint.Check.Instantiation
import TreeLint.Check.Rethrow
import TreeLint.Rule.Registry

/-!
# Builtin rules

The rules that every registry of an analysis begins with, and the checks that implement the
structural ones.

## Main definitions

* `TreeLint.Check`, `TreeLint.check?` — checks, and the check of a rule.
* `TreeLint.Registry.builtin` — the registry of the builtin rules.
* `TreeLint.Registry.ofCatalog` — the builtin rules and those of a catalog.

## Main results

* `TreeLint.Registry.registerAll_eq_ok_iff` — several rules are registered in their order, if at all.
-/

namespace TreeLint

/-- A check reports the findings of a rule in a tree. -/
abbrev Check := Node → Descriptor → List Diagnostic

/-- The check that implements a structural rule, by the identifier of the rule. -/
def check? (ruleId : String) : Option Check :=
  if ruleId = Rethrow.ruleId then some Rethrow.check
  else if ruleId = Instantiation.ruleId then some Instantiation.check
  else none

/-- The builtin rule about comments, which runs only on demand. -/
def commentRule : Except Error Descriptor := Descriptor.comment "S124" "TODO|FIXME"

/-- The builtin rules. -/
def builtinRules : Except Error (List Descriptor) := do
  return [← commentRule, Rethrow.rule, Rethrow.fixRule, Instantiation.rule]

namespace Registry

/-- A registry with several rules more. -/
def registerAll (r : Registry) : List Descriptor → Except Error Registry
  | [] => .ok r
  | d :: ds => do (← r.register d).registerAll ds

/-- Several rules are registered in their order behind all others, if there is such a registry. -/
theorem registerAll_eq_ok_iff {r s : Registry} {ds : List Descriptor} :
    r.registerAll ds = .ok s ↔ s.rules = r.rules ++ ds := by
  induction ds generalizing r with
  | nil =>
    rw [registerAll, List.append_nil, Except.ok.injEq]
    exact ⟨fun h => h ▸ rfl, fun h => eq_of_rules_eq h.symm⟩
  | cons d ds ih =>
    rw [registerAll]
    constructor
    · intro h
      cases hd : r.register d with
      | error e =>
        rw [hd] at h
        cases h
      | ok r' =>
        rw [hd] at h
        rw [ih.mp h, (register_eq_ok_iff.mp hd).2, List.append_assoc]
        rfl
    · intro h
      obtain ⟨r', hd, hr'⟩ := exists_register (h ▸ s.nodup)
      rw [hd]
      exact ih.mpr (by rw [h, hr', List.append_assoc]; rfl)

/-- The registry of the builtin rules. -/
def builtin : Except Error Registry := do ({} : Registry).registerAll (← builtinRules)

/-- The registry of the builtin rules and those of a catalog. -/
def ofCatalog (catalog : List RuleConfig) : Except Error Registry := do
  (← builtin).registerCatalog catalog

end Registry

end TreeLint
