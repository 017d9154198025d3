import TreeLint.Rule.Descriptor

/-!
# Registries of rules

A registry holds one rule for each identifier, in the order of registration. A registry is a value:
registering a rule gives a new registry, and whoever keeps the earlier one still sees it unchanged.

## Main definitions

* `TreeLint.Registry` — rules with distinct identifiers.
* `TreeLint.Registry.register` — the registry with one more rule.
* `TreeLint.Registry.find?`, `TreeLint.Registry.lookup` — a rule by identifier.
* `TreeLint.Registry.registerCatalog` — the registry with the rules of a catalog.

## Main results

* `TreeLint.Registry.find?_eq_some_iff` — a rule is found under its own identifier, and only there.
* `TreeLint.Registry.register_eq_ok_iff`, `TreeLint.Registry.register_eq_error_iff` — when a rule is
  registered, and when it is refused.
-/

namespace TreeLint

/-- Rules with distinct identifiers, in order of registration. -/
structure Registry where
  /-- The rules. -/
  rules : List Descriptor := []
  /-- No two rules have the same identifier. -/
  nodup : (rules.map Descriptor.id).Nodup := by simp

namespace Registry

/-- The rule with an identifier. -/
def find? (r : Registry) (id : String) : Option Descriptor := r.rules.find? (·.id = id)

/-- A rule with the identifier is registered. -/
def contains (r : Registry) (id : String) : Bool := (r.rules.map Descriptor.id).contains id

/-- The rule with an identifier, or the failure to find it. -/
def lookup (r : Registry) (id : String) : Except Error Descriptor :=
  match r.find? id with
  | some d => .ok d
  | none => .error (.unknownRule id)

/-- The registry with one more rule, which needs an identifier of its own. -/
def register (r : Registry) (d : Descriptor) : Except Error Registry :=
  if h : d.id ∈ r.rules.map Descriptor.id then .error (.duplicateRule d.id)
  else .ok {
    rules := r.rules ++ [d]
    nodup := by
      rw [List.map_append, List.nodup_append]
      refine ⟨r.nodup, by simp, ?_⟩
      rintro a ha b hb rfl
      simp only [List.map_cons, List.map_nil, List.mem_singleton] at hb
      exact h (hb ▸ ha) }

/-- A registry is determined by its rules. -/
theorem eq_of_rules_eq {r s : Registry} (h : r.rules = s.rules) : r = s := by
  cases r
  cases s
  cases h
  rfl

/-- A rule is found under its own identifier, and only there. -/
theorem find?_eq_some_iff {r : Registry} {id : String} {d : Descriptor} :
    r.find? id = some d ↔ d ∈ r.rules ∧ d.id = id := by
  constructor
  · intro h
    have hid := List.find?_some (p := fun e : Descriptor => decide (e.id = id)) h
    exact ⟨List.mem_of_find?_eq_some h, of_decide_eq_true hid⟩
  · rintro ⟨hd, rfl⟩
    obtain ⟨rules, nodup⟩ := r
    -- no rule before `d` has its identifier, so the search does not stop earlier
    induction rules with
    | nil => cases hd
    | cons e rules ih =>
      rw [List.map_cons, List.nodup_cons] at nodup
      rcases List.mem_cons.mp hd with rfl | hd
      · simp [find?]
      · have hne : e.id ≠ d.id := fun heq => nodup.1 (heq ▸ List.mem_map_of_mem hd)
        simpa [find?, hne] using ih nodup.2 hd

/-- A rule is registered if its identifier is new, and then stands behind all others. -/
theorem register_eq_ok_iff {r s : Registry} {d : Descriptor} :
    r.register d = .ok s ↔ d.id ∉ r.rules.map Descriptor.id ∧ s.rules = r.rules ++ [d] := by
  unfold register
  split
  case isTrue h => simp [h]
  case isFalse h =>
    constructor
    · intro heq
      obtain rfl := Except.ok.inj heq
      exact ⟨h, rfl⟩
    · rintro ⟨-, hs⟩
      exact congrArg Except.ok (eq_of_rules_eq hs.symm)

/-- The first of some rules is registered if all identifiers are distinct. -/
theorem exists_register {r : Registry} {d : Descriptor} {ds : List Descriptor}
    (h : ((r.rules ++ d :: ds).map Descriptor.id).Nodup) :
    ∃ s, r.register d = .ok s ∧ s.rules = r.rules ++ [d] := by
  rw [List.map_append, List.map_cons, List.nodup_append] at h
  have hnew : d.id ∉ r.rules.map Descriptor.id := fun hmem =>
    h.2.2 _ hmem _ List.mem_cons_self rfl
  cases hs : r.register d with
  | ok s => exact ⟨s, rfl, (register_eq_ok_iff.mp hs).2⟩
  | error e =>
    unfold register at hs
    simp [hnew] at hs

/-- A rule is refused if its identifier is taken. -/
theorem register_eq_error_iff {r : Registry} {d : Descriptor} {e : Error} :
    r.register d = .error e ↔ d.id ∈ r.rules.map Descriptor.id ∧ e = .duplicateRule d.id := by
  unfold register
  split
  case isTrue h => simp [h, eq_comm]
  case isFalse h => simp [h]

/-- The registry with the rule that an entry of a catalog declares. -/
def registerConfig (r : Registry) (c : RuleConfig) : Except Error Registry := do
  r.register (← Descriptor.ofConfig c)

/-- Registers the entries of a catalog one after the other. The first failure ends it; the answer
is the registry reached and the failure, if there was one. -/
def registerEach (r : Registry) : List RuleConfig → Registry × Option Error
  | [] => (r, none)
  | c :: cs =>
    match r.registerConfig c with
    | .ok r => r.registerEach cs
    | .error e => (r, some e)

/-- The registry with all rules of a catalog. -/
def registerCatalog (r : Registry) (catalog : List RuleConfig) : Except Error Registry :=
  match r.registerEach catalog with
  | (r, none) => .ok r
  | (_, some e) => .error e

/-- The rules that test comments. -/
def patternRules (r : Registry) : List Descriptor := r.rules.filter Descriptor.isPattern

/-- The rules that inspect the structure of trees. -/
def structuralRules (r : Registry) : List Descriptor := r.rules.filter Descriptor.isStructural

/-- The first rule that fixes the findings of a rule. -/
def fixRuleFor? (r : Registry) (ruleId : String) : Option Descriptor :=
  r.rules.find? fun d => d.fixes? = some ruleId

end Registry

end TreeLint
