import TreeLint.Analysis.Analyzer
import TreeLint.Proofs.Place

/-!
# The builtin analyzer

The builtin analyzer runs two structural rules and offers one fix, that of handlers that only
rethrow. Its findings about such handlers are those of the check.

## Main results

* `TreeLint.Analyzer.exists_builtin`, `TreeLint.Analyzer.builtin_spec` — there is one, and what it runs
  and fixes.
* `TreeLint.Analyzer.mem_analyze_iff` — its findings about handlers that only rethrow.
-/

namespace TreeLint

/-- The rule about comments runs only on demand. -/
lemma enabled_commentRule {d : Descriptor} (h : commentRule = .ok d) : d.enabled = false := by
  unfold commentRule Descriptor.comment at h
  cases hcompile : CommentPattern.compile "S124" "TODO|FIXME" with
  | error e => simp [hcompile, bind, Except.bind] at h
  | ok compiled =>
    simp only [hcompile, bind, Except.bind, pure, Except.pure, Except.ok.injEq] at h
    rw [← h]

/-- A configuration that says nothing changes no rule. -/
lemma enabledRules_default (r : Registry) :
    enabledRules r {} = r.rules.filter Descriptor.enabled := by
  have heffective : ∀ d : Descriptor, d.effective {} = d := fun d => rfl
  have hfilter : ∀ d : Descriptor, ({} : LinterConfig).isEnabled d.id d.enabled = d.enabled := by
    intro d
    simp [LinterConfig.isEnabled, Assoc.find?]
  simp only [enabledRules, heffective, hfilter, List.map_id']

namespace Analyzer

variable {a : Analyzer} {root : Node} {d : Diagnostic}

/-- **The builtin analyzer** runs two structural rules and fixes the findings of one. -/
theorem builtin_spec (ha : builtin = .ok a) : a.comments = [] ∧
    a.checks = [(Rethrow.rule, Rethrow.check), (Instantiation.rule, Instantiation.check)] ∧
    a.engine = FixEngine.builtin := by
  unfold builtin Registry.builtin builtinRules at ha
  cases hcomment : commentRule with
  | error e => simp [hcomment, bind, Except.bind] at ha
  | ok d =>
    simp only [hcomment, bind, Except.bind, pure, Except.pure] at ha
    cases hregister : ({} : Registry).registerAll
        [d, Rethrow.rule, Rethrow.fixRule, Instantiation.rule] with
    | error e => simp [hregister] at ha
    | ok r =>
      simp only [hregister, Except.ok.injEq] at ha
      have henabled : enabledRules r {} = [Rethrow.rule, Rethrow.fixRule, Instantiation.rule] := by
        rw [enabledRules_default, Registry.registerAll_eq_ok_iff.mp hregister]
        simp [enabled_commentRule hcomment, Rethrow.rule, Rethrow.fixRule, Instantiation.rule]
      rw [← ha]
      simp only [ofConfig, henabled]
      exact ⟨rfl, rfl, rfl⟩

/-- The builtin rules are in order. -/
theorem exists_builtin : ∃ a, builtin = .ok a := by
  cases h : builtin with
  | ok a => exact ⟨a, rfl⟩
  | error e =>
    have hok : builtin.toBool = true := by decide +kernel
    rw [h] at hok
    cases hok

/-- The builtin analyzer has a provider for the findings about handlers that only rethrow. -/
lemma provider?_builtin (ha : builtin = .ok a) :
    a.engine.provider? Rethrow.ruleId = some .rethrow := by
  rw [(builtin_spec ha).2.2, FixEngine.provider?_builtin, if_pos rfl]

/-- The builtin analyzer reports what its two checks find. -/
lemma mem_analyze_checks (ha : builtin = .ok a) : d ∈ a.analyze root ↔
    d ∈ Rethrow.check root Rethrow.rule ∨ d ∈ Instantiation.check root Instantiation.rule := by
  obtain ⟨hcomments, hchecks, -⟩ := builtin_spec ha
  have hnone : commentFindings [] root = [] := by
    simp [commentFindings, onComment]
  rw [analyze, sortFindings, List.mem_mergeSort, hcomments, hnone, structuralFindings, hchecks]
  simp

/-- **The findings about handlers that only rethrow** are about the superfluous handlers of the
tree. -/
theorem mem_analyze_iff (ha : builtin = .ok a) :
    d ∈ a.analyze root ∧ d.ruleId = Rethrow.ruleId ↔
      ∃ c, root.Has c ∧ Rethrow.isSuperfluous c = true ∧ d = Rethrow.rule.finding [] c.range := by
  have hother : d ∈ Instantiation.check root Instantiation.rule → d.ruleId ≠ Rethrow.ruleId := by
    intro hd
    obtain ⟨c, -, hc⟩ := List.mem_filterMap.mp hd
    unfold Instantiation.finding? at hc
    split at hc
    · split at hc
      · obtain rfl := Option.some.inj hc
        show Instantiation.ruleId ≠ Rethrow.ruleId
        decide
      · cases hc
    · cases hc
  rw [mem_analyze_checks ha]
  constructor
  · rintro ⟨hd | hd, hid⟩
    · obtain ⟨c, hc, rfl⟩ := List.mem_map.mp hd
      obtain ⟨hc, hsuper⟩ := List.mem_filter.mp hc
      exact ⟨c, Node.mem_cursors.mp hc, hsuper, rfl⟩
    · exact absurd hid (hother hd)
  · rintro ⟨c, hc, hsuper, rfl⟩
    exact ⟨.inl (List.mem_map.mpr ⟨c, List.mem_filter.mpr ⟨Node.mem_cursors.mpr hc, hsuper⟩, rfl⟩),
      rfl⟩

end Analyzer

end TreeLint
