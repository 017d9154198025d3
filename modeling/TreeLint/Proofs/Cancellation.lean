import TreeLint.Analysis.Analyzer
import Mathlib.Data.List.Basic

/-!
# Cancelled runs

A run that can be cancelled goes through the tree in another way than one that cannot: element by
element below the root, and then check by check, and before each of these it asks whether it has been
cancelled. If it has not been, it finds the same in the same order. If it had been before it began, it
fails at the first question; the only run that is never asked is one without anything to look at and
without a check.

## Main results

* `TreeLint.commentFindingsUnless_false`, `TreeLint.commentFindingsUnless_true` — the rules about
  comments.
* `TreeLint.Analyzer.analyzeUnless_false`, `TreeLint.Analyzer.analyzeUnless_true` — any analyzer.
* `TreeLint.Analyzer.analyzeUnless_ofConfig` — the analyzer of a registry and a configuration.
-/

namespace TreeLint

variable (rules : List Descriptor) (root : Node)

/-! ## The rules about comments -/

/-- The comments of a tree are those of the elements below its root one by one. -/
lemma Node.comments_eq_flatMap :
    root.comments = root.cursor.elements.flatMap fun p => p.item.comments p.start := by
  have hleaves : root.toElement.placedLeaves 0 =
      root.cursor.elements.flatMap fun p => p.item.placedLeaves p.start :=
    Element.placedLeavesList_eq_flatMap 0 root.children
  rw [Node.comments, Element.comments, Element.trivia, hleaves, List.filterMap_flatMap,
    List.filter_flatMap]
  rfl

/-- A run over consecutive elements that is not cancelled finds what each of them has. -/
lemma elementFindingsUnless_false (ps : List (Placed Element)) :
    elementFindingsUnless false rules ps =
      .ok (ps.flatMap fun p => (p.item.comments p.start).flatMap (onComment rules)) := by
  induction ps with
  | nil => rfl
  | cons p ps ih =>
    rw [elementFindingsUnless, if_neg Bool.false_ne_true, ih]
    rfl

/-- **The rules about comments** find the same in a run that is not cancelled. -/
theorem commentFindingsUnless_false :
    commentFindingsUnless false rules root = .ok (commentFindings rules root) := by
  rw [commentFindingsUnless, elementFindingsUnless_false, commentFindings, Node.comments_eq_flatMap,
    List.flatMap_assoc]

/-- A run about comments that was cancelled before it began fails, unless nothing is below the root. -/
theorem commentFindingsUnless_true :
    commentFindingsUnless true rules root =
      if root.children = [] then .ok [] else .error .cancelled := by
  obtain ⟨k, cs⟩ := root
  cases cs <;> rfl

namespace Analyzer

/-! ## Analyzers -/

/-- A run of checks that is not cancelled finds what each of them finds. -/
lemma checkUnless_false (checks : List (Descriptor × Check)) :
    checkUnless false root checks = .ok (checks.flatMap fun (d, check) => check root d) := by
  induction checks with
  | nil => rfl
  | cons c checks ih =>
    obtain ⟨d, check⟩ := c
    rw [checkUnless, if_neg Bool.false_ne_true, ih]
    rfl

/-- A run of checks that was cancelled before it began fails, unless there is none. -/
lemma checkUnless_true (checks : List (Descriptor × Check)) :
    checkUnless true root checks = if checks.isEmpty then .ok [] else .error .cancelled := by
  cases checks <;> rfl

variable (a : Analyzer)

/-- **A run that is not cancelled** finds what the analyzer finds, in the same order. -/
theorem analyzeUnless_false : a.analyzeUnless false root = .ok (a.analyze root) := by
  rw [analyzeUnless, commentFindingsUnless_false, checkUnless_false]
  rfl

/-- **A run that was cancelled before it began** fails, unless nothing is below the root and there is
no check. -/
theorem analyzeUnless_true :
    a.analyzeUnless true root =
      if root.children = [] ∧ a.checks.isEmpty then .ok [] else .error .cancelled := by
  rw [analyzeUnless, commentFindingsUnless_true, checkUnless_true]
  by_cases hchildren : root.children = []
  · cases hchecks : a.checks.isEmpty
    · simp [hchildren, bind, Except.bind]
    · simp [hchildren, bind, Except.bind, pure, Except.pure, sortFindings]
  · simp [hchildren, bind, Except.bind]

variable (registry : Registry) (c : LinterConfig)

/-- The analyzer of a registry and a configuration has no check when no structural rule that the
configuration enables has one. -/
lemma isEmpty_checks_ofConfig :
    (ofConfig registry c).checks.isEmpty = true ↔ ∀ d ∈ registry.rules,
      c.isEnabled d.id d.enabled = true → d.isStructural = true → check? d.id = none := by
  simp only [ofConfig, enabledRules, List.isEmpty_iff, List.filterMap_eq_nil_iff, List.mem_filter,
    List.mem_map, Option.map_eq_none_iff]
  constructor
  · intro h d hd henabled hstructural
    exact h (d.effective c) ⟨⟨d, ⟨hd, henabled⟩, rfl⟩, hstructural⟩
  · rintro h _ ⟨⟨d, ⟨hd, henabled⟩, rfl⟩, hstructural⟩
    exact h d hd henabled hstructural

/-- **Runs that can be cancelled**, for any registry, any configuration and any tree.

A run that is not cancelled succeeds with exactly what the analyzer finds, in the same order. A run that
was cancelled before it began fails, and shows none of its findings; only if nothing is below the root
and no structural rule that the configuration enables has a check, nothing is asked, and the run
succeeds without a finding.

**Proof sketch.** The comments of the tree are those of the elements below the root one by one, and
findings are sorted only when they are all there. Before each element and before each check the run asks
whether it has been cancelled, so it fails if there is one of either. -/
theorem analyzeUnless_ofConfig :
    (ofConfig registry c).analyzeUnless false root = .ok ((ofConfig registry c).analyze root) ∧
    (ofConfig registry c).analyzeUnless true root =
      if root.children = [] ∧ ∀ d ∈ registry.rules, c.isEnabled d.id d.enabled = true →
          d.isStructural = true → check? d.id = none then
        .ok []
      else .error .cancelled := by
  refine ⟨analyzeUnless_false root _, ?_⟩
  rw [analyzeUnless_true]
  simp only [isEmpty_checks_ofConfig]

end Analyzer

end TreeLint
