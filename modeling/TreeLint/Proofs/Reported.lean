import TreeLint.Proofs.Builtin
import TreeLint.Proofs.Outcome
import TreeLint.Proofs.Unit

/-!
# Reported handlers

The findings of the builtin analyzer about handlers that only rethrow lead back to the handlers that
they are about. Each of these only rethrows, and so do all handlers behind it in its guarded block.

## Main results

* `TreeLint.Rethrow.handlerAround?_range` — the nearest handler around the range of a handler is this
  handler.
* `TreeLint.Rethrow.pairwise_handlers` — behind a superfluous handler, all handlers are redundant.
* `TreeLint.Rethrow.isSuperfluous_of_mem_chosen` — reported findings lead to superfluous handlers.
-/

namespace TreeLint

/-! ## Children in order -/

namespace Cursor

variable {t : Cursor}

/-- The child nodes behind a child node are among its siblings behind it. -/
lemma pairwise_childrenFrom (path : List Frame) (k : Kind) (start : Nat) (before : List Element)
    (offset : Nat) (es : List Element) : (childrenFrom path k start before offset es).Pairwise
      fun c d => d.node ∈ c.after.filterMap Element.node? := by
  induction es generalizing before offset with
  | nil => exact .nil
  | cons e es ih =>
    cases e with
    | token u => exact ih _ _
    | node l ds =>
      refine List.pairwise_cons.mpr ⟨fun d hd => ?_, ih _ _⟩
      obtain ⟨xs, l', ds', ys, heq, rfl⟩ := (mem_childrenFrom ..).mp hd
      refine List.mem_filterMap.mpr ⟨.node l' ds', ?_, rfl⟩
      simp only [after, List.head?_cons, Option.map_some, Option.getD_some, heq]
      simp

end Cursor

namespace Rethrow

variable {root : Node} {c d p t : Cursor}

/-! ## Superfluous handlers -/

/-- A superfluous handler is a handler, and a redundant one in its guarded block. -/
lemma isRedundantHandler_of_isSuperfluous (h : isSuperfluous c = true) :
    c.kind = .catchClause ∧ c.node.isRedundantHandler = true := by
  simp only [isSuperfluous, Bool.and_eq_true, decide_eq_true_eq] at h
  exact h.1

/-- **Behind a superfluous handler**, all handlers of its guarded block are redundant. -/
theorem pairwise_handlers (t : Cursor) : t.handlers.Pairwise fun c d =>
    isSuperfluous c = true → d.node.isRedundantHandler = true := by
  have hchildren := (Cursor.pairwise_childrenFrom t.path t.kind t.start [] t.start
    t.node.children).filter fun c => c.kind = .catchClause
  refine List.Pairwise.imp_of_mem (fun {c d} _ hd hafter hsuper => ?_) hchildren
  simp only [isSuperfluous, Bool.and_eq_true, List.all_eq_true] at hsuper
  exact hsuper.2 d.node (List.mem_filter.mpr ⟨hafter, (List.mem_filter.mp hd).2⟩)

/-! ## From findings to handlers -/

/-- The nearest handler around the range of a handler is this handler. -/
theorem handlerAround?_range (h : root.IsShaped) (hc : root.Has c) (hk : c.kind = .catchClause) :
    handlerAround? root c.range = some c := by
  obtain ⟨t, ht, htc, htk⟩ := h.exists_try hc hk
  have hne : t ≠ root.cursor := h.ne_cursor (by simp [htk])
  rw [handlerAround?, h.find?_range hc (.inr hk) htc hne, Option.bind_some]
  obtain ⟨cs, hcs⟩ := c.ancestors_eq_cons
  rw [hcs, List.find?_cons_of_pos (by simpa using hk)]

/-- The span of a range stands for no other range. -/
lemma eq_of_range?_ofRange {r s : Range} (hs : (Span.ofRange r).range? = some s) : s = r := by
  have hle := r.start_le_stop
  have hstop : (Span.ofRange r).stop = r.stop := by
    simp only [Span.stop, Span.ofRange, Range.length]
    omega
  by_cases hmax : r.stop ≤ maxOffset
  · rw [Span.range?_ofRange hmax] at hs
    exact (Option.some.inj hs).symm
  · rw [Span.range?, if_neg (by rwa [hstop])] at hs
    cases hs

variable {a : Analyzer} {source : String} {ds : List Diagnostic}

/-- A reported finding, if its span stands for a range, leads to a superfluous handler. -/
lemma exists_of_reported (h : root.IsShaped) (ha : Analyzer.builtin = .ok a) {f : Diagnostic}
    (hf : f ∈ a.analyze root ∧ f.ruleId = ruleId) :
    ∃ c, root.Has c ∧ isSuperfluous c = true ∧ f = rule.finding [] c.range ∧
      ∀ r, f.range? = some r → handlerAround? root r = some c := by
  obtain ⟨c, hc, hsuper, rfl⟩ := (Analyzer.mem_analyze_iff ha).mp hf
  refine ⟨c, hc, hsuper, rfl, fun r hr => ?_⟩
  obtain rfl := eq_of_range?_ofRange hr
  exact handlerAround?_range h hc (isRedundantHandler_of_isSuperfluous hsuper).1

/-- A finding reported on a shaped tree with the span of a handler, if this stands for a range, is
about the range of this handler, which is superfluous. -/
lemma isSuperfluous_of_span (h : root.IsShaped) (ha : Analyzer.builtin = .ok a) {f : Diagnostic}
    (hf : f ∈ a.analyze root ∧ f.ruleId = ruleId) (hc : root.Has c) (hk : c.kind = .catchClause)
    (hspan : f.span = .ofRange c.range) (hsome : f.range?.isSome = true) :
    isSuperfluous c = true ∧ f.range? = some c.range := by
  obtain ⟨d, -, hsuper, -, hleads⟩ := exists_of_reported h ha hf
  obtain ⟨r, hr⟩ := Option.isSome_iff_exists.mp hsome
  have hrange : (Span.ofRange c.range).range? = some r := by rw [← hspan]; exact hr
  obtain rfl := eq_of_range?_ofRange hrange
  have hsame := (hleads _ hr).symm.trans (handlerAround?_range h hc hk)
  obtain rfl := Option.some.inj hsame
  exact ⟨hsuper, hr⟩

/-- A superfluous handler has no filter. -/
lemma isFiltered_of_isSuperfluous (h : isSuperfluous c = true) : c.node.isFiltered = false := by
  have hredundant := (isRedundantHandler_of_isSuperfluous h).2
  simp only [Node.isRedundantHandler, Bool.and_eq_true, Bool.not_eq_true'] at hredundant
  exact hredundant.1

/-- A finding reported on the tree of a text with the span of a handler, if this stands for a range,
is about the range of this handler, which has no filter. -/
lemma range?_of_reported (ha : Analyzer.builtin = .ok a) {f : Diagnostic}
    (hf : f ∈ a.analyze (parse source) ∧ f.ruleId = ruleId) (hc : (parse source).Has c)
    (hk : c.kind = .catchClause) (hspan : f.span = .ofRange c.range)
    (hsome : f.range?.isSome = true) : c.node.isFiltered = false ∧ f.range? = some c.range :=
  (isSuperfluous_of_span (isShaped_parse source) ha hf hc hk hspan hsome).imp_left
    isFiltered_of_isSuperfluous

/-- What the check finds is what is reported about handlers that only rethrow. -/
lemma mem_check_iff (ha : Analyzer.builtin = .ok a) {f : Diagnostic} :
    f ∈ check root rule ↔ f ∈ a.analyze root ∧ f.ruleId = ruleId := by
  rw [Analyzer.mem_analyze_iff ha, check, List.mem_map]
  refine exists_congr fun c => ?_
  rw [List.mem_filter, Node.mem_cursors, and_assoc, @eq_comm _ f]

/-- What the check finds is reported. -/
lemma reported_of_mem_check (ha : Analyzer.builtin = .ok a) {f : Diagnostic}
    (hf : f ∈ check root rule) : f ∈ a.analyze root ∧ f.ruleId = ruleId := (mem_check_iff ha).mp hf

/-- **Reported findings lead to superfluous handlers.** -/
theorem isSuperfluous_of_mem_chosen (ha : Analyzer.builtin = .ok a)
    (hds : ∀ f ∈ ds, f ∈ a.analyze (parse source) ∧ f.ruleId = ruleId)
    (hc : c ∈ chosen (parse source) ds) : isSuperfluous c = true := by
  obtain ⟨f, hf, r, hr, hcr⟩ := mem_chosen.mp hc
  obtain ⟨d, -, hsuper, -, hd⟩ := exists_of_reported (isShaped_parse source) ha (hds f hf)
  obtain rfl : d = c := Option.some.inj ((hd r hr).symm.trans hcr)
  exact hsuper

end Rethrow

end TreeLint
