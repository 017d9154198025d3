import TreeLint.Proofs.Remaining
import TreeLint.Proofs.Reported

/-!
# Dispatch of exceptions

An exception is offered to the handlers of a guarded block in order, and the first that catches it
takes it. A handler that only rethrows passes it on, as if no handler had caught it. Leaving
superfluous handlers out does not change who handles an exception: behind each of them, all handlers
only rethrow.

What a fix does change is a guarded block that stands inside a handler that it removes. The check
looks for statements in the body of a handler and for nothing else, so a handler with a declaration
in its body is superfluous as well, and the declaration goes with it.

## Main definitions

* `TreeLint.Rethrow.dispatch` — the handler that handles an exception.

## Main results

* `TreeLint.Rethrow.dispatch_filter` — superfluous handlers do not matter.
* `TreeLint.Rethrow.dispatch_remaining_iff` — a fix keeps who handles an exception except in guarded
  blocks inside the handlers that it removes.
* `TreeLint.Rethrow.dispatch_remaining_ne` — such a guarded block in the declaration of a class.
-/

namespace TreeLint.Rethrow

variable {hs : List Cursor} {catches keep : Cursor → Bool}

/-- The handler that handles an exception, of which it is known what handlers catch it: the first
that does, unless it only rethrows. Without such a handler, the exception propagates. -/
def dispatch (catches : Cursor → Bool) (handlers : List Cursor) : Option Cursor :=
  (handlers.find? catches).filter fun c => !c.node.onlyRethrows

/-- Handlers that only rethrow handle nothing. -/
lemma dispatch_eq_none (h : ∀ c ∈ hs, c.node.onlyRethrows = true) : dispatch catches hs = none := by
  rw [dispatch, Option.filter_eq_none_iff]
  intro c hc
  simp [h c (List.mem_of_find?_eq_some hc)]

/-- **Leaving handlers out** does not change who handles an exception if they, and all behind them,
only rethrow. -/
theorem dispatch_filter
    (hself : ∀ c ∈ hs, keep c = false → c.node.onlyRethrows = true)
    (hlater : hs.Pairwise fun c d => keep c = false → d.node.onlyRethrows = true) :
    dispatch catches (hs.filter keep) = dispatch catches hs := by
  induction hs with
  | nil => rfl
  | cons c hs ih =>
    obtain ⟨hc, hlater⟩ := List.pairwise_cons.mp hlater
    have hself' := fun d hd => hself d (List.mem_cons_of_mem c hd)
    cases hkeep : keep c with
    | true =>
      rw [List.filter_cons_of_pos hkeep]
      cases hcatch : catches c with
      | true => simp [dispatch, hcatch]
      | false => simpa [dispatch, hcatch] using ih hself' hlater
    | false =>
      -- from here on nothing but handlers that only rethrow
      have hall : ∀ d ∈ c :: hs, d.node.onlyRethrows = true :=
        List.forall_mem_cons.mpr
          ⟨hself c List.mem_cons_self hkeep, fun d hd => hc d hd hkeep⟩
      rw [dispatch_eq_none hall,
        dispatch_eq_none fun d hd => hall d (List.mem_filter.mp hd).1]

variable {a : Analyzer} {source : String} {ds : List Diagnostic} {tree : Node}
  {ranges : List Range}

/-- **A fix keeps who handles an exception** in every guarded block that stands in no removed
handler; in one that does, it does so only for exceptions that propagate anyway. The guarded blocks
of the fixed tree, with their handlers, are those that stand, with their remaining handlers.

**Proof sketch.** Reported findings choose superfluous handlers, behind which all handlers of a
guarded block only rethrow, so that leaving them out does not matter (`dispatch_filter`). Inside a
removed handler no handler remains. -/
theorem dispatch_remaining_iff (ha : Analyzer.builtin = .ok a)
    (hds : ∀ d ∈ ds, d ∈ a.analyze (parse source) ∧ d.ruleId = ruleId)
    (hfix : a.engine.fixAll? (parse source) ds = some (.applied tree ranges)) :
    (tree.nodes.filter fun n => n.kind = .tryStatement).map
        (fun n => n.handlers.map (Node.erase isAnyTrivia)) =
      ((parse source).cursors.filter (stands (chosen (parse source) ds))).map (fun t =>
        (remaining (chosen (parse source) ds) t).map fun c =>
          (pruned (chosen (parse source) ds) c).erase isAnyTrivia) ∧
    ∀ t, (parse source).Has t → t.kind = .tryStatement → ∀ catches : Cursor → Bool,
      (dispatch catches (remaining (chosen (parse source) ds) t) = dispatch catches t.handlers ↔
        isKept (chosen (parse source) ds) t = true ∨ dispatch catches t.handlers = none) := by
  have h := isShaped_parse source
  obtain ⟨hout, -, -⟩ :=
    isOutcome_of_fixAll? h (Analyzer.provider?_builtin ha) (fun d hd => (hds d hd).2) hfix
  refine ⟨hout.handlers_eq h (fun _ _ hu => isTrivia_of_isLayout hu) fun _ hu => hu, ?_⟩
  intro t ht hk catches
  have hrethrows : ∀ {c : Cursor}, c.node.isRedundantHandler = true →
      c.node.onlyRethrows = true := by
    intro c hc
    simp only [Node.isRedundantHandler, Bool.and_eq_true] at hc
    exact hc.2
  cases hkept : isKept (chosen (parse source) ds) t with
  | true =>
    have hchosen : ∀ c ∈ t.handlers, isKept (chosen (parse source) ds) c = false →
        isSuperfluous c = true := by
      intro c hc hleft
      rw [isKept_of_isChild (Cursor.mem_handlers.mp hc).1, hkept] at hleft
      exact isSuperfluous_of_mem_chosen ha hds (by simpa using hleft)
    have hsame : dispatch catches (t.handlers.filter (isKept (chosen (parse source) ds))) =
        dispatch catches t.handlers := dispatch_filter
      (fun c hc hleft => hrethrows (isRedundantHandler_of_isSuperfluous (hchosen c hc hleft)).2)
      ((pairwise_handlers t).imp_of_mem fun hc _ hlater hleft =>
        hrethrows (hlater (hchosen _ hc hleft)))
    exact iff_of_true hsame (.inl rfl)
  | false =>
    have hnone : remaining (chosen (parse source) ds) t = [] := by
      refine List.filter_eq_nil_iff.mpr fun c hc => ?_
      rw [isKept_of_isChild (Cursor.mem_handlers.mp hc).1, hkept]
      simp
    rw [hnone]
    simp [dispatch, eq_comm]

/-- The first of two handlers remains, and it handles what it catches. -/
theorem dispatch_remaining_first : ∃ source a tree ranges t,
    source = "try \x7b A(); \x7d catch (E e) \x7b Log(e); \x7d catch \x7b throw; \x7d" ∧
    Analyzer.builtin = .ok a ∧
    a.engine.fixAll? (parse source) (check (parse source) rule) = some (.applied tree ranges) ∧
    (parse source).Has t ∧ t.kind = .tryStatement ∧
    dispatch (fun _ => true) (remaining (chosen (parse source) (check (parse source) rule)) t) =
      dispatch (fun _ => true) t.handlers ∧
    (dispatch (fun _ => true) t.handlers).isSome = true := by
  obtain ⟨source, hsource⟩ : ∃ source,
    source = "try \x7b A(); \x7d catch (E e) \x7b Log(e); \x7d catch \x7b throw; \x7d" := ⟨_, rfl⟩
  obtain ⟨a, ha⟩ := Analyzer.exists_builtin
  have htext : ((a.engine.fixAll? (parse source) (check (parse source) rule)).bind
      FixOutcome.tree?).map Node.text = some "try \x7b A(); \x7d catch (E e) \x7b Log(e); \x7d" := by
    rw [(Analyzer.builtin_spec ha).2.2, hsource]
    decide +kernel
  obtain ⟨tree, ranges, hfix, -⟩ := exists_applied htext
  have hfind : ((parse source).cursors.find? fun t => t.kind = .tryStatement &&
      isKept (chosen (parse source) (check (parse source) rule)) t &&
      (dispatch (fun _ => true) t.handlers).isSome).isSome = true := by
    rw [hsource]
    decide +kernel
  obtain ⟨t, ht⟩ := Option.isSome_iff_exists.mp hfind
  have hmem := Node.mem_cursors.mp (List.mem_of_find?_eq_some ht)
  have hprop := List.find?_some ht
  simp only [Bool.and_eq_true, decide_eq_true_eq] at hprop
  obtain ⟨⟨hk, hkept⟩, hsome⟩ := hprop
  exact ⟨source, a, tree, ranges, t, hsource, ha, hfix, hmem, hk,
    ((dispatch_remaining_iff ha (fun d hd => reported_of_mem_check ha hd) hfix).2 t hmem hk _).mpr
      (.inl hkept), hsome⟩

/-- A guarded block in a class that is declared in a superfluous handler: it is gone after the fix,
and so is the handler that handles what it catches. -/
theorem dispatch_remaining_ne : ∃ source a tree ranges t,
    source = "try \x7b A(); \x7d catch \x7b class X \x7b void M() \x7b try \x7b B(); \x7d catch (E e) " ++
      "\x7b Log(e); \x7d \x7d \x7d throw; \x7d" ∧
    Analyzer.builtin = .ok a ∧
    (∀ d ∈ check (parse source) rule, d ∈ a.analyze (parse source) ∧ d.ruleId = ruleId) ∧
    a.engine.fixAll? (parse source) (check (parse source) rule) = some (.applied tree ranges) ∧
    tree.text = "A();" ∧ (parse source).Has t ∧ t.kind = .tryStatement ∧
    dispatch (fun _ => true) (remaining (chosen (parse source) (check (parse source) rule)) t) ≠
      dispatch (fun _ => true) t.handlers := by
  obtain ⟨source, hsource⟩ : ∃ source,
    source = "try \x7b A(); \x7d catch \x7b class X \x7b void M() \x7b try \x7b B(); \x7d catch (E e) " ++
      "\x7b Log(e); \x7d \x7d \x7d throw; \x7d" := ⟨_, rfl⟩
  obtain ⟨a, ha⟩ := Analyzer.exists_builtin
  have htext : ((a.engine.fixAll? (parse source) (check (parse source) rule)).bind
      FixOutcome.tree?).map Node.text = some "A();" := by
    rw [(Analyzer.builtin_spec ha).2.2, hsource]
    decide +kernel
  obtain ⟨tree, ranges, hfix, htree⟩ := exists_applied htext
  have hfind : ((parse source).cursors.find? fun t => t.kind = .tryStatement &&
      decide (dispatch (fun _ => true)
        (remaining (chosen (parse source) (check (parse source) rule)) t) ≠
          dispatch (fun _ => true) t.handlers)).isSome = true := by
    rw [hsource]
    decide +kernel
  obtain ⟨t, ht⟩ := Option.isSome_iff_exists.mp hfind
  have hmem := Node.mem_cursors.mp (List.mem_of_find?_eq_some ht)
  have hprop := List.find?_some ht
  simp only [Bool.and_eq_true, decide_eq_true_eq] at hprop
  exact ⟨source, a, tree, ranges, t, hsource, ha, fun d hd => reported_of_mem_check ha hd, hfix,
    htree, hmem, hprop.1, hprop.2⟩

end TreeLint.Rethrow
