import TreeLint.Proofs.Crowding
import TreeLint.Proofs.Reported

/-!
# Removing handlers of one guarded block together

The findings about handlers of one guarded block can be fixed together, unless the block is crowded:
then the removals of its last three handlers are two edits that overlap, although neither handler
conflicts with another one.

## Main results

* `TreeLint.Rethrow.computeEdit_range` — the edit for a finding about a handler.
* `TreeLint.Rethrow.reconcile_removals` — the removals from one guarded block are reconciled together.
* `TreeLint.Rethrow.fixAll?_handlers_iff` — findings about the handlers of one block are fixed
  together unless it is crowded.
* `TreeLint.Rethrow.fixAll?_crowded` — a crowded block.
-/

namespace TreeLint.Rethrow

variable {root : Node} {c t : Cursor} {e : Edit} {edits : List Edit}

/-! ## The edits for handlers of one block -/

/-- The edit for a finding about a handler without a filter. -/
theorem computeEdit_range (h : root.IsShaped) (ht : root.Has t) (hk : t.kind = .tryStatement)
    (hc : c ∈ t.handlers) (hfilter : c.node.isFiltered = false) :
    computeEdit root c.range =
      if t.handlers.length = 1 ∧ ¬t.node.hasFinally then flatten t else .ok (removal c) := by
  obtain ⟨htc, hck⟩ := Cursor.mem_handlers.mp hc
  have hne : t ≠ root.cursor := h.ne_cursor (by simp [hk])
  have htry : c.tryStatement? = some t := by
    rw [Cursor.tryStatement?_eq_some htc, if_pos hk]
  have hfind : (c.ancestors.find? fun c => c.kind = .catchClause && c.tryStatement?.isSome) =
      some c := by
    obtain ⟨cs, hcs⟩ := c.ancestors_eq_cons
    rw [hcs, List.find?_cons_of_pos (by simp [hck, htry])]
  unfold computeEdit
  rw [h.find?_range (ht.child htc) (.inr hck) htc hne]
  simp only [hfind, hfilter, htry]
  rfl

/-- The removals of handlers of one guarded block are reconciled together. -/
theorem reconcile_removals (h : root.IsShaped) (ht : root.Has t) (hk : t.kind = .tryStatement)
    (hne : edits ≠ []) (hedits : ∀ e ∈ edits, ∃ c ∈ t.handlers, e = removal c) :
    reconcile root edits = reconcileGroup root t.target edits := by
  have howner : ∀ e ∈ edits, owner? root e = some t := by
    intro e he
    obtain ⟨c, hc, rfl⟩ := hedits e he
    obtain ⟨htc, hck⟩ := Cursor.mem_handlers.mp hc
    exact owner?_removal h ht hk htc hck
  have hfree : edits.filter (fun e => (owner? root e).isNone) = [] :=
    List.filter_eq_nil_iff.mpr fun e he => by simp [howner e he]
  have howned : (edits.filterMap fun e => (owner? root e).map fun c => (c.target, e)) =
      edits.map fun e => (t.target, e) := by
    rw [← List.filterMap_eq_map]
    exact List.filterMap_congr fun e he => by simp [howner e he]
  have hgroup : groupBy Prod.fst (edits.map fun e => (t.target, e)) =
      [(t.target, edits.map fun e => (t.target, e))] :=
    groupBy_eq_singleton (by simpa using hne) (by simp)
  simp only [reconcile, hfree, howned, hgroup, List.mapM_cons, List.mapM_nil, List.map_map]
  have hsnd : edits.map (Prod.snd ∘ fun e => (t.target, e)) = edits := by simp [Function.comp_def]
  rw [hsnd]
  cases reconcileGroup root t.target edits with
  | error reason => rfl
  | ok es => simp [bind, Except.bind, pure, Except.pure]

/-- An edit that removes no handler is left as it is. -/
lemma reconcile_singleton (h : owner? root e = none) : reconcile root [e] = .ok [e] := by
  simp [reconcile, h, groupBy, bind, Except.bind, pure, Except.pure]

/-- **Removals of handlers of one guarded block**, once reconciled, overlap exactly if the block is
crowded. -/
theorem exists_reconcile (h : root.IsShaped) (ht : root.Has t) (hk : t.kind = .tryStatement)
    (hblock : (t.node.child? .block).isSome = true) (hnodup : edits.Nodup) (hne : edits ≠ [])
    (hedits : ∀ e ∈ edits, ∃ c ∈ t.handlers, e = removal c) {P : Cursor → Bool}
    (hP : ∀ c ∈ t.handlers, P c = true ↔ removal c ∈ edits) :
    ∃ es, reconcile root edits = .ok es ∧
      ((es.Pairwise fun e f => e.overlaps f = false) ↔ ¬IsCrowded (fun c => P c = true) t) := by
  have hall := length_handlers_eq_iff h ht hnodup hedits
  rw [reconcile_removals h ht hk hne hedits, reconcileGroup]
  simp only [h.resolve?_target ht (.inl hk)]
  split
  · rename_i hleft
    have hperm := perm_removals h ht hnodup hedits hP
    refine ⟨_, rfl, pairwise_mergeRemovals_iff h ht hk hperm (hleft.imp_right fun hlen => ?_)⟩
    by_contra hnone
    push Not at hnone
    exact hlen (hall.mpr fun c hc => (hP c hc).mp (hnone c hc))
  · rename_i hflat
    push Not at hflat
    obtain ⟨b, hb⟩ := Option.isSome_iff_exists.mp hblock
    refine ⟨_, by rw [flatten, hb]; rfl, iff_of_true (List.pairwise_singleton ..) ?_⟩
    rintro ⟨-, ⟨c, hc, hPc⟩, -⟩
    exact hPc ((hP c hc).mpr (hall.mp hflat.2 c hc))

/-! ## Findings about handlers of one block -/

variable {engine : FixEngine} {ds : List Diagnostic}

/-- For each finding about a handler of a guarded block there is an edit. -/
lemma exists_edits (h : root.IsShaped) (hengine : engine.provider? ruleId = some .rethrow)
    (ht : root.Has t) (hk : t.kind = .tryStatement)
    (hblock : (t.node.child? .block).isSome = true)
    (hds : ∀ d ∈ ds, d.ruleId = ruleId ∧
      ∃ c ∈ t.handlers, c.node.isFiltered = false ∧ d.range? = some c.range) :
    ∃ xs, engine.edits? root ds = some (.ok xs) ∧ xs.length = ds.length ∧
      ∀ x ∈ xs, x.1 = ruleId ∧ ∃ c ∈ t.handlers,
        (if t.handlers.length = 1 ∧ ¬t.node.hasFinally then flatten t else .ok (removal c)) =
          .ok x.2 := by
  obtain ⟨b, hb⟩ := Option.isSome_iff_exists.mp hblock
  have hedit : ∀ d ∈ ds, ∃ x : String × Edit, (x.1 = d.ruleId ∧
      ∃ r, d.range? = some r ∧ engine.editAt root d.ruleId r = .ok x.2) ∧ ∃ c ∈ t.handlers,
        (if t.handlers.length = 1 ∧ ¬t.node.hasFinally then flatten t else .ok (removal c)) =
          .ok x.2 := by
    intro d hd
    obtain ⟨hid, c, hc, hfilter, hrange⟩ := hds d hd
    have hcon : root.fullRange.contains c.range = true :=
      Cursor.Below.contains (ht.child (Cursor.mem_handlers.mp hc).1)
    have hat : engine.editAt root d.ruleId c.range =
        if t.handlers.length = 1 ∧ ¬t.node.hasFinally then flatten t else .ok (removal c) := by
      rw [FixEngine.editAt, if_pos hcon, hid, hengine]
      exact computeEdit_range h ht hk hc hfilter
    obtain ⟨e, he⟩ : ∃ e, (if t.handlers.length = 1 ∧ ¬t.node.hasFinally then flatten t
        else .ok (removal c)) = .ok e := by
      split
      · exact ⟨_, by rw [flatten, hb]⟩
      · exact ⟨_, rfl⟩
    exact ⟨(d.ruleId, e), ⟨rfl, c.range, hrange, hat.trans he⟩, c, hc, he⟩
  obtain ⟨xs, hxs⟩ := exists_forall₂ hedit
  refine ⟨xs, edits?_eq_ok_iff.mpr (hxs.imp fun _ _ hx => hx.1), hxs.length_eq.symm, fun x hx => ?_⟩
  obtain ⟨d, hd, hx⟩ := (exists_of_forall₂ hxs).1 x hx
  exact ⟨hx.1.1.trans (hds d hd).1, hx.2⟩

/-- The edits for some handlers of one guarded block are reconciled, and they overlap exactly if the
block is crowded. -/
lemma exists_reconcile_distinct (h : root.IsShaped) (ht : root.Has t) (hk : t.kind = .tryStatement)
    (hblock : (t.node.child? .block).isSome = true) {xs : List (String × Edit)} (hne : xs ≠ [])
    (hforall : List.Forall₂ (fun d x => x.1 = ruleId ∧
      ∃ c, d.range?.bind (handlerAround? root) = some c ∧ EditOf root c x.2) ds xs)
    (hxs : ∀ x ∈ xs, ∃ c ∈ t.handlers,
      (if t.handlers.length = 1 ∧ ¬t.node.hasFinally then flatten t else .ok (removal c)) =
        .ok x.2) :
    ∃ es, reconcile root (distinct (xs.map Prod.snd)) = .ok es ∧
      ((es.Pairwise fun e f => e.overlaps f = false) ↔ ¬IsCrowded (· ∈ chosen root ds) t) := by
  obtain ⟨x, hx⟩ := List.exists_mem_of_ne_nil _ hne
  by_cases hone : t.handlers.length = 1 ∧ ¬t.node.hasFinally
  · -- one handler and nothing else: its finding may be listed more than once
    simp only [if_pos hone] at hxs
    obtain ⟨-, -, hflat⟩ := hxs x hx
    have hsame : distinct (xs.map Prod.snd) = [x.2] := by
      refine distinct_eq_singleton (by simpa using hne) fun e he => ?_
      obtain ⟨y, hy, rfl⟩ := List.mem_map.mp he
      obtain ⟨-, -, hy⟩ := hxs y hy
      exact Except.ok.inj (hy.symm.trans hflat)
    rw [hsame]
    refine ⟨_, reconcile_singleton (owner?_flatten hk hflat),
      iff_of_true (List.pairwise_singleton ..) ?_⟩
    rintro ⟨-, -, front, a, b, c, hhs, -⟩
    have hlen := hone.1
    rw [hhs, List.length_append] at hlen
    simp at hlen
  · simp only [if_neg hone, Except.ok.injEq] at hxs
    have hremovals : ∀ e ∈ distinct (xs.map Prod.snd), ∃ c ∈ t.handlers, e = removal c := by
      intro e he
      obtain ⟨y, hy, rfl⟩ := List.mem_map.mp (mem_distinct.mp he)
      obtain ⟨c, hc, hcy⟩ := hxs y hy
      exact ⟨c, hc, hcy.symm⟩
    have hmem : x.2 ∈ distinct (xs.map Prod.snd) := mem_distinct.mpr (List.mem_map_of_mem hx)
    obtain ⟨d, hd, hdx⟩ := hremovals _ hmem
    have hchosen : ∀ c ∈ t.handlers, decide (c ∈ chosen root ds) = true ↔
        removal c ∈ distinct (xs.map Prod.snd) := by
      intro c hc
      rw [decide_eq_true_eq, ← editOf_iff_mem_chosen h hforall]
      exact chosen_iff_removal_mem h ht hk (exists_editOf hforall) hd (hdx ▸ hmem) hc
    obtain ⟨es, hes, hpair⟩ := exists_reconcile h ht hk hblock (nodup_distinct _)
      (List.ne_nil_of_mem hmem) hremovals hchosen
    exact ⟨es, hes, by simpa using hpair⟩

/-- **Findings about handlers of one guarded block** are fixed together, unless the block is
crowded: then the fix is refused. -/
theorem fixAll?_of_handlers (h : root.IsShaped) (hengine : engine.provider? ruleId = some .rethrow)
    (ht : root.Has t) (hk : t.kind = .tryStatement)
    (hblock : (t.node.child? .block).isSome = true) (hne : ds ≠ [])
    (hds : ∀ d ∈ ds, d.ruleId = ruleId ∧
      ∃ c ∈ t.handlers, c.node.isFiltered = false ∧ d.range? = some c.range) :
    (IsCrowded (· ∈ chosen root ds) t ∧
        engine.fixAll? root ds = some (.unavailable .conflictingEdits)) ∨
      (¬IsCrowded (· ∈ chosen root ds) t ∧
        ∃ tree ranges, engine.fixAll? root ds = some (.applied tree ranges)) := by
  obtain ⟨xs, hxs, hlen, hmem⟩ := exists_edits h hengine ht hk hblock hds
  have hxne : xs ≠ [] := by
    rintro rfl
    exact hne (List.length_eq_zero_iff.mp hlen.symm)
  have hforall := forall₂_editOf h hengine (fun d hd => (hds d hd).1) hxs
  obtain ⟨es, hes, hpair⟩ :=
    exists_reconcile_distinct h ht hk hblock hxne hforall fun x hx => (hmem x hx).2
  have hplan := isPlan_reconcile h (nodup_distinct _) (exists_editOf hforall) hes
  rw [fixAll?_eq hengine hxs hxne fun x hx => (hmem x hx).1, hes]
  simp only [Except.bind]
  rcases hplan.applyEdits_eq h with ⟨hover, herror⟩ | ⟨hapart, ranges, hok⟩
  · refine .inl ⟨?_, by rw [herror]⟩
    by_contra hnot
    exact hover (hpair.mpr hnot)
  · exact .inr ⟨hpair.mp hapart, _, ranges, by rw [hok]⟩

/-! ## Findings of the builtin analyzer -/

variable {a : Analyzer} {source : String}

/-- **Reported findings about the handlers of one guarded block** are fixed together exactly if their
spans stand for ranges and the block is not crowded by the handlers that they choose. In a crowded
block they are refused because two edits overlap.

**Proof sketch.** The removals of neighbours are merged where they overlap, so that what remains to be
shown is when the merged ones still do (`pairwise_mergeRemovals_iff`). All else that an engine may
object to is excluded, since reported handlers have no filter and a plan can be applied. -/
theorem fixAll?_handlers_iff (ha : Analyzer.builtin = .ok a) (ht : (parse source).Has t)
    (hk : t.kind = .tryStatement) (hblock : (t.node.child? .block).isSome = true) (hne : ds ≠ [])
    (hds : ∀ d ∈ ds, (d ∈ a.analyze (parse source) ∧ d.ruleId = ruleId) ∧
      ∃ c ∈ t.handlers, d.span = .ofRange c.range) :
    ((∃ tree ranges, a.engine.fixAll? (parse source) ds = some (.applied tree ranges)) ↔
      (∀ d ∈ ds, d.range?.isSome = true) ∧ ¬IsCrowded (· ∈ chosen (parse source) ds) t) ∧
    ((∀ d ∈ ds, d.range?.isSome = true) → IsCrowded (· ∈ chosen (parse source) ds) t →
      a.engine.fixAll? (parse source) ds = some (.unavailable .conflictingEdits)) := by
  have h := isShaped_parse source
  have hengine := Analyzer.provider?_builtin ha
  have hcases : (∀ d ∈ ds, d.range?.isSome = true) →
      (IsCrowded (· ∈ chosen (parse source) ds) t ∧
        a.engine.fixAll? (parse source) ds = some (.unavailable .conflictingEdits)) ∨
      (¬IsCrowded (· ∈ chosen (parse source) ds) t ∧
        ∃ tree ranges, a.engine.fixAll? (parse source) ds = some (.applied tree ranges)) := by
    refine fun hsome => fixAll?_of_handlers h hengine ht hk hblock hne fun d hd => ?_
    obtain ⟨hreported, c, hc, hspan⟩ := hds d hd
    obtain ⟨htc, hck⟩ := Cursor.mem_handlers.mp hc
    exact ⟨hreported.2, c, hc,
      range?_of_reported ha hreported (ht.child htc) hck hspan (hsome d hd)⟩
  refine ⟨⟨?_, fun ⟨hsome, hnot⟩ => ?_⟩, fun hsome hcrowded => ?_⟩
  · rintro ⟨tree, ranges, hfix⟩
    obtain ⟨-, hleads, -⟩ := isOutcome_of_fixAll? h hengine (fun d hd => (hds d hd).1.2) hfix
    have hsome : ∀ d ∈ ds, d.range?.isSome = true := by
      intro d hd
      obtain ⟨c, hc⟩ := hleads d hd
      obtain ⟨r, hr, -⟩ := Option.bind_eq_some_iff.mp hc
      simp [hr]
    refine ⟨hsome, ?_⟩
    rcases hcases hsome with ⟨-, hrefused⟩ | ⟨hnot, -⟩
    · rw [hrefused] at hfix
      cases hfix
    · exact hnot
  · rcases hcases hsome with ⟨hcrowded, -⟩ | ⟨-, happlied⟩
    · exact absurd hcrowded hnot
    · exact happlied
  · rcases hcases hsome with ⟨-, hrefused⟩ | ⟨hnot, -⟩
    · exact hrefused
    · exact absurd hcrowded hnot

/-- The last two of four handlers are removed together. -/
theorem fixAll?_last_two : ∃ source a t,
    source = "try \x7b A(); \x7d\ncatch (E e) \x7b Log(e); \x7d\ncatch (F f) \x7b Log(f); \x7d\n" ++
      "catch (X) \x7b throw; \x7d\ncatch (Y) \x7b throw; \x7d\nB();" ∧
    Analyzer.builtin = .ok a ∧ (parse source).Has t ∧ t.handlers.length = 4 ∧
    (check (parse source) rule).length = 2 ∧
    ¬IsCrowded (· ∈ chosen (parse source) (check (parse source) rule).reverse) t ∧
    ∃ tree ranges, a.engine.fixAll? (parse source) (check (parse source) rule).reverse =
      some (.applied tree ranges) := by
  obtain ⟨source, hsource⟩ : ∃ source, source =
    "try \x7b A(); \x7d\ncatch (E e) \x7b Log(e); \x7d\ncatch (F f) \x7b Log(f); \x7d\n" ++
      "catch (X) \x7b throw; \x7d\ncatch (Y) \x7b throw; \x7d\nB();" := ⟨_, rfl⟩
  obtain ⟨a, ha⟩ := Analyzer.exists_builtin
  have hlength : (check (parse source) rule).length = 2 := by
    rw [hsource]
    decide +kernel
  have hsome : ∀ d ∈ (check (parse source) rule).reverse, d.range?.isSome = true := by
    rw [hsource]
    decide +kernel
  obtain ⟨t, ht, hk, hblock, hfour, hspans, hnot⟩ : ∃ t ∈ (parse source).cursors,
      t.kind = .tryStatement ∧ (t.node.child? .block).isSome = true ∧ t.handlers.length = 4 ∧
      (∀ d ∈ check (parse source) rule, ∃ c ∈ t.handlers, d.span = .ofRange c.range) ∧
      ¬IsCrowded (· ∈ chosen (parse source) (check (parse source) rule).reverse) t := by
    rw [hsource]
    decide +kernel
  have ht := Node.mem_cursors.mp ht
  have hne : (check (parse source) rule).reverse ≠ [] := by
    rw [ne_eq, ← List.length_eq_zero_iff, List.length_reverse, hlength]
    decide
  have hiff := fixAll?_handlers_iff ha ht hk hblock hne fun d hd =>
    ⟨reported_of_mem_check ha (List.mem_reverse.mp hd), hspans d (List.mem_reverse.mp hd)⟩
  exact ⟨source, a, t, hsource, ha, ht, hfour, hlength, hnot, hiff.1.mpr ⟨hsome, hnot⟩⟩

/-- **A crowded block**: of four handlers on lines of their own, the last three are found to only
rethrow, and to remove them together is refused. -/
theorem fixAll?_crowded : ∃ source a t,
    source = "try \x7b A(); \x7d\ncatch (E e) \x7b Log(e); \x7d\ncatch (X) \x7b throw; \x7d\n" ++
      "catch (Y) \x7b throw; \x7d\ncatch (Z) \x7b throw; \x7d\nB();" ∧
    Analyzer.builtin = .ok a ∧ (parse source).Has t ∧ t.kind = .tryStatement ∧
    (t.node.child? .block).isSome = true ∧ (check (parse source) rule).length = 3 ∧
    (∀ d ∈ check (parse source) rule, (d ∈ a.analyze (parse source) ∧ d.ruleId = ruleId) ∧
      ∃ c ∈ t.handlers, d.span = .ofRange c.range) ∧
    a.engine.fixAll? (parse source) (check (parse source) rule) =
      some (.unavailable .conflictingEdits) := by
  obtain ⟨source, hsource⟩ : ∃ source, source =
    "try \x7b A(); \x7d\ncatch (E e) \x7b Log(e); \x7d\ncatch (X) \x7b throw; \x7d\n" ++
      "catch (Y) \x7b throw; \x7d\ncatch (Z) \x7b throw; \x7d\nB();" := ⟨_, rfl⟩
  obtain ⟨a, ha⟩ := Analyzer.exists_builtin
  have hlength : (check (parse source) rule).length = 3 := by
    rw [hsource]
    decide +kernel
  obtain ⟨t, ht, hk, hblock, hranges, hspans, hcrowded⟩ : ∃ t ∈ (parse source).cursors,
      t.kind = .tryStatement ∧ (t.node.child? .block).isSome = true ∧
      (∀ d ∈ check (parse source) rule, d.ruleId = ruleId ∧
        ∃ c ∈ t.handlers, c.node.isFiltered = false ∧ d.range? = some c.range) ∧
      (∀ d ∈ check (parse source) rule, ∃ c ∈ t.handlers, d.span = .ofRange c.range) ∧
      IsCrowded (· ∈ chosen (parse source) (check (parse source) rule)) t := by
    rw [hsource]
    decide +kernel
  have ht := Node.mem_cursors.mp ht
  have hne : check (parse source) rule ≠ [] := by
    rw [ne_eq, ← List.length_eq_zero_iff, hlength]
    decide
  refine ⟨source, a, t, hsource, ha, ht, hk, hblock, hlength,
    fun d hd => ⟨reported_of_mem_check ha hd, hspans d hd⟩, ?_⟩
  rcases fixAll?_of_handlers (isShaped_parse source) (Analyzer.provider?_builtin ha) ht hk hblock
    hne hranges with ⟨-, hrefused⟩ | ⟨hnot, -⟩
  · exact hrefused
  · exact absurd hcrowded hnot

end TreeLint.Rethrow
