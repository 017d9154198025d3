import Mathlib.Data.List.Forall2
import TreeLint.Proofs.Crowding
import TreeLint.Proofs.Reported

/-!
# Findings in any order

The outcome of a fix depends on the spans of the findings only: not on their order, nor on how often a
span is listed, nor on messages and severities. Each stage of a fix is followed for two lists: the edits
for the findings are the same but for their order, and so are the groups of removals, the edits that
they are reconciled to, and these in the order of the text.

## Main results

* `TreeLint.applyEdits_perm` — a batch of edits in another order.
* `TreeLint.Rethrow.exists_reconcile_of_perm` — the reconciliation of edits in another order.
* `TreeLint.Rethrow.fixAll?_applied_iff` — lists of findings with the same spans are fixed alike.
-/

namespace TreeLint

/-! ## Lists in another order -/

section Lists

variable {α β ε : Type}

/-- A run whose steps all give a result gives their results. -/
lemma mapM_eq_ok_of_forall₂ {f : α → Except ε β} {as : List α} {bs : List β}
    (h : List.Forall₂ (fun a b => f a = .ok b) as bs) : as.mapM f = .ok bs := by
  induction h with
  | nil => rfl
  | cons hab _ ih =>
    rw [List.mapM_cons, hab, ih]
    rfl

/-- A run over a list that does not fail does not fail in another order either. -/
lemma exists_mapM_of_perm {f g : α → Except ε β} {as as' : List α} {bs : List β} (hperm : as.Perm as')
    (hfg : ∀ a ∈ as, f a = g a) (h : as.mapM f = .ok bs) :
    ∃ bs', as'.mapM g = .ok bs' ∧ bs.Perm bs' := by
  have hforall : List.Forall₂ (fun a b => g a = .ok b) as bs := by
    refine ((List.forall₂_and_left _ _).mpr ⟨hfg, forall₂_of_mapM_eq_ok h⟩).imp ?_
    rintro a b ⟨heq, hab⟩
    rwa [← heq]
  obtain ⟨bs', hbs', hperm'⟩ := List.perm_comp_forall₂ hperm.symm hforall
  exact ⟨bs', mapM_eq_ok_of_forall₂ hbs', hperm'.symm⟩

/-- Lists with the same members have the same distinct members, up to their order. -/
lemma distinct_perm [DecidableEq α] {as as' : List α} (h : ∀ a, a ∈ as ↔ a ∈ as') :
    (distinct as).Perm (distinct as') :=
  (List.perm_ext_iff_of_nodup (nodup_distinct _) (nodup_distinct _)).mpr (by simpa using h)

end Lists

/-! ## Edits in another order -/

variable {root : Node} {es fs : List Edit}

/-- Edits in the order of the text, if no two of them remove the same. -/
lemma sortEdits_congr (h : es.Perm fs)
    (hinj : ∀ e ∈ es, ∀ f ∈ es, e.removed = f.removed → e = f) : sortEdits es = sortEdits fs := by
  refine ((sortEdits_perm es).trans (h.trans (sortEdits_perm fs).symm)).eq_of_pairwise
    (fun e f he hf hef hfe => ?_) (pairwise_sortEdits es) (pairwise_sortEdits fs)
  refine hinj e (mem_sortEdits.mp he) f (h.mem_iff.mpr (mem_sortEdits.mp hf)) ?_
  simp only [Range.le, Bool.or_eq_true, Bool.and_eq_true, decide_eq_true_eq, beq_iff_eq] at hef hfe
  exact Range.eq_of_bounds (by omega) (by omega)

/-- Edits that do not overlap, and remove something, do not remove the same. -/
lemma eq_of_removed_eq (hpos : ∀ e ∈ es, e.removed.start < e.removed.stop)
    (hapart : es.Pairwise fun e f => e.overlaps f = false) :
    ∀ e ∈ es, ∀ f ∈ es, e.removed = f.removed → e = f := by
  intro e he f hf heq
  have := hpos f hf
  refine Rethrow.eq_of_overlaps hapart e he f hf (Edit.overlaps_iff.mpr ?_)
  rw [heq]
  exact ⟨this, this⟩

/-- **A batch of edits in another order**, each of which removes something, has the same result. -/
theorem applyEdits_perm (h : es.Perm fs) (hpos : ∀ e ∈ es, e.removed.start < e.removed.stop) :
    applyEdits root es = applyEdits root fs := by
  have hsymm : ∀ {e f : Edit}, e.overlaps f = false → f.overlaps e = false := by
    intro e f h
    rwa [Edit.overlaps, Range.overlaps_comm]
  have hover : neighboursOverlap (sortEdits es) = neighboursOverlap (sortEdits fs) := by
    rw [Bool.eq_iff_iff, ← not_iff_not, Bool.not_eq_true, Bool.not_eq_true,
      neighboursOverlap_sortEdits hpos,
      neighboursOverlap_sortEdits fun e he => hpos e (h.mem_iff.mpr he), h.pairwise_iff hsymm]
  cases hes : neighboursOverlap (sortEdits es) with
  | true => rw [applyEdits, applyEdits, ← hover, hes]; rfl
  | false =>
    have hapart := (neighboursOverlap_sortEdits hpos).mp hes
    rw [applyEdits, applyEdits, sortEdits_congr h (eq_of_removed_eq hpos hapart)]

namespace Rethrow

variable {edits edits' : List Edit} {t : Cursor}

/-! ## Reconciliation -/

/-- The removals from one guarded block in another order are reconciled to the same. -/
lemma reconcileGroup_congr (h : root.IsShaped) (ht : root.Has t) (hk : t.kind = .tryStatement)
    {removals removals' : List Edit} (hnodup : removals.Nodup)
    (hmem : ∀ f ∈ removals, ∃ c ∈ t.handlers, f = removal c) (hperm : removals.Perm removals') :
    reconcileGroup root t.target removals = reconcileGroup root t.target removals' := by
  have hchosen := perm_removals h ht hnodup hmem (P := fun c => decide (removal c ∈ removals))
    fun c _ => decide_eq_true_iff
  have hsort : sortEdits removals = sortEdits removals' :=
    (sortEdits_eq h ht hk hchosen).trans (sortEdits_eq h ht hk (hperm.symm.trans hchosen)).symm
  simp only [reconcileGroup, mergeRemovals, hsort, hperm.length_eq]

/-- The guarded blocks that own some edits of a batch. -/
def owners (root : Node) (edits : List Edit) : List Target :=
  distinct ((edits.filterMap fun e => (owner? root e).map fun c => (c.target, e)).map Prod.fst)

/-- A target is among the owners if a guarded block with this target owns an edit. -/
lemma mem_owners {τ : Target} :
    τ ∈ owners root edits ↔ ∃ e ∈ edits, (owner? root e).map Cursor.target = some τ := by
  simp [owners, List.mem_filterMap]

/-- A batch is reconciled block by block. -/
lemma reconcile_eq (root : Node) (edits : List Edit) : reconcile root edits =
    ((owners root edits).mapM fun τ => reconcileGroup root τ
      (edits.filter fun e => decide ((owner? root e).map Cursor.target = some τ))).map fun groups =>
        edits.filter (fun e => (owner? root e).isNone) ++ groups.flatten := by
  simp only [reconcile, groupBy_eq, List.mapM_map, Function.comp_def, map_snd_filter_owned]
  rfl

/-- **The edits of a batch in another order** are reconciled to the same edits in another order. -/
theorem exists_reconcile_of_perm (h : root.IsShaped) (hnodup : edits.Nodup)
    (hedits : ∀ e ∈ edits, ∃ c, EditOf root c e) (hperm : edits.Perm edits')
    (hes : reconcile root edits = .ok es) : ∃ es', reconcile root edits' = .ok es' ∧ es.Perm es' := by
  have howners : (owners root edits).Perm (owners root edits') :=
    distinct_perm fun τ => ((hperm.filterMap _).map Prod.fst).mem_iff
  have hgroup : ∀ τ ∈ owners root edits,
      reconcileGroup root τ (edits.filter fun e =>
          decide ((owner? root e).map Cursor.target = some τ)) =
        reconcileGroup root τ (edits'.filter fun e =>
          decide ((owner? root e).map Cursor.target = some τ)) := by
    intro τ hτ
    obtain ⟨e, he, hown⟩ := mem_owners.mp hτ
    obtain ⟨t, ht, rfl⟩ := Option.map_eq_some_iff.mp hown
    obtain ⟨c, hc⟩ := hedits e he
    obtain ⟨u, hu, hk, -, -, ⟨hnone, -⟩ | ⟨hsome, -⟩⟩ := hc.of_owner? h
    · cases ht.symm.trans hnone
    · obtain rfl := Option.some.inj (ht.symm.trans hsome)
      exact reconcileGroup_congr h hu hk (hnodup.filter _)
        (fun f hf => exists_of_mem_ownedBy h hu hedits hf) (hperm.filter _)
  rw [reconcile_eq] at hes
  cases hgroups : (owners root edits).mapM fun τ => reconcileGroup root τ
      (edits.filter fun e => decide ((owner? root e).map Cursor.target = some τ)) with
  | error reason =>
    rw [hgroups] at hes
    cases hes
  | ok groups =>
    rw [hgroups] at hes
    obtain rfl := Except.ok.inj hes
    obtain ⟨groups', hgroups', hperm'⟩ := exists_mapM_of_perm howners hgroup hgroups
    refine ⟨_, by rw [reconcile_eq, hgroups']; rfl, ?_⟩
    exact (hperm.filter _).append hperm'.flatten

/-! ## Findings -/

variable {engine : FixEngine} {ds ds' : List Diagnostic} {tree : Node} {ranges : List Range}

/-- The edits for findings are those for their spans. -/
lemma mem_edits_iff {xs : List (String × Edit)} (hds : ∀ d ∈ ds, d.ruleId = ruleId)
    (hxs : engine.edits? root ds = some (.ok xs)) {e : Edit} : e ∈ xs.map Prod.snd ↔
      ∃ s ∈ ds.map Diagnostic.span, ∃ r, s.range? = some r ∧ engine.editAt root ruleId r = .ok e := by
  obtain ⟨hright, hleft⟩ := exists_of_forall₂ (edits?_eq_ok_iff.mp hxs)
  constructor
  · intro he
    obtain ⟨x, hx, rfl⟩ := List.mem_map.mp he
    obtain ⟨d, hd, -, r, hr, hedit⟩ := hright x hx
    exact ⟨d.span, List.mem_map_of_mem hd, r, hr, hds d hd ▸ hedit⟩
  · rintro ⟨s, hs, r, hr, hedit⟩
    obtain ⟨d, hd, rfl⟩ := List.mem_map.mp hs
    obtain ⟨x, hx, -, r', hr', hedit'⟩ := hleft d hd
    obtain rfl := Option.some.inj (hr.symm.trans hr')
    rw [hds d hd] at hedit'
    exact List.mem_map.mpr ⟨x, hx, Except.ok.inj (hedit'.symm.trans hedit)⟩

/-- For findings with the same spans there are the same edits. -/
lemma exists_edits_of_spans {xs : List (String × Edit)} (hds : ∀ d ∈ ds, d.ruleId = ruleId)
    (hds' : ∀ d ∈ ds', d.ruleId = ruleId)
    (hspans : ∀ s, s ∈ ds.map Diagnostic.span ↔ s ∈ ds'.map Diagnostic.span)
    (hxs : engine.edits? root ds = some (.ok xs)) : ∃ xs', engine.edits? root ds' = some (.ok xs') ∧
      ∀ e, e ∈ xs.map Prod.snd ↔ e ∈ xs'.map Prod.snd := by
  obtain ⟨-, hleft⟩ := exists_of_forall₂ (edits?_eq_ok_iff.mp hxs)
  have hedit : ∀ d' ∈ ds', ∃ x : String × Edit, x.1 = d'.ruleId ∧
      ∃ r, d'.range? = some r ∧ engine.editAt root d'.ruleId r = .ok x.2 := by
    intro d' hd'
    obtain ⟨d, hd, hspan⟩ := List.mem_map.mp ((hspans _).mpr (List.mem_map_of_mem hd'))
    obtain ⟨x, -, hx, r, hr, hedit⟩ := hleft d hd
    rw [Diagnostic.range?, hspan] at hr
    rw [hds d hd] at hx hedit
    exact ⟨x, hx.trans (hds' d' hd').symm, r, hr, (hds' d' hd').symm ▸ hedit⟩
  obtain ⟨xs', hxs'⟩ := exists_forall₂ hedit
  have hxs' := edits?_eq_ok_iff.mpr hxs'
  refine ⟨xs', hxs', fun e => ?_⟩
  simp only [mem_edits_iff hds hxs, mem_edits_iff hds' hxs', hspans]

/-- If a list of findings is fixed, one with the same spans is, with the same result. -/
lemma fixAll?_of_spans (h : root.IsShaped) (hengine : engine.provider? ruleId = some .rethrow)
    (hds : ∀ d ∈ ds, d.ruleId = ruleId) (hds' : ∀ d ∈ ds', d.ruleId = ruleId)
    (hspans : ∀ s, s ∈ ds.map Diagnostic.span ↔ s ∈ ds'.map Diagnostic.span)
    (hfix : engine.fixAll? root ds = some (.applied tree ranges)) :
    engine.fixAll? root ds' = some (.applied tree ranges) := by
  obtain ⟨xs, es, hne, hxs, hforall, hrec, happly⟩ := exists_batch_of_fixAll? h hengine hds hfix
  obtain ⟨xs', hxs', hmem⟩ := exists_edits_of_spans hds hds' hspans hxs
  obtain ⟨es', hrec', hperm⟩ := exists_reconcile_of_perm h (nodup_distinct _) (exists_editOf hforall)
    (distinct_perm hmem) hrec
  have hplan := isPlan_reconcile h (nodup_distinct _) (exists_editOf hforall) hrec
  have hpos : ∀ e ∈ es, e.removed.start < e.removed.stop := fun e he =>
    (spec_of_fixes h hplan.fixes e he).2.2
  have hne' : xs' ≠ [] := by
    obtain ⟨d, hd⟩ := List.exists_mem_of_ne_nil _ hne
    obtain ⟨x, hx, -⟩ := (exists_of_forall₂ hforall).2 d hd
    have := (hmem x.2).mp (List.mem_map_of_mem hx)
    exact List.ne_nil_of_mem this ∘ congrArg (List.map Prod.snd)
  have hid : ∀ x ∈ xs', x.1 = ruleId := by
    intro x hx
    obtain ⟨d, hd, heq, -⟩ := (exists_of_forall₂ (edits?_eq_ok_iff.mp hxs')).1 x hx
    exact heq.trans (hds' d hd)
  rw [fixAll?_eq hengine hxs' hne' hid, hrec']
  simp only [Except.bind, ← applyEdits_perm hperm hpos, happly]

/-- **Lists of findings with the same spans** are fixed alike: either both are or none is, and the trees
and the ranges of what was put into them are the same. -/
theorem fixAll?_applied_iff {a : Analyzer} {source : String} (ha : Analyzer.builtin = .ok a)
    (hds : ∀ d ∈ ds, d.ruleId = ruleId) (hds' : ∀ d ∈ ds', d.ruleId = ruleId)
    (hspans : ∀ s, s ∈ ds.map Diagnostic.span ↔ s ∈ ds'.map Diagnostic.span) (tree : Node)
    (ranges : List Range) : a.engine.fixAll? (parse source) ds = some (.applied tree ranges) ↔
      a.engine.fixAll? (parse source) ds' = some (.applied tree ranges) := by
  have h := isShaped_parse source
  have hengine := Analyzer.provider?_builtin ha
  exact ⟨fixAll?_of_spans h hengine hds hds' hspans,
    fixAll?_of_spans h hengine hds' hds fun s => (hspans s).symm⟩

/-- Two findings about two handlers, and the same ones in the other order, one of them listed twice. -/
theorem fixAll?_applied_reversed : ∃ source a ds ds' tree ranges,
    source = "try \x7b A(); // note\n\x7d catch (X) \x7b throw; \x7d catch \x7b throw; \x7d" ∧
    ds = [⟨"S2737", "", ⟨33, 6⟩, .major⟩, ⟨"S2737", "", ⟨42, 16⟩, .minor⟩] ∧
    ds' = [⟨"S2737", "last", ⟨42, 16⟩, .minor⟩, ⟨"S2737", "", ⟨33, 6⟩, .major⟩,
      ⟨"S2737", "again", ⟨42, 16⟩, .major⟩] ∧
    Analyzer.builtin = .ok a ∧ (∀ d ∈ ds, d.ruleId = ruleId) ∧ (∀ d ∈ ds', d.ruleId = ruleId) ∧
    (∀ s, s ∈ ds.map Diagnostic.span ↔ s ∈ ds'.map Diagnostic.span) ∧
    a.engine.fixAll? (parse source) ds = some (.applied tree ranges) ∧
    a.engine.fixAll? (parse source) ds' = some (.applied tree ranges) := by
  obtain ⟨source, hsource⟩ : ∃ source, source =
    "try \x7b A(); // note\n\x7d catch (X) \x7b throw; \x7d catch \x7b throw; \x7d" := ⟨_, rfl⟩
  obtain ⟨ds, hds⟩ : ∃ ds : List Diagnostic, ds =
    [⟨"S2737", "", ⟨33, 6⟩, .major⟩, ⟨"S2737", "", ⟨42, 16⟩, .minor⟩] := ⟨_, rfl⟩
  obtain ⟨ds', hds'⟩ : ∃ ds : List Diagnostic, ds = [⟨"S2737", "last", ⟨42, 16⟩, .minor⟩,
    ⟨"S2737", "", ⟨33, 6⟩, .major⟩, ⟨"S2737", "again", ⟨42, 16⟩, .major⟩] := ⟨_, rfl⟩
  obtain ⟨a, ha⟩ := Analyzer.exists_builtin
  have hid : ∀ d ∈ ds, d.ruleId = ruleId := by
    rw [hds]
    decide
  have hid' : ∀ d ∈ ds', d.ruleId = ruleId := by
    rw [hds']
    decide
  have hspans : ∀ s, s ∈ ds.map Diagnostic.span ↔ s ∈ ds'.map Diagnostic.span := by
    intro s
    simp only [hds, hds', List.map_cons, List.map_nil, List.mem_cons, List.not_mem_nil, or_false]
    tauto
  have htext : ((a.engine.fixAll? (parse source) ds).bind FixOutcome.tree?).map Node.text =
      some "A(); // note" := by
    rw [(Analyzer.builtin_spec ha).2.2, hsource, hds]
    decide +kernel
  obtain ⟨tree, ranges, hfix, -⟩ := exists_applied htext
  exact ⟨source, a, ds, ds', tree, ranges, hsource, hds, hds', ha, hid, hid', hspans, hfix,
    (fixAll?_applied_iff ha hid hid' hspans tree ranges).mp hfix⟩

end Rethrow

end TreeLint
