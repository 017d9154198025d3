import TreeLint.Proofs.Permutation
import TreeLint.Proofs.Undisturbed

/-!
# One finding after the other

Findings about handlers of different guarded blocks can be fixed as one change, or one after the other
from the last to the first, each with the span that it was reported with. Both lead to the same tree:
what is changed behind a handler does not change the edit for it, and an edit that is alone in its
guarded block is reconciled to itself.

## Main definitions

* `TreeLint.FixEngine.fixEach?` — the tree after fixes of findings one after the other.
* `TreeLint.Rethrow.AreScattered` — edits for handlers of different guarded blocks.

## Main results

* `TreeLint.Rethrow.EditOf.later` — the edit for a handler in a tree that was changed behind it.
* `TreeLint.Rethrow.perm_of_reconcile` — scattered edits are reconciled to themselves.
* `TreeLint.Rethrow.fixEach?_lastToFirst` — one change, or one finding after the other.
-/

namespace TreeLint

/-- The tree after fixes of several findings, one after the other, each on the tree that the fixes
before it lead to. There is none unless all of them are applied. -/
def FixEngine.fixEach? (e : FixEngine) (root : Node) (findings : List Diagnostic) : Option Node :=
  findings.foldlM (fun tree d => (e.fix? tree d).bind FixOutcome.tree?) root

/-- Findings in the order of their spans, the last one first. -/
def lastToFirst (findings : List Diagnostic) : List Diagnostic :=
  findings.mergeSort fun d f => f.span.start ≤ d.span.start

/-- Sorting from the last to the first keeps the findings. -/
lemma lastToFirst_perm (ds : List Diagnostic) : (lastToFirst ds).Perm ds := List.mergeSort_perm ds _

/-- From the last to the first, no finding starts behind one before it. -/
lemma pairwise_lastToFirst (ds : List Diagnostic) :
    (lastToFirst ds).Pairwise fun d f => f.span.start ≤ d.span.start := by
  have hmerge : (lastToFirst ds).Pairwise fun d f => decide (f.span.start ≤ d.span.start) = true := by
    refine List.pairwise_mergeSort (fun d f g => ?_) (fun d f => ?_) ds
    · simp only [decide_eq_true_eq]
      omega
    · simp only [Bool.or_eq_true, decide_eq_true_eq]
      omega
  exact hmerge.imp of_decide_eq_true

/-- A list without repetitions all members of which are the same. -/
lemma eq_singleton_of_nodup {α : Type} {as : List α} {a : α} (hnodup : as.Nodup) (hmem : a ∈ as)
    (hall : ∀ b ∈ as, b = a) : as = [a] := by
  refine List.perm_singleton.mp ((List.perm_ext_iff_of_nodup hnodup (List.nodup_singleton a)).mpr ?_)
  intro b
  rw [List.mem_singleton]
  exact ⟨hall b, fun h => h ▸ hmem⟩

/-- A result that is asked for without its failure is a success. -/
lemma toOption_eq_some_iff {ε α : Type} {x : Except ε α} {a : α} :
    x.toOption = some a ↔ x = .ok a := by
  cases x <;> simp [Except.toOption]

namespace Rethrow

variable {root : Node} {c d t : Cursor} {e f : Edit} {es edits : List Edit} {P : Cursor → Prop}

/-! ## Edits of different guarded blocks -/

/-- Two edits are for handlers of one guarded block. -/
def ShareBlock (root : Node) (e f : Edit) : Prop :=
  ∃ t c d : Cursor, t.IsChild c ∧ t.IsChild d ∧ EditOf root c e ∧ EditOf root d f

/-- It does not matter which of two edits is named first. -/
lemma ShareBlock.symm (h : ShareBlock root e f) : ShareBlock root f e := by
  obtain ⟨t, c, d, hc, hd, hce, hdf⟩ := h
  exact ⟨t, d, c, hd, hc, hdf, hce⟩

/-- The edit for a handler shares its guarded block with itself. -/
lemma EditOf.shareBlock (hc : EditOf root c e) : ShareBlock root e e := by
  obtain ⟨t, -, -, htc, -⟩ := hc.edit
  exact ⟨t, c, c, htc, htc, hc, hc⟩

/-- Edits no two of which are for handlers of one guarded block. -/
def AreScattered (root : Node) (es : List Edit) : Prop := es.Pairwise fun e f => ¬ShareBlock root e f

/-- Scattered edits for handlers of one guarded block are the same. -/
lemma AreScattered.eq (hes : AreScattered root es) (he : e ∈ es) (hf : f ∈ es)
    (hef : ShareBlock root e f) : e = f := by
  by_contra hne
  have hsymm : Std.Symm fun e f => ¬ShareBlock root e f := ⟨fun e f h hfe => h hfe.symm⟩
  exact List.Pairwise.forall hes he hf hne hef

/-- No edit occurs twice among scattered ones. -/
lemma AreScattered.nodup (hes : AreScattered root es) (hedits : ∀ e ∈ es, ∃ c, EditOf root c e) :
    es.Nodup := by
  refine List.Pairwise.imp_of_mem (fun {e f} he _ hef heq => ?_) (show es.Pairwise _ from hes)
  obtain ⟨c, hc⟩ := hedits e he
  exact hef (heq ▸ hc.shareBlock)

/-- The edit for the only chosen handler of its guarded block fixes this. -/
lemma EditOf.exists_isFix (h : root.IsShaped) (hc : EditOf root c e) (hP : P c)
    (hone : ∀ t d : Cursor, t.IsChild c → t.IsChild d → P d → d = c) : ∃ t, root.Has t ∧
      t.kind = .tryStatement ∧ t.IsChild c ∧ c.kind = .catchClause ∧ IsFix P t e ∧
      e.removed.contains c.range = true := by
  obtain ⟨t, ht, hk, htc, hck, hcase⟩ := hc.edit
  have hmem : c ∈ t.handlers := Cursor.mem_handlers.mpr ⟨htc, hck⟩
  refine ⟨t, ht, hk, htc, hck, ?_⟩
  rcases hcase with ⟨hlen, hfin, hflat⟩ | ⟨hleft, rfl⟩
  · obtain ⟨b, hb, heq⟩ := flatten_eq_ok hflat
    obtain ⟨x, hx⟩ := List.length_eq_one_iff.mp hlen
    have hcx : c = x := by simpa [hx] using hmem
    refine ⟨.flat ⟨hfin, List.ne_nil_of_mem hmem, ?_⟩ hb heq, ?_⟩
    · rw [hx, ← hcx]
      simpa using hP
    · rw [heq]
      exact Cursor.Below.contains (.single htc)
  · refine ⟨(isRun_removal h ht htc hck hP).isFix fun hpoint => hleft ⟨?_, hpoint.hasFinally⟩,
      contains_removal c⟩
    rw [eq_singleton_of_nodup t.nodup_handlers hmem fun d hd =>
      hone t d htc (Cursor.mem_handlers.mp hd).1 (hpoint.chosen d hd)]
    rfl

/-- Each edit for a handler fixes its guarded block where no other handler is chosen. -/
lemma EditOf.isFix_alone (h : root.IsShaped) (hc : EditOf root c e) : ∃ t, root.Has t ∧
    t.kind = .tryStatement ∧ t.IsChild c ∧ c.kind = .catchClause ∧ IsFix (· = c) t e ∧
    e.removed.contains c.range = true :=
  hc.exists_isFix h rfl fun _ _ _ _ heq => heq

/-- Scattered edits are a plan for their handlers. -/
theorem isPlan_of_scattered (h : root.IsShaped) (hedits : ∀ e ∈ es, ∃ c, EditOf root c e)
    (hscattered : AreScattered root es) : IsPlan root (fun c => ∃ e ∈ es, EditOf root c e) es := by
  have hfix : ∀ e ∈ es, ∀ c, EditOf root c e → ∃ t, root.Has t ∧ t.kind = .tryStatement ∧
      t.IsChild c ∧ c.kind = .catchClause ∧ IsFix (fun c => ∃ e ∈ es, EditOf root c e) t e ∧
      e.removed.contains c.range = true := by
    intro e he c hc
    refine hc.exists_isFix h ⟨e, he, hc⟩ fun t d htc htd ⟨f, hf, hd⟩ => ?_
    obtain rfl := hscattered.eq he hf ⟨t, c, d, htc, htd, hc, hd⟩
    exact hd.unique h hc
  constructor
  · intro e he
    obtain ⟨c, hc⟩ := hedits e he
    obtain ⟨t, ht, hk, -, -, hte, -⟩ := hfix e he c hc
    exact ⟨t, ht, hk, hte⟩
  · rintro c ⟨e, he, hc⟩
    obtain ⟨t, ht, hk, htc, hck, hte, hcon⟩ := hfix e he c hc
    exact ⟨t, ht, hk, htc, hck, e, he, hte, hcon⟩

/-! ## Reconciliation -/

/-- The edit for a handler is the one for a finding with its range. -/
lemma EditOf.computeEdit_eq (h : root.IsShaped) (hc : EditOf root c e) :
    computeEdit root c.range = .ok e := by
  obtain ⟨t, ht, hk, htc, hck, hcase⟩ := hc.edit
  rw [computeEdit_range h ht hk (Cursor.mem_handlers.mpr ⟨htc, hck⟩) hc.isFiltered]
  rcases hcase with ⟨hlen, hfin, hflat⟩ | ⟨hleft, rfl⟩
  · rw [if_pos ⟨hlen, by simp [hfin]⟩, hflat]
  · rw [if_neg (by simpa using hleft)]

/-- A run that is not longer after widening is the same. -/
lemma widen_eq_self {handlers : List Cursor} {last : Range}
    (h : (widen handlers last e).removed = e.removed) : widen handlers last e = e := by
  unfold widen at h ⊢
  split
  · rename_i hcon
    rw [if_pos hcon] at h
    simp only [show widenTo _ e.removed = e.removed from h]
  · rfl

/-- The removal of a handler alone stays as it is when it is merged. -/
lemma mergeRemovals_singleton (h : root.IsShaped) (ht : root.Has t) (hk : t.kind = .tryStatement)
    (hc : c ∈ t.handlers) : mergeRemovals t [removal c] = [removal c] := by
  obtain ⟨htc, hck⟩ := Cursor.mem_handlers.mp hc
  cases hlast : isLast c with
  | false =>
    have hP : ∀ d ∈ t.handlers, decide (d = c) = true ↔ removal d ∈ [removal c] := by
      intro d hd
      rw [decide_eq_true_eq, List.mem_singleton]
      exact ⟨congrArg removal, fun heq => h.eq_of_target_eq (ht.child (Cursor.mem_handlers.mp hd).1)
        (ht.child htc) (.inr (Cursor.mem_handlers.mp hd).2) (congrArg Edit.target heq)⟩
    have hperm := perm_removals h ht (List.nodup_singleton (removal c)) (by simpa using ⟨c, hc, rfl⟩) hP
    rw [mergeRemovals_of_not_last h ht hk hperm fun d hd => ?_]
    · exact (List.singleton_perm.mp hperm).symm
    · rw [of_decide_eq_true (List.mem_filter.mp hd).2, hlast]
  | true =>
    obtain ⟨hs, hhs, hfin⟩ := exists_concat h ht hk hc hlast
    obtain ⟨hstart, -⟩ := removal_of_last hlast
    obtain ⟨hwstart, hwstop⟩ :=
      widen_bounds h ht hc rfl (contains_removal c) (hstart ▸ reach_le c)
    have hsame : widen t.handlers c.range (removal c) = removal c :=
      widen_eq_self (Range.eq_of_bounds (by rw [hwstart, hstart, Nat.min_self]) hwstop)
    have hruns : mergeRuns (sortEdits [removal c]) = [removal c] := by
      rw [sortEdits, List.mergeSort_singleton]
      rfl
    rw [mergeRemovals_eq_map hfin hhs, hruns, List.map_singleton, hsame]

/-- An edit alone in its guarded block is reconciled to itself. -/
lemma EditOf.reconcile_eq (h : root.IsShaped) (hc : EditOf root c e) :
    reconcile root [e] = .ok [e] := by
  obtain ⟨t, ht, hk, htc, hck, ⟨-, -, hflat⟩ | ⟨hleft, rfl⟩⟩ := hc.edit
  · exact reconcile_singleton (owner?_flatten hk hflat)
  · have hmem : c ∈ t.handlers := Cursor.mem_handlers.mpr ⟨htc, hck⟩
    have hother : t.node.hasFinally = true ∨ t.handlers.length ≠ [removal c].length := by
      by_contra hnone
      push Not at hnone
      exact hleft ⟨hnone.2, by simpa using hnone.1⟩
    rw [reconcile_removals h ht hk (by simp) (by simpa using ⟨c, hmem, rfl⟩), reconcileGroup]
    simp only [h.resolve?_target ht (.inl hk)]
    rw [if_pos hother, mergeRemovals_singleton h ht hk hmem]

/-- **Scattered edits** are reconciled to themselves, in some order. -/
theorem perm_of_reconcile (h : root.IsShaped) (hedits : ∀ e ∈ edits, ∃ c, EditOf root c e)
    (hscattered : AreScattered root edits) (hes : reconcile root edits = .ok es)
    (hapart : es.Pairwise fun e f => e.overlaps f = false) : es.Perm edits := by
  have hnodup := hscattered.nodup hedits
  have hplan := isPlan_reconcile h hnodup hedits hes
  obtain ⟨hmem, -⟩ := mem_reconcile hes
  have hes_nodup : es.Nodup := by
    refine hapart.imp_of_mem fun {e f} he _ hef heq => ?_
    have hpos := (spec_of_fixes h hplan.fixes e he).2.2
    rw [← heq, Bool.eq_false_iff, ne_eq, Edit.overlaps_iff] at hef
    exact hef ⟨hpos, hpos⟩
  -- a guarded block owns one edit, which is reconciled alone
  have hgroup : ∀ f ∈ edits, ∀ u, owner? root f = some u →
      reconcileGroup root u.target (ownedBy root u edits) = .ok [f] := by
    intro f hf u hown
    obtain ⟨c, hc⟩ := hedits f hf
    obtain ⟨t, ht, hk, htc, hck, ⟨hnone, -⟩ | ⟨hsome, rfl⟩⟩ := hc.of_owner? h
    · cases hown.symm.trans hnone
    obtain rfl := Option.some.inj (hown.symm.trans hsome)
    have hcu : c ∈ u.handlers := Cursor.mem_handlers.mpr ⟨htc, hck⟩
    have hone : ownedBy root u edits = [removal c] := by
      refine eq_singleton_of_nodup (hnodup.filter _)
        ((removal_mem_ownedBy h ht hk htc hck).mpr hf) fun g hg => ?_
      obtain ⟨hgmem, hgown⟩ := List.mem_filter.mp hg
      obtain ⟨d, hd⟩ := hedits g hgmem
      obtain ⟨v, hv, hvk, hvd, -, ⟨hnone, -⟩ | ⟨hsome', -⟩⟩ := hd.of_owner? h
      · simp [hnone] at hgown
      · have htarget : v.target = u.target := by simpa [hsome'] using hgown
        obtain rfl := h.eq_of_target_eq hv ht (.inl hvk) htarget
        exact hscattered.eq hgmem hf ⟨v, d, c, hvd, htc, hd, hc⟩
    rw [hone, ← reconcile_removals h ht hk (by simp) (by simpa using ⟨c, hcu, rfl⟩), hc.reconcile_eq h]
  refine (List.perm_ext_iff_of_nodup hes_nodup hnodup).mpr fun e => ?_
  rw [hmem]
  constructor
  · rintro (⟨he, -⟩ | ⟨f, hf, u, gs, hown, hgs, he⟩)
    · exact he
    · obtain rfl := Except.ok.inj ((hgroup f hf u hown).symm.trans hgs)
      rwa [List.mem_singleton.mp he]
  · intro he
    cases hown : owner? root e with
    | none => exact .inl ⟨he, rfl⟩
    | some u => exact .inr ⟨e, he, u, _, hown, hgroup e he u hown, List.mem_singleton.mpr rfl⟩

/-! ## Edits in a tree that was changed behind them -/

/-- The edits for handlers of other guarded blocks keep the children of a guarded block that begins in
front of them. -/
lemma batchRule_elements (h : root.IsShaped) (ht : root.Has t) (hk : t.kind = .tryStatement)
    (hes : ∀ f ∈ es, ∃ d, EditOf root d f) (hother : ∀ f ∈ es, ∀ d, t.IsChild d → ¬EditOf root d f)
    (hbehind : ∀ f ∈ es, t.start < f.removed.start) {x : Placed Element} (hx : x ∈ t.elements) :
    batchRule es x = none := by
  refine batchRule_eq_none_iff.mpr fun f hf => ?_
  by_contra hcon
  rw [Bool.not_eq_false] at hcon
  obtain ⟨d, hd⟩ := hes f hf
  obtain ⟨u, hu, huk, hud, -, hfix, -⟩ := hd.isFix_alone h
  obtain ⟨p, hfits, hcase⟩ := hfix.fitsAt h hu huk
  have hsolid : x.item.IsSolid := (h.solid.children ht _ (Element.item_mem hx)).self
  have hnot : f.removed.contains t.range = false := by
    rw [Bool.eq_false_iff, ne_eq, Range.contains_iff]
    have := hbehind f hf
    simp only [Cursor.range_start]
    omega
  obtain rfl := hfits.owner ht hx hsolid hcon (.inr hnot)
  rcases hcase with ⟨-, htu⟩ | ⟨-, rfl⟩
  · have hkind := h.kind_of_isChild_try ht hk htu
    rw [huk] at hkind
    simp at hkind
  · exact hother f hf d hud hd

/-- **The edit for a handler in a tree that was changed behind it**, in other guarded blocks, is the
same as before. -/
theorem EditOf.later (h : root.IsShaped) (hc : EditOf root c e) (hes : ∀ f ∈ es, ∃ d, EditOf root d f)
    (hscattered : AreScattered root (e :: es))
    (hbehind : ∀ f ∈ es, e.removed.stop ≤ f.removed.start) :
    ∃ c', (root.subst (batchRule es)).Has c' ∧ c'.range = c.range ∧
      EditOf (root.subst (batchRule es)) c' e := by
  have hfront : ∀ x : Placed Element, x.start < e.removed.stop → batchRule es x = none :=
    fun x hx => batchRule_eq_none_of_lt fun f hf => hx.trans_le (hbehind f hf)
  obtain ⟨t, ht, hk, htc, hck, hcase⟩ := hc.edit
  rcases hcase with ⟨hlen, hfin, hflat⟩ | ⟨hleft, rfl⟩
  · obtain ⟨b, hb, heq⟩ := flatten_eq_ok hflat
    have hstop : e.removed.stop = t.stop := by rw [heq]; rfl
    rw [hstop] at hfront
    obtain ⟨t', c', ht', hnode, hstart, htc', halike⟩ := exists_whole h.solid ht
      (h.length_pos ht (h.ne_cursor (by simp [hk]))) htc hfront
    have hflat' : flatten t' = .ok e := by
      rw [← hflat]
      simp only [flatten, Cursor.target, Cursor.range, Cursor.kind, hnode, hstart]
    refine ⟨c', ht'.child htc', halike.range_eq, by rw [halike.node]; exact hc.isFiltered, t', ht', ?_,
      htc', ?_, .inl ⟨?_, ?_, hflat'⟩⟩
    · rw [Cursor.kind, hnode]
      exact hk
    · rw [Cursor.kind, halike.node]
      exact hck
    · rw [Cursor.length_handlers, hnode, ← Cursor.length_handlers, hlen]
    · rw [hnode, hfin]
  · have hbounds := removal_bounds c
    have htrivia := rangeWithTrivia_bounds c
    have hpos := h.length_pos (ht.child htc) (h.ne_cursor (by simp [hck]))
    have hcstop : c.stop = c.start + c.node.length := rfl
    have hcstart := htc.start_eq
    have hother : ∀ f ∈ es, ∀ d, t.IsChild d → ¬EditOf root d f := fun f hf d htd hd =>
      (List.pairwise_cons.mp hscattered).1 f hf ⟨t, c, d, htc, htd, hc, hd⟩
    obtain ⟨t', c', ht', hkind, hchildren, htc', halike⟩ := exists_alike h.solid ht htc hpos
      (fun x hx => hfront x (by omega)) fun x hx => batchRule_elements h ht hk hes hother
        (fun f hf => by have := hbehind f hf; omega) hx
    refine ⟨c', ht'.child htc', halike.range_eq, by rw [halike.node]; exact hc.isFiltered, t', ht',
      hkind.trans hk, htc', ?_, .inr ⟨?_, halike.removal_eq.symm⟩⟩
    · rw [Cursor.kind, halike.node]
      exact hck
    · rwa [Cursor.length_handlers, Node.length_handlers_congr hchildren, ← Cursor.length_handlers,
        Node.hasFinally_congr hchildren]

/-! ## One step -/

variable {engine : FixEngine} {finding : Diagnostic} {ds : List Diagnostic}

/-- Edits one behind the other are sorted. -/
lemma sortEdits_of_pairwise (hsorted : es.Pairwise fun e f => e.removed.stop ≤ f.removed.start) :
    sortEdits es = es := by
  refine List.mergeSort_of_pairwise (hsorted.imp fun {e f} hle => ?_)
  have := e.removed.start_le_stop
  have := f.removed.start_le_stop
  simp only [Range.le, Bool.or_eq_true, Bool.and_eq_true, decide_eq_true_eq, beq_iff_eq]
  omega

/-- Edits one behind the other do not overlap. -/
lemma pairwise_overlaps (hsorted : es.Pairwise fun e f => e.removed.stop ≤ f.removed.start) :
    es.Pairwise fun e f => e.overlaps f = false := by
  refine hsorted.imp fun {e f} hle => ?_
  rw [Bool.eq_false_iff, ne_eq, Edit.overlaps_iff]
  omega

/-- Edits one behind the other are applied as they stand. -/
lemma applyEdits_of_pairwise (hsorted : es.Pairwise fun e f => e.removed.stop ≤ f.removed.start) :
    applyEdits root es = applySorted root es := by
  have hsort := sortEdits_of_pairwise hsorted
  have hover : neighboursOverlap es = false := by
    have hchain := (pairwise_overlaps hsorted).isChain
    clear hsorted hsort
    induction es with
    | nil => rfl
    | cons e es ih =>
      cases es with
      | nil => rfl
      | cons f es =>
        obtain ⟨hef, hchain⟩ := List.isChain_cons_cons.mp hchain
        rw [neighboursOverlap, hef, ih hchain]
        rfl
  rw [applyEdits, hsort, hover]
  rfl

/-- A fix whose edits stand in order, stage by stage. -/
lemma fixAll?_of_pairwise (hengine : engine.provider? ruleId = some .rethrow) {xs : List (String × Edit)}
    (hxs : engine.edits? root ds = some (.ok xs)) (hne : xs ≠ []) (hid : ∀ x ∈ xs, x.1 = ruleId)
    (hes : reconcile root (distinct (xs.map Prod.snd)) = .ok es)
    (hsorted : es.Pairwise fun e f => e.removed.stop ≤ f.removed.start) {tree : Node}
    {ranges : List Range} (happly : applySorted root es = .ok (tree, ranges)) :
    engine.fixAll? root ds = some (.applied tree ranges) := by
  rw [fixAll?_eq hengine hxs hne hid, hes]
  simp only [Except.bind, applyEdits_of_pairwise hsorted, happly]

/-- **A finding about a handler in front of what was changed** is fixed by the edit for this handler. -/
theorem fix?_later (h : root.IsShaped) (hengine : engine.provider? ruleId = some .rethrow)
    (hid : finding.ruleId = ruleId) (hrange : finding.range? = some c.range) (hc : EditOf root c e)
    (hes : ∀ f ∈ es, ∃ d, EditOf root d f) (hscattered : AreScattered root (e :: es))
    (hsorted : (e :: es).Pairwise fun e f => e.removed.stop ≤ f.removed.start) :
    ∃ ranges, engine.fix? (root.subst (batchRule es)) finding =
      some (.applied (root.subst (batchRule (e :: es))) ranges) := by
  obtain ⟨hbehind, hsorted⟩ := List.pairwise_cons.mp hsorted
  have hplan := isPlan_of_scattered h hes (List.pairwise_cons.mp hscattered).2
  have hshaped : (root.subst (batchRule es)).IsShaped :=
    IsOutcome.isShaped h (.mk hplan (eq_of_overlaps (pairwise_overlaps hsorted)) rfl)
  obtain ⟨c', hhas, hsame, hc'⟩ := hc.later h hes hscattered hbehind
  have hedit : engine.editAt (root.subst (batchRule es)) finding.ruleId c.range = .ok e := by
    have hcon : (root.subst (batchRule es)).fullRange.contains c'.range = true :=
      Cursor.Below.contains hhas
    rw [FixEngine.editAt, ← hsame, if_pos hcon, hid, hengine]
    exact hc'.computeEdit_eq hshaped
  have hedits : engine.edits? (root.subst (batchRule es)) [finding] = some (.ok [(ruleId, e)]) :=
    edits?_eq_ok_iff.mpr (.cons ⟨hid.symm, c.range, hrange, hedit⟩ .nil)
  obtain ⟨t, ht, hk, -, -, hfix, -⟩ := hc.isFix_alone h
  obtain ⟨p, hfits, -⟩ := hfix.fitsAt h ht hk
  have happly := hfits.apply_eq h.solid hbehind (hplan.keeps h)
  have hbatch : applySorted (root.subst (batchRule es)) [e] =
      .ok (root.subst (batchRule (e :: es)), e.insertedRange?.toList) := by
    simp [applySorted, happly, bind, Except.bind, pure, Except.pure]
  refine ⟨_, fixAll?_of_pairwise hengine hedits (by simp) (by simp) ?_ (List.pairwise_singleton ..) hbatch⟩
  simp only [List.map_cons, List.map_nil, distinct_of_nodup (List.nodup_singleton e),
    hc'.reconcile_eq hshaped]

/-! ## All steps -/

/-- The edits for some findings. -/
def editsFor (root : Node) (ds : List Diagnostic) : List Edit :=
  ds.filterMap fun d => d.range?.bind fun r => (computeEdit root r).toOption

/-- The edits for some findings are those computed at their ranges. -/
lemma mem_editsFor : e ∈ editsFor root ds ↔
    ∃ d ∈ ds, ∃ r, d.range? = some r ∧ computeEdit root r = .ok e := by
  simp only [editsFor, List.mem_filterMap, Option.bind_eq_some_iff, toOption_eq_some_iff]

/-- The edits for findings are edits for handlers. -/
lemma editOf_of_mem_editsFor (h : root.IsShaped) : ∀ e ∈ editsFor root ds, ∃ c, EditOf root c e := by
  intro e he
  obtain ⟨-, -, r, -, hr⟩ := mem_editsFor.mp he
  obtain ⟨c, -, hc⟩ := editOf_of_computeEdit h hr
  exact ⟨c, hc⟩

/-- The edits for some findings are those that an engine computes. -/
lemma editsFor_eq (hengine : engine.provider? ruleId = some .rethrow)
    (hds : ∀ d ∈ ds, d.ruleId = ruleId) {xs : List (String × Edit)}
    (hxs : engine.edits? root ds = some (.ok xs)) : editsFor root ds = xs.map Prod.snd := by
  have hforall := edits?_eq_ok_iff.mp hxs
  clear hxs
  induction hforall with
  | nil => rfl
  | @cons d x _ _ hdx _ ih =>
    obtain ⟨-, r, hr, hedit⟩ := hdx
    rw [FixEngine.editAt, hds d List.mem_cons_self, hengine] at hedit
    have hcompute : computeEdit root r = .ok x.2 := by
      split at hedit
      · exact hedit
      · cases hedit
    rw [editsFor, List.filterMap_cons, hr, Option.bind_some, hcompute]
    exact congrArg (x.2 :: ·) (ih fun d hd => hds d (List.mem_cons_of_mem _ hd))

/-- **Findings about handlers of different guarded blocks**, whose edits stand in order, are fixed one
after the other from the last to the first: the tree is the substitution of all edits.

**Proof sketch.** Induction on the findings: those behind the first are fixed already, and its edit is
still the same (`fix?_later`). -/
theorem fixEach?_reverse (h : root.IsShaped) (hengine : engine.provider? ruleId = some .rethrow)
    (hds : ∀ d ∈ ds, d.ruleId = ruleId ∧ ∃ c e, d.range? = some c.range ∧ EditOf root c e)
    (hscattered : AreScattered root (editsFor root ds))
    (hsorted : (editsFor root ds).Pairwise fun e f => e.removed.stop ≤ f.removed.start) :
    engine.fixEach? root ds.reverse = some (root.subst (batchRule (editsFor root ds))) := by
  induction ds with
  | nil => exact congrArg some (Node.subst_batchRule_nil h.solid).symm
  | cons d ds ih =>
    obtain ⟨hid, c, e, hrange, hc⟩ := hds d List.mem_cons_self
    have hcons : editsFor root (d :: ds) = e :: editsFor root ds := by
      rw [editsFor, List.filterMap_cons, hrange, Option.bind_some, hc.computeEdit_eq h]
      rfl
    rw [hcons] at hscattered hsorted ⊢
    have hrest := ih (fun d hd => hds d (List.mem_cons_of_mem _ hd))
      (List.pairwise_cons.mp hscattered).2 (List.pairwise_cons.mp hsorted).2
    obtain ⟨ranges, hfix⟩ := fix?_later h hengine hid hrange hc (editOf_of_mem_editsFor h) hscattered
      hsorted
    rw [FixEngine.fixEach?] at hrest
    rw [FixEngine.fixEach?, List.reverse_cons, List.foldlM_append, hrest]
    simp [hfix, FixOutcome.tree?]

/-! ## Batches -/

variable {a : Analyzer} {source : String} {tree : Node} {ranges : List Range}

/-- A reported finding that was fixed is about the handler that its edit is for. -/
lemma exists_editOf_reported (h : root.IsShaped) (ha : Analyzer.builtin = .ok a)
    (hds : ∀ d ∈ ds, d ∈ a.analyze root ∧ d.ruleId = ruleId) {xs : List (String × Edit)}
    (hforall : List.Forall₂ (fun d x => x.1 = ruleId ∧
      ∃ c, d.range?.bind (handlerAround? root) = some c ∧ EditOf root c x.2) ds xs) :
    ∀ d ∈ ds, ∃ c e, d.span = .ofRange c.range ∧ d.range? = some c.range ∧ EditOf root c e := by
  intro d hd
  obtain ⟨x, -, -, c, hc, hce⟩ := (exists_of_forall₂ hforall).2 d hd
  obtain ⟨r, hr, haround⟩ := Option.bind_eq_some_iff.mp hc
  obtain ⟨c', -, -, rfl, hleads⟩ := exists_of_reported h ha (hds d hd)
  obtain rfl := Option.some.inj ((hleads r hr).symm.trans haround)
  have hsame := eq_of_range?_ofRange hr
  exact ⟨c', x.2, rfl, hsame ▸ hr, hce⟩

/-- The edits for findings no two of which are about one guarded block are scattered. -/
lemma areScattered_editsFor (h : root.IsShaped)
    (hds : ∀ d ∈ ds, ∃ c e, d.span = .ofRange c.range ∧ d.range? = some c.range ∧ EditOf root c e)
    (hone : ds.Pairwise fun d f =>
      ∀ t, root.Has t → t.kind = .tryStatement → IsAbout d t → ¬IsAbout f t) :
    AreScattered root (editsFor root ds) := by
  have habout : ∀ d ∈ ds, ∀ e, (d.range?.bind fun r => (computeEdit root r).toOption) = some e →
      ∀ t c, t.IsChild c → EditOf root c e → root.Has t ∧ t.kind = .tryStatement ∧ IsAbout d t := by
    intro d hd e he t c htc hce
    obtain ⟨c', e', hspan, hrange, hc'⟩ := hds d hd
    rw [hrange, Option.bind_some, hc'.computeEdit_eq h] at he
    obtain rfl := Option.some.inj he
    obtain rfl := hc'.unique h hce
    obtain ⟨u, hu, hk, huc, hck, -⟩ := hce.edit
    obtain rfl : t = u := by simpa [htc.parent?_eq] using huc.parent?_eq
    exact ⟨hu, hk, c', Cursor.mem_handlers.mpr ⟨huc, hck⟩, hspan⟩
  refine List.pairwise_filterMap.mpr (hone.imp_of_mem fun {d f} hd hf hdf e he g hg => ?_)
  rintro ⟨t, c, c', htc, htc', hce, hcg⟩
  obtain ⟨ht, hk, hdt⟩ := habout d hd e he t c htc hce
  exact hdf t ht hk hdt (habout f hf g hg t c' htc' hcg).2.2

/-- Scattered edits for findings in order stand in order, if they do not overlap. -/
lemma pairwise_editsFor (h : root.IsShaped)
    (hds : ∀ d ∈ ds, ∃ c e, d.span = .ofRange c.range ∧ d.range? = some c.range ∧ EditOf root c e)
    (hscattered : AreScattered root (editsFor root ds))
    (hapart : ∀ e ∈ editsFor root ds, ∀ f ∈ editsFor root ds, e.overlaps f = true → e = f)
    (hsorted : ds.Pairwise fun d f => d.span.start ≤ f.span.start) :
    (editsFor root ds).Pairwise fun e f => e.removed.stop ≤ f.removed.start := by
  have hcontains : ∀ d ∈ ds, ∀ e, (d.range?.bind fun r => (computeEdit root r).toOption) = some e →
      e ∈ editsFor root ds ∧ ShareBlock root e e ∧ e.removed.start ≤ d.span.start ∧
        d.span.start < e.removed.stop := by
    intro d hd e he
    obtain ⟨c, e', hspan, hrange, hc⟩ := hds d hd
    have hmem : e ∈ editsFor root ds := List.mem_filterMap.mpr ⟨d, hd, he⟩
    rw [hrange, Option.bind_some, hc.computeEdit_eq h] at he
    obtain rfl := Option.some.inj he
    obtain ⟨t, ht, -, htc, hck, -, hcon⟩ := hc.isFix_alone h
    have hpos := h.length_pos (ht.child htc) (h.ne_cursor (by simp [hck]))
    have hcon := Range.contains_iff.mp hcon
    have hstart : d.span.start = c.start := by rw [hspan]; rfl
    simp only [Cursor.range_start, Cursor.range_stop] at hcon
    exact ⟨hmem, hc.shareBlock, by omega, by omega⟩
  rw [AreScattered, editsFor, List.pairwise_filterMap] at hscattered
  refine List.pairwise_filterMap.mpr ((hscattered.and hsorted).imp_of_mem ?_)
  rintro d f hd hf ⟨hdf, hle⟩ e he g hg
  obtain ⟨hemem, hshare, hestart, hestop⟩ := hcontains d hd e he
  obtain ⟨hgmem, -, hgstart, hgstop⟩ := hcontains f hf g hg
  by_contra hcon
  have hover : e.overlaps g = true := Edit.overlaps_iff.mpr ⟨by omega, by omega⟩
  obtain rfl := hapart e hemem g hgmem hover
  exact hdf e he e hg hshare

/-- **One change, or one finding after the other.** Reported findings, no two of which are about one
guarded block, that can be fixed as one change can be fixed one after the other, from the last to the
first, each with the span that it was reported with, and the tree is the same.

**Proof sketch.** Each guarded block owns one edit, so the edits are reconciled to themselves
(`perm_of_reconcile`), and the batch is their substitution in the order of the text. So is the
sequence of fixes (`fixEach?_reverse`). -/
theorem fixEach?_lastToFirst (ha : Analyzer.builtin = .ok a)
    (hds : ∀ d ∈ ds, d ∈ a.analyze (parse source) ∧ d.ruleId = ruleId)
    (hone : ds.Pairwise fun d f =>
      ∀ t, (parse source).Has t → t.kind = .tryStatement → IsAbout d t → ¬IsAbout f t)
    (hfix : a.engine.fixAll? (parse source) ds = some (.applied tree ranges)) :
    a.engine.fixEach? (parse source) (lastToFirst ds) = some tree := by
  have h := isShaped_parse source
  have hengine := Analyzer.provider?_builtin ha
  obtain ⟨xs, es, -, hxs, hforall, hrec, happly⟩ :=
    exists_batch_of_fixAll? h hengine (fun d hd => (hds d hd).2) hfix
  have hspec := exists_editOf_reported h ha hds hforall
  have hscattered := areScattered_editsFor h hspec hone
  have hedits : ∀ e ∈ editsFor (parse source) ds, ∃ c, EditOf (parse source) c e :=
    editOf_of_mem_editsFor h
  rw [← editsFor_eq hengine (fun d hd => (hds d hd).2) hxs,
    distinct_of_nodup (hscattered.nodup hedits)] at hrec
  -- the batch
  have hplan := isPlan_reconcile h (hscattered.nodup hedits) hedits hrec
  obtain ⟨hapart, rfl⟩ : (es.Pairwise fun e f => e.overlaps f = false) ∧
      (parse source).subst (batchRule (sortEdits es)) = tree := by
    rcases hplan.applyEdits_eq h with ⟨-, herror⟩ | ⟨hapart, ranges', hok⟩
    · cases herror.symm.trans happly
    · exact ⟨hapart, congrArg Prod.fst (Except.ok.inj (hok.symm.trans happly))⟩
  have hperm := perm_of_reconcile h hedits hscattered hrec hapart
  -- the findings in the order of the text
  have hsorted : (lastToFirst ds).reverse.Pairwise fun d f => d.span.start ≤ f.span.start :=
    List.pairwise_reverse.mpr (pairwise_lastToFirst ds)
  have hsame : (lastToFirst ds).reverse.Perm ds := (List.reverse_perm _).trans (lastToFirst_perm ds)
  have hperm' : es.Perm (editsFor (parse source) (lastToFirst ds).reverse) :=
    hperm.trans (hsame.filterMap _).symm
  have hspec' : ∀ d ∈ (lastToFirst ds).reverse, ∃ c e, d.span = .ofRange c.range ∧
      d.range? = some c.range ∧ EditOf (parse source) c e := fun d hd => hspec d (hsame.mem_iff.mp hd)
  have hscattered' : AreScattered (parse source) (editsFor (parse source) (lastToFirst ds).reverse) :=
    ((hsame.filterMap _).pairwise_iff fun h hs => h hs.symm).mpr hscattered
  have hordered := pairwise_editsFor h hspec' hscattered'
    (fun e he f hf => eq_of_overlaps hapart e (hperm'.mem_iff.mpr he) f (hperm'.mem_iff.mpr hf)) hsorted
  have hpos : ∀ e ∈ es, e.removed.start < e.removed.stop := fun e he =>
    (spec_of_fixes h hplan.fixes e he).2.2
  have hsort : sortEdits es = editsFor (parse source) (lastToFirst ds).reverse :=
    (sortEdits_congr hperm' (eq_of_removed_eq hpos hapart)).trans (sortEdits_of_pairwise hordered)
  have hrun := fixEach?_reverse h hengine (fun d hd => ⟨(hds d (hsame.mem_iff.mp hd)).2, by
    obtain ⟨c, e, -, hrange, hc⟩ := hspec' d hd
    exact ⟨c, e, hrange, hc⟩⟩) hscattered' hordered
  rw [List.reverse_reverse] at hrun
  rw [hrun, hsort]

/-- Two nested guarded blocks: the inner one gives way to its body, and the outer one loses its last
handler. -/
theorem fixEach?_lastToFirst_nested : ∃ source a tree ranges,
    source = "try \x7b try \x7b A(); \x7d catch \x7b throw; \x7d \x7d catch (E e) \x7b Log(e); \x7d" ++
      " catch (X) \x7b throw; \x7d" ∧
    Analyzer.builtin = .ok a ∧ (check (parse source) rule).length = 2 ∧
    (∀ d ∈ check (parse source) rule, d ∈ a.analyze (parse source) ∧ d.ruleId = ruleId) ∧
    ((check (parse source) rule).Pairwise fun d f =>
      ∀ t, (parse source).Has t → t.kind = .tryStatement → IsAbout d t → ¬IsAbout f t) ∧
    a.engine.fixAll? (parse source) (check (parse source) rule) = some (.applied tree ranges) ∧
    a.engine.fixEach? (parse source) (lastToFirst (check (parse source) rule)) = some tree ∧
    tree.text = "try \x7b A(); \x7d catch (E e) \x7b Log(e); \x7d" := by
  obtain ⟨source, hsource⟩ : ∃ source, source =
    "try \x7b try \x7b A(); \x7d catch \x7b throw; \x7d \x7d catch (E e) \x7b Log(e); \x7d" ++
      " catch (X) \x7b throw; \x7d" := ⟨_, rfl⟩
  obtain ⟨a, ha⟩ := Analyzer.exists_builtin
  have hlength : (check (parse source) rule).length = 2 := by
    rw [hsource]
    decide +kernel
  have hone : (check (parse source) rule).Pairwise fun d f => ∀ t ∈ (parse source).cursors,
      t.kind = .tryStatement → (∃ c ∈ t.handlers, d.span = .ofRange c.range) →
        ¬∃ c ∈ t.handlers, f.span = .ofRange c.range := by
    rw [hsource]
    decide +kernel
  have hone := hone.imp fun {d f} h t ht hk hd => h t (Node.mem_cursors.mpr ht) hk hd
  have hds : ∀ d ∈ check (parse source) rule, d ∈ a.analyze (parse source) ∧ d.ruleId = ruleId :=
    fun d hd => reported_of_mem_check ha hd
  have hrun : ((FixEngine.builtin.edits? (parse source) (check (parse source) rule)).bind
      Except.toOption).bind (fun xs => (reconcile (parse source) (distinct (xs.map Prod.snd))).toOption.bind
        fun es => if (es.Pairwise fun e f => e.removed.stop ≤ f.removed.start) ∧ xs ≠ [] ∧
            ∀ x ∈ xs, x.1 = ruleId then
          (applySorted (parse source) es).toOption.map fun result => result.1.text else none) =
      some "try \x7b A(); \x7d catch (E e) \x7b Log(e); \x7d" := by
    rw [hsource]
    decide +kernel
  obtain ⟨xs, hxs, hrun⟩ := Option.bind_eq_some_iff.mp hrun
  obtain ⟨edits, hedits, hxs⟩ := Option.bind_eq_some_iff.mp hxs
  obtain rfl := toOption_eq_some_iff.mp hxs
  obtain ⟨es, hes, hrun⟩ := Option.bind_eq_some_iff.mp hrun
  split at hrun
  · rename_i hsorted
    obtain ⟨⟨tree, ranges⟩, happly, htext⟩ := Option.map_eq_some_iff.mp hrun
    have hedits : a.engine.edits? (parse source) (check (parse source) rule) = some (.ok xs) := by
      rw [(Analyzer.builtin_spec ha).2.2, hedits]
    have hfix := fixAll?_of_pairwise (Analyzer.provider?_builtin ha) hedits hsorted.2.1 hsorted.2.2
      (toOption_eq_some_iff.mp hes) hsorted.1 (toOption_eq_some_iff.mp happly)
    exact ⟨source, a, tree, ranges, hsource, ha, hlength, hds, hone, hfix,
      fixEach?_lastToFirst ha hds hone hfix, htext⟩
  · cases hrun

end Rethrow

end TreeLint
