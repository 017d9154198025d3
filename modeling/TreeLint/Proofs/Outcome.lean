import TreeLint.Proofs.Reconcile

/-!
# The outcome of a fix

An engine that provides for rethrowing handlers fixes a list of findings about them in one way only:
each finding leads to an edit, the edits are reconciled to a plan for the handlers that the findings
chose, and the plan is applied unless two of its edits overlap. What is then left of a tree is the
tree with the rule of the plan substituted.

## Main definitions

* `TreeLint.Rethrow.chosen` — the handlers that a list of findings leads to.
* `TreeLint.Rethrow.IsOutcome` — the tree after a plan.

## Main results

* `TreeLint.Rethrow.isOutcome_of_fixAll?` — the tree after a fix is the tree after a plan for the
  handlers that the findings chose.
-/

namespace TreeLint

/-! ## The edits for several findings -/

section Engine

variable {engine : FixEngine} {root : Node} {ds : List Diagnostic}

/-- The edits for several findings are found if there is an edit for each of them. -/
lemma edits?_eq_ok_iff {xs : List (String × Edit)} :
    engine.edits? root ds = some (.ok xs) ↔
      List.Forall₂ (fun d x => x.1 = d.ruleId ∧
        ∃ r, d.range? = some r ∧ engine.editAt root d.ruleId r = .ok x.2) ds xs := by
  induction ds generalizing xs with
  | nil => simp [FixEngine.edits?, eq_comm]
  | cons d ds ih =>
    rw [FixEngine.edits?, List.forall₂_cons_left_iff]
    cases hr : d.range? with
    | none => simp
    | some r =>
      simp only [Option.bind_some, Option.some.injEq, exists_eq_left']
      cases he : engine.editAt root d.ruleId r with
      | error reason => simp
      | ok edit =>
        simp only [Option.map_eq_some_iff, Except.ok.injEq]
        constructor
        · rintro ⟨rest, hrest, hmap⟩
          cases rest with
          | error reason => simp [Except.map] at hmap
          | ok ys =>
            obtain rfl : (d.ruleId, edit) :: ys = xs := by simpa [Except.map] using hmap
            exact ⟨_, ys, ⟨rfl, rfl⟩, ih.mp hrest, rfl⟩
        · rintro ⟨x, ys, ⟨hx, hedit⟩, hys, rfl⟩
          exact ⟨.ok ys, ih.mpr hys, by simp [Except.map, ← hx, hedit]⟩

/-- Edits of one rule are reconciled together. -/
lemma applyRules_eq {ruleId : String} {xs : List (String × Edit)} (hne : xs ≠ [])
    (hxs : ∀ x ∈ xs, x.1 = ruleId) :
    engine.applyRules root xs =
      (engine.reconcileRule root ruleId (xs.map Prod.snd)).bind (applyEdits root) := by
  rw [FixEngine.applyRules, groupBy_eq_singleton hne hxs]
  simp only [List.mapM_cons, List.mapM_nil]
  cases engine.reconcileRule root ruleId (xs.map Prod.snd) with
  | error reason => rfl
  | ok es => simp [bind, Except.bind, pure, Except.pure]

end Engine

/-- An outcome with a tree is one of a fix that was applied. -/
lemma exists_applied {α : Type} {f : Node → α} {y : α} {outcome : Option FixOutcome}
    (h : (outcome.bind FixOutcome.tree?).map f = some y) :
    ∃ tree ranges, outcome = some (.applied tree ranges) ∧ f tree = y := by
  obtain ⟨tree, htree, hy⟩ := Option.map_eq_some_iff.mp h
  obtain ⟨result, rfl, hresult⟩ := Option.bind_eq_some_iff.mp htree
  cases result with
  | applied tree' ranges =>
    obtain rfl := Option.some.inj hresult
    exact ⟨_, ranges, rfl, hy⟩
  | unavailable reason => cases hresult

namespace Rethrow

variable {root tree : Node} {c : Cursor} {ds : List Diagnostic} {es : List Edit}
  {P Q : Cursor → Prop}

/-- The handlers that a list of findings leads to: the nearest around the range of each. -/
def chosen (root : Node) (ds : List Diagnostic) : List Cursor :=
  ds.filterMap fun d => d.range?.bind (handlerAround? root)

/-- A handler is chosen if it is the nearest around the range of a finding. -/
lemma mem_chosen : c ∈ chosen root ds ↔
    ∃ d ∈ ds, ∃ r, d.range? = some r ∧ handlerAround? root r = some c := by
  simp [chosen, List.mem_filterMap, Option.bind_eq_some_iff]

/-- The tree after a plan for some chosen handlers whose edits do not overlap. -/
inductive IsOutcome (root : Node) (P : Cursor → Prop) (tree : Node) : Prop where
  /-- The edits of the plan are applied as one change. -/
  | mk {es : List Edit} : IsPlan root P es → (∀ e ∈ es, ∀ f ∈ es, e.overlaps f = true → e = f) →
    tree = root.subst (batchRule es) → IsOutcome root P tree

/-! ## Plans can be applied -/

/-- The elements of a node, and so those of a trimmed body, belong to the tree. -/
lemma isSolid_of_mem_trimLayout_body {b : Node} (hb : ∀ e ∈ b.children, e.IsSolid) {e : Element}
    (he : e ∈ trimLayout (body b)) : e.IsSolid := by
  have hbody : e ∈ body b := by
    rw [trimLayout, List.mem_reverse] at he
    exact (List.dropWhile_sublist _).subset
      (List.mem_reverse.mp ((List.dropWhile_sublist _).subset he))
  refine hb e ?_
  exact (List.dropWhile_sublist _).subset ((List.drop_sublist _ _).subset
    ((List.takeWhile_sublist _).subset hbody))

/-- What an edit of a plan removes are children of the guarded block, or it is the guarded block. -/
lemma IsFix.fitsAt {t : Cursor} {e : Edit} (h : root.IsShaped) (ht : root.Has t)
    (hk : t.kind = .tryStatement) (he : IsFix P t e) :
    ∃ p, e.FitsAt root p ∧ ((IsPointless P t ∧ p.IsChild t) ∨ (¬IsPointless P t ∧ p = t)) := by
  cases he with
  | flat hpoint hb heq =>
    subst heq
    obtain ⟨p, hp, hpt⟩ := Cursor.Below.exists_parent ht (h.ne_cursor (by simp [hk])).symm
    exact ⟨p, replacement_fitsAt h hp hpt hk _, .inl ⟨hpoint, hpt⟩⟩
  | run hleft hsweeps hop htarget =>
    obtain ⟨c, hc, hck, htarget, hcon⟩ := htarget
    have hfits := hsweeps.fitsAt h ht hk (fun d hd => hd.1) hc hck htarget hcon
    exact ⟨t, hfits, .inr ⟨hleft, rfl⟩⟩

/-- The edits of a plan fit, put solid elements into the tree, and remove something. -/
lemma IsFix.spec {t : Cursor} {e : Edit} (h : root.IsShaped) (ht : root.Has t)
    (hk : t.kind = .tryStatement) (he : IsFix P t e) :
    (∃ p, e.FitsAt root p) ∧ (∀ d ∈ e.operation.elements, d.IsSolid) ∧
      e.removed.start < e.removed.stop := by
  obtain ⟨p, hfits, -⟩ := he.fitsAt h ht hk
  refine ⟨⟨p, hfits⟩, ?_⟩
  cases he with
  | @flat b _ hb heq =>
    subst heq
    obtain ⟨d, hd, rfl, -⟩ := Cursor.exists_of_child? hb
    refine ⟨fun x hx => ?_, h.length_pos ht (h.ne_cursor (by simp [hk]))⟩
    exact isSolid_of_mem_trimLayout_body
      (fun y hy => (h.solid.children (ht.child hd) y hy).self) hx
  | run hleft hsweeps hop htarget =>
    obtain ⟨c, hc, hck, -, hcon⟩ := htarget
    refine ⟨?_, ?_⟩
    · simp [hop, Operation.elements]
    · have hpos := h.length_pos (ht.child hc) (h.ne_cursor (by simp [hck]))
      have := Range.contains_iff.mp hcon
      simp only [Cursor.range_start, Cursor.range_stop] at this
      omega

/-- `IsFix.spec` for each edit of a list. -/
lemma spec_of_fixes (h : root.IsShaped)
    (hes : ∀ e ∈ es, ∃ t, root.Has t ∧ t.kind = .tryStatement ∧ IsFix P t e) :
    ∀ e ∈ es, (∃ p, e.FitsAt root p) ∧ (∀ d ∈ e.operation.elements, d.IsSolid) ∧
      e.removed.start < e.removed.stop := by
  intro e he
  obtain ⟨t, ht, hk, hfix⟩ := hes e he
  exact hfix.spec h ht hk

/-- **A plan is applied** unless two of its edits overlap. -/
theorem IsPlan.applyEdits_eq (h : root.IsShaped) (hes : IsPlan root P es) :
    (¬(es.Pairwise fun e f => e.overlaps f = false) ∧
        applyEdits root es = .error .conflictingEdits) ∨
      ((es.Pairwise fun e f => e.overlaps f = false) ∧
        ∃ ranges, applyEdits root es = .ok (root.subst (batchRule (sortEdits es)), ranges)) := by
  have hspec := spec_of_fixes h hes.fixes
  exact TreeLint.applyEdits_eq h.solid (fun e he => (hspec e he).1) (fun e he => (hspec e he).2.1)
    fun e he => (hspec e he).2.2

/-- Sorting the edits of a plan leaves a plan. -/
lemma IsPlan.sortEdits (hes : IsPlan root P es) : IsPlan root P (sortEdits es) where
  fixes e he := hes.fixes e (mem_sortEdits.mp he)
  covers c hc := by
    obtain ⟨t, ht, hk, htc, hck, e, he, hfix⟩ := hes.covers c hc
    exact ⟨t, ht, hk, htc, hck, e, mem_sortEdits.mpr he, hfix⟩

/-- Edits that do not overlap in pairs: two of a batch that overlap are the same. -/
lemma eq_of_overlaps (h : es.Pairwise fun e f => e.overlaps f = false) :
    ∀ e ∈ es, ∀ f ∈ es, e.overlaps f = true → e = f := by
  intro e he f hf hover
  by_contra hne
  have hsymm : Std.Symm fun e f : Edit => e.overlaps f = false :=
    ⟨fun e f h => by rwa [Edit.overlaps, Range.overlaps_comm]⟩
  rw [h.forall he hf hne] at hover
  cases hover

/-- A plan depends on which handlers are chosen, not on how they are told. -/
lemma IsPlan.congr (hes : IsPlan root P es) (h : ∀ c, P c ↔ Q c) : IsPlan root Q es := by
  obtain rfl : P = Q := funext fun c => propext (h c)
  exact hes

/-! ## The tree after a fix -/

section Fix

variable {engine : FixEngine}

/-- The edits for findings about rethrowing handlers are the edits for the handlers that the
findings lead to. -/
lemma forall₂_editOf (hroot : root.IsShaped) (hengine : engine.provider? ruleId = some .rethrow)
    (hds : ∀ d ∈ ds, d.ruleId = ruleId) {xs : List (String × Edit)}
    (h : engine.edits? root ds = some (.ok xs)) :
    List.Forall₂ (fun d x => x.1 = ruleId ∧ ∃ c, d.range?.bind (handlerAround? root) = some c ∧
      EditOf root c x.2) ds xs := by
  have hforall := edits?_eq_ok_iff.mp h
  clear h
  induction hforall with
  | nil => exact .nil
  | @cons d x _ _ hdx _ ih =>
    obtain ⟨hx, r, hr, hedit⟩ := hdx
    have hd := hds d List.mem_cons_self
    refine .cons ⟨hx.trans hd, ?_⟩ (ih fun d hd => hds d (List.mem_cons_of_mem _ hd))
    rw [FixEngine.editAt, hd, hengine] at hedit
    split at hedit
    · obtain ⟨c, hc, hce⟩ := editOf_of_computeEdit hroot hedit
      exact ⟨c, by rw [hr, Option.bind_some, hc], hce⟩
    · cases hedit

/-- The edits of a list of findings belong to the handlers that the findings chose. -/
lemma editOf_iff_mem_chosen (h : root.IsShaped) {xs : List (String × Edit)}
    (hxs : List.Forall₂ (fun d x => x.1 = ruleId ∧
      ∃ c, d.range?.bind (handlerAround? root) = some c ∧ EditOf root c x.2) ds xs) :
    (∃ e ∈ distinct (xs.map Prod.snd), EditOf root c e) ↔ c ∈ chosen root ds := by
  obtain ⟨hright, hleft⟩ := exists_of_forall₂ hxs
  simp only [mem_distinct, List.mem_map, chosen, List.mem_filterMap]
  constructor
  · rintro ⟨_, ⟨x, hx, rfl⟩, hc⟩
    obtain ⟨d, hd, -, c', hc', hce⟩ := hright x hx
    rw [hc.unique h hce]
    exact ⟨d, hd, hc'⟩
  · rintro ⟨d, hd, hc⟩
    obtain ⟨x, hx, -, c', hc', hce⟩ := hleft d hd
    obtain rfl := Option.some.inj (hc.symm.trans hc')
    exact ⟨_, ⟨x, hx, rfl⟩, hce⟩

/-- Each of the edits for a list of findings belongs to a handler. -/
lemma exists_editOf {xs : List (String × Edit)}
    (hxs : List.Forall₂ (fun d x => x.1 = ruleId ∧
      ∃ c, d.range?.bind (handlerAround? root) = some c ∧ EditOf root c x.2) ds xs) :
    ∀ e ∈ distinct (xs.map Prod.snd), ∃ c, EditOf root c e := by
  intro e he
  obtain ⟨x, hx, rfl⟩ := List.mem_map.mp (mem_distinct.mp he)
  obtain ⟨d, -, -, c, -, hc⟩ := (exists_of_forall₂ hxs).1 x hx
  exact ⟨c, hc⟩

/-- The outcome for findings about rethrowing handlers: their edits, without repetitions, are
reconciled and applied. -/
lemma fixAll?_eq (hengine : engine.provider? ruleId = some .rethrow) {xs : List (String × Edit)}
    (hedits : engine.edits? root ds = some (.ok xs)) (hne : xs ≠ []) (hxs : ∀ x ∈ xs, x.1 = ruleId) :
    engine.fixAll? root ds =
      some (match (reconcile root (distinct (xs.map Prod.snd))).bind (applyEdits root) with
        | .ok (tree, reformat) => .applied tree reformat
        | .error reason => .unavailable reason) := by
  have hds : ds.isEmpty = false := by
    cases ds with
    | nil =>
      obtain rfl : xs = [] := by simpa [FixEngine.edits?, eq_comm] using hedits
      exact absurd rfl hne
    | cons d ds => rfl
  rw [FixEngine.fixAll?, hds, if_neg (by simp), hedits, Option.map_some]
  simp only [Except.bind]
  rw [applyRules_eq hne hxs, FixEngine.reconcileRule, hengine]
  rfl

/-- A fix that was applied is a batch of edits, one for each finding, that was reconciled and applied. -/
theorem exists_batch_of_fixAll? (h : root.IsShaped) (hengine : engine.provider? ruleId = some .rethrow)
    (hds : ∀ d ∈ ds, d.ruleId = ruleId) {ranges : List Range}
    (hfix : engine.fixAll? root ds = some (.applied tree ranges)) :
    ∃ xs es, ds ≠ [] ∧ engine.edits? root ds = some (.ok xs) ∧
      List.Forall₂ (fun d x => x.1 = ruleId ∧
        ∃ c, d.range?.bind (handlerAround? root) = some c ∧ EditOf root c x.2) ds xs ∧
      reconcile root (distinct (xs.map Prod.snd)) = .ok es ∧
      applyEdits root es = .ok (tree, ranges) := by
  obtain ⟨hempty, xs, hedits⟩ : ds ≠ [] ∧ ∃ xs, engine.edits? root ds = some (.ok xs) := by
    unfold FixEngine.fixAll? at hfix
    split at hfix
    · cases hfix
    · rename_i hempty
      obtain ⟨edits, hedits, hmatch⟩ := Option.map_eq_some_iff.mp hfix
      cases edits with
      | error reason => simp [Except.bind] at hmatch
      | ok xs => exact ⟨by simpa using hempty, xs, hedits⟩
  have hforall := forall₂_editOf h hengine hds hedits
  have hne : xs ≠ [] := by
    rintro rfl
    exact hempty (List.forall₂_nil_right_iff.mp hforall)
  rw [fixAll?_eq hengine hedits hne fun x hx =>
    ((exists_of_forall₂ hforall).1 x hx).elim fun d hd => hd.2.1] at hfix
  cases hrec : reconcile root (distinct (xs.map Prod.snd)) with
  | error reason => simp [hrec, Except.bind] at hfix
  | ok es =>
    refine ⟨xs, es, hempty, hedits, hforall, hrec, ?_⟩
    cases happly : applyEdits root es with
    | error reason => simp [hrec, Except.bind, happly] at hfix
    | ok result =>
      simp only [hrec, Except.bind, happly, Option.some.injEq, FixOutcome.applied.injEq] at hfix
      obtain ⟨rfl, rfl⟩ := hfix
      rfl

/-- The edits of a fix that was applied do not overlap, and the tree is their substitution. -/
theorem exists_reconcile_of_fixAll? (h : root.IsShaped)
    (hengine : engine.provider? ruleId = some .rethrow) (hds : ∀ d ∈ ds, d.ruleId = ruleId)
    {ranges : List Range} (hfix : engine.fixAll? root ds = some (.applied tree ranges)) :
    ∃ xs es, List.Forall₂ (fun d x => x.1 = ruleId ∧
        ∃ c, d.range?.bind (handlerAround? root) = some c ∧ EditOf root c x.2) ds xs ∧
      reconcile root (distinct (xs.map Prod.snd)) = .ok es ∧
      (es.Pairwise fun e f => e.overlaps f = false) ∧
      tree = root.subst (batchRule (TreeLint.sortEdits es)) := by
  obtain ⟨xs, es, -, -, hforall, hrec, happly⟩ := exists_batch_of_fixAll? h hengine hds hfix
  have hplan := isPlan_reconcile h (nodup_distinct _) (exists_editOf hforall) hrec
  rcases hplan.applyEdits_eq h with ⟨-, herror⟩ | ⟨hapart, ranges', hok⟩
  · cases herror.symm.trans happly
  · have htree := Except.ok.inj (hok.symm.trans happly)
    exact ⟨xs, es, hforall, hrec, hapart, (congrArg Prod.fst htree).symm⟩

/-- **The tree after a fix** is the tree after a plan for the handlers that the findings chose. Every
finding chose a handler, and none of these handlers has a filter. -/
theorem isOutcome_of_fixAll? (h : root.IsShaped)
    (hengine : engine.provider? ruleId = some .rethrow) (hds : ∀ d ∈ ds, d.ruleId = ruleId)
    {ranges : List Range} (hfix : engine.fixAll? root ds = some (.applied tree ranges)) :
    IsOutcome root (· ∈ chosen root ds) tree ∧
      (∀ d ∈ ds, ∃ c, d.range?.bind (handlerAround? root) = some c) ∧
      ∀ c ∈ chosen root ds, c.node.isFiltered = false := by
  obtain ⟨xs, es, hforall, hrec, hapart, rfl⟩ := exists_reconcile_of_fixAll? h hengine hds hfix
  have hplan := (isPlan_reconcile h (nodup_distinct _) (exists_editOf hforall) hrec).congr
    fun c => editOf_iff_mem_chosen h hforall
  refine ⟨.mk hplan.sortEdits (fun e he f hf => ?_) rfl, fun d hd => ?_, fun c hc => ?_⟩
  · exact eq_of_overlaps hapart e (mem_sortEdits.mp he) f (mem_sortEdits.mp hf)
  · obtain ⟨x, -, -, c, hc, -⟩ := (exists_of_forall₂ hforall).2 d hd
    exact ⟨c, hc⟩
  · obtain ⟨e, -, hce⟩ := (editOf_iff_mem_chosen h hforall).mpr hc
    exact hce.isFiltered

end Fix

end Rethrow

end TreeLint
