import TreeLint.Proofs.Bounded
import TreeLint.Proofs.Builtin
import TreeLint.Proofs.Outcome
import TreeLint.Proofs.Plan
import TreeLint.Proofs.Unit

/-!
# Fixes stay within bounds

On the tree of a text that is not too long for its offsets, no operation of a fix fails but the first
one: to read a span that ends behind the largest offset as a range. Every range that a fix computes
lies between two offsets of the tree, an edit inserts no more than it removes, so the tree does not
grow and what lies behind an edit moves to the left, no further than the edit.

## Main results

* `TreeLint.Bounded.reconcile_eq` — no operation fails when edits are reconciled.
* `TreeLint.Bounded.applyEdits_eq` — no operation fails when a plan is applied.
* `TreeLint.Bounded.fixAll_isSome_iff` — a fix has an outcome exactly if each span that it reads ends
  within the offsets.
-/

namespace TreeLint

/-- What a target is resolved to belongs to the tree. -/
lemma Node.has_of_resolve? {root : Node} {τ : Target} {c : Cursor} (h : τ.resolve? root = some c) :
    root.Has c := by
  obtain ⟨o, ho, hc⟩ := Option.bind_eq_some_iff.mp h
  have hmem := (List.takeWhile_sublist _).subset (List.mem_of_find?_eq_some hc)
  exact Relation.ReflTransGen.trans (has_of_find? ho).1 (Cursor.mem_cursors.mp hmem)

namespace Bounded

variable {root : Node} {c t : Cursor} {e run : Edit} {es : List Edit} {r : Range}

/-! ## Runs over lists -/

/-- Steps that do not fail are collected as in the library. -/
lemma collect_eq {α β : Type} {f : α → Option (Except FixUnavailable β)}
    {g : α → Except FixUnavailable β} {as : List α} (h : ∀ a ∈ as, f a = some (g a)) :
    collect f as = some (as.mapM g) := by
  induction as with
  | nil => rfl
  | cons a as ih =>
    rw [collect, h a List.mem_cons_self, ih fun b hb => h b (List.mem_cons_of_mem _ hb),
      List.mapM_cons]
    cases g a with
    | error reason => rfl
    | ok b => cases as.mapM g <;> rfl

/-! ## Ranges that only grow -/

/-- A range is widened to the left, never narrowed. -/
lemma startingAt_eq {start : Option Nat} (h : ∀ n ∈ start, n ≤ r.start) :
    startingAt start r = some (Rethrow.widenTo start r) := by
  cases start with
  | none => rfl
  | some n =>
    have hmin : (r.extendLeft n).start = n := Nat.min_eq_left (h n rfl)
    have hwiden := ofBounds?_eq (r.extendLeft n)
    rwa [hmin] at hwiden

/-- A range that begins no later than before can be built. -/
lemma startingAt_min (start : Option Nat) (r : Range) :
    startingAt (start.map (min · r.start)) r = some (Rethrow.widenTo start r) := by
  cases start with
  | none => rfl
  | some n => exact ofBounds?_eq (r.extendLeft n)

/-- A run can always be merged with those behind it. -/
lemma mergeFrom_eq (run : Edit) (es : List Edit) :
    mergeFrom run es = some (Rethrow.mergeFrom run es) := by
  induction es generalizing run with
  | nil => rfl
  | cons e es ih =>
    rw [mergeFrom, Rethrow.mergeFrom]
    split
    · rw [cover_eq, Option.bind_eq_bind, Option.bind_some, ih]
    · rw [ih, Option.map_some]

/-- Merging runs does not fail. -/
lemma mergeRuns_eq (es : List Edit) : mergeRuns es = some (Rethrow.mergeRuns es) := by
  cases es with
  | nil => rfl
  | cons e es => exact mergeFrom_eq e es

/-! ## The range of a node with its trivia -/

section Size

variable (hsize : root.length ≤ maxOffset)

include hsize

/-- No node of a tree stops behind the largest offset, if the tree does not. -/
lemma stop_le (hc : root.Has c) : c.stop ≤ maxOffset := by
  have hbounds := Cursor.Below.bounds hc
  simp only [Cursor.stop, Node.cursor] at hbounds
  exact hbounds.2.trans (by omega)

/-- The trivia of a node stand in its parent. -/
theorem rangeWithTrivia_eq (ht : root.Has t) (hc : t.IsChild c) :
    rangeWithTrivia c = some c.rangeWithTrivia := by
  obtain ⟨near, hbefore⟩ := c.exists_before_eq
  obtain ⟨far, hafter⟩ := c.exists_after_eq
  have hstart := hc.start_eq
  have hstop := hc.stop_eq
  have hle := stop_le hsize ht
  rw [hbefore] at hstart
  rw [hafter] at hstop
  simp only [Element.lengthList_append, Element.lengthList_reverse, Element.lengthList_map_token]
    at hstart hstop
  rw [rangeWithTrivia, sub_eq (by simp only [Cursor.range_start]; omega),
    add_eq (by simp only [Cursor.range_stop]; omega)]
  exact ofBounds?_eq c.rangeWithTrivia

/-- The start of the blanks and line ends before a child node can be computed. -/
lemma layoutStart_eq (ht : root.Has t) (hc : t.IsChild c) :
    layoutStart c = some (Rethrow.layoutStart? c) := by
  obtain ⟨near, hbefore⟩ := Rethrow.exists_before_eq_layout c
  have hstart := hc.start_eq
  rw [hbefore] at hstart
  simp only [Element.lengthList_append] at hstart
  have hle : Element.lengthList (Rethrow.layoutBefore c) ≤ c.rangeWithTrivia.start := by
    rw [Cursor.rangeWithTrivia_start]
    omega
  unfold layoutStart Rethrow.layoutStart?
  split
  · rfl
  · rw [rangeWithTrivia_eq hsize ht hc, Option.bind_eq_bind, Option.bind_some, sub_eq hle]
    rfl

/-! ## The edits for handlers -/

/-- **The removal of a handler** can be computed in a tree that is not too large. -/
theorem removal_eq (ht : root.Has t) (hc : t.IsChild c) :
    removal c = some (Rethrow.removal c) := by
  have hle : ∀ n ∈ Rethrow.layoutStart? c, n ≤ c.rangeWithTrivia.start := by
    intro n hn
    unfold Rethrow.layoutStart? at hn
    split at hn
    · cases hn
    · obtain rfl := Option.some.inj hn
      exact Nat.sub_le ..
  rw [removal, Rethrow.removal, rangeWithTrivia_eq hsize ht hc, layoutStart_eq hsize ht hc]
  simp only [Option.bind_eq_bind, Option.bind_some, startingAt_eq hle]
  split <;> rfl

/-- **The edit for a range** can be computed in a tree that is not too large. -/
theorem computeEdit_eq (r : Range) : computeEdit root r = some (Rethrow.computeEdit root r) := by
  unfold computeEdit Rethrow.computeEdit
  cases hfind : root.find? r with
  | none => rfl
  | some node =>
    dsimp only
    cases hhandler : node.ancestors.find? fun c => c.kind = .catchClause && c.tryStatement?.isSome with
    | none => rfl
    | some handler =>
      dsimp only
      split
      · rfl
      · cases ht : handler.tryStatement? with
        | none => rfl
        | some t =>
          -- the handler belongs to the tree, and so does its guarded block
          have hhas := (Node.has_of_find? hfind).1.of_mem_ancestors
            (List.mem_of_find?_eq_some hhandler)
          obtain ⟨hroot, hchild⟩ := hhas.parent (Option.eq_some_of_filter_eq_some ht)
          rw [removal_eq hsize hroot hchild]
          dsimp only
          split <;> rfl

/-- A run can be widened to the blanks and line ends before its first handler. -/
lemma widen_eq (ht : root.Has t) (last : Range) (run : Edit) :
    widen t.handlers last run = some (Rethrow.widen t.handlers last run) := by
  unfold widen Rethrow.widen
  split
  · cases hfirst : t.handlers.find? fun c => c.target = run.target with
    | none => rfl
    | some first =>
      have hchild := (Cursor.mem_handlers.mp (List.mem_of_find?_eq_some hfirst)).1
      simp only [layoutStart_eq hsize ht hchild, startingAt_min, Option.bind_eq_bind,
        Option.bind_some]
      rfl
  · rfl

/-- The removals from one guarded block can be merged. -/
lemma mergeRemovals_eq (ht : root.Has t) (removals : List Edit) :
    mergeRemovals t removals = some (Rethrow.mergeRemovals t removals) := by
  unfold mergeRemovals Rethrow.mergeRemovals
  rw [mergeRuns_eq, Option.bind_eq_bind, Option.bind_some]
  cases t.handlers.getLast? with
  | none => rfl
  | some last =>
    dsimp only
    rw [mapM_eq fun run _ => widen_eq hsize ht last.range run]
    split <;> rfl

/-- The removals from one guarded block can be made to fit together. -/
lemma reconcileGroup_eq (target : Target) (removals : List Edit) :
    reconcileGroup root target removals = some (Rethrow.reconcileGroup root target removals) := by
  unfold reconcileGroup Rethrow.reconcileGroup
  cases ht : target.resolve? root with
  | none => rfl
  | some t =>
    dsimp only
    rw [mergeRemovals_eq hsize (Node.has_of_resolve? ht)]
    split <;> rfl

/-- **To reconcile edits** fails nowhere, whatever the edits are. -/
theorem reconcile_eq (edits : List Edit) :
    reconcile root edits = some (Rethrow.reconcile root edits) := by
  unfold reconcile Rethrow.reconcile
  dsimp only
  rw [collect_eq fun g _ => reconcileGroup_eq hsize g.1 (g.2.map Prod.snd), Option.map_some]
  cases (groupBy Prod.fst (edits.filterMap fun e =>
    (Rethrow.owner? root e).map fun c => (c.target, e))).mapM
      fun g => Rethrow.reconcileGroup root g.1 (g.2.map Prod.snd) <;> rfl

end Size

/-! ## The tree does not grow -/

section Batch

variable {P : Cursor → Prop}

/-- What stands between the braces of a body is no longer than the guarded block. -/
lemma length_body_le {b : Node} (hb : t.node.child? .block = some b) :
    Element.lengthList (trimLayout (Rethrow.body b)) ≤ t.node.length := by
  obtain ⟨d, hd, rfl, -⟩ := Cursor.exists_of_child? hb
  have htrim : (trimLayout (Rethrow.body d.node)).Sublist (Rethrow.body d.node) := by
    have hdrop := (List.dropWhile_sublist (l := ((Rethrow.body d.node).dropWhile
      Element.isLayout).reverse) Element.isLayout).reverse
    rw [List.reverse_reverse] at hdrop
    exact hdrop.trans (List.dropWhile_sublist _)
  have hbody : (Rethrow.body d.node).Sublist d.node.children :=
    (List.takeWhile_sublist _).trans ((List.drop_sublist _ _).trans (List.dropWhile_sublist _))
  have hle := Element.lengthList_le_of_sublist (htrim.trans hbody)
  have hd := Element.length_le_of_mem (hd.children_eq ▸ List.mem_append_right _ List.mem_cons_self)
  exact hle.trans hd

/-- An edit of a plan inserts no more than it removes. -/
lemma insertedLength_le (he : Rethrow.IsFix P t e) : e.insertedLength ≤ e.removed.length := by
  cases he with
  | flat _ hb heq =>
    subst heq
    simpa [Edit.insertedLength, Edit.replacement, Operation.elements, Cursor.target, Cursor.range]
      using length_body_le hb
  | run _ _ hop _ => simp [Edit.insertedLength, hop, Operation.elements]

/-- A substitution under which no element grows makes a list of elements no longer. -/
lemma lengthList_substList_le {rule : Rule} {start : Nat} {cs : List Element}
    (h : ∀ x ∈ Element.place start cs,
      Element.lengthList (x.item.subst rule x.start) ≤ x.item.length) :
    Element.lengthList (Element.substList rule start cs) ≤ Element.lengthList cs := by
  induction cs generalizing start with
  | nil => exact Nat.le_refl _
  | cons e es ih =>
    have hhead : Element.lengthList (e.subst rule start) ≤ e.length :=
      h ⟨e, start⟩ List.mem_cons_self
    have htail := ih fun x hx => h x (List.mem_cons_of_mem _ hx)
    simp only [Element.substList_cons, Element.lengthList_append, Element.lengthList_cons]
    omega

/-- **The tree does not grow** if edits of guarded blocks are applied. -/
theorem length_subst_le (h : root.IsShaped)
    (hes : ∀ e ∈ es, ∃ t, root.Has t ∧ t.kind = .tryStatement ∧ Rethrow.IsFix P t e) :
    (root.subst (batchRule es)).length ≤ root.length := by
  refine lengthList_substList_le fun x hx => ?_
  refine Rule.subst_induction
    (motive := fun _ x ds => Element.lengthList ds ≤ x.item.length) ?replaced ?token ?node
    (Rule.isLive_cursor _ root) hx
  case replaced =>
    intro p x ds hp hx hr
    rcases Rethrow.replaced_of_fixes h hes hp hx hr with
      ⟨-, -, -, rfl, -⟩ | ⟨t, b, -, -, -, hb, rfl, rfl⟩
    · exact Nat.zero_le _
    · exact length_body_le hb
  case token =>
    intros
    exact Nat.le_refl _
  case node =>
    intro p c _ _ _ ih
    simpa [Node.toElement] using lengthList_substList_le ih

/-! ## Batches -/

/-- What is removed lies in the tree. -/
lemma removed_stop_le {p : Cursor} (h : e.FitsAt root p) : e.removed.stop ≤ root.length := by
  have hin := Range.contains_iff.mp h.contains_removed
  have hbounds := Cursor.Below.bounds h.has
  simp only [Cursor.range_stop, Cursor.stop, Node.cursor] at hin hbounds
  omega

/-- The number of inserted bytes can be added up if it is an offset. -/
lemma insertedLength_eq (h : e.insertedLength ≤ maxOffset) :
    insertedLength e = some e.insertedLength := by
  have hfold : ∀ (n : Nat) (ds : List Element), n + Element.lengthList ds ≤ maxOffset →
      (ds.map Element.length).foldlM add n = some (n + Element.lengthList ds) := by
    intro n ds hds
    induction ds generalizing n with
    | nil => rfl
    | cons d ds ih =>
      rw [Element.lengthList_cons, ← Nat.add_assoc] at hds
      rw [List.map_cons, List.foldlM_cons, add_eq (by omega), Option.bind_eq_bind, Option.bind_some,
        ih _ hds, Element.lengthList_cons, Nat.add_assoc]
  rw [insertedLength, hfold 0 _ (by rw [Nat.zero_add]; exact h), Nat.zero_add]
  rfl

/-- The range of what an edit inserts lies in the range of what it removes. -/
lemma insertedRange_eq (hins : e.insertedLength ≤ e.removed.length)
    (hstop : e.removed.stop ≤ maxOffset) : insertedRange e = some e.insertedRange? ∧
      ∀ r ∈ e.insertedRange?, r.start = e.removed.start ∧ r.stop ≤ e.removed.stop := by
  have hle := e.removed.start_le_stop
  rw [Range.length] at hins
  unfold insertedRange Edit.insertedRange?
  split
  · exact ⟨rfl, fun r hr => by cases hr⟩
  · rw [insertedLength_eq (by omega), Option.bind_eq_bind, Option.bind_some,
      ofLength_eq (by omega)]
    refine ⟨rfl, fun r hr => ?_⟩
    obtain rfl := Option.some.inj hr
    exact ⟨rfl, by simp only [Range.ofLength]; omega⟩

/-- What lies behind an edit moves to the left, and not in front of the edit. -/
lemma shift_eq (hins : e.insertedLength ≤ e.removed.length) (hr : e.removed.stop ≤ r.start)
    (hstop : r.stop ≤ maxOffset) : shift e r = some (e.shift r) ∧
      e.removed.start ≤ (e.shift r).start ∧ (e.shift r).stop ≤ r.stop := by
  have hle := e.removed.start_le_stop
  have hrle := r.start_le_stop
  have hremoved : sub e.removed.stop e.removed.start = some e.removed.length := sub_eq hle
  simp only [Range.length] at hins hremoved ⊢
  rw [shift, hremoved, insertedLength_eq (by omega), Edit.shift, Range.length]
  simp only [Option.bind_eq_bind, Option.bind_some]
  split
  · rw [sub_eq (by omega), Option.bind_some, moveRight_eq (by omega)]
    exact ⟨rfl, by simp only [Range.shiftRight]; omega, by simp only [Range.shiftRight]; omega⟩
  · rw [sub_eq hins, Option.bind_some, moveLeft_eq (by omega)]
    exact ⟨rfl, by simp only [Range.shiftLeft]; omega, by simp only [Range.shiftLeft]; omega⟩

/-- An edit is applied unless the tree becomes too long. -/
lemma apply_eq {later tree : Node} (h : e.apply later = .ok tree) (hlen : tree.length ≤ maxOffset) :
    apply e later = some (.ok tree) := by
  unfold Edit.apply at h
  unfold apply
  cases hparent : (e.target.resolve? later).bind Cursor.parent? with
  | none => simp [hparent] at h
  | some parent =>
    rw [hparent] at h
    dsimp only at h ⊢
    rw [splice_eq, Option.bind_some]
    revert h
    cases TreeLint.splice _ _ parent.elements with
    | none => intro h; cases h
    | some children =>
      intro h
      obtain rfl := Except.ok.inj h
      exact if_pos hlen

/-- **Edits of guarded blocks, in order**, are applied from behind. What they put into the tree lies
in it behind the beginning of the first of them. -/
theorem applySorted_eq (h : root.IsShaped) (hsize : root.length ≤ maxOffset)
    (hes : ∀ e ∈ es, ∃ t, root.Has t ∧ t.kind = .tryStatement ∧ Rethrow.IsFix P t e)
    (hsorted : es.Pairwise fun e f => e.removed.stop ≤ f.removed.start) :
    ∃ ranges, TreeLint.applySorted root es = .ok (root.subst (batchRule es), ranges) ∧
      applySorted root es = some (.ok (root.subst (batchRule es), ranges)) ∧
      ∀ r ∈ ranges, (∃ f ∈ es, f.removed.start ≤ r.start) ∧ r.stop ≤ root.length := by
  induction es with
  | nil =>
    obtain ⟨ranges, hok⟩ : ∃ ranges,
        TreeLint.applySorted root [] = .ok (root.subst (batchRule []), ranges) :=
      TreeLint.applySorted_eq h.solid (by simp) (by simp) .nil
    have hroot : root = root.subst (batchRule []) := congrArg Prod.fst (Except.ok.inj hok)
    rw [← hroot]
    exact ⟨[], rfl, rfl, by simp⟩
  | cons e es ih =>
    obtain ⟨hfirst, hrest⟩ := List.pairwise_cons.mp hsorted
    have htail := fun f hf => hes f (List.mem_cons_of_mem _ hf)
    obtain ⟨ranges, hlater, hbounded, hranges⟩ := ih htail hrest
    obtain ⟨t, ht, hk, hfix⟩ := hes e List.mem_cons_self
    obtain ⟨⟨p, hfits⟩, -, -⟩ := hfix.spec h ht hk
    have hspec := Rethrow.spec_of_fixes h htail
    have happly := hfits.apply_eq h.solid hfirst
      (batchRule_keeps h.solid (fun f hf => (hspec f hf).1) fun f hf => (hspec f hf).2.1)
    have hbound := apply_eq happly ((length_subst_le h hes).trans hsize)
    have hins := insertedLength_le hfix
    have hstop := removed_stop_le hfits
    obtain ⟨hinserted, hin⟩ := insertedRange_eq hins (hstop.trans hsize)
    -- what later edits put into the tree lies behind this one
    have hshift : ∀ r ∈ ranges, shift e r = some (e.shift r) ∧
        e.removed.start ≤ (e.shift r).start ∧ (e.shift r).stop ≤ r.stop := by
      intro r hr
      obtain ⟨⟨f, hf, hstart⟩, hle⟩ := hranges r hr
      exact shift_eq hins ((hfirst f hf).trans hstart) (hle.trans hsize)
    refine ⟨e.insertedRange?.toList ++ ranges.map e.shift, ?_, ?_, fun r hr => ?_⟩
    · rw [TreeLint.applySorted, hlater]
      simp only [bind, Except.bind, happly]
      rfl
    · rw [applySorted, hbounded, Option.bind_some]
      simp only [hbound, Option.bind_some, hinserted, mapM_eq fun r hr => (hshift r hr).1,
        Option.bind_eq_bind, Option.pure_def]
    · rcases List.mem_append.mp hr with hr | hr
      · obtain ⟨hstart, hle⟩ := hin r (Option.mem_toList.mp hr)
        exact ⟨⟨e, List.mem_cons_self, hstart.ge⟩, hle.trans hstop⟩
      · obtain ⟨s, hs, rfl⟩ := List.mem_map.mp hr
        obtain ⟨-, hstart, hle⟩ := hshift s hs
        exact ⟨⟨e, List.mem_cons_self, hstart⟩, hle.trans (hranges s hs).2⟩

/-- **To apply a plan** fails nowhere. -/
theorem applyEdits_eq (h : root.IsShaped) (hsize : root.length ≤ maxOffset)
    (hes : Rethrow.IsPlan root P es) :
    applyEdits root es = some (TreeLint.applyEdits root es) := by
  rw [applyEdits, TreeLint.applyEdits]
  split
  · rfl
  · rename_i hno
    have hpos : ∀ e ∈ sortEdits es, e.removed.start < e.removed.stop := fun e he =>
      (Rethrow.spec_of_fixes h hes.sortEdits.fixes e he).2.2
    have hsorted := (neighboursOverlap_eq_false_iff (pairwise_sortEdits es) hpos).mp
      (Bool.not_eq_true _ ▸ hno)
    obtain ⟨ranges, hok, hbounded, -⟩ := applySorted_eq h hsize hes.sortEdits.fixes hsorted
    rw [hbounded, hok]

end Batch

/-! ## Fixes -/

section Engine

variable {ds : List Diagnostic}

/-- The edit for a finding can be computed in a tree that is not too large. -/
lemma editAt_eq (hsize : root.length ≤ maxOffset) (ruleId : String) (r : Range) :
    editAt root ruleId r = some (FixEngine.builtin.editAt root ruleId r) := by
  rw [editAt, FixEngine.editAt, FixEngine.provider?_builtin]
  split
  · split
    · exact computeEdit_eq hsize r
    · rfl
  · rfl

/-- The edits for a list of findings are computed as in the library, in a tree that is not too large. -/
lemma edits_eq (hsize : root.length ≤ maxOffset) :
    edits root ds = FixEngine.builtin.edits? root ds := by
  induction ds with
  | nil => rfl
  | cons d ds ih =>
    have hrange : range d.span = d.range? := by
      rw [range, ofLength, add, Diagnostic.range?, Span.range?, Span.stop]
      split
      · exact ofBounds?_eq (.ofLength d.span.start d.span.length)
      · rfl
    rw [edits, FixEngine.edits?, hrange]
    cases d.range? with
    | none => rfl
    | some r =>
      cases hedit : FixEngine.builtin.editAt root d.ruleId r with
      | error reason => simp [editAt_eq hsize, hedit]
      | ok edit => simp [editAt_eq hsize, hedit, ih]

/-- Findings for which there are edits are about handlers that only rethrow. -/
lemma ruleId_of_edits? {xs : List (String × Edit)}
    (h : FixEngine.builtin.edits? root ds = some (.ok xs)) : ∀ d ∈ ds, d.ruleId = Rethrow.ruleId := by
  intro d hd
  obtain ⟨x, -, -, r, -, hedit⟩ := (exists_of_forall₂ (edits?_eq_ok_iff.mp h)).2 d hd
  rw [FixEngine.editAt, FixEngine.provider?_builtin] at hedit
  by_contra hne
  rw [if_neg hne] at hedit
  split at hedit <;> cases hedit

/-- The edits that the engine computes for a list of findings can be applied. -/
lemma applyRules_eq (h : root.IsShaped) (hsize : root.length ≤ maxOffset) {xs : List (String × Edit)}
    (hne : ds ≠ []) (hedits : FixEngine.builtin.edits? root ds = some (.ok xs)) :
    applyRules root xs = some (FixEngine.builtin.applyRules root xs) := by
  have hengine := FixEngine.provider?_builtin Rethrow.ruleId
  rw [if_pos rfl] at hengine
  have hforall := Rethrow.forall₂_editOf h hengine (ruleId_of_edits? hedits) hedits
  have hxs : ∀ x ∈ xs, x.1 = Rethrow.ruleId :=
    fun x hx => ((exists_of_forall₂ hforall).1 x hx).elim fun _ hd => hd.2.1
  have hxne : xs ≠ [] := by
    rintro rfl
    exact hne (List.forall₂_nil_right_iff.mp hforall)
  have hrule : reconcileRule root Rethrow.ruleId (xs.map Prod.snd) =
      some (Rethrow.reconcile root (distinct (xs.map Prod.snd))) := by
    rw [reconcileRule, if_pos rfl, reconcile_eq hsize]
  rw [TreeLint.applyRules_eq hxne hxs, FixEngine.reconcileRule, hengine, applyRules,
    groupBy_eq_singleton hxne hxs, collect, hrule]
  dsimp only [FixProvider.rethrow]
  cases hrec : Rethrow.reconcile root (distinct (xs.map Prod.snd)) with
  | error reason => rfl
  | ok es =>
    have hplan := Rethrow.isPlan_reconcile h (nodup_distinct _) (Rethrow.exists_editOf hforall) hrec
    simp only [collect, Option.bind_some, Option.map_some, Except.map, List.flatten_cons,
      List.flatten_nil, List.append_nil, applyEdits_eq h hsize hplan, Except.bind]

/-- **A fix of a tree within bounds** fails nowhere but at spans that stand for no range: where it has
an outcome in natural numbers, it has the same outcome in bounded arithmetic. -/
theorem fixAll_eq (h : root.IsShaped) (hsize : root.length ≤ maxOffset) :
    fixAll root ds = FixEngine.builtin.fixAll? root ds := by
  rw [fixAll, FixEngine.fixAll?, edits_eq hsize]
  by_cases hempty : ds.isEmpty = true
  · rw [if_pos hempty, if_pos hempty]
  · rw [if_neg hempty, if_neg hempty]
    cases hedits : FixEngine.builtin.edits? root ds with
    | none => rfl
    | some result =>
      cases result with
      | error reason => rfl
      | ok xs =>
        have happly := applyRules_eq h hsize (by simpa using hempty) hedits
        cases hresult : FixEngine.builtin.applyRules root xs with
        | error reason => simp [happly, hresult, Except.bind]
        | ok result => simp [happly, hresult, Except.bind]

/-- There is an answer for several findings unless one that is reached stands for no range. -/
lemma edits?_isSome_iff {engine : FixEngine} : (engine.edits? root ds).isSome = true ↔
    ∀ front d back, ds = front ++ d :: back →
      (∀ f ∈ front, ∃ r e, f.range? = some r ∧ engine.editAt root f.ruleId r = .ok e) →
      d.range?.isSome = true := by
  induction ds with
  | nil => simp [FixEngine.edits?]
  | cons d ds ih =>
    rw [FixEngine.edits?]
    cases hrange : d.range? with
    | none =>
      refine iff_of_false (by simp) fun hall => ?_
      have := hall [] d ds rfl (by simp)
      simp [hrange] at this
    | some r =>
      rw [Option.bind_some]
      cases hedit : engine.editAt root d.ruleId r with
      | error reason =>
        refine iff_of_true rfl fun front d' back hds hfront => ?_
        rcases List.append_eq_cons_iff.mp hds.symm with ⟨rfl, hd⟩ | ⟨front', rfl, -⟩
        · obtain ⟨rfl, -⟩ := List.cons.inj hd
          rw [hrange]
          rfl
        · obtain ⟨r', e, hr', he⟩ := hfront d List.mem_cons_self
          obtain rfl := Option.some.inj (hrange.symm.trans hr')
          cases hedit.symm.trans he
      | ok e =>
        dsimp only
        rw [Option.isSome_map, ih]
        constructor
        · intro hall front d' back hds hfront
          rcases List.append_eq_cons_iff.mp hds.symm with ⟨rfl, hd⟩ | ⟨front', rfl, hds'⟩
          · obtain ⟨rfl, -⟩ := List.cons.inj hd
            rw [hrange]
            rfl
          · exact hall front' d' back hds' fun f hf => hfront f (List.mem_cons_of_mem _ hf)
        · intro hall front d' back hds hfront
          refine hall (d :: front) d' back (by rw [hds]; rfl) fun f hf => ?_
          rcases List.mem_cons.mp hf with rfl | hf
          · exact ⟨r, e, hrange, hedit⟩
          · exact hfront f hf

/-- A fix gives an answer unless the span of a finding ends behind the largest offset, while all findings
before it have their edits. -/
lemma isSome_fixAll_iff (h : root.IsShaped) (hsize : root.length ≤ maxOffset) :
    (fixAll root ds).isSome = true ↔ ∀ front d back, ds = front ++ d :: back →
      (∀ f ∈ front, ∃ r e, f.range? = some r ∧
        FixEngine.builtin.editAt root f.ruleId r = .ok e) → d.span.stop ≤ maxOffset := by
  have hspan : ∀ d : Diagnostic, d.range?.isSome = true ↔ d.span.stop ≤ maxOffset := by
    intro d
    rw [Diagnostic.range?, Span.range?, apply_ite Option.isSome]
    simp
  simp only [← hspan, ← edits?_isSome_iff]
  rw [fixAll_eq h hsize, FixEngine.fixAll?]
  split
  · rename_i hempty
    obtain rfl := List.isEmpty_iff.mp hempty
    rfl
  · rw [Option.isSome_map]

variable {a : Analyzer} {source : String}

/-- **Fixes are total within bounds**: for a text that is not too long for its offsets, a fix by the
builtin engine in bounded arithmetic is the fix in natural numbers. For one finding it has an outcome
exactly if the span of the finding ends at an offset. For several it has one exactly if each span that
is read does; a span is read if there is an edit for each finding before it.

**Proof sketch.** Each operation on offsets, ranges and indices succeeds because what it computes lies
in the tree. For the application of edits this takes an invariant: what later edits have put into the
tree lies behind the first of them, and the tree has not grown. -/
theorem fixAll_isSome_iff (ha : Analyzer.builtin = .ok a)
    (hsize : source.utf8ByteSize ≤ maxOffset) :
    (∀ d, fix (parse source) d = a.engine.fix? (parse source) d ∧
      ((fix (parse source) d).isSome = true ↔ d.span.stop ≤ maxOffset)) ∧
    ∀ ds, fixAll (parse source) ds = a.engine.fixAll? (parse source) ds ∧
      ((fixAll (parse source) ds).isSome = true ↔ ∀ front d back, ds = front ++ d :: back →
        (∀ f ∈ front, ∃ r e, f.range? = some r ∧
          a.engine.editAt (parse source) f.ruleId r = .ok e) → d.span.stop ≤ maxOffset) := by
  have hroot := isShaped_parse source
  have hlength := (length_parse source).trans_le hsize
  obtain ⟨-, -, hengine⟩ := Analyzer.builtin_spec ha
  rw [hengine]
  refine ⟨fun d => ⟨fixAll_eq hroot hlength, ?_⟩,
    fun ds => ⟨fixAll_eq hroot hlength, isSome_fixAll_iff hroot hlength⟩⟩
  rw [fix, isSome_fixAll_iff hroot hlength]
  constructor
  · exact fun hall => hall [] d [] rfl (by simp)
  · intro hle front d' back hds hfront
    rcases List.append_eq_cons_iff.mp hds.symm with ⟨-, hd⟩ | ⟨front', rfl, hback⟩
    · obtain ⟨rfl, -⟩ := List.cons.inj hd
      exact hle
    · simp at hback

/-- A span that ends at the last offset, for which there is no fix, and the same span one offset
further on. -/
theorem fixAll_isSome_last : ∃ a, Analyzer.builtin = .ok a ∧ "a;".utf8ByteSize ≤ maxOffset ∧
    fix (parse "a;") ⟨"S2737", "", ⟨4294967294, 1⟩, .minor⟩ =
      a.engine.fix? (parse "a;") ⟨"S2737", "", ⟨4294967294, 1⟩, .minor⟩ ∧
    (fix (parse "a;") ⟨"S2737", "", ⟨4294967294, 1⟩, .minor⟩).isSome = true ∧
    (fix (parse "a;") ⟨"S2737", "", ⟨4294967295, 1⟩, .minor⟩).isSome = false := by
  obtain ⟨a, ha⟩ := Analyzer.exists_builtin
  have hsize : "a;".utf8ByteSize ≤ maxOffset := by decide
  have hall := (fixAll_isSome_iff ha hsize).1
  refine ⟨a, ha, hsize, (hall _).1, (hall _).2.mpr (by decide), ?_⟩
  rw [← Bool.not_eq_true, (hall _).2]
  decide

/-- A finding whose span ends behind the last offset has no outcome. -/
theorem fix_overflow : ∃ a, Analyzer.builtin = .ok a ∧
    fix (parse "a;") ⟨"S2737", "", ⟨4294967295, 1⟩, .minor⟩ = none ∧
    a.engine.fix? (parse "a;") ⟨"S2737", "", ⟨4294967295, 1⟩, .minor⟩ = none := by
  obtain ⟨a, ha⟩ := Analyzer.exists_builtin
  exact ⟨a, ha, rfl, rfl⟩

end Engine

end Bounded

end TreeLint
