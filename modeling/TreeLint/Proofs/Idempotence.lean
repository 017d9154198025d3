import TreeLint.Proofs.Progress

/-!
# Analysing a fixed tree again

All findings about handlers that only rethrow can be fixed as one change, and one would not expect any
on the fixed tree. There are some if a handler becomes superfluous by the fix itself: when a guarded
block that stands directly in the block of the handler gives way to its body, and this body is a
rethrow.

## Main definitions

* `TreeLint.Rethrow.superfluous` — the superfluous handlers of a tree.
* `TreeLint.Rethrow.leftStatements` — the statements that are left of a block.
* `TreeLint.Rethrow.IsHollow` — a handler of which only a rethrow is left.

## Main results

* `TreeLint.Rethrow.isSuperfluous_iff` — a handler and those behind it.
* `TreeLint.Rethrow.IsPlan.isRedundantHandler_pruned` — when a handler that is left is redundant.
* `TreeLint.Rethrow.analyze_fixed_iff` — nothing is reported on the fixed tree unless a handler is
  hollow.
* `TreeLint.Rethrow.analyze_fixed_ne` — a handler that becomes superfluous.
-/

namespace TreeLint

/-! ## The last handler -/

/-- The nodes behind a child node among its siblings. -/
lemma Cursor.filterMap_node?_after {path : List Frame} {k : Kind} {start offset : Nat}
    {before es : List Element} {front back : List Cursor} {c : Cursor}
    (h : childrenFrom path k start before offset es = front ++ c :: back) :
    c.after.filterMap Element.node? = back.map Cursor.node := by
  induction es generalizing before offset front with
  | nil => simp [childrenFrom] at h
  | cons e es ih =>
    cases e with
    | token u => exact ih h
    | node l ds =>
      cases front with
      | nil =>
        obtain ⟨rfl, rfl⟩ := List.cons.inj h
        exact (map_node_childrenFrom ..).symm
      | cons d front => exact ih (List.cons.inj h).2

namespace Rethrow

variable {root tree : Node} {removed : List Cursor} {es : List Edit} {b c t z : Cursor}
  {front back : List Cursor} {a : Analyzer}

/-- The handlers behind a handler. -/
lemma laterHandlers_eq (hs : t.handlers = front ++ c :: back) :
    laterHandlers c = back.map Cursor.node := by
  obtain ⟨xs, ys, hchildren, -, hys⟩ := List.filter_eq_append_iff.mp hs
  obtain ⟨ys, zs, rfl, -, -, rfl⟩ := List.filter_eq_cons_iff.mp hys
  rw [← List.append_assoc] at hchildren
  rw [laterHandlers, Cursor.filterMap_node?_after hchildren, List.filter_map]
  rfl

/-- A handler is superfluous if it and all handlers behind it are redundant. -/
theorem isSuperfluous_iff (hs : t.handlers = front ++ c :: back) :
    isSuperfluous c = true ↔ ∀ d ∈ c :: back, d.node.isRedundantHandler = true := by
  have hk : c.kind = .catchClause :=
    (Cursor.mem_handlers.mp (show c ∈ t.handlers by rw [hs]; simp)).2
  simp [isSuperfluous, hk, laterHandlers_eq hs]

/-- Something is reported on a shaped tree if the last handler of some guarded block is redundant. -/
theorem exists_reported_iff (h : root.IsShaped) (ha : Analyzer.builtin = .ok a) :
    (∃ f ∈ a.analyze root, f.ruleId = ruleId) ↔
      ∃ n ∈ root.nodes, n.kind = .tryStatement ∧
        ∃ m, n.handlers.getLast? = some m ∧ m.isRedundantHandler = true := by
  constructor
  · rintro ⟨f, hf, hid⟩
    obtain ⟨c, hc, hsuper, -⟩ := (Analyzer.mem_analyze_iff ha).mp ⟨hf, hid⟩
    have hk := (isRedundantHandler_of_isSuperfluous hsuper).1
    obtain ⟨t, ht, htc, htk⟩ := h.exists_try hc hk
    obtain ⟨front, back, hs⟩ := List.append_of_mem (Cursor.mem_handlers.mpr ⟨htc, hk⟩)
    have hnode : t.node ∈ root.nodes := by
      rw [← Node.map_node_cursors]
      exact List.mem_map_of_mem (Node.mem_cursors.mpr ht)
    obtain ⟨z, hz⟩ : ∃ z, (c :: back).getLast? = some z := ⟨_, List.getLast?_cons⟩
    refine ⟨t.node, hnode, htk, z.node, ?_,
      (isSuperfluous_iff hs).mp hsuper z (List.mem_of_getLast? hz)⟩
    rw [← t.map_node_handlers, hs, List.getLast?_map, List.getLast?_append, hz]
    rfl
  · rintro ⟨n, hn, hk, m, hm, hredundant⟩
    rw [← Node.map_node_cursors] at hn
    obtain ⟨t, ht, rfl⟩ := List.mem_map.mp hn
    rw [← t.map_node_handlers, List.getLast?_map] at hm
    obtain ⟨z, hz, rfl⟩ := Option.map_eq_some_iff.mp hm
    obtain ⟨front, hs⟩ := List.getLast?_eq_some_iff.mp hz
    have hsuper := (isSuperfluous_iff hs).mpr (by simpa using hredundant)
    have htz := (Cursor.mem_handlers.mp (List.mem_of_getLast? hz)).1
    obtain ⟨hd, hid⟩ := (Analyzer.mem_analyze_iff ha).mpr
      ⟨z, (Node.mem_cursors.mp ht).child htz, hsuper, rfl⟩
    exact ⟨_, hd, hid⟩

/-! ## Handlers that are left -/

/-- The statements that are left of a block: a guarded block that does not stand gives way to the
statements of its body, and the others are left without what is removed from them. -/
def leftStatements (removed : List Cursor) (b : Cursor) : List Node :=
  b.children.flatMap fun x =>
    if x.kind = .tryStatement ∧ stands removed x = false then
      ((x.node.child? .block).map Node.statements).getD []
    else if x.kind.isStatement then [pruned removed x] else []

/-- A handler of which only a rethrow is left. -/
structure IsHollow (removed : List Cursor) (z : Cursor) : Prop where
  /-- The handler has no filter. -/
  isFiltered : z.node.isFiltered = false
  /-- A bare rethrow is the only statement that is left of its block. -/
  rethrow : ∃ b s, z.child? .block = some b ∧ leftStatements removed b = [s] ∧
    s.kind = .throwStatement ∧ s.isBareRethrow = true

/-- What is left of a node that is neither a removed handler nor a guarded block that gives way to its
body. -/
lemma IsPlan.prune_of_kept (h : root.IsShaped) (hes : IsPlan root (· ∈ removed) es)
    (hc : root.Has c) (hkept : isKept removed c = true)
    (hstands : c.kind = .tryStatement → stands removed c = true) :
    c.node.toElement.prune (removed.map Cursor.target) c.start =
      [(pruned removed c).toElement] := by
  obtain ⟨above, hancestors⟩ := c.ancestors_eq_cons
  have hmem : c ∉ removed := by
    rw [isKept, hancestors, List.all_cons, Bool.and_eq_true] at hkept
    exact of_decide_eq_true hkept.1
  exact hes.prune_of_stays h hc hmem fun hk => ((stands_iff hkept).mp (hstands hk)).2

/-- What is left of a child of a node that is left and is no guarded block is left, too. -/
lemma IsPlan.isKept_child (hes : IsPlan root (· ∈ removed) es) (hkept : isKept removed c = true)
    (hk : c.kind ≠ .tryStatement) (hcx : c.IsChild z) : isKept removed z = true := by
  rw [isKept_of_isChild hcx, hkept, Bool.and_true, decide_eq_true_eq]
  intro hmem
  obtain ⟨t, -, htk, htz, -⟩ := hes.covers z hmem
  obtain rfl : t = c := by simpa [htz.parent?_eq] using hcx.parent?_eq
  exact hk htk

/-- The statements between the braces of a block are all its statements. -/
lemma filter_statements_body {block : Node} {l r : Token} {inner : List Element}
    (hcs : block.children = .token l :: (inner ++ [.token r])) (hl : l.kind = .lBrace)
    (hr : r.kind = .rBrace) (hinner : ∀ e ∈ inner, e.kind ≠ .lBrace ∧ e.kind ≠ .rBrace) :
    ((body block).filterMap Element.node?).filter (fun n => n.kind.isStatement) =
      block.statements := by
  have hl' : (Element.token l).node? = none := rfl
  have hr' : [Element.token r].filterMap Element.node? = [] := rfl
  rw [body_eq hcs hl hr hinner, Node.statements, Node.childNodes, hcs,
    List.filterMap_cons_none hl', List.filterMap_append, hr', List.append_nil]

/-- The statements that are left of a block are those of the block without the removed handlers. -/
lemma IsPlan.statements_pruned (h : root.IsShaped) (hes : IsPlan root (· ∈ removed) es)
    (hapart : ∀ e ∈ es, ∀ f ∈ es, e.overlaps f = true → e = f) (hb : root.Has b)
    (hk : b.kind ≠ .tryStatement) (hkept : isKept removed b = true) :
    (pruned removed b).statements = leftStatements removed b := by
  rw [Node.statements, childNodes_pruned, List.filter_flatMap, leftStatements]
  refine List.flatMap_congr fun x hx => ?_
  have hbx := Cursor.mem_children.mp hx
  have hx := hb.child hbx
  have hxkept := hes.isKept_child hkept hk hbx
  by_cases hflat : x.kind = .tryStatement ∧ stands removed x = false
  · obtain ⟨hxk, hnot⟩ := hflat
    have hpoint : IsPointless (· ∈ removed) x := by
      by_contra hcon
      rw [(stands_iff hxkept).mpr ⟨hxk, hcon⟩] at hnot
      cases hnot
    obtain ⟨block, hblock, -⟩ := hes.exists_flat hpoint
    obtain ⟨l, inner, r, hcs, hl, hr, hinner⟩ := h.exists_braces hx hxk hpoint.handlers hblock
    have hstatements := filter_statements_body hcs hl hr hinner
    rw [hes.prune_of_pointless h hapart hx hxk hpoint hblock, if_pos ⟨hxk, hnot⟩, hblock, hstatements]
    rfl
  · have hnode : Element.node? (pruned removed x).toElement = some (pruned removed x) := rfl
    have hkind : (pruned removed x).kind = x.kind := rfl
    rw [hes.prune_of_kept h hx hxkept fun hxk => by simpa [hxk] using hflat, if_neg hflat,
      List.filterMap_cons_some hnode]
    cases hs : x.kind.isStatement <;> simp [hkind, hs]

/-- The child nodes of a handler that is left are its own, without what is removed from them. -/
lemma IsPlan.childNodes_pruned_handler (h : root.IsShaped) (hes : IsPlan root (· ∈ removed) es)
    (hz : root.Has z) (hk : z.kind = .catchClause) (hkept : isKept removed z = true) :
    (pruned removed z).childNodes = z.children.map (pruned removed) := by
  have hne : z.kind ≠ .tryStatement := by simp [hk]
  rw [childNodes_pruned]
  refine (List.flatMap_congr fun x hx => ?_).trans List.map_eq_flatMap.symm
  have hzx := Cursor.mem_children.mp hx
  rw [hes.prune_of_kept h (hz.child hzx) (hes.isKept_child hkept hne hzx) fun hxk => ?_]
  · rfl
  · -- the slots of a handler have no room for a guarded block
    have hslots := (h.shaped hz (h.ne_cursor (by simp [hk]))).slots _ (by rw [hk]; rfl)
    have hmem := hslots.mem _ (Element.mem_kinds hzx.mem_children rfl)
    rw [show x.node.toElement.kind = .tryStatement from hxk] at hmem
    simp at hmem

/-- A handler that is kept has the child node of a kind that it had, pruned. -/
lemma IsPlan.child?_pruned_handler (h : root.IsShaped) (hes : IsPlan root (· ∈ removed) es)
    (hz : root.Has z) (hk : z.kind = .catchClause) (hkept : isKept removed z = true) (k : Kind) :
    (pruned removed z).child? k = (z.child? k).map (pruned removed) := by
  rw [Node.child?, hes.childNodes_pruned_handler h hz hk hkept, List.find?_map]
  rfl

/-- A handler that is left has a filter if it had one. -/
lemma IsPlan.isFiltered_pruned (h : root.IsShaped) (hes : IsPlan root (· ∈ removed) es)
    (hz : root.Has z) (hk : z.kind = .catchClause) (hkept : isKept removed z = true) :
    (pruned removed z).isFiltered = z.node.isFiltered := by
  rw [Node.isFiltered, hes.child?_pruned_handler h hz hk hkept, Option.isSome_map, Node.isFiltered,
    Node.child?, ← z.map_node_children, List.find?_map, Option.isSome_map]
  rfl

/-- **A handler that is left** is redundant exactly if it is hollow. -/
theorem IsPlan.isRedundantHandler_pruned (h : root.IsShaped)
    (hes : IsPlan root (· ∈ removed) es)
    (hapart : ∀ e ∈ es, ∀ f ∈ es, e.overlaps f = true → e = f) (hz : root.Has z)
    (hk : z.kind = .catchClause) (hkept : isKept removed z = true) :
    (pruned removed z).isRedundantHandler = true ↔ IsHollow removed z := by
  rw [Node.isRedundantHandler, Bool.and_eq_true, Bool.not_eq_true',
    hes.isFiltered_pruned h hz hk hkept, Node.onlyRethrows, hes.child?_pruned_handler h hz hk hkept]
  cases hblock : z.child? .block with
  | none =>
    refine iff_of_false (by simp) fun hhollow => ?_
    obtain ⟨b, -, hb, -⟩ := hhollow.rethrow
    rw [hblock] at hb
    cases hb
  | some b =>
    have hzb : z.IsChild b := Cursor.mem_children.mp (List.mem_of_find?_eq_some hblock)
    have hbk : b.kind = .block := by simpa using List.find?_some hblock
    have hbne : b.kind ≠ .tryStatement := by simp [hbk]
    have hne : z.kind ≠ .tryStatement := by simp [hk]
    have hstatements := hes.statements_pruned h hapart (hz.child hzb) hbne
      (hes.isKept_child hkept hne hzb)
    rw [Option.map_some, Option.map_some, hstatements]
    constructor
    · rintro ⟨hfilter, honly⟩
      refine ⟨hfilter, b, ?_⟩
      split at honly
      · rename_i s hs
        simp only [Bool.and_eq_true, decide_eq_true_eq] at honly
        exact ⟨s, hblock, Option.some.inj hs, honly⟩
      · cases honly
    · rintro ⟨hfilter, b', s, hb', hs, hsk, hbare⟩
      obtain rfl := Option.some.inj (hblock.symm.trans hb')
      refine ⟨hfilter, ?_⟩
      rw [hs]
      simp [hsk, hbare]

/-- **What is reported on a fixed tree** are handlers of guarded blocks that stand, of which the last
that is left is hollow. -/
theorem IsOutcome.exists_reported_iff (h : root.IsShaped) (ha : Analyzer.builtin = .ok a)
    (hout : IsOutcome root (· ∈ removed) tree) :
    (∃ f ∈ a.analyze tree, f.ruleId = ruleId) ↔
      ∃ t, root.Has t ∧ stands removed t = true ∧
        ∃ z, (remaining removed t).getLast? = some z ∧ IsHollow removed z := by
  have hlast : ∀ {α : Type} (f : α → Node) (as : List α),
      (∃ m, (as.map f).getLast? = some m ∧ m.isRedundantHandler = true) ↔
        ∃ x, as.getLast? = some x ∧ (f x).isRedundantHandler = true := by
    intro α f as
    simp [List.getLast?_map, Option.map_eq_some_iff]
  have hmap : ∀ {α : Type} (f : α → List Node) (as : List α),
      (∃ hs ∈ as.map f, ∃ m, hs.getLast? = some m ∧ m.isRedundantHandler = true) ↔
        ∃ x ∈ as, ∃ m, (f x).getLast? = some m ∧ m.isRedundantHandler = true := by
    intro α f as
    simp only [List.mem_map, exists_exists_and_eq_and]
  have hlayout : ∀ k u, u.kind.isLayout = true → isAnyTrivia k u = true :=
    fun _ _ hu => isTrivia_of_isLayout hu
  have hhandlers := hout.handlers_eq h hlayout fun _ hu => hu
  -- the handlers of each guarded block, trivia aside
  have hafter : (∃ n ∈ tree.nodes, n.kind = .tryStatement ∧
      ∃ m, n.handlers.getLast? = some m ∧ m.isRedundantHandler = true) ↔
        ∃ hs ∈ (tree.nodes.filter fun n => n.kind = .tryStatement).map
            (fun n => n.handlers.map (Node.erase isAnyTrivia)),
          ∃ m, hs.getLast? = some m ∧ m.isRedundantHandler = true := by
    simp only [hmap, hlast, Node.isRedundantHandler_erase, List.mem_filter, decide_eq_true_eq,
      and_assoc]
  rw [Rethrow.exists_reported_iff (hout.isShaped h) ha, hafter, hhandlers, hmap]
  obtain ⟨hes, hapart, -⟩ := hout
  simp only [hlast, Node.isRedundantHandler_erase, List.mem_filter, Node.mem_cursors, and_assoc]
  refine exists_congr fun t => and_congr_right fun ht => and_congr_right fun _ =>
    exists_congr fun z => and_congr_right fun hz => ?_
  obtain ⟨hmem, hkept⟩ := List.mem_filter.mp (List.mem_of_getLast? hz)
  obtain ⟨htz, hk⟩ := Cursor.mem_handlers.mp hmem
  exact hes.isRedundantHandler_pruned h hapart (ht.child htz) hk hkept

/-! ## All findings at once -/

/-- The superfluous handlers of a tree. -/
def superfluous (root : Node) : List Cursor := root.cursors.filter isSuperfluous

/-- The superfluous handlers of a tree are its nodes that are superfluous. -/
lemma mem_superfluous : c ∈ superfluous root ↔ root.Has c ∧ isSuperfluous c = true := by
  rw [superfluous, List.mem_filter, Node.mem_cursors]

/-- The last handler that is left, when all superfluous ones are removed, was not redundant. -/
lemma isRedundantHandler_of_getLast? (ht : root.Has t)
    (hkept : isKept (superfluous root) t = true)
    (hz : (remaining (superfluous root) t).getLast? = some z) : z.node.isRedundantHandler = false := by
  obtain ⟨front, hlast⟩ := List.getLast?_eq_some_iff.mp hz
  obtain ⟨xs, ys, hhandlers, -, hys⟩ := List.filter_eq_append_iff.mp hlast
  obtain ⟨ys, back, rfl, -, hzkept, hback⟩ := List.filter_eq_cons_iff.mp hys
  rw [← List.append_assoc] at hhandlers
  have hmem : ∀ d ∈ z :: back, d ∈ t.handlers := fun d hd => by
    rw [hhandlers]
    exact List.mem_append_right _ hd
  have hiff := isSuperfluous_iff hhandlers
  have hnot : isSuperfluous z = false := by
    rw [isKept_of_isChild (Cursor.mem_handlers.mp (hmem z List.mem_cons_self)).1, hkept,
      Bool.and_true, decide_eq_true_eq, mem_superfluous] at hzkept
    have hhas := ht.child (Cursor.mem_handlers.mp (hmem z List.mem_cons_self)).1
    exact Bool.eq_false_iff.mpr fun hsuper => hzkept ⟨hhas, hsuper⟩
  by_contra hcon
  rw [Bool.not_eq_false] at hcon
  rw [Bool.eq_false_iff, ne_eq, hiff] at hnot
  refine hnot (List.forall_mem_cons.mpr ⟨hcon, fun d hd => ?_⟩)
  -- what stood behind it has been removed as superfluous
  have hdnot : isKept (superfluous root) d = false := by
    have := List.filter_eq_nil_iff.mp hback d hd
    simpa using this
  rw [isKept_of_isChild (Cursor.mem_handlers.mp (hmem d (List.mem_cons_of_mem _ hd))).1, hkept,
    Bool.and_true, decide_eq_false_iff_not, not_not, mem_superfluous] at hdnot
  exact (isRedundantHandler_of_isSuperfluous hdnot.2).2

/-- A statement that still throws nothing when something is removed inside it threw nothing before. -/
lemma IsPlan.isBareRethrow_of_pruned (h : root.IsShaped) (hes : IsPlan root (· ∈ removed) es)
    (hc : root.Has c) (hk : c.kind ≠ .tryStatement) (hkept : isKept removed c = true)
    (hbare : (pruned removed c).isBareRethrow = true) : c.node.isBareRethrow = true := by
  simp only [Node.isBareRethrow, Bool.not_eq_true', List.any_eq_false] at hbare ⊢
  intro n hn hthrown
  obtain ⟨y, hcy, rfl⟩ := Cursor.mem_childNodes.mp hn
  have hyk : y.kind ≠ .tryStatement := by
    have hthrown : y.kind = .expression ∨ y.kind = .objectCreationExpression :=
      of_decide_eq_true hthrown
    rcases hthrown with hyk | hyk <;> simp [hyk]
  refine hbare (pruned removed y) ?_ hthrown
  rw [childNodes_pruned, List.mem_flatMap]
  refine ⟨y, Cursor.mem_children.mpr hcy, ?_⟩
  rw [hes.prune_of_kept h (hc.child hcy) (hes.isKept_child hkept hk hcy) fun hcon => absurd hcon hyk]
  exact List.mem_singleton.mpr rfl

/-- A handler that is left and hollow, but was not redundant, has a guarded block directly in its
block that gives way to its body. -/
lemma IsPlan.exists_of_isHollow (h : root.IsShaped) (hes : IsPlan root (· ∈ removed) es)
    (hz : root.Has z) (hk : z.kind = .catchClause) (hkept : isKept removed z = true)
    (hnot : z.node.isRedundantHandler = false) (hhollow : IsHollow removed z) :
    ∃ b x, z.child? .block = some b ∧ b.IsChild x ∧ x.kind = .tryStatement ∧
      stands removed x = false := by
  obtain ⟨hfilter, b, s, hb, hs, hsk, hbare⟩ := hhollow
  by_contra hnone
  have hleft : leftStatements removed b =
      (b.children.filter fun x => decide (x.kind.isStatement = true)).map (pruned removed) := by
    rw [← flatMap_ite]
    refine List.flatMap_congr fun x hx => if_neg ?_
    rintro ⟨hxk, hstands⟩
    exact hnone ⟨b, x, hb, Cursor.mem_children.mp hx, hxk, hstands⟩
  rw [hleft] at hs
  obtain ⟨x, hx, rfl⟩ := List.map_eq_singleton_iff.mp hs
  have hzb : z.IsChild b := Cursor.mem_children.mp (List.mem_of_find?_eq_some hb)
  have hbk : b.kind = .block := by simpa using List.find?_some hb
  have hbx : b.IsChild x := by
    have hmem := hx ▸ List.mem_singleton.mpr rfl
    exact Cursor.mem_children.mp (List.mem_filter.mp hmem).1
  have hxk : x.kind = .throwStatement := hsk
  have hbefore := hes.isBareRethrow_of_pruned h ((hz.child hzb).child hbx) (by simp [hxk])
    (hes.isKept_child (hes.isKept_child hkept (by simp [hk]) hzb) (by simp [hbk]) hbx) hbare
  have hstatements : b.node.statements = [x.node] := by
    have hnodes : b.node.statements =
        (b.children.filter fun x => decide (x.kind.isStatement = true)).map Cursor.node := by
      rw [Node.statements, ← b.map_node_children, List.filter_map]
      simp only [Bool.decide_eq_true]
      rfl
    rw [hnodes, hx]
    rfl
  have hblock : z.node.child? .block = some b.node := by
    rw [Node.child?, ← z.map_node_children, List.find?_map]
    exact congrArg (Option.map Cursor.node) hb
  have hredundant : z.node.isRedundantHandler = true := by
    rw [Node.isRedundantHandler, Node.onlyRethrows, hblock, Option.map_some, hstatements]
    simp [hfilter, hbefore, show x.node.kind = .throwStatement from hxk]
  rw [hredundant] at hnot
  cases hnot

variable {source : String} {ds : List Diagnostic} {ranges : List Range}

/-- All reported findings lead to all superfluous handlers. -/
lemma mem_chosen_iff_superfluous (h : root.IsShaped) (ha : Analyzer.builtin = .ok a)
    (hds : ∀ f, f ∈ ds ↔ f ∈ a.analyze root ∧ f.ruleId = ruleId)
    (hleads : ∀ f ∈ ds, ∃ c, f.range?.bind (handlerAround? root) = some c) :
    c ∈ chosen root ds ↔ c ∈ superfluous root := by
  rw [mem_superfluous]
  constructor
  · intro hc
    obtain ⟨f, hf, r, hr, hcr⟩ := mem_chosen.mp hc
    obtain ⟨d, hd, hsuper, -, hlead⟩ := exists_of_reported h ha ((hds f).mp hf)
    obtain rfl : d = c := Option.some.inj ((hlead r hr).symm.trans hcr)
    exact ⟨hd, hsuper⟩
  · rintro ⟨hc, hsuper⟩
    have hf := (hds (rule.finding [] c.range)).mpr
      ((Analyzer.mem_analyze_iff ha).mpr ⟨c, hc, hsuper, rfl⟩)
    obtain ⟨d, hd⟩ := hleads _ hf
    obtain ⟨r, hr, -⟩ := Option.bind_eq_some_iff.mp hd
    refine mem_chosen.mpr ⟨_, hf, r, hr, ?_⟩
    rw [eq_of_range?_ofRange hr]
    exact handlerAround?_range h hc (isRedundantHandler_of_isSuperfluous hsuper).1

/-- **Analysing a fixed tree again.** When all findings about handlers that only rethrow have been
fixed as one change, no such finding is reported on the fixed tree exactly if in no guarded block
that is left, the last handler that is left is hollow. A handler can only be hollow because a guarded
block that stands directly in its block has given way to its body.

**Proof sketch.** On a shaped tree something is reported if the last handler of a guarded block is
redundant (`exists_reported_iff`). The guarded blocks of the fixed tree are those that stand, each
with the handlers that are left of it, and these are redundant if they are hollow. -/
theorem analyze_fixed_iff (ha : Analyzer.builtin = .ok a)
    (hds : ∀ f, f ∈ ds ↔ f ∈ a.analyze (parse source) ∧ f.ruleId = ruleId)
    (hfix : a.engine.fixAll? (parse source) ds = some (.applied tree ranges)) :
    ((∀ f ∈ a.analyze tree, f.ruleId ≠ ruleId) ↔
      ∀ t, (parse source).Has t → stands (superfluous (parse source)) t = true →
        ∀ z, (remaining (superfluous (parse source)) t).getLast? = some z →
          ¬IsHollow (superfluous (parse source)) z) ∧
    ∀ t, (parse source).Has t → stands (superfluous (parse source)) t = true →
      ∀ z, (remaining (superfluous (parse source)) t).getLast? = some z →
        IsHollow (superfluous (parse source)) z →
          ∃ b x, z.child? .block = some b ∧ b.IsChild x ∧ x.kind = .tryStatement ∧
            stands (superfluous (parse source)) x = false := by
  have h := isShaped_parse source
  obtain ⟨hout, hleads, -⟩ := isOutcome_of_fixAll? h (Analyzer.provider?_builtin ha)
    (fun f hf => ((hds f).mp hf).2) hfix
  have hchosen : (fun c => c ∈ chosen (parse source) ds) =
      fun c => c ∈ superfluous (parse source) :=
    funext fun c => propext (mem_chosen_iff_superfluous h ha hds hleads)
  rw [hchosen] at hout
  have hreported := hout.exists_reported_iff h ha
  obtain ⟨hes, -, -⟩ := hout
  -- the last handler that is left of a guarded block that stands
  have hlast : ∀ t, (parse source).Has t → stands (superfluous (parse source)) t = true →
      ∀ z, (remaining (superfluous (parse source)) t).getLast? = some z →
        (parse source).Has z ∧ z.kind = .catchClause ∧
          isKept (superfluous (parse source)) z = true ∧ z.node.isRedundantHandler = false := by
    intro t ht hstands z hz
    simp only [stands, Bool.and_eq_true] at hstands
    obtain ⟨hmem, hzkept⟩ := List.mem_filter.mp (List.mem_of_getLast? hz)
    obtain ⟨htz, hk⟩ := Cursor.mem_handlers.mp hmem
    exact ⟨ht.child htz, hk, hzkept, isRedundantHandler_of_getLast? ht hstands.1.2 hz⟩
  refine ⟨?_, fun t ht hstands z hz hhollow => ?_⟩
  · constructor
    · intro hnone t ht hstands z hz hhollow
      obtain ⟨f, hf, hid⟩ := hreported.mpr ⟨t, ht, hstands, z, hz, hhollow⟩
      exact hnone f hf hid
    · intro hnone f hf hid
      obtain ⟨t, ht, hstands, z, hz, hhollow⟩ := hreported.mp ⟨f, hf, hid⟩
      exact hnone t ht hstands z hz hhollow
  · obtain ⟨hhas, hk, hkept, hnot⟩ := hlast t ht hstands z hz
    exact hes.exists_of_isHollow h hhas hk hkept hnot hhollow

/-- A handler in which a guarded block gives way to its body, but which does more than rethrow. -/
theorem analyze_fixed_none : ∃ source a tree ranges,
    source = "try \x7b A(); \x7d catch \x7b try \x7b B(); \x7d catch \x7b throw; \x7d throw; \x7d" ∧
    Analyzer.builtin = .ok a ∧
    a.engine.fixAll? (parse source) (check (parse source) rule) = some (.applied tree ranges) ∧
    tree.text = "try \x7b A(); \x7d catch \x7b B(); throw; \x7d" ∧
    ∀ f ∈ a.analyze tree, f.ruleId ≠ ruleId := by
  obtain ⟨source, hsource⟩ : ∃ source, source =
    "try \x7b A(); \x7d catch \x7b try \x7b B(); \x7d catch \x7b throw; \x7d throw; \x7d" := ⟨_, rfl⟩
  obtain ⟨a, ha⟩ := Analyzer.exists_builtin
  have htext : ((a.engine.fixAll? (parse source) (check (parse source) rule)).bind
      FixOutcome.tree?).map Node.text = some "try \x7b A(); \x7d catch \x7b B(); throw; \x7d" := by
    rw [(Analyzer.builtin_spec ha).2.2, hsource]
    decide +kernel
  obtain ⟨tree, ranges, hfix, htree⟩ := exists_applied htext
  have hmore : ∀ z ∈ (parse source).cursors, isKept (superfluous (parse source)) z = true →
      ∀ b ∈ z.child? .block, z.kind = .catchClause →
        (leftStatements (superfluous (parse source)) b).length ≠ 1 := by
    rw [hsource]
    decide +kernel
  refine ⟨source, a, tree, ranges, hsource, ha, hfix, htree,
    (analyze_fixed_iff ha (fun f => mem_check_iff ha) hfix).1.mpr fun t ht _ z hz hhollow => ?_⟩
  obtain ⟨b, s, hb, hs, -⟩ := hhollow.rethrow
  obtain ⟨hmem, hkept⟩ := List.mem_filter.mp (List.mem_of_getLast? hz)
  obtain ⟨htz, hk⟩ := Cursor.mem_handlers.mp hmem
  exact hmore z (Node.mem_cursors.mpr (ht.child htz)) hkept b hb hk (by rw [hs]; rfl)

/-- **A handler that becomes superfluous**: the guarded block in it gives way to its body, a rethrow,
and the handler is reported on the fixed tree. -/
theorem analyze_fixed_ne : ∃ source a tree ranges,
    source = "try \x7b A(); \x7d catch \x7b try \x7b throw; \x7d catch \x7b throw; \x7d \x7d" ∧
    Analyzer.builtin = .ok a ∧
    (∀ f, f ∈ check (parse source) rule ↔ f ∈ a.analyze (parse source) ∧ f.ruleId = ruleId) ∧
    a.engine.fixAll? (parse source) (check (parse source) rule) = some (.applied tree ranges) ∧
    tree.text = "try \x7b A(); \x7d catch \x7b throw; \x7d" ∧
    ∃ f ∈ a.analyze tree, f.ruleId = ruleId := by
  obtain ⟨source, hsource⟩ : ∃ source, source =
    "try \x7b A(); \x7d catch \x7b try \x7b throw; \x7d catch \x7b throw; \x7d \x7d" := ⟨_, rfl⟩
  obtain ⟨a, ha⟩ := Analyzer.exists_builtin
  have htext : ((a.engine.fixAll? (parse source) (check (parse source) rule)).bind
      FixOutcome.tree?).map (fun tree => (tree.text, check tree rule)) =
        some ("try \x7b A(); \x7d catch \x7b throw; \x7d", [rule.finding [] (.ofLength 13 16)]) := by
    rw [(Analyzer.builtin_spec ha).2.2, hsource]
    decide +kernel
  obtain ⟨tree, ranges, hfix, htree⟩ := exists_applied htext
  obtain ⟨htree, hcheck⟩ := Prod.mk.inj htree
  exact ⟨source, a, tree, ranges, hsource, ha, fun f => mem_check_iff ha, hfix, htree, _,
    (mem_check_iff ha).mp (hcheck ▸ List.mem_singleton.mpr rfl)⟩

end Rethrow

end TreeLint
