import TreeLint.Proofs.Fraying
import TreeLint.Proofs.Progress
import TreeLint.Syntax.Outline

/-!
# Where nodes end after a fix

No node of a parsed tree but the root starts or ends with trivia. A fix may leave trivia at the end of
a node, in two ways: behind the last handler that is left of a guarded block, and where a guarded block
gives way to its body at the end of a node that is not closed.

## Main definitions

* `TreeLint.Rethrow.IsMerged` — plans of which the removals from one guarded block are merged.
* `TreeLint.Rethrow.EndInTrivia` — elements of which the last is trivia.
* `TreeLint.Rethrow.EndsLoose` — a node at the end of which trivia are left when guarded blocks in it
  give way to their bodies.

## Main results

* `TreeLint.Node.untrimmed?_eq_none_iff` — the nodes that start or end with trivia.
* `TreeLint.Rethrow.IsPlan.endInTrivia_try` — what a guarded block that is kept ends with.
* `TreeLint.Rethrow.IsPlan.endInTrivia_iff` — what any other node that is kept ends with.
* `TreeLint.Rethrow.untrimmed?_fixed_iff` — the fixed trees in which no node ends with trivia.
* `TreeLint.Rethrow.untrimmed?_fixed_ne` — a comment that is left at the end of a guarded block.
-/

namespace TreeLint

/-! ## Nodes that start or end with trivia -/

/-- A node does not start or end with trivia if neither its first nor its last child is one. -/
lemma Node.boundaryTrivia?_eq_none_iff {n : Node} : n.boundaryTrivia? = none ↔
    (∀ e ∈ n.children.head?, e.isTrivia = false) ∧ ∀ e ∈ n.children.getLast?, e.isTrivia = false := by
  have htoken : ∀ es : List Element, ((es.filterMap Element.token?).find? (·.kind.isTrivia) = none) ↔
      ∀ e ∈ es, e.isTrivia = false := by
    intro es
    simp only [List.find?_eq_none, List.mem_filterMap, Bool.not_eq_true]
    constructor
    · intro h e he
      cases e with
      | token u => exact h u ⟨_, he, rfl⟩
      | node k cs => rfl
    · rintro h u ⟨e, he, heu⟩
      cases e with
      | token u' =>
        obtain rfl := Option.some.inj heu
        exact h _ he
      | node k cs => cases heu
  rw [boundaryTrivia?, htoken]
  simp only [List.mem_append, Option.mem_toList, or_imp, forall_and, Option.mem_def]

/-- The nodes below the root and their cursors. -/
lemma Node.map_node_tail_cursors (root : Node) :
    root.cursors.tail.map Cursor.node = Element.nodesList root.children := by
  rw [List.map_tail, map_node_cursors]
  rfl

/-- **The nodes that start or end with trivia** are looked for below the root. -/
theorem Node.untrimmed?_eq_none_iff {root : Node} : root.untrimmed? = none ↔
    ∀ n ∈ Element.nodesList root.children, n.boundaryTrivia? = none := by
  rw [untrimmed?, List.findSome?_eq_none_iff, ← map_node_tail_cursors]
  simp only [Option.map_eq_none_iff, List.mem_map, forall_exists_index, and_imp,
    forall_apply_eq_imp_iff₂]

namespace Element

/-- The nodes of an element with a property throughout. -/
lemma All.of_mem_nodes {P : Element → Prop} {e : Element} (h : e.All P) :
    ∀ n ∈ e.nodes, P n.toElement := by
  induction h with
  | token _ => simp [nodes]
  | @node k cs hself _ ih =>
    intro n hn
    rcases List.mem_cons.mp hn with rfl | hn
    · exact hself
    · obtain ⟨d, hd, hn⟩ := mem_nodesList.mp hn
      exact ih d hd n hn

/-- The last child of a trimmed node is no trivia. -/
lemma IsTrimmed.getLast? {k : Kind} {cs : List Element} (h : (node k cs).IsTrimmed) :
    ∀ e ∈ cs.getLast?, e.isTrivia = false := by
  intro e he
  obtain ⟨init, rfl⟩ := List.getLast?_eq_some_iff.mp he
  cases e with
  | token u => exact h.2 u (by simp [leavesList_append])
  | node l ds => rfl

end Element

/-! ## The nodes of a tree with a rule substituted -/

section Subst

variable {root : Node} {rule : Rule} {c p : Cursor}

/-- A node that is kept, with those above it, is a node of the new tree. -/
lemma mem_nodesList_subst (hc : root.Has c) (hne : c ≠ root.cursor)
    (habove : ∀ a, root.Has a → a.Below c → a ≠ root.cursor →
      rule ⟨a.node.toElement, a.start⟩ = none) :
    (⟨c.kind, Element.substList rule c.start c.node.children⟩ : Node) ∈
      Element.nodesList (root.subst rule).children := by
  have hbelow : ∀ p, root.Has p → p.Below c → p ≠ c →
      (⟨c.kind, Element.substList rule c.start c.node.children⟩ : Node) ∈
        Element.nodesList (Element.substList rule p.start p.node.children) := by
    intro p hp hpc
    induction hpc using Relation.ReflTransGen.head_induction_on with
    | refl => exact fun hne => absurd rfl hne
    | @head p q hpq hqc ih =>
      intro _
      have hq := hp.child hpq
      have hqne : q ≠ root.cursor := by
        rintro rfl
        have hpath := hpq.path_eq
        simp [Node.cursor] at hpath
      have hsubst := Element.subst_node_of_none (habove q hq hqc hqne)
      refine Element.mem_nodesList.mpr ⟨.node q.kind (Element.substList rule q.start q.node.children),
        Element.mem_substList.mpr ⟨_, hpq.mem_elements, ?_⟩, ?_⟩
      · dsimp only
        exact hsubst ▸ List.mem_singleton.mpr rfl
      · by_cases hqc' : q = c
        · rw [hqc']
          exact List.mem_cons_self
        · exact List.mem_cons_of_mem _ (ih hq hqc')
  exact hbelow root.cursor root.has_cursor hc (Ne.symm hne)

/-- A property of all nodes of the new tree holds of the nodes that are kept and of those that are put
in the place of something. -/
theorem forall_nodesList_subst {Q : Node → Prop}
    (replaced : ∀ p x ds, rule.IsLive root p → x ∈ p.elements → rule x = some ds →
      ∀ n ∈ Element.nodesList ds, Q n)
    (kept : ∀ c, rule.IsLive root c → c ≠ root.cursor →
      Q ⟨c.kind, Element.substList rule c.start c.node.children⟩) :
    ∀ n ∈ Element.nodesList (root.subst rule).children, Q n := by
  have hchildren : ∀ {p : Cursor}, rule.IsLive root p → ∀ x ∈ p.elements,
      ∀ n ∈ Element.nodesList (x.item.subst rule x.start), Q n := by
    intro p hp x hx
    refine Rule.subst_induction (motive := fun _ _ ds => ∀ n ∈ Element.nodesList ds, Q n)
      ?replaced ?token ?node hp hx
    case replaced => exact replaced
    case token =>
      intro p t start _ _ _ n hn
      cases hn
    case node =>
      intro p c hp hc hnone ih n hn
      rw [Element.nodesList, Element.nodesList, List.append_nil, Element.nodes] at hn
      rcases List.mem_cons.mp hn with rfl | hn
      · refine kept c (hp.child hc hnone) ?_
        rintro rfl
        have hpath := hc.path_eq
        simp [Node.cursor] at hpath
      · obtain ⟨d, hd, hn⟩ := Element.mem_nodesList.mp hn
        obtain ⟨y, hy, hd⟩ := Element.mem_substList.mp hd
        exact ih y hy n (Element.mem_nodesList.mpr ⟨d, hd, hn⟩)
  intro n hn
  obtain ⟨d, hd, hn⟩ := Element.mem_nodesList.mp hn
  obtain ⟨y, hy, hd⟩ := Element.mem_substList.mp hd
  exact hchildren (Rule.isLive_cursor rule root) y hy n (Element.mem_nodesList.mpr ⟨d, hd, hn⟩)

end Subst

namespace Rethrow

variable {root tree : Node} {P : Cursor → Prop} {cs : List Cursor} {es : List Edit} {c d p t : Cursor}

/-! ## What a plan keeps -/

/-- **Nothing above a chosen handler is replaced**, and neither is its guarded block if something else
is left of it than its body: the edit would overlap the one that removes the handler. -/
theorem IsPlan.rule_above (h : root.IsShaped) (hes : IsPlan root P es)
    (hapart : ∀ e ∈ es, ∀ f ∈ es, e.overlaps f = true → e = f) (ht : root.Has t) (htc : t.IsChild c)
    (hc : P c) {a : Cursor} (ha : a.Below t) (hne : a ≠ root.cursor)
    (hcase : a ≠ t ∨ ¬IsPointless P t) : batchRule es ⟨a.node.toElement, a.start⟩ = none := by
  rw [batchRule_eq_none_iff]
  intro e he
  by_contra hcon
  rw [Bool.not_eq_false] at hcon
  obtain ⟨u, hu, huk, huc, hck, f, hf, hfix, hcf⟩ := hes.covers c hc
  obtain rfl : u = t := by simpa [huc.parent?_eq] using htc.parent?_eq
  have hpos := h.length_pos (ht.child htc) (h.ne_cursor (by simp [hck]))
  have hover : e.overlaps f = true := by
    have hin := Cursor.Below.bounds (ha.trans (.single htc))
    rw [Range.contains_iff] at hcon hcf
    simp only [Placed.span_start, Placed.span_stop, Cursor.range_start, Cursor.range_stop,
      Node.toElement, Element.length_node] at hcon hcf
    simp only [Cursor.stop, Node.length] at hin hpos hcf
    rw [Edit.overlaps_iff]
    omega
  obtain rfl := hapart e he f hf hover
  have hcon : e.removed.contains a.range = true := hcon
  obtain ⟨q, hfits, ⟨hpoint, hqt⟩ | ⟨-, rfl⟩⟩ := hfix.fitsAt h ht huk
  · obtain ⟨q', haq, hqt'⟩ := ha.exists_parent (hcase.resolve_right (not_not.mpr hpoint))
    obtain rfl : q = q' := by simpa [hqt.parent?_eq] using hqt'.parent?_eq
    rw [hfits.not_contains_of_below haq hne] at hcon
    cases hcon
  · rw [hfits.not_contains_of_below ha hne] at hcon
    cases hcon

/-- A plan of which the edits for a guarded block that keeps more than its body are the removals of its
chosen handlers, merged. -/
def IsMerged (root : Node) (cs : List Cursor) (es : List Edit) : Prop :=
  ∀ t, root.Has t → t.kind = .tryStatement → ¬IsPointless (· ∈ cs) t → (∃ c ∈ t.handlers, c ∈ cs) →
    ∃ removals, removals.Perm ((t.handlers.filter fun c => decide (c ∈ cs)).map removal) ∧
      ∀ e, e ∈ mergeRemovals t removals ↔ e ∈ es ∧ IsFix (· ∈ cs) t e

/-- What is replaced in a guarded block that is kept is what its own removals take. -/
lemma IsPlan.rule_eq_none_iff (h : root.IsShaped) (hes : IsPlan root P es)
    (ht : (batchRule es).IsLive root t) (hk : t.kind = .tryStatement) {fixes : List Edit}
    (hfixes : ∀ e, e ∈ fixes ↔ e ∈ es ∧ IsFix P t e) {x : Placed Element} (hx : x ∈ t.elements) :
    batchRule es x = none ↔ ¬∃ e ∈ fixes, e.removed.contains x.span = true := by
  rw [batchRule_eq_none_iff]
  constructor
  · rintro hnone ⟨e, he, hcon⟩
    rw [hnone e ((hfixes e).mp he).1] at hcon
    cases hcon
  · intro hnone e he
    by_contra hcon
    rw [Bool.not_eq_false] at hcon
    obtain ⟨u, hu, huk, hfix⟩ := hes.fixes e he
    have hsolid : x.item.IsSolid := (h.solid.children ht.1 x.item (Element.item_mem hx)).self
    have hlive := ht.2.imp_right fun hnone => batchRule_eq_none_iff.mp hnone e he
    obtain ⟨q, hfits, hcase⟩ := hfix.fitsAt h hu huk
    obtain rfl := hfits.owner ht.1 hx hsolid hcon hlive
    rcases hcase with ⟨-, htu⟩ | ⟨-, rfl⟩
    · exact kind_ne_of_mem_try h ht.1 hk htu.mem_children huk
    · exact hnone ⟨e, (hfixes e).mpr ⟨he, hfix⟩, hcon⟩

/-- A child of a guarded block that is replaced is trivia or a chosen handler. -/
lemma IsPlan.replaced_try (h : root.IsShaped) (hes : IsPlan root P es)
    (ht : (batchRule es).IsLive root t) (hk : t.kind = .tryStatement) {x : Placed Element}
    (hx : x ∈ t.elements) (hr : batchRule es x ≠ none) :
    x.item.subst (batchRule es) x.start = [] ∧
      (x.item.isTrivia = true ∨ ∃ c ∈ t.handlers, P c ∧ x = ⟨c.node.toElement, c.start⟩) := by
  obtain ⟨ds, hds⟩ := Option.ne_none_iff_exists'.mp hr
  rcases hes.replaced h ht hx hds with ⟨-, -, -, rfl, hcase⟩ | ⟨u, b, htu, huk, -⟩
  · exact ⟨Element.subst_of_some hds, hcase⟩
  · exact absurd huk (kind_ne_of_mem_try h ht.1 hk htu.mem_children)

/-! ## What a guarded block ends with -/

/-- What is replaced by nothing at all leaves nothing exactly if all of it is replaced. -/
lemma substList_ne_nil_iff {rule : Rule} {start : Nat} {ds : List Element}
    (h : ∀ x ∈ Element.place start ds, rule x ≠ none → x.item.subst rule x.start = []) :
    Element.substList rule start ds ≠ [] ↔ ∃ x ∈ Element.place start ds, rule x = none := by
  rw [Element.substList_flatMap, ne_eq, List.flatMap_eq_nil_iff, not_forall₂]
  refine exists_congr fun x => ?_
  constructor
  · rintro ⟨hx, hne⟩
    exact ⟨hx, by_contra fun hr => hne (h x hx hr)⟩
  · rintro ⟨hx, hr⟩
    exact ⟨hx, by rw [Element.subst_of_none hr]; simp⟩

/-- Elements of which the last is trivia. -/
def EndInTrivia (ds : List Element) : Prop := ∃ e ∈ ds.getLast?, e.isTrivia = true

/-- Whether some elements end in trivia is decided by which of them are trivia. -/
lemma endInTrivia_iff {ds : List Element} :
    EndInTrivia ds ↔ (ds.map Element.isTrivia).getLast? = some true := by
  rw [EndInTrivia, List.getLast?_map, Option.map_eq_some_iff]
  rfl

/-- Trivia behind something else are the end, if there are any. -/
lemma endInTrivia_append_iff {xs ys : List Element} {e : Element} (he : e.isTrivia = false)
    (hys : ∀ y ∈ ys, y.isTrivia = true) : EndInTrivia (xs ++ e :: ys) ↔ ys ≠ [] := by
  rcases List.eq_nil_or_concat ys with rfl | ⟨zs, z, rfl⟩
  · simp [EndInTrivia, he]
  · have hlast : (xs ++ e :: (zs ++ [z])).getLast? = some z := by
      rw [← List.cons_append, ← List.append_assoc, List.getLast?_concat]
    have hz := hys z (by simp)
    simp [EndInTrivia, List.concat_eq_append, hlast, hz]

/-- A node of a shaped tree does not start with trivia. -/
lemma untrimmed?_eq_none_iff (h : root.IsShaped) : root.untrimmed? = none ↔
    ∀ n ∈ Element.nodesList root.children, ¬EndInTrivia n.children := by
  rw [Node.untrimmed?_eq_none_iff]
  refine forall₂_congr fun n hn => ?_
  have hhead : ∀ e ∈ n.children.head?, e.isTrivia = false := by
    intro e he
    obtain ⟨d, hd, hnd⟩ := Element.mem_nodesList.mp hn
    have hshaped : Shaped n.kind n.children := (h.all d hd).of_mem_nodes n hnd
    obtain ⟨ds, hcs⟩ := List.head?_eq_some_iff.mp he
    exact (hshaped.begins e ds hcs).1
  rw [Node.boundaryTrivia?_eq_none_iff, and_iff_right hhead]
  simp [EndInTrivia]

/-- Behind the last handler of a guarded block without a clause that runs in any case stands nothing
in a trimmed tree. -/
lemma after_eq_nil (h : root.IsShaped) (htrim : root.All Element.IsTrimmed) (ht : root.Has t)
    (hk : t.kind = .tryStatement) {hs : List Cursor} {z : Cursor} (hhs : t.handlers = hs ++ [z])
    (hfin : t.node.hasFinally = false) : z.after = [] := by
  obtain ⟨htz, -⟩ := Cursor.mem_handlers.mp (show z ∈ t.handlers by rw [hhs]; simp)
  have hlast : isLast z = true := by rw [isLast_eq h ht hk hhs, hfin]; rfl
  have htrivia := (isLast_iff h ht htz).mp hlast
  have hend := (htrim.node ht (h.ne_cursor (by simp [hk]))).self.getLast?
  rcases List.eq_nil_or_concat z.after with hnil | ⟨ds, e, hafter⟩
  · exact hnil
  · rw [List.concat_eq_append] at hafter
    have hlast : t.node.children.getLast? = some e := by
      rw [htz.children_eq, hafter, ← List.cons_append, ← List.append_assoc, List.getLast?_concat]
    have htriv := htrivia e (by simp [hafter])
    rw [hend e hlast] at htriv
    cases htriv

/-- A guarded block of which the last handler is chosen, but not every one, ends with chosen
handlers. -/
lemma exists_isTail {z : Cursor} {hs : List Cursor} (hhs : t.handlers = hs ++ [z]) (hz : P z)
    (hfin : t.node.hasFinally = false) (hleft : ¬IsPointless P t) :
    ∃ c front run, IsTail P t c front run := by
  classical
  rcases filter_eq_nil_or_concat (fun c => decide ¬P c) t.handlers with
    hnil | ⟨front, c, run, hsplit, hc, hrun, -⟩
  · refine absurd ⟨hfin, by simp [hhs], fun c hc => ?_⟩ hleft
    simpa using List.filter_eq_nil_iff.mp hnil c hc
  · have hc : ¬P c := of_decide_eq_true hc
    refine ⟨c, front, run, hfin, hsplit, ?_, hc, fun d hd => by simpa using hrun d hd⟩
    rintro rfl
    obtain ⟨-, heq⟩ := List.append_inj' (hhs.symm.trans hsplit) rfl
    exact hc ((List.cons.inj heq).1 ▸ hz)

/-- A child of a guarded block that is not chosen and no trivia is kept. -/
lemma IsPlan.rule_child (h : root.IsShaped) (hes : IsPlan root P es)
    (ht : (batchRule es).IsLive root t) (hk : t.kind = .tryStatement) {c : Cursor}
    (hc : t.IsChild c) (hnot : ¬P c) : batchRule es ⟨c.node.toElement, c.start⟩ = none := by
  by_contra hr
  rcases (hes.replaced_try h ht hk hc.mem_elements hr).2 with htriv | ⟨d, hd, hPd, heq⟩
  · cases htriv
  · obtain ⟨hd, hdk⟩ := Cursor.mem_handlers.mp hd
    obtain ⟨hitem, hstart⟩ := Placed.mk.inj heq
    have hnode : c.node = d.node := Option.some.inj (congrArg Element.node? hitem)
    have htarget : d.target = c.target := by
      simp only [Cursor.target, Cursor.kind, Cursor.range, hnode, hstart]
    exact hnot (h.eq_of_target_eq (ht.1.child hd) (ht.1.child hc) (.inr hdk) htarget ▸ hPd)

/-- What is left behind a handler that is left, where all others behind it are chosen, are trivia. -/
lemma IsPlan.isTrivia_of_mem_after (h : root.IsShaped) (hes : IsPlan root P es)
    (ht : (batchRule es).IsLive root t) (hk : t.kind = .tryStatement) {front run : List Cursor}
    (htail : IsTail P t c front run) :
    ∀ e ∈ Element.substList (batchRule es) c.stop c.after, e.isTrivia = true := by
  obtain ⟨hc, -⟩ := Cursor.mem_handlers.mp (show c ∈ t.handlers by rw [htail.handlers]; simp)
  intro e he
  obtain ⟨x, hx, hex⟩ := Element.mem_substList.mp he
  have hmem : x ∈ t.elements := by rw [hc.elements_eq]; simp [hx]
  have hnone : batchRule es x = none := by
    by_contra hr
    rw [(hes.replaced_try h ht hk hmem hr).1] at hex
    cases hex
  rw [Element.subst_of_none hnone, List.mem_singleton] at hex
  rw [hex, Element.isTrivia_substInside]
  by_contra htriv
  obtain ⟨d, hd, rfl⟩ := exists_handler_behind h ht.1 hk htail.handlers htail.hasFinally hx
    (by simpa using htriv)
  exact hes.rule_handler (htail.chosen d hd) hnone

/-- **What a guarded block ends with** of which the last handlers are removed: with trivia if some of
those stay that belong to the handler before them. -/
lemma IsPlan.endInTrivia_tail (h : root.IsShaped) (htrim : root.All Element.IsTrimmed)
    (hes : IsPlan root (· ∈ cs) es) (hmerged : IsMerged root cs es)
    (ht : (batchRule es).IsLive root t) (hk : t.kind = .tryStatement) {front run : List Cursor}
    (htail : IsTail (· ∈ cs) t c front run) :
    EndInTrivia (Element.substList (batchRule es) t.start t.node.children) ↔
      IsFrayed (· ∈ cs) t := by
  obtain ⟨hc, -⟩ := Cursor.mem_handlers.mp (show c ∈ t.handlers by rw [htail.handlers]; simp)
  obtain ⟨d, more, rfl⟩ := List.exists_cons_of_ne_nil htail.ne_nil
  have hleft : ¬IsPointless (· ∈ cs) t :=
    fun hpoint => htail.left (hpoint.chosen c (by rw [htail.handlers]; simp))
  obtain ⟨removals, hperm, hfixes⟩ := hmerged t ht.1 hk hleft
    ⟨d, by rw [htail.handlers]; simp, htail.chosen d List.mem_cons_self⟩
  have hbool : (fun c => decide (c ∈ cs) = true) = (· ∈ cs) := by simp
  have htail' : IsTail (fun c => decide (c ∈ cs) = true) t c front (d :: more) := hbool ▸ htail
  have hend : ∀ z ∈ t.handlers.getLast?, z.after = [] := by
    intro z hz
    obtain ⟨hs, hhs⟩ := List.getLast?_eq_some_iff.mp hz
    exact after_eq_nil h htrim ht.1 hk hhs htail.hasFinally
  have hmem : ∀ x ∈ Element.place c.stop c.after, x ∈ t.elements := by
    intro x hx
    rw [hc.elements_eq]
    simp [hx]
  have hsolid : ∀ e ∈ c.after, e.IsSolid := fun e he =>
    (h.solid.children ht.1 e (hc.mem_of_mem_after he)).self
  -- what stays behind the handler is what begins in front of the removal
  have hkeeps : ∀ x ∈ Element.place c.stop c.after,
      batchRule es x = none ↔ x.start < runStart d more := by
    intro x hx
    rw [hes.rule_eq_none_iff h ht hk hfixes (hmem x hx),
      htail'.exists_contains_iff h ht.1 hk hperm hend (hmem x hx) (hsolid _ (Element.item_mem hx))
        (Element.bounds_of_mem_place hx).1, Nat.not_le]
  have hstart : (∃ x ∈ Element.place c.stop c.after, x.start < runStart d more) ↔
      c.stop < runStart d more := by
    constructor
    · rintro ⟨x, hx, hlt⟩
      exact (Element.bounds_of_mem_place hx).1.trans_lt hlt
    · intro hlt
      have hchain := (h.isChain_handlers ht.1 hk).suffix ⟨front, htail.handlers.symm⟩
      obtain ⟨⟨gap, hn⟩, -⟩ := List.isChain_cons_cons.mp hchain
      obtain ⟨e, rest, hafter⟩ := List.exists_cons_of_ne_nil (l := c.after) (by simp [hn.after])
      exact ⟨⟨e, c.stop⟩, by rw [hafter]; exact List.mem_cons_self, hlt⟩
  have hsubst : Element.substList (batchRule es) t.start t.node.children =
      Element.substList (batchRule es) t.start c.before.reverse ++
        (c.node.toElement.substInside (batchRule es) c.start) ::
          Element.substList (batchRule es) c.stop c.after := by
    rw [hc.children_eq, Element.substList_append, Element.substList_cons, Element.lengthList_reverse,
      ← hc.start_eq, Element.subst_of_none (hes.rule_child h ht hk hc htail.left)]
    rfl
  rw [hsubst, endInTrivia_append_iff rfl (hes.isTrivia_of_mem_after h ht hk htail),
    substList_ne_nil_iff fun x hx hr => (hes.replaced_try h ht hk (hmem x hx) hr).1,
    htail.isFrayed_iff, ← htail.stop_lt_runStart_iff h ht.1 hk, ← hstart]
  exact exists_congr fun x => and_congr_right fun hx => hkeeps x hx

/-- A guarded block that is kept, but whose last child is replaced, ends with chosen handlers: the last
child is one, and not every handler is chosen. -/
lemma IsPlan.exists_isTail_of_replaced (h : root.IsShaped) (hes : IsPlan root P es)
    (ht : (batchRule es).IsLive root t) (hk : t.kind = .tryStatement) {init : List Element}
    {e : Element} (hcs : t.node.children = init ++ [e]) (he : e.isTrivia = false)
    (hr : batchRule es ⟨e, t.start + Element.lengthList init⟩ ≠ none) :
    ∃ c front run, IsTail P t c front run := by
  have hx : (⟨e, t.start + Element.lengthList init⟩ : Placed Element) ∈ t.elements :=
    Element.mem_place.mpr ⟨init, [], hcs, rfl⟩
  rcases (hes.replaced_try h ht hk hx hr).2 with htriv | ⟨z, hz, hzP, heq⟩
  · rw [he] at htriv
    cases htriv
  · obtain ⟨htz, -⟩ := Cursor.mem_handlers.mp hz
    obtain ⟨rfl, hstart⟩ := Placed.mk.inj heq
    have hafter : z.after = [] := by
      have hsolid : ∀ d ∈ z.after, d.IsSolid := fun d hd =>
        (h.solid.children ht.1 d (htz.mem_of_mem_after hd)).self
      have hstop : t.stop = z.stop := by
        rw [Cursor.stop, Node.length, hcs, Element.lengthList_append, Element.lengthList_cons,
          ← Nat.add_assoc, hstart]
        rfl
      have hzero := (Element.lengthList_pos_iff hsolid).not
      rw [not_not] at hzero
      have := htz.stop_eq
      exact hzero.mp (by omega)
    have hlast : isLast z = true := by rw [isLast, hafter]; rfl
    obtain ⟨hs, hhs, hfin⟩ := exists_concat h ht.1 hk hz hlast
    have hne := h.ne_cursor (c := t) (by simp [hk])
    have hleft : ¬IsPointless P t :=
      fun hpoint => hes.rule_pointless hpoint (ht.2.resolve_left hne)
    exact exists_isTail hhs hzP hfin hleft

/-- **A guarded block that is kept** ends with trivia if it is frayed. -/
theorem IsPlan.endInTrivia_try (h : root.IsShaped) (htrim : root.All Element.IsTrimmed)
    (hes : IsPlan root (· ∈ cs) es) (hmerged : IsMerged root cs es)
    (ht : (batchRule es).IsLive root t) (hk : t.kind = .tryStatement) :
    EndInTrivia (Element.substList (batchRule es) t.start t.node.children) ↔
      IsFrayed (· ∈ cs) t := by
  by_cases htail : ∃ c front run, IsTail (· ∈ cs) t c front run
  · obtain ⟨c, front, run, htail⟩ := htail
    exact hes.endInTrivia_tail h htrim hmerged ht hk htail
  · -- the last child is kept, and it is no trivia
    have hnot : ¬IsFrayed (· ∈ cs) t := fun ⟨c, front, run, hc, _⟩ => htail ⟨c, front, run, hc⟩
    refine iff_of_false ?_ hnot
    have hne := h.ne_cursor (c := t) (by simp [hk])
    obtain ⟨init, e, hcs⟩ : ∃ init e, t.node.children = init ++ [e] := by
      have hpos := (h.shaped ht.1 hne).length_pos
      rcases List.eq_nil_or_concat t.node.children with hnil | ⟨init, e, hcs⟩
      · rw [hnil] at hpos
        cases hpos
      · exact ⟨init, e, by simpa using hcs⟩
    have he : e.isTrivia = false :=
      (htrim.node ht.1 hne).self.getLast? e (by rw [hcs, List.getLast?_concat]; rfl)
    have hnone : batchRule es ⟨e, t.start + Element.lengthList init⟩ = none := by
      by_contra hr
      exact htail (hes.exists_isTail_of_replaced h ht hk hcs he hr)
    rw [hcs, Element.substList_append, Element.substList_cons, Element.substList_nil,
      Element.subst_of_none hnone, List.append_nil, endInTrivia_append_iff (by simpa using he)
        (by simp)]
    simp

/-! ## What other nodes end with -/

/-- What stands in the place of a child: a guarded block all of whose handlers are removed, while no
clause runs in any case, gives way to its body. -/
def standIn (removed : List Cursor) : Placed Element → List Element
  | ⟨.token u, _⟩ => [.token u]
  | ⟨.node k ds, start⟩ =>
    if Element.isPointless (removed.map Cursor.target) start k ds then
      (((⟨k, ds⟩ : Node).child? .block).map fun b => trimLayout (body b)).getD []
    else [.node k ds]

/-- A node that ends with trivia when guarded blocks in it give way to their bodies. -/
def EndsLoose (removed : List Cursor) (p : Cursor) : Prop :=
  EndInTrivia (p.elements.flatMap (standIn removed))

/-- A guarded block of which nothing is left is stood in for by its trimmed body. -/
lemma IsPlan.standIn_pointless (h : root.IsShaped) (hes : IsPlan root (· ∈ cs) es)
    (ht : root.Has t) (hk : t.kind = .tryStatement) (hpoint : IsPointless (· ∈ cs) t) {b : Node}
    (hb : t.node.child? .block = some b) :
    standIn cs ⟨t.node.toElement, t.start⟩ = trimLayout (body b) := by
  have hpoint := (hes.isPointless_iff h ht hk).mpr hpoint
  rw [Node.toElement, standIn]
  exact (if_pos hpoint).trans (congrArg (fun o => (o.map fun b => trimLayout (body b)).getD []) hb)

/-- A child stands for itself unless it is a guarded block that gives way to its body. -/
lemma IsPlan.standIn_cases (h : root.IsShaped) (hes : IsPlan root (· ∈ cs) es) (hp : root.Has p)
    {x : Placed Element} (hx : x ∈ p.elements) : standIn cs x = [x.item] ∨
      ∃ t, p.IsChild t ∧ t.kind = .tryStatement ∧ IsPointless (· ∈ cs) t ∧
        x = ⟨t.node.toElement, t.start⟩ := by
  obtain ⟨e, start⟩ := x
  cases e with
  | token u => exact .inl rfl
  | node k ds =>
    by_cases hpoint : Element.isPointless (cs.map Cursor.target) start k ds = true
    · obtain ⟨t, ht, hnode, rfl⟩ := Cursor.isChild_of_mem_elements hx
      obtain rfl : k = t.kind := by rw [Cursor.kind, hnode]
      obtain rfl : ds = t.node.children := by rw [hnode]
      have hk : t.kind = .tryStatement := by
        by_contra hk
        simp [Element.isPointless, hk] at hpoint
      exact .inr ⟨t, ht, hk, (hes.isPointless_iff h (hp.child ht) hk).mp hpoint, rfl⟩
    · exact .inl (if_neg hpoint)

/-- **A node that is kept** and is no guarded block ends with trivia if it ends loose. -/
theorem IsPlan.endInTrivia_iff (h : root.IsShaped) (hes : IsPlan root (· ∈ cs) es)
    (hp : (batchRule es).IsLive root p) (hk : p.kind ≠ .tryStatement) :
    EndInTrivia (Element.substList (batchRule es) p.start p.node.children) ↔ EndsLoose cs p := by
  have hmap : (Element.substList (batchRule es) p.start p.node.children).map Element.isTrivia =
      (p.elements.flatMap (standIn cs)).map Element.isTrivia := by
    rw [Element.substList_flatMap, List.map_flatMap, List.map_flatMap]
    refine List.flatMap_congr fun x hx => ?_
    rcases hes.subst_cases h hp hx with hnone | ⟨htry, -⟩ | ⟨t, b, hpt, htk, hpoint, hb, rfl, hsubst⟩
    · rw [Element.subst_of_none hnone]
      rcases hes.standIn_cases h hp.1 hx with heq | ⟨t, -, -, hpoint, rfl⟩
      · rw [heq, List.map_singleton, List.map_singleton, Element.isTrivia_substInside]
      · exact absurd hnone (hes.rule_pointless hpoint)
    · exact absurd htry hk
    · rw [hsubst, hes.standIn_pointless h (hp.1.child hpt) htk hpoint hb]
  rw [EndsLoose, Rethrow.endInTrivia_iff, hmap, ← Rethrow.endInTrivia_iff]

/-- Trivia at the end of a node that ends loose come from a guarded block that gives way to its body. -/
lemma IsPlan.exists_of_endsLoose (h : root.IsShaped) (htrim : root.All Element.IsTrimmed)
    (hes : IsPlan root (· ∈ cs) es) (hp : root.Has p) (hne : p ≠ root.cursor)
    (hloose : EndsLoose cs p) :
    ∃ t, p.IsChild t ∧ t.kind = .tryStatement ∧ IsPointless (· ∈ cs) t := by
  by_contra hnone
  have hself : ∀ x ∈ p.elements, standIn cs x = [x.item] := fun x hx =>
    (hes.standIn_cases h hp hx).resolve_right fun ⟨t, hpt, hk, hpoint, _⟩ =>
      hnone ⟨t, hpt, hk, hpoint⟩
  obtain ⟨e, he, htriv⟩ := hloose
  rw [List.flatMap_congr hself, ← List.map_eq_flatMap, Cursor.elements,
    Element.map_item_place] at he
  rw [(htrim.node hp hne).self.getLast? e he] at htriv
  cases htriv

/-- Nothing above a frayed guarded block is replaced, and it is not replaced itself. -/
lemma IsPlan.rule_above_frayed (h : root.IsShaped) (hes : IsPlan root P es)
    (hapart : ∀ e ∈ es, ∀ f ∈ es, e.overlaps f = true → e = f) (ht : root.Has t)
    (hfrayed : IsFrayed P t) {a : Cursor} (hat : a.Below t) (hne : a ≠ root.cursor) :
    batchRule es ⟨a.node.toElement, a.start⟩ = none := by
  obtain ⟨c, front, run, htail, -⟩ := hfrayed
  obtain ⟨d, more, rfl⟩ := List.exists_cons_of_ne_nil htail.ne_nil
  obtain ⟨htd, -⟩ := Cursor.mem_handlers.mp (show d ∈ t.handlers by rw [htail.handlers]; simp)
  have hleft : ¬IsPointless P t :=
    fun hpoint => htail.left (hpoint.chosen c (by rw [htail.handlers]; simp))
  exact hes.rule_above h hapart ht htd (htail.chosen d List.mem_cons_self) hat hne (.inr hleft)

/-- Nothing above a node that ends loose is replaced, and it is not replaced itself. It is no guarded
block. -/
lemma IsPlan.rule_above_loose (h : root.IsShaped) (htrim : root.All Element.IsTrimmed)
    (hes : IsPlan root (· ∈ cs) es) (hapart : ∀ e ∈ es, ∀ f ∈ es, e.overlaps f = true → e = f)
    (hp : root.Has p) (hne : p ≠ root.cursor) (hloose : EndsLoose cs p) :
    p.kind ≠ .tryStatement ∧ ∀ a, a.Below p → a ≠ root.cursor →
      batchRule es ⟨a.node.toElement, a.start⟩ = none := by
  obtain ⟨t, hpt, hk, hpoint⟩ := hes.exists_of_endsLoose h htrim hp hne hloose
  obtain ⟨c, hc⟩ := List.exists_mem_of_ne_nil _ hpoint.handlers
  have htc := (Cursor.mem_handlers.mp hc).1
  refine ⟨fun hpk => kind_ne_of_mem_try h hp hpk hpt.mem_children hk, fun a hap hane => ?_⟩
  refine hes.rule_above h hapart (hp.child hpt) htc (hpoint.chosen c hc) (hap.trans (.single hpt))
    hane (.inl ?_)
  rintro rfl
  have hlen := Cursor.Below.length_path_le hap
  rw [hpt.path_eq, List.length_cons] at hlen
  omega

/-- What a plan puts in the place of something has no nodes that end with trivia. -/
lemma IsPlan.replaced_trimmed (h : root.IsShaped) (htrim : root.All Element.IsTrimmed)
    (hes : IsPlan root P es) (hp : (batchRule es).IsLive root p) {x : Placed Element}
    (hx : x ∈ p.elements) {ds : List Element} (hr : batchRule es x = some ds) :
    ∀ n ∈ Element.nodesList ds, ∀ e ∈ n.children.getLast?, e.isTrivia = false := by
  intro n hn
  obtain ⟨e, he, hne⟩ := Element.mem_nodesList.mp hn
  rcases hes.replaced h hp hx hr with ⟨-, -, -, rfl, -⟩ | ⟨t, b, hpt, -, -, hb, -, rfl⟩
  · cases he
  · -- the nodes of a body were nodes of the tree before
    obtain ⟨d, htd, rfl, -⟩ := Cursor.exists_of_child? hb
    have hmem := mem_of_mem_body (mem_of_mem_trimLayout he)
    have htrimmed := htrim.children ((hp.1.child hpt).child htd) e hmem
    exact Element.IsTrimmed.getLast? (htrimmed.of_mem_nodes n hne)

/-- **The nodes of a fixed tree** start and end with something else than trivia, unless a guarded
block is frayed or a node ends loose. -/
theorem IsPlan.untrimmed?_subst_iff (h : root.IsShaped) (htrim : root.All Element.IsTrimmed)
    (hes : IsPlan root (· ∈ cs) es)
    (hapart : ∀ e ∈ es, ∀ f ∈ es, e.overlaps f = true → e = f) (hmerged : IsMerged root cs es) :
    (root.subst (batchRule es)).untrimmed? = none ↔
      (∀ t, root.Has t → t.kind = .tryStatement → ¬IsFrayed (· ∈ cs) t) ∧
        ∀ p, root.Has p → p ≠ root.cursor → ¬EndsLoose cs p := by
  rw [untrimmed?_eq_none_iff (IsOutcome.isShaped h ⟨hes, hapart, rfl⟩)]
  constructor
  · intro hnone
    refine ⟨fun t ht hk hfrayed => ?_, fun p hp hne hloose => ?_⟩
    · have hne := h.ne_cursor (c := t) (by simp [hk])
      have habove : ∀ {a}, a.Below t → a ≠ root.cursor →
          batchRule es ⟨a.node.toElement, a.start⟩ = none :=
        hes.rule_above_frayed h hapart ht hfrayed
      have hlive : (batchRule es).IsLive root t := ⟨ht, .inr (habove .refl hne)⟩
      exact hnone _ (mem_nodesList_subst ht hne fun a _ => habove)
        ((hes.endInTrivia_try h htrim hmerged hlive hk).mpr hfrayed)
    · obtain ⟨hk, habove⟩ := hes.rule_above_loose h htrim hapart hp hne hloose
      have hlive : (batchRule es).IsLive root p := ⟨hp, .inr (habove p .refl hne)⟩
      exact hnone _ (mem_nodesList_subst hp hne fun a _ => habove a)
        ((hes.endInTrivia_iff h hlive hk).mpr hloose)
  · rintro ⟨hfrayed, hloose⟩
    refine forall_nodesList_subst (Q := fun n => ¬EndInTrivia n.children)
      (fun p x ds hp hx hr n hn => ?_) fun c hc hne => ?_
    · rintro ⟨e, he, htriv⟩
      rw [hes.replaced_trimmed h htrim hp hx hr n hn e he] at htriv
      cases htriv
    · by_cases hk : c.kind = .tryStatement
      · rw [hes.endInTrivia_try h htrim hmerged hc hk]
        exact hfrayed c hc.1 hk
      · rw [hes.endInTrivia_iff h hc hk]
        exact hloose c hc.1 hne

/-! ## Fixed trees -/

/-- The edits of a reconciled list are the removals of the chosen handlers, merged. -/
lemma isMerged_reconcile (h : root.IsShaped) {edits : List Edit} (hnodup : edits.Nodup)
    (hedits : ∀ e ∈ edits, ∃ c, EditOf root c e) (hes : reconcile root edits = .ok es)
    (hcs : ∀ c, (∃ e ∈ edits, EditOf root c e) ↔ c ∈ cs) : IsMerged root cs (sortEdits es) := by
  have hfun : (fun c => ∃ e ∈ edits, EditOf root c e) = (· ∈ cs) := funext fun c => propext (hcs c)
  intro t ht hk hleft ⟨d, hd, hdc⟩
  obtain ⟨hchosen, hmem⟩ := mem_mergeRemovals_iff h hnodup hedits hes ht hk (by rwa [hfun]) hd
    ((hcs d).mpr hdc)
  have howned : (ownedBy root t edits).Nodup := hnodup.filter _
  refine ⟨ownedBy root t edits, perm_removals h ht howned
    (fun f hf => exists_of_mem_ownedBy h ht hedits hf) fun c hc => ?_, fun e => ?_⟩
  · rw [decide_eq_true_eq, ← hcs, hchosen c hc]
  · rw [hmem, mem_sortEdits, hfun]

variable {a : Analyzer} {source : String} {ds : List Diagnostic} {ranges : List Range}

/-- A fix that is applied is the substitution by a plan for the handlers to which the findings lead, of
which the edits do not overlap and the removals are merged. -/
lemma exists_isMerged_of_fixAll? (ha : Analyzer.builtin = .ok a) (hds : ∀ d ∈ ds, d.ruleId = ruleId)
    (hfix : a.engine.fixAll? (parse source) ds = some (.applied tree ranges)) :
    ∃ es, IsPlan (parse source) (· ∈ chosen (parse source) ds) es ∧
      (∀ e ∈ es, ∀ f ∈ es, e.overlaps f = true → e = f) ∧
      IsMerged (parse source) (chosen (parse source) ds) es ∧
      tree = (parse source).subst (batchRule es) := by
  have h := isShaped_parse source
  obtain ⟨xs, es, hxs, hes, hpair, htree⟩ := exists_reconcile_of_fixAll? h
    (Analyzer.provider?_builtin ha) hds hfix
  have hnodup := nodup_distinct (xs.map Prod.snd)
  have hcs : ∀ c, (∃ e ∈ distinct (xs.map Prod.snd), EditOf (parse source) c e) ↔
      c ∈ chosen (parse source) ds := fun c => editOf_iff_mem_chosen h hxs
  refine ⟨TreeLint.sortEdits es,
    ((isPlan_reconcile h hnodup (exists_editOf hxs) hes).congr hcs).sortEdits, fun e he f hf => ?_,
    isMerged_reconcile h hnodup (exists_editOf hxs) hes hcs, htree⟩
  exact eq_of_overlaps hpair e (mem_sortEdits.mp he) f (mem_sortEdits.mp hf)

/-- **Where nodes end after a fix.** When findings about handlers that only rethrow are fixed as one
change, no node of the fixed tree but the root starts or ends with trivia exactly if no guarded block
is frayed and no node ends loose by the handlers that the findings lead to.

**Proof sketch.** A node of the fixed tree was kept, with some of its children replaced, or it stands
in the body of a guarded block that gave way to it. The latter are as they were. Of the others, a
guarded block loses handlers, and the trivia between them, to the removals that reconciling its edits
has merged (`IsPlan.endInTrivia_try`), and in any other node, guarded blocks give way to their bodies
(`IsPlan.endInTrivia_iff`). -/
theorem untrimmed?_fixed_iff (ha : Analyzer.builtin = .ok a)
    (hds : ∀ d ∈ ds, d ∈ a.analyze (parse source) ∧ d.ruleId = ruleId)
    (hfix : a.engine.fixAll? (parse source) ds = some (.applied tree ranges)) :
    tree.untrimmed? = none ↔
      (∀ t, (parse source).Has t → t.kind = .tryStatement →
        ¬IsFrayed (· ∈ chosen (parse source) ds) t) ∧
      ∀ p, (parse source).Has p → p ≠ (parse source).cursor →
        ¬EndsLoose (chosen (parse source) ds) p := by
  have h := isShaped_parse source
  obtain ⟨es, hes, hapart, hmerged, rfl⟩ := exists_isMerged_of_fixAll? ha (fun d hd => (hds d hd).2) hfix
  exact hes.untrimmed?_subst_iff h (isTrimmed_parse source) hapart hmerged

/-- A comment on a line of its own goes with the last handler. -/
theorem untrimmed?_fixed_none : ∃ source a tree ranges,
    source = "void M() \x7b try \x7b A(); \x7d catch (E e) \x7b Log(e); \x7d\n// gone\n" ++
      "catch \x7b throw; \x7d B(); \x7d" ∧
    Analyzer.builtin = .ok a ∧
    a.engine.fixAll? (parse source) (check (parse source) rule) = some (.applied tree ranges) ∧
    tree.text = "void M() \x7b try \x7b A(); \x7d catch (E e) \x7b Log(e); \x7d B(); \x7d" ∧
    tree.untrimmed? = none ∧
    (∀ t, (parse source).Has t → t.kind = .tryStatement →
      ¬IsFrayed (· ∈ chosen (parse source) (check (parse source) rule)) t) ∧
    ∀ p, (parse source).Has p → p ≠ (parse source).cursor →
      ¬EndsLoose (chosen (parse source) (check (parse source) rule)) p := by
  obtain ⟨source, hsource⟩ : ∃ source, source =
    "void M() \x7b try \x7b A(); \x7d catch (E e) \x7b Log(e); \x7d\n// gone\n" ++
      "catch \x7b throw; \x7d B(); \x7d" := ⟨_, rfl⟩
  obtain ⟨a, ha⟩ := Analyzer.exists_builtin
  have htext : ((a.engine.fixAll? (parse source) (check (parse source) rule)).bind
      FixOutcome.tree?).map (fun tree => (tree.text, tree.untrimmed?.map Untrimmed.message)) =
        some ("void M() \x7b try \x7b A(); \x7d catch (E e) \x7b Log(e); \x7d B(); \x7d", none) := by
    rw [(Analyzer.builtin_spec ha).2.2, hsource]
    decide +kernel
  obtain ⟨tree, ranges, hfix, htree⟩ := exists_applied htext
  obtain ⟨htree, huntrimmed⟩ := Prod.mk.inj htree
  have hnone := Option.map_eq_none_iff.mp huntrimmed
  exact ⟨source, a, tree, ranges, hsource, ha, hfix, htree, hnone,
    (untrimmed?_fixed_iff ha (fun f => (mem_check_iff ha).mp) hfix).mp hnone⟩

/-- **A node that ends with trivia**: the comment in front of the last handler belongs to the handler
before it, and is left at the end of the guarded block. -/
theorem untrimmed?_fixed_ne : ∃ source a tree ranges,
    source = "try \x7b A(); \x7d catch (E e) \x7b Log(e); \x7d /* c */ catch \x7b throw; \x7d B();" ∧
    Analyzer.builtin = .ok a ∧ check (parse source) rule ≠ [] ∧
    (∀ d ∈ check (parse source) rule, d ∈ a.analyze (parse source) ∧ d.ruleId = ruleId) ∧
    a.engine.fixAll? (parse source) (check (parse source) rule) = some (.applied tree ranges) ∧
    tree.text = "try \x7b A(); \x7d catch (E e) \x7b Log(e); \x7d /* c */ B();" ∧
    tree.untrimmed?.map Untrimmed.message =
      some "TryStatement at 0..44 has boundary trivia \"/* c */\"" := by
  obtain ⟨source, hsource⟩ : ∃ source, source =
    "try \x7b A(); \x7d catch (E e) \x7b Log(e); \x7d /* c */ catch \x7b throw; \x7d B();" := ⟨_, rfl⟩
  obtain ⟨a, ha⟩ := Analyzer.exists_builtin
  have htext : ((a.engine.fixAll? (parse source) (check (parse source) rule)).bind
      FixOutcome.tree?).map (fun tree => (tree.text, tree.untrimmed?.map Untrimmed.message)) =
        some ("try \x7b A(); \x7d catch (E e) \x7b Log(e); \x7d /* c */ B();",
          some "TryStatement at 0..44 has boundary trivia \"/* c */\"") := by
    rw [(Analyzer.builtin_spec ha).2.2, hsource]
    decide +kernel
  have hne : check (parse source) rule ≠ [] := by
    rw [hsource]
    decide +kernel
  obtain ⟨tree, ranges, hfix, htree⟩ := exists_applied htext
  obtain ⟨htree, huntrimmed⟩ := Prod.mk.inj htree
  exact ⟨source, a, tree, ranges, hsource, ha, hne, fun d => (mem_check_iff ha).mp, hfix, htree,
    huntrimmed⟩

end Rethrow

end TreeLint
