import TreeLint.Proofs.Fixes

/-!
# The handlers that a fix leaves

A fix removes handlers together with all that stands in them. The guarded blocks of the fixed tree
are those of the tree that stand neither in a removed handler nor lose all that they have but their
body; each has the handlers that are left of it, in order.

## Main definitions

* `TreeLint.Rethrow.isKept` — nothing at or above a place is removed.
* `TreeLint.Rethrow.remaining` — the handlers that are left of a guarded block.
* `TreeLint.Rethrow.stands` — the guarded blocks that are left.

## Main results

* `TreeLint.Rethrow.IsOutcome.handlers_eq` — the guarded blocks of the fixed tree and their handlers.
-/

namespace TreeLint

/-! ## Cursors by their children -/

namespace Cursor

variable {c t : Cursor}

/-- What is collected from some children comes from the nodes among them if tokens give nothing. -/
lemma flatMap_childrenFrom {α : Type} {F : Placed Element → List α}
    (htoken : ∀ u start, F ⟨.token u, start⟩ = []) (path : List Frame) (k : Kind) (start : Nat)
    (before : List Element) (offset : Nat) (es : List Element) :
    (Element.place offset es).flatMap F = (childrenFrom path k start before offset es).flatMap
      fun c => F ⟨c.node.toElement, c.start⟩ := by
  induction es generalizing before offset with
  | nil => rfl
  | cons e es ih =>
    cases e with
    | token u => simp [Element.place, childrenFrom, htoken, ih (.token u :: before)]
    | node l ds =>
      simp [Element.place, childrenFrom, ih (.node l ds :: before), Node.toElement]

/-- What is collected from the children of a node comes from its child nodes if tokens give
nothing. -/
lemma flatMap_elements {α : Type} {F : Placed Element → List α}
    (htoken : ∀ u start, F ⟨.token u, start⟩ = []) (c : Cursor) :
    c.elements.flatMap F = c.children.flatMap fun d => F ⟨d.node.toElement, d.start⟩ :=
  flatMap_childrenFrom htoken ..

/-- The nodes from some children down are those from each node among them down. -/
lemma cursorsList_eq (path : List Frame) (k : Kind) (start : Nat) (before : List Element)
    (offset : Nat) (es : List Element) : Element.cursorsList path k start before offset es =
      (childrenFrom path k start before offset es).flatMap cursors := by
  induction es generalizing before offset with
  | nil => rfl
  | cons e es ih =>
    cases e with
    | token u => simp [Element.cursorsList, Element.cursors, childrenFrom, ih]
    | node l ds => simp [Element.cursorsList, childrenFrom, ih, cursors, Node.toElement]

/-- The nodes from a node down are the node and those from its child nodes down. -/
theorem cursors_eq (c : Cursor) : c.cursors = c :: c.children.flatMap cursors := by
  rw [children, ← cursorsList_eq]
  rfl

/-- The child nodes of a kind are counted by the kinds of the children. -/
lemma length_filter_childrenFrom {k l : Kind} {path : List Frame} {start : Nat}
    (before : List Element) (offset : Nat) {es : List Element}
    (htoken : ∀ u, Element.token u ∈ es → u.kind ≠ k) (hk : k.isTrivia = false) :
    ((childrenFrom path l start before offset es).filter fun c => c.kind = k).length =
      (Element.kinds es).count k := by
  induction es generalizing before offset with
  | nil => rfl
  | cons e es ih =>
    have hrest := ih (e :: before) (offset + e.length) fun u hu =>
      htoken u (List.mem_cons_of_mem _ hu)
    rw [← List.singleton_append (l := es), Element.kinds_append, List.count_append]
    cases e with
    | token u =>
      have hu := htoken u List.mem_cons_self
      have hcount : (Element.kinds [Element.token u]).count k = 0 := by
        refine List.count_eq_zero.mpr fun hmem => ?_
        obtain ⟨x, hx, hxk⟩ := List.mem_map.mp hmem
        obtain rfl := List.mem_singleton.mp (List.mem_filter.mp hx).1
        exact hu hxk
      rw [hcount, Nat.zero_add, ← hrest]
      rfl
    | node m ds =>
      rw [Element.kinds_node, ← hrest]
      by_cases hm : m = k
      · subst hm
        simp [childrenFrom, kind, Nat.add_comm]
      · simp [childrenFrom, kind, hm]

end Cursor

/-- The child nodes of a guarded block. -/
lemma Node.IsShaped.kind_of_isChild_try {root : Node} {d t : Cursor} (h : root.IsShaped)
    (ht : root.Has t) (hk : t.kind = .tryStatement) (hd : t.IsChild d) :
    d.kind = .block ∨ d.kind = .catchClause ∨ d.kind = .finallyClause := by
  have hne : d ≠ root.cursor := by
    intro heq
    have hpath := hd.path_eq
    rw [heq] at hpath
    cases hpath
  have hnode := (h.shaped (ht.child hd) hne).kind
  rcases h.kind_of_mem_try ht hk hd.mem_children with htriv | hdk | hdk
  · cases htriv
  · exact absurd (by rw [show d.kind = .tryKw from hdk]; decide) hnode
  · exact hdk

/-- A guarded block has one body at most. -/
lemma Node.IsShaped.filter_block {root : Node} {d t : Cursor} (h : root.IsShaped) (ht : root.Has t)
    (hk : t.kind = .tryStatement) (hd : t.IsChild d) (hdk : d.kind = .block) :
    (t.children.filter fun c => c.kind = .block) = [d] := by
  have hlen : (t.children.filter fun c => c.kind = .block).length ≤ 1 := by
    rw [Cursor.children, Cursor.length_filter_childrenFrom _ _
      (fun u hu => h.token_kind_ne ht hu (by decide)) (by decide)]
    obtain ⟨n₁, _, heq, -, n₂, _, rfl, hn₂, n₃, _, rfl, -, n₄, _, rfl, -, rfl⟩ :=
      (h.shaped ht (h.ne_cursor (by simp [hk]))).slots _ (by rw [hk]; rfl)
    have hn₂ : n₂ ≤ 1 := hn₂
    rw [heq]
    simpa [List.count_append, List.count_replicate] using hn₂
  have hmem : d ∈ t.children.filter fun c => c.kind = .block :=
    List.mem_filter.mpr ⟨Cursor.mem_children.mpr hd, by simpa using hdk⟩
  obtain ⟨x, hx⟩ := List.length_eq_one_iff.mp
    (Nat.le_antisymm hlen (List.length_pos_of_mem hmem))
  rw [hx] at hmem ⊢
  rw [List.mem_singleton.mp hmem]

/-- Induction on the nodes of a tree, from the bottom up. -/
theorem Node.cursor_induction {root : Node} {motive : Cursor → Prop}
    (step : ∀ c, root.Has c → (∀ d, c.IsChild d → motive d) → motive c) :
    ∀ {c : Cursor}, root.Has c → motive c
  | c, hc => step c hc fun d hd => cursor_induction step (hc.child hd)
termination_by c => sizeOf c.node
decreasing_by
  have hlt := List.sizeOf_lt_of_mem hd.mem_children
  obtain ⟨⟨k, cs⟩, _, _⟩ := c
  obtain ⟨⟨l, ds⟩, _, _⟩ := d
  simp only [Node.toElement, Element.node.sizeOf_spec, Node.mk.sizeOf_spec] at hlt ⊢
  omega

namespace Rethrow

variable {root tree : Node} {removed : List Cursor} {es : List Edit} {c d p t : Cursor}

/-! ## What is left -/

/-- Nothing at or above a place is removed. -/
def isKept (removed : List Cursor) (c : Cursor) : Bool := c.ancestors.all fun a => a ∉ removed

/-- The handlers that are left of a guarded block. -/
def remaining (removed : List Cursor) (t : Cursor) : List Cursor :=
  t.handlers.filter (isKept removed)

/-- A guarded block is left, unless it stands in something that is removed or nothing but its body is
left of it. -/
def stands (removed : List Cursor) (t : Cursor) : Bool :=
  t.kind = .tryStatement && isKept removed t
    && (t.node.hasFinally || t.handlers.isEmpty || !(remaining removed t).isEmpty)

/-- A node without the handlers that are removed from it and from what stands in it. -/
def pruned (removed : List Cursor) (c : Cursor) : Node :=
  ⟨c.kind, Element.pruneList (removed.map Cursor.target) c.start c.node.children⟩

/-- A child node is kept if it is not removed itself and its parent is kept. -/
lemma isKept_of_isChild (hc : p.IsChild c) :
    isKept removed c = (decide (c ∉ removed) && isKept removed p) := by
  rw [isKept, hc.ancestors_eq]
  rfl

/-- Nothing inside a removed handler is left. -/
lemma isKept_eq_false (hc : c ∈ removed) (hd : c.Below d) : isKept removed d = false := by
  rw [isKept, List.all_eq_false]
  exact ⟨c, hd.mem_ancestors, by simpa using hc⟩

/-- In a guarded block that is kept, the handlers that are not removed are left. -/
lemma mem_remaining (ht : isKept removed t = true) :
    c ∈ remaining removed t ↔ c ∈ t.handlers ∧ c ∉ removed := by
  rw [remaining, List.mem_filter]
  refine and_congr_right fun hc => ?_
  rw [isKept_of_isChild (Cursor.mem_handlers.mp hc).1, ht]
  simp

/-- A guarded block that is not removed with something else is left if it is not pointless. -/
lemma stands_iff (ht : isKept removed t = true) :
    stands removed t = true ↔ t.kind = .tryStatement ∧ ¬IsPointless (· ∈ removed) t := by
  have hempty : remaining removed t = [] ↔ ∀ c ∈ t.handlers, c ∈ removed := by
    simp only [List.eq_nil_iff_forall_not_mem, mem_remaining ht, not_and, not_not]
  simp only [stands, ht, Bool.and_true, Bool.and_eq_true, decide_eq_true_eq, Bool.or_eq_true,
    Bool.not_eq_true', List.isEmpty_iff, List.isEmpty_eq_false_iff, ne_eq, hempty]
  refine and_congr_right fun _ => ⟨?_, fun hnot => ?_⟩
  · rintro ((hfin | hnone) | hleft) hpoint
    · rw [hpoint.hasFinally] at hfin
      cases hfin
    · exact hpoint.handlers hnone
    · exact hleft hpoint.chosen
  · by_contra hcon
    simp only [not_or, not_not, Bool.not_eq_true] at hcon
    exact hnot ⟨hcon.1.1, hcon.1.2, hcon.2⟩

/-! ## The guarded blocks of a pruned tree -/

/-- What gives nothing can be left out before collecting. -/
lemma flatMap_eq_filter {α β : Type} {f : α → List β} {q : α → Bool} {as : List α}
    (h : ∀ a ∈ as, f a ≠ [] → q a = true) : as.flatMap f = (as.filter q).flatMap f := by
  induction as with
  | nil => rfl
  | cons a as ih =>
    have ih := ih fun b hb => h b (List.mem_cons_of_mem _ hb)
    cases hq : q a with
    | true => simp [hq, ih]
    | false =>
      have hnil : f a = [] := by
        by_contra hne
        simp [h a List.mem_cons_self hne] at hq
      simp [hq, hnil, ih]

/-- To collect those that pass a test is to filter them. -/
lemma flatMap_ite {α β : Type} {f : α → β} {q : α → Prop} [DecidablePred q] (as : List α) :
    (as.flatMap fun a => if q a then [f a] else []) = (as.filter fun a => q a).map f := by
  induction as with
  | nil => rfl
  | cons a as ih => by_cases hq : q a <;> simp [hq, ih]

/-- The nodes of collected elements are collected. -/
lemma nodesList_flatMap {α : Type} (f : α → List Element) (as : List α) :
    Element.nodesList (as.flatMap f) = as.flatMap fun a => Element.nodesList (f a) := by
  induction as with
  | nil => rfl
  | cons a as ih => simp [Element.nodesList_append, ih]

/-- The nodes that are left below a node without some handlers. -/
lemma nodesList_pruneList (c : Cursor) (chosen : List Target) :
    Element.nodesList (Element.pruneList chosen c.start c.node.children) =
      c.children.flatMap fun d => Element.nodesList (d.node.toElement.prune chosen d.start) := by
  rw [Element.pruneList_flatMap, nodesList_flatMap]
  exact Cursor.flatMap_elements
    (F := fun x => Element.nodesList (x.item.prune chosen x.start)) (fun _ _ => rfl) c

/-- Of a guarded block that is replaced by its body, the guarded blocks of the body stand. -/
lemma IsPlan.filter_nodes_of_pointless (h : root.IsShaped) (hes : IsPlan root (· ∈ removed) es)
    (hapart : ∀ e ∈ es, ∀ f ∈ es, e.overlaps f = true → e = f) (hc : root.Has c)
    (hk : c.kind = .tryStatement) (hpoint : IsPointless (· ∈ removed) c)
    (hchild : ∀ d, c.IsChild d →
      (Element.nodesList (d.node.toElement.prune (removed.map Cursor.target) d.start)).filter
        (fun n => n.kind = .tryStatement) = (d.cursors.filter (stands removed)).map (pruned removed)) :
    (Element.nodesList (c.node.toElement.prune (removed.map Cursor.target) c.start)).filter
        (fun n => n.kind = .tryStatement) =
      ((c.children.flatMap Cursor.cursors).filter (stands removed)).map (pruned removed) := by
  obtain ⟨b, hb, -⟩ := hes.exists_flat hpoint
  obtain ⟨d, hd, rfl, hdk⟩ := Cursor.exists_of_child? hb
  obtain ⟨l, inner, r, hcs, hl, hr, hinner⟩ := h.exists_braces hc hk hpoint.handlers hb
  have hother : ∀ x ∈ c.children, x.cursors.filter (stands removed) ≠ [] →
      decide (x.kind = .block) = true := by
    intro x hx hne
    have hx := Cursor.mem_children.mp hx
    rcases h.kind_of_isChild_try hc hk hx with hxk | hxk | hxk
    · simpa using hxk
    · -- a handler is removed, and nothing in it stands
      have hmem := hpoint.chosen x (Cursor.mem_handlers.mpr ⟨hx, hxk⟩)
      refine absurd (List.filter_eq_nil_iff.mpr fun y hy => ?_) hne
      simp [stands, isKept_eq_false hmem (Cursor.mem_cursors.mp hy)]
    · have hfin := Cursor.hasFinally_iff.mpr ⟨x, hx, hxk⟩
      rw [hpoint.hasFinally] at hfin
      cases hfin
  have hbody := hchild d hd
  rw [hes.prune_block h hapart hc hk hpoint hd hdk] at hbody
  rw [hes.prune_of_pointless h hapart hc hk hpoint hb, body_eq hcs hl hr hinner, List.filter_flatMap,
    flatMap_eq_filter hother, h.filter_block hc hk hd hdk, List.flatMap_singleton, ← hbody]
  -- the block itself and its braces are no guarded blocks
  simp [Node.toElement, Element.nodesList, Element.nodes, hcs, Element.nodesList_append, hdk]

/-- The guarded blocks that are left of a node without the removed handlers are those that stand. -/
theorem IsPlan.filter_nodes_prune (h : root.IsShaped) (hes : IsPlan root (· ∈ removed) es)
    (hapart : ∀ e ∈ es, ∀ f ∈ es, e.overlaps f = true → e = f) (hc : root.Has c) :
    (∀ a ∈ c.ancestors.tail, a ∉ removed) →
      (Element.nodesList (c.node.toElement.prune (removed.map Cursor.target) c.start)).filter
          (fun n => n.kind = .tryStatement) =
        (c.cursors.filter (stands removed)).map (pruned removed) := by
  refine Node.cursor_induction (motive := fun c => (∀ a ∈ c.ancestors.tail, a ∉ removed) →
    (Element.nodesList (c.node.toElement.prune (removed.map Cursor.target) c.start)).filter
        (fun n => n.kind = .tryStatement) =
      (c.cursors.filter (stands removed)).map (pruned removed)) ?_ hc
  intro c hc ih habove
  obtain ⟨above, hancestors⟩ := c.ancestors_eq_cons
  by_cases hmem : c ∈ removed
  · -- nothing below a removed handler stands
    have hnone : c.cursors.filter (stands removed) = [] := by
      refine List.filter_eq_nil_iff.mpr fun d hd => ?_
      simp [stands, isKept_eq_false hmem (Cursor.mem_cursors.mp hd)]
    rw [prune_of_mem hmem, hnone]
    rfl
  · rw [hancestors] at habove
    have hall : ∀ a ∈ c.ancestors, a ∉ removed := by
      rw [hancestors]
      exact List.forall_mem_cons.mpr ⟨hmem, habove⟩
    have hkept : isKept removed c = true := by simpa [isKept] using hall
    have hchild : ∀ d, c.IsChild d → _ := fun d hd => ih d hd (by rwa [hd.ancestors_eq])
    rw [Cursor.cursors_eq]
    by_cases hpoint : c.kind = .tryStatement ∧ IsPointless (· ∈ removed) c
    · obtain ⟨hk, hpoint⟩ := hpoint
      have hnot : stands removed c = false := by
        rw [Bool.eq_false_iff, ne_eq, stands_iff hkept]
        exact fun hstands => hstands.2 hpoint
      rw [List.filter_cons_of_neg (by simp [hnot])]
      exact hes.filter_nodes_of_pointless h hapart hc hk hpoint hchild
    · have hstays : c.kind = .tryStatement → ¬IsPointless (· ∈ removed) c := not_and.mp hpoint
      have hstands : stands removed c = decide (c.kind = .tryStatement) := by
        rw [Bool.eq_iff_iff, stands_iff hkept, decide_eq_true_eq]
        exact ⟨fun hs => hs.1, fun hk => ⟨hk, hstays hk⟩⟩
      have hbelow : (Element.nodesList
          (Element.pruneList (removed.map Cursor.target) c.start c.node.children)).filter
          (fun n => n.kind = .tryStatement) =
            ((c.children.flatMap Cursor.cursors).filter (stands removed)).map (pruned removed) := by
        rw [nodesList_pruneList, List.filter_flatMap, List.filter_flatMap, List.map_flatMap]
        exact List.flatMap_congr fun d hd => hchild d (Cursor.mem_children.mp hd)
      rw [hes.prune_of_stays h hc hmem hstays, Element.nodesList, Element.nodes, Element.nodesList,
        List.append_nil, List.filter_cons, List.filter_cons, hstands, hbelow]
      by_cases hk : c.kind = .tryStatement
      · simp [hk, pruned]
      · simp [hk]

/-- The child nodes that are left of a node without the removed handlers. -/
lemma childNodes_pruned (removed : List Cursor) (c : Cursor) :
    (pruned removed c).childNodes = c.children.flatMap fun d =>
      (d.node.toElement.prune (removed.map Cursor.target) d.start).filterMap Element.node? := by
  rw [← Cursor.flatMap_elements (F := fun x =>
    (x.item.prune (removed.map Cursor.target) x.start).filterMap Element.node?) (fun _ _ => rfl),
    Node.childNodes, pruned, Element.pruneList_flatMap, List.filterMap_flatMap]
  rfl

/-- The handlers of a guarded block that stands, without those that are removed. -/
lemma IsPlan.handlers_pruned (h : root.IsShaped) (hes : IsPlan root (· ∈ removed) es)
    (ht : root.Has t) (hk : t.kind = .tryStatement) (hkept : isKept removed t = true) :
    (pruned removed t).handlers = (remaining removed t).map (pruned removed) := by
  have hchild : ∀ d ∈ t.children,
      ((d.node.toElement.prune (removed.map Cursor.target) d.start).filterMap Element.node?).filter
        (fun n => n.kind = .catchClause) =
      if d.kind = .catchClause ∧ d ∉ removed then [pruned removed d] else [] := by
    intro d hd
    have hd := Cursor.mem_children.mp hd
    by_cases hin : d ∈ removed
    · simp [prune_of_mem hin, hin]
    · have hnode : (Element.node d.kind (Element.pruneList (removed.map Cursor.target) d.start
          d.node.children)).node? = some (pruned removed d) := rfl
      have hkind : (pruned removed d).kind = d.kind := rfl
      have hne := kind_ne_of_mem_try h ht hk hd.mem_children
      rw [hes.prune_of_stays h (ht.child hd) hin (absurd · hne), List.filterMap_cons_some hnode]
      by_cases hdk : d.kind = .catchClause <;> simp [hin, hkind, hdk]
  have hremaining : remaining removed t =
      t.children.filter fun d => d.kind = .catchClause ∧ d ∉ removed := by
    rw [remaining, Cursor.handlers, List.filter_filter]
    refine List.filter_congr fun d hd => ?_
    rw [isKept_of_isChild (Cursor.mem_children.mp hd), hkept]
    simp [Bool.and_comm]
  rw [Node.handlers, childNodes_pruned, List.filter_flatMap, List.flatMap_congr hchild, hremaining,
    flatMap_ite]

/-- **The guarded blocks of the fixed tree** are those of the tree that stand, in order, each with the
handlers that are left of it. -/
theorem IsOutcome.handlers_eq {drop : Kind → Token → Bool} (h : root.IsShaped)
    (hout : IsOutcome root (· ∈ removed) tree)
    (hlayout : ∀ k u, u.kind.isLayout = true → drop k u = true)
    (htry : ∀ u, u.kind.isTrivia = true → drop .tryStatement u = true) :
    (tree.nodes.filter fun n => n.kind = .tryStatement).map
        (fun n => n.handlers.map (Node.erase drop)) =
      (root.cursors.filter (stands removed)).map fun t =>
        (remaining removed t).map fun c => (pruned removed c).erase drop := by
  have herase : ∀ n : Node, (n.nodes.filter fun n => n.kind = .tryStatement).map
      (fun n => n.handlers.map (Node.erase drop)) =
        ((n.erase drop).nodes.filter fun n => n.kind = .tryStatement).map Node.handlers := by
    intro n
    rw [Node.nodes_erase, List.filter_map, List.map_map]
    exact List.map_congr_left fun m _ => (m.handlers_erase).symm
  rw [herase, hout.erase_eq h hlayout htry, ← herase]
  obtain ⟨hes, hapart, -⟩ := hout
  have hroot : (root.prune (removed.map Cursor.target)).nodes =
      Element.nodesList (root.cursor.node.toElement.prune (removed.map Cursor.target)
        root.cursor.start) := by
    have hkind : root.cursor.kind = .compilationUnit := h.kind
    have hmem : root.cursor ∉ removed := hes.not_mem_of_kind_ne (by simp [hkind])
    rw [hes.prune_of_stays h root.has_cursor hmem fun hk => by rw [hkind] at hk; cases hk]
    simp [Node.nodes, Node.toElement, Node.prune, Element.nodesList, Node.cursor, Cursor.kind]
  rw [hroot, hes.filter_nodes_prune h hapart root.has_cursor (by simp [Node.cursor,
    Cursor.ancestors, Cursor.ancestorsAlong]), List.map_map]
  refine List.map_congr_left fun t ht => ?_
  obtain ⟨ht, hstands⟩ := List.mem_filter.mp ht
  simp only [stands, Bool.and_eq_true, decide_eq_true_eq] at hstands
  rw [Function.comp, hes.handlers_pruned h (Node.mem_cursors.mp ht) hstands.1.1 hstands.1.2,
    List.map_map]
  rfl

end Rethrow

end TreeLint
