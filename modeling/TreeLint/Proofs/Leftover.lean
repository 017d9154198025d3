import TreeLint.Proofs.Comments
import TreeLint.Proofs.Edges

/-!
# The tokens that a fix leaves

A fix of findings about handlers that only rethrow takes tokens out of a text and leaves the others,
in their order. Which ones go can be told from the text that is fixed: of a guarded block that gives
way to its body, all that is not in the trimmed body, and of any other guarded block, what the removals
of its chosen handlers take once they have been merged.

## Main definitions

* `TreeLint.Rethrow.bodyPart` — what takes the place of a guarded block.
* `TreeLint.Rethrow.Goes` — a range of the text that goes.

## Main results

* `TreeLint.Rethrow.IsPlan.leaves_subst` — the tokens that a plan leaves are those that do not go.
* `TreeLint.Rethrow.leaves_fixed` — the tokens of a fixed tree are those of the text that do not go.
-/

namespace TreeLint

/-! ## Tokens of elements, with their offsets -/

namespace Element

/-- The tokens of some elements and of others behind them. -/
lemma placedLeavesList_append (start : Nat) (es ds : List Element) :
    placedLeavesList start (es ++ ds) =
      placedLeavesList start es ++ placedLeavesList (start + lengthList es) ds := by
  simp only [placedLeavesList_eq_flatMap, place_append, List.flatMap_append]

/-- The tokens of some elements, without their offsets. -/
lemma map_item_placedLeavesList (start : Nat) (es : List Element) :
    (placedLeavesList start es).map Placed.item = leavesList es := by
  rw [placedLeavesList_eq, Token.map_item_place]

/-- A token of some elements lies between where these begin and where they end. -/
lemma bounds_of_mem_placedLeavesList {start : Nat} {es : List Element} {x : Placed Token}
    (hx : x ∈ placedLeavesList start es) :
    start ≤ x.start ∧ x.start + x.item.length ≤ start + lengthList es := by
  rw [placedLeavesList_eq] at hx
  obtain ⟨ts, us, hleaves, hstart⟩ := Token.exists_split_of_mem_place hx
  have hlen : lengthList es = total ((leavesList es).map Token.length) := lengthList_eq es
  rw [hleaves, List.map_append, total_append, List.map_cons, total_cons] at hlen
  omega

/-- A token of an element lies in the span of the element. -/
lemma span_contains_of_mem_placedLeaves {x : Placed Element} {y : Placed Token}
    (hy : y ∈ x.item.placedLeaves x.start) : x.span.contains y.range = true := by
  have hmem : y ∈ placedLeavesList x.start [x.item] := by simpa [placedLeavesList] using hy
  have hbounds := bounds_of_mem_placedLeavesList hmem
  rw [lengthList_cons, lengthList_nil] at hbounds
  rw [Range.contains_iff]
  exact hbounds

/-- The tokens of solid elements are not empty. -/
lemma All.pos_of_mem_placedLeaves {e : Element} (h : e.All IsSolid) :
    ∀ {start : Nat} {y : Placed Token}, y ∈ e.placedLeaves start → 0 < y.item.length := by
  induction h with
  | token h =>
    intro start y hy
    obtain rfl := List.mem_singleton.mp hy
    exact h
  | node _ _ ih =>
    intro start y hy
    rw [placedLeaves, placedLeavesList_eq_flatMap, List.mem_flatMap] at hy
    obtain ⟨x, hx, hy⟩ := hy
    exact ih _ (item_mem hx) hy

end Element

/-- Elements with offsets that are cut in two. -/
lemma Element.exists_of_place_eq_append {start : Nat} {es : List Element} {xs ys : List (Placed Element)}
    (h : place start es = xs ++ ys) : ∃ as bs, es = as ++ bs ∧ xs = place start as ∧
      ys = place (start + lengthList as) bs := by
  have hes : es = xs.map Placed.item ++ ys.map Placed.item := by
    rw [← List.map_append, ← h, map_item_place]
  have hplace := h
  rw [hes, place_append] at hplace
  have hlen : (place start (xs.map Placed.item)).length = xs.length := by
    have hmap := congrArg List.length (map_item_place start (xs.map Placed.item))
    rwa [List.length_map, List.length_map] at hmap
  obtain ⟨hxs, hys⟩ := List.append_inj hplace hlen
  exact ⟨_, _, hes, hxs.symm, hys.symm⟩

/-- The tokens of a node are those of some children of a child node, with those before and those behind
them. -/
lemma Cursor.IsChild.exists_placedLeaves {t b : Cursor} (hb : t.IsChild b) {as ks bs : List Element}
    (hcs : b.node.children = as ++ ks ++ bs) : ∃ front back,
      t.node.toElement.placedLeaves t.start = front ++
        Element.placedLeavesList (b.start + Element.lengthList as) ks ++ back ∧
      (∀ y ∈ front, y.start + y.item.length ≤ b.start + Element.lengthList as) ∧
      ∀ y ∈ back, b.start + Element.lengthList (as ++ ks) ≤ y.start := by
  have hchildren : t.node.toElement.placedLeaves t.start =
      Element.placedLeavesList t.start b.before.reverse ++
        (b.node.toElement.placedLeaves b.start ++ Element.placedLeavesList b.stop b.after) := by
    have hnode : t.node.toElement.placedLeaves t.start =
        Element.placedLeavesList t.start t.node.children := rfl
    rw [hnode, hb.children_eq, Element.placedLeavesList_append, Element.lengthList_reverse,
      ← hb.start_eq]
    rfl
  have hblock : b.node.toElement.placedLeaves b.start = Element.placedLeavesList b.start as ++
      Element.placedLeavesList (b.start + Element.lengthList as) ks ++
        Element.placedLeavesList (b.start + Element.lengthList (as ++ ks)) bs := by
    rw [← Element.placedLeavesList_append, ← Element.placedLeavesList_append, ← hcs]
    rfl
  have hstart := hb.start_eq
  have hstop : b.stop = b.start + Element.lengthList (as ++ ks ++ bs) := by
    rw [← hcs]
    rfl
  rw [Element.lengthList_append] at hstop
  refine ⟨_, _, by rw [hchildren, hblock]; simp only [List.append_assoc]; rw [← List.append_assoc],
    fun y hy => ?_, fun y hy => ?_⟩
  · rcases List.mem_append.mp hy with hy | hy
    · have hbounds := Element.bounds_of_mem_placedLeavesList hy
      rw [Element.lengthList_reverse, ← hstart] at hbounds
      omega
    · exact (Element.bounds_of_mem_placedLeavesList hy).2
  · rcases List.mem_append.mp hy with hy | hy
    · exact (Element.bounds_of_mem_placedLeavesList hy).1
    · have hbounds := Element.bounds_of_mem_placedLeavesList hy
      omega

namespace Rethrow

variable {root tree : Node} {cs : List Cursor} {es : List Edit} {b c d p t : Cursor}

/-! ## What takes the place of a guarded block -/

/-- The elements between the braces of a block, without blanks and line ends at both ends, with their
offsets. -/
def bodyPart (b : Cursor) : List (Placed Element) :=
  let inner := ((b.elements.dropWhile fun x => x.item.kind ≠ .lBrace).drop 1).takeWhile
    fun x => x.item.kind ≠ .rBrace
  ((inner.dropWhile fun x => x.item.isLayout).reverse.dropWhile fun x => x.item.isLayout).reverse

/-- What takes the place of a guarded block is its trimmed body. -/
lemma map_item_bodyPart (b : Cursor) : (bodyPart b).map Placed.item = trimLayout (body b.node) := by
  have helements : b.node.children = b.elements.map Placed.item := by
    rw [Cursor.elements, Element.map_item_place]
  rw [bodyPart, trimLayout, body, helements, List.dropWhile_map, ← List.map_drop, List.takeWhile_map,
    List.dropWhile_map, ← List.map_reverse, List.dropWhile_map, ← List.map_reverse]
  rfl

/-- What takes the place of a guarded block are consecutive children of its body. -/
lemma isInfix_bodyPart (b : Cursor) : bodyPart b <:+: b.elements := by
  have htrim : ∀ xs : List (Placed Element), ((xs.dropWhile fun x => x.item.isLayout).reverse.dropWhile
      fun x => x.item.isLayout).reverse <:+: xs := by
    intro xs
    refine List.IsInfix.trans ?_ (List.dropWhile_suffix fun x => x.item.isLayout).isInfix
    rw [← List.reverse_infix, List.reverse_reverse]
    exact (List.dropWhile_suffix _).isInfix
  exact (htrim _).trans ((List.takeWhile_prefix _).isInfix.trans
    ((List.drop_suffix _ _).isInfix.trans (List.dropWhile_suffix _).isInfix))

/-- What takes the place of a guarded block, and what stands in its body before and behind it. -/
lemma exists_bodyPart_eq (b : Cursor) : ∃ as ks bs, b.node.children = as ++ ks ++ bs ∧
    bodyPart b = Element.place (b.start + Element.lengthList as) ks ∧ ks = trimLayout (body b.node) := by
  obtain ⟨front, back, hsplit⟩ := isInfix_bodyPart b
  obtain ⟨inner, bs, hcs, hinner, -⟩ := Element.exists_of_place_eq_append hsplit.symm
  obtain ⟨as, ks, rfl, -, hks⟩ := Element.exists_of_place_eq_append hinner.symm
  exact ⟨as, ks, bs, hcs, hks, by rw [← map_item_bodyPart, hks, Element.map_item_place]⟩

/-! ## What goes -/

/-- A range of the text goes when some handlers are chosen: it lies in a guarded block that gives way to
its body, and not in what takes the place of the block, or the merged removals of the chosen handlers of
another guarded block take it. -/
inductive Goes (root : Node) (cs : List Cursor) (r : Range) : Prop where
  /-- A guarded block gives way to its body. -/
  | flat {t b : Cursor} : root.Has t → t.kind = .tryStatement → IsPointless (· ∈ cs) t →
    t.IsChild b → b.kind = .block → t.range.contains r = true →
    (∀ x ∈ bodyPart b, x.span.contains r = false) → Goes root cs r
  /-- Chosen handlers of a guarded block are removed. -/
  | run {t : Cursor} {e : Edit} : root.Has t → t.kind = .tryStatement → ¬IsPointless (· ∈ cs) t →
    e ∈ mergeRemovals t ((t.handlers.filter fun c => decide (c ∈ cs)).map removal) →
    e.removed.contains r = true → Goes root cs r

variable {r : Range}

/-- The merged removals of the chosen handlers do not depend on the order in which these are given. -/
lemma mergeRemovals_eq_of_perm (h : root.IsShaped) (ht : root.Has t) (hk : t.kind = .tryStatement)
    {P : Cursor → Bool} {removals : List Edit}
    (hperm : removals.Perm ((t.handlers.filter P).map removal)) :
    mergeRemovals t removals = mergeRemovals t ((t.handlers.filter P).map removal) := by
  rw [mergeRemovals, mergeRemovals, sortEdits_eq h ht hk hperm, sortEdits_eq h ht hk (.refl _)]

/-- Without removals there is nothing to merge. -/
lemma mergeRemovals_nil (t : Cursor) : mergeRemovals t [] = [] := by
  have hruns : mergeRuns (TreeLint.sortEdits []) = [] := by
    rw [TreeLint.sortEdits, List.mergeSort_nil]
    rfl
  simp only [mergeRemovals, hruns, List.map_nil, ite_self]
  split <;> rfl

/-- The merged removals of the chosen handlers are the edits of the plan for a guarded block. -/
lemma IsMerged.mem_iff (h : root.IsShaped) (hmerged : IsMerged root cs es) (ht : root.Has t)
    (hk : t.kind = .tryStatement) (hleft : ¬IsPointless (· ∈ cs) t)
    (hchosen : ∃ c ∈ t.handlers, c ∈ cs) {e : Edit} :
    e ∈ mergeRemovals t ((t.handlers.filter fun c => decide (c ∈ cs)).map removal) ↔
      e ∈ es ∧ IsFix (· ∈ cs) t e := by
  obtain ⟨removals, hperm, hfixes⟩ := hmerged t ht hk hleft hchosen
  rw [← mergeRemovals_eq_of_perm h ht hk hperm, hfixes]

/-- What goes is removed by an edit of the plan for a guarded block; if this gives way to its body, it is
not in what takes the place of the block. -/
lemma IsPlan.exists_edit_of_goes (h : root.IsShaped) (hes : IsPlan root (· ∈ cs) es)
    (hmerged : IsMerged root cs es) (hgoes : Goes root cs r) :
    ∃ t e, root.Has t ∧ t.kind = .tryStatement ∧ e ∈ es ∧ IsFix (· ∈ cs) t e ∧
      e.removed.contains r = true ∧ (IsPointless (· ∈ cs) t → ∃ b, t.IsChild b ∧ b.kind = .block ∧
        ∀ x ∈ bodyPart b, x.span.contains r = false) := by
  cases hgoes with
  | @flat t b ht hk hpoint hb hbk hin hout =>
    obtain ⟨n, hn, he⟩ := hes.exists_flat hpoint
    exact ⟨t, _, ht, hk, he, .flat hpoint hn rfl, hin, fun _ => ⟨b, hb, hbk, hout⟩⟩
  | @run t e ht hk hleft he hin =>
    have hchosen : ∃ c ∈ t.handlers, c ∈ cs := by
      by_contra hnone
      push Not at hnone
      have hnil : (t.handlers.filter fun c => decide (c ∈ cs)) = [] :=
        List.filter_eq_nil_iff.mpr fun c hc => by simpa using hnone c hc
      rw [hnil, List.map_nil, mergeRemovals_nil] at he
      cases he
    obtain ⟨he, hfix⟩ := (hmerged.mem_iff h ht hk hleft hchosen).mp he
    exact ⟨t, e, ht, hk, he, hfix, hin, fun hpoint => absurd hpoint hleft⟩

/-- A token of what takes the place of a guarded block does not go. -/
lemma IsPlan.not_goes_of_mem_bodyPart (h : root.IsShaped) (hes : IsPlan root (· ∈ cs) es)
    (hapart : ∀ e ∈ es, ∀ f ∈ es, e.overlaps f = true → e = f) (hmerged : IsMerged root cs es)
    (ht : root.Has t) (hk : t.kind = .tryStatement) (hpoint : IsPointless (· ∈ cs) t)
    (hb : t.IsChild b) (hbk : b.kind = .block) {x : Placed Element} (hx : x ∈ bodyPart b)
    (hin : x.span.contains r = true) (hr : r.start < r.stop) : ¬Goes root cs r := by
  intro hgoes
  obtain ⟨u, e, hu, huk, he, hfix, her, hout⟩ := hes.exists_edit_of_goes h hmerged hgoes
  obtain ⟨n, hn, hf⟩ := hes.exists_flat hpoint
  have hbounds := Cursor.mem_elements_bounds ((isInfix_bodyPart b).subset hx)
  have hbelow := hb.bounds
  have hover : e.overlaps (.replacement t.target (trimLayout (body n))) = true := by
    rw [Range.contains_iff] at hin her
    rw [Edit.overlaps_iff]
    simp only [Edit.replacement, Cursor.target, Cursor.range_start, Cursor.range_stop,
      Placed.span_start, Placed.span_stop] at hin ⊢
    omega
  obtain rfl := hapart _ he _ hf hover
  cases hfix with
  | run _ _ hop => cases hop
  | flat hpointless _ heq =>
    obtain rfl := h.eq_of_target_eq ht hu (.inl hk) (congrArg Edit.target heq)
    obtain ⟨d, hd, hdk, hnone⟩ := hout hpoint
    have hsame := (h.filter_block ht hk hb hbk).symm.trans (h.filter_block ht hk hd hdk)
    obtain rfl := (List.cons.inj hsame).1
    rw [hnone x hx] at hin
    cases hin

/-- What an edit of the plan removes goes if the node that it is about is kept. -/
lemma IsPlan.goes_of_replaced_try (h : root.IsShaped) (hes : IsPlan root (· ∈ cs) es)
    (hmerged : IsMerged root cs es) (hp : (batchRule es).IsLive root p) (hk : p.kind = .tryStatement)
    (hleft : ¬IsPointless (· ∈ cs) p) (hchosen : ∃ c ∈ p.handlers, c ∈ cs) {x : Placed Element}
    (hx : x ∈ p.elements) (hr : batchRule es x ≠ none) (hin : x.span.contains r = true) :
    Goes root cs r := by
  have hfixes := fun e => hmerged.mem_iff h hp.1 hk hleft hchosen (e := e)
  have hcon := (hes.rule_eq_none_iff h hp hk hfixes hx).not.mp hr
  push Not at hcon
  obtain ⟨e, he, hex⟩ := hcon
  refine .run hp.1 hk hleft he ?_
  rw [Range.contains_iff] at hex hin ⊢
  omega

/-- A token of a guarded block that gives way to its body goes if it stands in front of what takes the
place of the block, or behind it. -/
lemma goes_of_outside_bodyPart (ht : root.Has t) (hk : t.kind = .tryStatement)
    (hpoint : IsPointless (· ∈ cs) t) (hb : t.IsChild b) (hbk : b.kind = .block) {start : Nat}
    {ks : List Element} (hks : bodyPart b = Element.place start ks) {y : Placed Token}
    (hy : y ∈ t.node.toElement.placedLeaves t.start) (hlen : 0 < y.item.length)
    (hout : y.start + y.item.length ≤ start ∨ start + Element.lengthList ks ≤ y.start) :
    Goes root cs y.range := by
  refine .flat ht hk hpoint hb hbk ?_ fun x hx => ?_
  · exact Element.span_contains_of_mem_placedLeaves (x := ⟨t.node.toElement, t.start⟩) hy
  · rw [hks] at hx
    have hbounds := Element.bounds_of_mem_place hx
    rw [Bool.eq_false_iff, ne_eq, Range.contains_iff]
    simp only [Placed.span_start, Placed.span_stop, Placed.range, Range.ofLength]
    omega

/-- What stays of a guarded block that gives way to its body are the tokens of the trimmed body.

**Proof sketch.** What takes the place of the block are consecutive children of the body, so a token of
the block stands in one of them, in front of the first or behind the last. -/
lemma IsPlan.filter_placedLeaves_flat (h : root.IsShaped) (hes : IsPlan root (· ∈ cs) es)
    (hapart : ∀ e ∈ es, ∀ f ∈ es, e.overlaps f = true → e = f) (hmerged : IsMerged root cs es)
    (ht : root.Has t) (hk : t.kind = .tryStatement) (hpoint : IsPointless (· ∈ cs) t)
    {stays : Placed Token → Bool} (hstays : ∀ y, stays y = true ↔ ¬Goes root cs y.range)
    (hb : t.IsChild b) (hbk : b.kind = .block) :
    ((t.node.toElement.placedLeaves t.start).filter stays).map Placed.item =
      Element.leavesList (trimLayout (body b.node)) := by
  obtain ⟨as, ks, bs, hcs, hks, hkept⟩ := exists_bodyPart_eq b
  obtain ⟨front, back, hleaves, hfront, hback⟩ := hb.exists_placedLeaves hcs
  have hpos : ∀ y ∈ t.node.toElement.placedLeaves t.start, 0 < y.item.length := fun y hy =>
    (h.solid.node ht (h.ne_cursor (by simp [hk]))).pos_of_mem_placedLeaves hy
  -- what stands in front of the part that stays, or behind it, goes
  have hgoes : ∀ y ∈ t.node.toElement.placedLeaves t.start,
      (y.start + y.item.length ≤ b.start + Element.lengthList as ∨
        b.start + Element.lengthList (as ++ ks) ≤ y.start) → stays y = false := by
    intro y hy hout
    rw [Element.lengthList_append, ← Nat.add_assoc] at hout
    rw [Bool.eq_false_iff, ne_eq, hstays, not_not]
    exact goes_of_outside_bodyPart ht hk hpoint hb hbk hks hy (hpos y hy) hout
  have hstaysAll : ∀ y ∈ Element.placedLeavesList (b.start + Element.lengthList as) ks,
      stays y = true := by
    intro y hy
    have hlen := hpos y (by rw [hleaves]; simp [hy])
    rw [Element.placedLeavesList_eq_flatMap, ← hks, List.mem_flatMap] at hy
    obtain ⟨x, hx, hy⟩ := hy
    rw [hstays]
    refine hes.not_goes_of_mem_bodyPart h hapart hmerged ht hk hpoint hb hbk hx
      (Element.span_contains_of_mem_placedLeaves hy) ?_
    simp only [Placed.range, Range.ofLength]
    omega
  have hnone : front.filter stays = [] := List.filter_eq_nil_iff.mpr fun y hy => by
    simp [hgoes y (by rw [hleaves]; simp [hy]) (.inl (hfront y hy))]
  have hnone' : back.filter stays = [] := List.filter_eq_nil_iff.mpr fun y hy => by
    simp [hgoes y (by rw [hleaves]; simp [hy]) (.inr (hback y hy))]
  rw [hleaves, List.filter_append, List.filter_append, hnone, hnone',
    List.filter_eq_self.mpr hstaysAll, List.nil_append, List.append_nil,
    Element.map_item_placedLeavesList, hkept]

/-- **The tokens that a plan leaves** are those that do not go.

**Proof sketch.** By induction on the substitution. Of what is replaced, trivia and chosen handlers go as
a whole, and of a guarded block that gives way to its body, the tokens of the trimmed body stay. A token
that is kept is removed by no edit. -/
theorem IsPlan.leaves_subst (h : root.IsShaped) (hes : IsPlan root (· ∈ cs) es)
    (hapart : ∀ e ∈ es, ∀ f ∈ es, e.overlaps f = true → e = f) (hmerged : IsMerged root cs es)
    {stays : Placed Token → Bool} (hstays : ∀ y, stays y = true ↔ ¬Goes root cs y.range) :
    (root.subst (batchRule es)).leaves =
      ((Token.place 0 root.leaves).filter stays).map Placed.item := by
  have key : ∀ p x, (batchRule es).IsLive root p → x ∈ p.elements →
      Element.leavesList (x.item.subst (batchRule es) x.start) =
        ((x.item.placedLeaves x.start).filter stays).map Placed.item := by
    intro p x hp hx
    refine Rule.subst_induction (motive := fun _ x ds => Element.leavesList ds =
      ((x.item.placedLeaves x.start).filter stays).map Placed.item) ?_ ?_ ?_ hp hx
    · intro p x ds hp hx hr
      rcases hes.replaced h hp hx hr with ⟨hk, hleft, hchosen, rfl, -⟩ |
        ⟨t, n, hpt, hk, hpoint, hn, rfl, rfl⟩
      · have hnone : (x.item.placedLeaves x.start).filter stays = [] := by
          refine List.filter_eq_nil_iff.mpr fun y hy => ?_
          rw [hstays, not_not]
          exact hes.goes_of_replaced_try h hmerged hp hk hleft hchosen hx (by simp [hr])
            (Element.span_contains_of_mem_placedLeaves hy)
        rw [hnone]
        rfl
      · obtain ⟨b, hb, rfl, hbk⟩ := Cursor.exists_of_child? hn
        exact (hes.filter_placedLeaves_flat h hapart hmerged (hp.1.child hpt) hk hpoint hstays hb
          hbk).symm
    · intro p t start hp hx hr
      have hstay : stays ⟨t, start⟩ = true := by
        rw [hstays]
        intro hgoes
        obtain ⟨-, e, -, -, he, -, hin, -⟩ := hes.exists_edit_of_goes h hmerged hgoes
        have hnot : e.removed.contains (Placed.range ⟨t, start⟩) = false :=
          batchRule_eq_none_iff.mp hr e he
        rw [hin] at hnot
        cases hnot
      simp [Element.placedLeaves, hstay]
    · intro p c _ _ _ ih
      have hleaves : c.node.toElement.placedLeaves c.start =
          c.elements.flatMap fun y => y.item.placedLeaves y.start :=
        Element.placedLeavesList_eq_flatMap c.start c.node.children
      simp only [hleaves, List.filter_flatMap, List.map_flatMap, Element.leavesList_cons,
        Element.leaves_node, Element.leavesList_nil, List.append_nil]
      rw [Element.substList_flatMap, Element.leavesList_flatMap]
      exact List.flatMap_congr ih
  have hleaves : Token.place 0 root.leaves =
      root.cursor.elements.flatMap fun y => y.item.placedLeaves y.start := by
    rw [Node.leaves, ← Element.placedLeavesList_eq]
    exact Element.placedLeavesList_eq_flatMap 0 root.children
  rw [hleaves, List.filter_flatMap, List.map_flatMap, Node.leaves, Node.subst,
    Element.substList_flatMap, Element.leavesList_flatMap]
  exact List.flatMap_congr fun x hx => key _ _ (Rule.isLive_cursor _ _) hx

variable {a : Analyzer} {source : String} {ds : List Diagnostic} {ranges : List Range}

/-- **The tokens of a fixed tree** are those of the text that was fixed, in order, without those that go
by the handlers that the findings lead to. -/
theorem leaves_fixed (ha : Analyzer.builtin = .ok a) (hds : ∀ d ∈ ds, d.ruleId = ruleId)
    (hfix : a.engine.fixAll? (parse source) ds = some (.applied tree ranges))
    {stays : Placed Token → Bool}
    (hstays : ∀ y, stays y = true ↔ ¬Goes (parse source) (chosen (parse source) ds) y.range) :
    tree.leaves = ((Token.place 0 (lex source)).filter stays).map Placed.item := by
  obtain ⟨es, hes, hapart, hmerged, rfl⟩ := exists_isMerged_of_fixAll? ha hds hfix
  rw [hes.leaves_subst (isShaped_parse source) hapart hmerged hstays, leaves_parse]

end Rethrow

end TreeLint
