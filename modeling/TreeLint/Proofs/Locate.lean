import Mathlib.Data.List.TakeWhile
import TreeLint.Proofs.Place
import TreeLint.Syntax.Locate

/-!
# Ranges lead back to their nodes

A node that is remembered by its range, or by its kind and range, is found again. The search by
halving takes the only child that contains a range, so the walk from the root to the range of a node
passes through that node; the climb back ends at the outermost node of the same range.

None of this needs the elements of a tree to be non-empty: it is enough that the range is, and, for
the recovery of a target, that the elements before it are.

## Main definitions

* `TreeLint.Cursor.outermost` — the highest of the nodes above a node that have its range.

## Main results

* `TreeLint.narrow_eq` — the search by halving ends at the last position that is not above.
* `TreeLint.Node.has_of_find?`, `TreeLint.Node.Has.find?_range` — what is found at a range is a node
  of the tree with this range, and at the range of a node the outermost one is found.
* `TreeLint.Node.find?_outermost` — the outermost node with a range is found, if there is one.
* `TreeLint.Node.Has.exists_resolve?` — a target leads to its node, or to one above it with the same
  kind and range.
* `TreeLint.Node.Has.resolve?_target` — the target of a node leads back to the node.
-/

namespace TreeLint

/-! ## Searching by halving -/

/-- **The search by halving** ends at position `i` of its window if the positions up to `i` do not
lie above what is sought and those behind it do.

**Proof sketch.** Induction along the search: the half that is kept contains `i`, and a window of
one position that contains `i` starts there. -/
theorem narrow_eq {position : Nat → Ordering} {base size i : Nat} (hlo : base ≤ i)
    (hhi : i < base + size) (hle : ∀ j ≤ i, position j ≠ .gt)
    (hgt : ∀ j, i < j → j < base + size → position j = .gt) :
    narrow position base size = i := by
  fun_induction narrow position base size with
  | case1 base size hsize half ih =>
    by_cases hmid : position (base + half) = .gt
    · simp only [hmid, dif_pos, if_true] at ih ⊢
      have hi : i < base + half := by
        by_contra hcon
        exact hle _ (by omega) hmid
      exact ih hlo (by omega) fun j hj hj' => hgt j hj (by omega)
    · simp only [hmid, dif_neg, not_false_eq_true, if_false] at ih ⊢
      have hi : base + half ≤ i := by
        by_contra hcon
        exact hmid (hgt _ (by omega) (by omega))
      exact ih hi (by omega) fun j hj hj' => hgt j hj (by omega)
  | case2 base size hsize => omega

/-- The position that is neither below nor above what is sought is the one to which the search
leads. -/
lemma searchIndex_eq {position : Nat → Ordering} {size i : Nat} (hi : i < size)
    (hlt : ∀ j < i, position j = .lt) (heq : position i = .eq)
    (hgt : ∀ j, i < j → j < size → position j = .gt) : searchIndex position size = i := by
  have hle : ∀ j ≤ i, position j ≠ .gt := by
    intro j hj
    rcases Nat.lt_or_eq_of_le hj with h | rfl
    · simp [hlt j h]
    · simp [heq]
  have hnarrow : narrow position 0 size = i :=
    narrow_eq (Nat.zero_le _) (by omega) hle fun j hj hj' => hgt j hj (by omega)
  simp [searchIndex, hnarrow, heq]

namespace Range

variable {r s : Range}

/-- A range that stops where another one starts lies before it. -/
lemma relation_eq_lt (h : r.stop ≤ s.start) : r.relation s = .lt := by simp [relation, h]

/-- A range that starts where another one stops lies behind it, unless both are empty there. -/
lemma relation_eq_gt (h : s.stop ≤ r.start) (hne : s.start < r.stop) : r.relation s = .gt := by
  simp [relation, h, Nat.not_le.mpr hne]

/-- Ranges that overlap are at the same position. -/
lemma relation_eq_eq (h₁ : s.start < r.stop) (h₂ : r.start < s.stop) : r.relation s = .eq := by
  simp [relation, Nat.not_le.mpr h₁, Nat.not_le.mpr h₂]

end Range

/-! ## One step of the walk -/

namespace Cursor

variable {c d p x : Cursor} {r : Range}

/-- Nodes have the same range if they start and stop at the same offsets. -/
lemma range_eq_iff : c.range = d.range ↔ c.start = d.start ∧ c.stop = d.stop :=
  ⟨fun h => ⟨congrArg Range.start h, congrArg Range.stop h⟩, fun h => Range.eq_of_bounds h.1 h.2⟩

/-- The children before a child node end before it, and those behind it begin behind it. -/
lemma childRange_of_isChild (h : p.IsChild c) (j : Nat) :
    (j < c.before.length → (p.childRange j).stop ≤ c.start) ∧
      (j = c.before.length → p.childRange j = c.range) ∧
      (c.before.length < j → c.stop ≤ (p.childRange j).start) := by
  have hcs := h.children_eq
  have hs := h.start_eq
  refine ⟨fun hj => ?_, ?_, fun hj => ?_⟩
  · obtain ⟨e, he⟩ : ∃ e, p.node.children[j]? = some e := by
      rw [hcs]; exact ⟨_, List.getElem?_eq_getElem (by simp; omega)⟩
    have hsplit : c.before.reverse = c.before.reverse.take j ++ c.before.reverse.drop j :=
      (List.take_append_drop ..).symm
    have htake : p.node.children.take j = c.before.reverse.take j := by
      rw [hcs, List.take_append_of_le_length (by simp; omega)]
    have hmem : e ∈ c.before.reverse.drop j := by
      rw [hcs, List.getElem?_append_left (by simp; omega)] at he
      exact List.mem_of_getElem? (i := 0) (by simpa using he)
    have hle := Element.length_le_of_mem hmem
    have hsum := congrArg Element.lengthList hsplit
    simp only [Element.lengthList_append, Element.lengthList_reverse] at hsum
    simp only [childRange, Range.ofLength, he, htake, Option.map_some, Option.getD_some]
    omega
  · rintro rfl
    have hget : p.node.children[c.before.length]? = some c.node.toElement := by
      rw [hcs]; simp
    have htake : p.node.children.take c.before.length = c.before.reverse := by
      rw [hcs, List.take_left' (by simp)]
    simp [childRange, range, hget, htake, hs, Node.toElement, Node.length]
  · have htake : (c.before.reverse ++ [c.node.toElement]).Sublist (p.node.children.take j) := by
      rw [hcs, List.take_append]
      refine List.Sublist.append ?_ ?_
      · have hall : c.before.reverse.take j = c.before.reverse :=
          List.take_of_length_le (by simp only [List.length_reverse]; omega)
        exact hall.symm ▸ List.Sublist.refl _
      · obtain ⟨n, hn⟩ : ∃ n, j - c.before.reverse.length = n + 1 :=
          ⟨j - c.before.length - 1, by simp only [List.length_reverse]; omega⟩
        rw [hn, List.take_succ_cons]
        exact List.Sublist.cons_cons _ (List.nil_sublist _)
    have hle := Element.lengthList_le_of_sublist htake
    simp only [Element.lengthList_append, Element.lengthList_reverse, Element.lengthList_cons,
      Element.lengthList_nil, Node.toElement, Element.length_node] at hle
    simp only [childRange, Range.ofLength, stop, Node.length]
    omega

/-- A child node is at the index of the siblings before it. -/
lemma childAt?_of_isChild (h : p.IsChild c) : p.childAt? c.before.length = some (.node c) := by
  have hcs := h.children_eq
  have hget : p.node.children[c.before.length]? = some (.node c.node.kind c.node.children) := by
    rw [hcs]; simp [Node.toElement]
  have htake : p.node.children.take c.before.length = c.before.reverse := by
    rw [hcs, List.take_left' (by simp)]
  have hdrop : p.node.children.drop (c.before.length + 1) = c.after := by
    rw [hcs, List.drop_append]; simp
  simp only [childAt?, hget, htake, hdrop, Element.lengthList_reverse, List.reverse_reverse,
    ← h.start_eq, ← h.path_eq]

/-- A walk to a non-empty range enters the child node that contains the range. -/
theorem step?_of_isChild (h : p.IsChild c) (hr : r.start < r.stop)
    (hc : c.range.contains r = true) : p.step? r = some (.node c) := by
  have hbounds := Range.contains_iff.mp hc
  simp only [range_start, range_stop] at hbounds
  have hindex : searchIndex (fun i => (p.childRange i).relation r) p.node.children.length =
      c.before.length := by
    refine searchIndex_eq (by rw [h.children_eq]; simp) (fun j hj => ?_) ?_ fun j hj _ => ?_
    · have := (childRange_of_isChild h j).1 hj
      exact Range.relation_eq_lt (by omega)
    · rw [(childRange_of_isChild h _).2.1 rfl]
      exact Range.relation_eq_eq (by rw [range_stop]; omega) (by rw [range_start]; omega)
    · have h₁ := (childRange_of_isChild h j).2.2 hj
      have h₂ := (p.childRange j).start_le_stop
      exact Range.relation_eq_gt (by omega) (by omega)
  simp only [step?, hindex, (childRange_of_isChild h _).2.1 rfl, hc, if_true,
    childAt?_of_isChild h]

/-- Where a step of the walk leads: to a child node that contains the range, or to a token. -/
lemma isChild_of_step? (h : p.step? r = some (.node c)) :
    p.IsChild c ∧ c.range.contains r = true := by
  simp only [step?] at h
  split at h
  · rename_i hcon
    generalize searchIndex (fun i => (p.childRange i).relation r) p.node.children.length = i at h hcon
    simp only [childAt?] at h
    split at h
    · cases h
    · cases h
    · rename_i k cs hget
      have hlt : i < p.node.children.length := (List.getElem?_eq_some_iff.mp hget).1
      have hsplit : p.node.children =
          p.node.children.take i ++ .node k cs :: p.node.children.drop (i + 1) := by
        rw [← (List.getElem?_eq_some_iff.mp hget).2, List.getElem_cons_drop,
          List.take_append_drop]
      cases h
      refine ⟨.mk hsplit, ?_⟩
      simpa [childRange, range, hget, Node.length] using hcon
  · cases h

/-- A token at which a step of the walk ends is a child of the node that is left. -/
lemma parent_of_step? {t : Placed Token} (h : p.step? r = some (.token t x)) : x = p := by
  simp only [step?, childAt?] at h
  split at h
  · split at h
    · cases h
    · cases h; rfl
    · cases h
  · cases h

/-! ## The walk -/

/-- The walk goes on from the child node that it enters. -/
lemma covering_of_step? (h : p.step? r = some (.node c)) : p.covering r = c.covering r := by
  rw [covering]
  split <;> simp_all

/-- The walk ends below its beginning, and still around the range. -/
lemma below_covering (c : Cursor) (hc : c.range.contains r = true) :
    c.Below (c.covering r).enclosing ∧ (c.covering r).enclosing.range.contains r = true := by
  fun_induction covering c r with
  | case1 c hstep => exact ⟨.refl, hc⟩
  | case2 c t x hstep => rw [parent_of_step? hstep]; exact ⟨.refl, hc⟩
  | case3 c d hstep ih =>
    obtain ⟨hchild, hd⟩ := isChild_of_step? hstep
    obtain ⟨hb, hr⟩ := ih hd
    exact ⟨.head hchild hb, hr⟩

/-- A walk to a non-empty range passes through every node that contains the range. -/
lemma Below.covering_eq (h : p.Below c) (hr : r.start < r.stop) (hc : c.range.contains r = true) :
    p.covering r = c.covering r := by
  induction h with
  | refl => rfl
  | tail hb hstep ih =>
    rename_i q d
    have hq := (Below.contains (.single hstep : q.Below d))
    rw [ih, covering_of_step? (step?_of_isChild hstep hr hc)]
    rw [Range.contains_iff] at hq hc ⊢
    omega

/-! ## The climb back -/

/-- The highest of the nodes above a node, itself included, that have its range. -/
def outermost (c : Cursor) : Cursor :=
  ((c.ancestors.takeWhile (·.range = c.range)).getLast?).getD c

/-- A node is the first of its own ancestors. -/
lemma ancestors_eq_cons (c : Cursor) : ∃ cs, c.ancestors = c :: cs := by
  cases hp : c.path with
  | nil => exact ⟨[], by simp only [ancestors, hp, ancestorsAlong]; cases c; simp_all⟩
  | cons f path =>
    refine ⟨ancestorsAlong (f.plug c.node) f.start path, ?_⟩
    simp only [ancestors, hp, ancestorsAlong]; cases c; simp_all

/-- The climb ends at the last of the ancestors that have the range of the node. -/
lemma getLast?_outermost (c : Cursor) :
    (c.ancestors.takeWhile (·.range = c.range)).getLast? = some c.outermost := by
  obtain ⟨cs, hcs⟩ := c.ancestors_eq_cons
  simp [outermost, hcs, List.getLast?_cons]

/-- The climb ends at an ancestor with the range of the node. -/
lemma outermost_mem (c : Cursor) : c.outermost ∈ c.ancestors ∧ c.outermost.range = c.range := by
  have hmem := List.mem_of_getLast? c.getLast?_outermost
  exact ⟨(List.takeWhile_sublist _).subset hmem, by simpa using List.mem_takeWhile_imp hmem⟩

/-- Between a node and one below it, the ancestors of the lower one lie between the two. -/
lemma Below.exists_ancestors (h : p.Below c) :
    ∃ chain, c.ancestors = chain ++ p.ancestors ∧ ∀ y ∈ chain, p.Below y ∧ y.Below c := by
  induction h with
  | refl => exact ⟨[], rfl, by simp⟩
  | tail hb hstep ih =>
    rename_i q d
    obtain ⟨chain, hchain, hall⟩ := ih
    refine ⟨d :: chain, by rw [hstep.ancestors_eq, hchain]; rfl, fun y hy => ?_⟩
    rcases List.mem_cons.mp hy with rfl | hy
    · exact ⟨.tail hb hstep, .refl⟩
    · exact ⟨(hall y hy).1, .tail (hall y hy).2 hstep⟩

/-- From below a node, but with the same range, the climb ends at the same place. -/
lemma Below.climb_eq (h : p.Below c) (hr : c.range.contains p.range = true) :
    (c.ancestors.takeWhile (·.range = p.range)).getLast? = some p.outermost := by
  obtain ⟨chain, hchain, hall⟩ := h.exists_ancestors
  have hrange : ∀ y ∈ chain, y.range = p.range := by
    intro y hy
    have h₁ := (hall y hy).1.bounds
    have h₂ := (hall y hy).2.bounds
    have h₃ := Range.contains_iff.mp hr
    simp only [range_start, range_stop] at h₃
    rw [range_eq_iff]
    omega
  obtain ⟨cs, hcs⟩ := p.ancestors_eq_cons
  rw [hchain, List.takeWhile_append_of_pos (by simpa using hrange), List.getLast?_append,
    getLast?_outermost]
  rfl

end Cursor

/-! ## What stands at a range -/

namespace Node

variable {root : Node} {c o : Cursor} {r : Range}

/-- What is found at a range is a node of the tree with this range. -/
theorem has_of_find? (h : root.find? r = some o) : root.Has o ∧ o.range = r := by
  simp only [find?, covering?] at h
  split at h
  · rename_i hr
    replace h : ((root.cursor.covering r).enclosing.ancestors.takeWhile (·.range = r)).getLast? =
      some o := h
    have hmem := List.mem_of_getLast? h
    have hbelow := (Cursor.below_covering root.cursor (r := r) (by
      simpa [Cursor.range, cursor, fullRange] using hr)).1
    exact ⟨Has.of_mem_ancestors hbelow ((List.takeWhile_sublist _).subset hmem),
      by simpa using List.mem_takeWhile_imp hmem⟩
  · cases h

/-- **At the range of a non-empty node**, the outermost node with this range is found.

**Proof sketch.** The walk from the root passes through the node (`Below.covering_eq`) and ends
somewhere below it, still around the range. All nodes between the two have the range of the node, so
the climb reaches the node and goes on from there. -/
theorem Has.find?_range (h : root.Has c) (hc : 0 < c.node.length) :
    root.find? c.range = some c.outermost := by
  have hfull : root.fullRange.contains c.range = true := by
    simpa [fullRange, Cursor.range, cursor] using Cursor.Below.contains h
  have hwalk := Cursor.Below.covering_eq h (r := c.range)
    (by simp only [Cursor.range_start, Cursor.range_stop, Cursor.stop]; omega)
    (by simp [Range.contains_iff])
  obtain ⟨hb, hr⟩ := c.below_covering (r := c.range) (by simp [Range.contains_iff])
  have hclimb := hb.climb_eq hr
  simpa [find?, covering?, hfull, hwalk] using hclimb

/-- At a non-empty range, the walk and the climb lead from any node that has it to the same node. -/
lemma Has.find?_of_range (h : root.Has c) (hcr : c.range = r) (hr : r.start < r.stop) :
    root.find? r = some c.outermost := by
  subst hcr
  refine h.find?_range ?_
  simp only [Cursor.range_start, Cursor.range_stop, Cursor.stop] at hr
  omega

/-- The node found at a non-empty range is the one above all others that have this range. -/
lemma find?_eq_some_iff (hr : r.start < r.stop) : root.find? r = some o ↔
    root.Has o ∧ o.range = r ∧ ∀ c, root.Has c → c.range = r → o ∈ c.ancestors := by
  constructor
  · intro h
    obtain ⟨ho, horange⟩ := has_of_find? h
    refine ⟨ho, horange, fun c hc hcr => ?_⟩
    obtain rfl := Option.some.inj (h.symm.trans (hc.find?_of_range hcr hr))
    exact c.outermost_mem.1
  · rintro ⟨ho, horange, hall⟩
    -- the outermost node above it has the range as well, so it is above and below
    obtain ⟨hmem, hrange⟩ := o.outermost_mem
    have hover := hall _ (ho.of_mem_ancestors hmem) (hrange.trans horange)
    have habove := (ho.of_mem_ancestors hmem).below_of_mem_ancestors hover
    rw [ho.find?_of_range horange hr, (ho.below_of_mem_ancestors hmem).antisymm habove]

/-- At a non-empty range nothing is found if and only if no node has it. -/
lemma find?_eq_none_iff (hr : r.start < r.stop) :
    root.find? r = none ↔ ∀ c, root.Has c → c.range ≠ r := by
  constructor
  · intro hnone c hc hcr
    rw [hc.find?_of_range hcr hr] at hnone
    cases hnone
  · intro hno
    rw [Option.eq_none_iff_forall_ne_some]
    intro o ho
    obtain ⟨hhas, hrange⟩ := has_of_find? ho
    exact hno o hhas hrange

/-- **What is found at a non-empty range** is the outermost node that has exactly this range: a node of the
tree with the range, above all others with the range. Nothing is found if and only if no node has it.

**Proof sketch.** All nodes with the range lie on one way down (`Has.find?_range`), and the node that is
found is the highest of them. -/
theorem find?_outermost (root : Node) {r : Range} (hr : r.start < r.stop) :
    (∀ o, root.find? r = some o ↔
      o ∈ root.cursors ∧ o.range = r ∧ ∀ c ∈ root.cursors, c.range = r → o ∈ c.ancestors) ∧
    (root.find? r = none ↔ ∀ c ∈ root.cursors, c.range ≠ r) := by
  simp only [mem_cursors]
  exact ⟨fun o => find?_eq_some_iff hr, find?_eq_none_iff hr⟩

/-- Among nodes and tokens without a byte, the statement is found and not its expression, and no node is
found at a part of a token. -/
theorem find?_outermost_statement : ∃ (root : Node) (o : Cursor),
    root = ⟨.compilationUnit, [.node .block [], .node .expressionStatement [.token ⟨.error, ""⟩,
      .node .expression [.token ⟨.ident, "run"⟩], .node .block []], .token ⟨.whitespace, " "⟩]⟩ ∧
    root.find? ⟨0, 3, by decide⟩ = some o ∧ o.kind = .expressionStatement ∧
    root.find? ⟨1, 3, by decide⟩ = none := by
  obtain ⟨root, hroot⟩ : ∃ root : Node, root = ⟨.compilationUnit, [.node .block [],
    .node .expressionStatement [.token ⟨.error, ""⟩, .node .expression [.token ⟨.ident, "run"⟩],
      .node .block []], .token ⟨.whitespace, " "⟩]⟩ := ⟨_, rfl⟩
  obtain ⟨o, ho, hk, hall⟩ : ∃ o ∈ root.cursors, o.kind = .expressionStatement ∧
      o.range = ⟨0, 3, by decide⟩ ∧
        ∀ c ∈ root.cursors, c.range = ⟨0, 3, by decide⟩ → o ∈ c.ancestors := by
    rw [hroot]
    decide +kernel
  have hno : ∀ c ∈ root.cursors, c.range ≠ ⟨1, 3, by decide⟩ := by
    rw [hroot]
    decide +kernel
  exact ⟨root, o, hroot, ((find?_outermost root (by decide)).1 o).mpr ⟨ho, hall⟩, hk,
    (find?_outermost root (by decide)).2.mpr hno⟩

/-! ## Targets -/

/-- Below a node of the same range, with nothing empty before it, the preorder leads straight to a
node: everything before it has the same range. -/
lemma exists_cursors_eq {o c : Cursor} (h : o.Below c) (hr : o.range = c.range)
    (hsolid : ∀ f ∈ c.path, ∀ e ∈ f.before, 0 < e.length) :
    ∃ chain rest, o.cursors = chain ++ c.cursors ++ rest ∧
      ∀ y ∈ chain, y ∈ c.ancestors.tail ∧ y.range = c.range := by
  induction h with
  | refl => exact ⟨[], [], by simp, by simp⟩
  | tail hb hstep ih =>
    rename_i p c
    have hbounds := Cursor.Below.bounds hb
    have hstart := hstep.start_eq
    have hstop := hstep.stop_eq
    rw [Cursor.range_eq_iff] at hr
    have hrange : p.range = c.range := by rw [Cursor.range_eq_iff]; omega
    have hpath := hstep.path_eq
    have hbefore : c.before = [] := hstep.before_eq_nil
      (hsolid ⟨p.kind, p.start, c.before, c.after⟩ (by rw [hpath]; simp)) (by omega)
    obtain ⟨chain, rest, heq, hall⟩ := ih (by rw [Cursor.range_eq_iff]; omega)
      fun f hf => hsolid f (by rw [hpath]; exact List.mem_cons_of_mem _ hf)
    have hcursors : p.cursors = p :: (c.cursors ++
        Element.cursorsList p.path p.kind p.start [c.node.toElement] (p.start + c.node.length)
          c.after) := by
      have hcs := hstep.children_eq
      have hcstart : c.start = p.start := by simpa [hbefore] using hstart
      rw [hbefore] at hcs hpath
      simp only [Cursor.cursors, Node.toElement, Element.cursors, hcs, List.reverse_nil,
        List.nil_append, Element.cursorsList, Element.length_node, hpath, hcstart]
      rw [← show p.node.children = .node c.node.kind c.node.children :: c.after from hcs]
      rfl
    refine ⟨chain ++ [p], _, by rw [heq, hcursors]; simp; rfl, fun y hy => ?_⟩
    rw [hstep.ancestors_eq, List.tail_cons]
    rcases List.mem_append.mp hy with hy | hy
    · obtain ⟨hmem, hyr⟩ := hall y hy
      exact ⟨List.mem_of_mem_tail hmem, hyr.trans hrange⟩
    · obtain rfl := List.mem_singleton.mp hy
      obtain ⟨cs, hcs⟩ := y.ancestors_eq_cons
      exact ⟨by simp [hcs], hrange⟩

/-- The preorder below a node begins with the node. -/
lemma exists_cursors_eq_cons (c : Cursor) : ∃ cs, c.cursors = c :: cs := by
  simp only [Cursor.cursors, Node.toElement, Element.cursors]
  exact ⟨_, rfl⟩

/-- The target of the root leads back to the root, even if the tree is empty. -/
theorem resolve?_target_cursor (root : Node) : root.cursor.target.resolve? root = some root.cursor := by
  have houter : root.cursor.outermost = root.cursor :=
    cursor_of_below (root.has_cursor.below_of_mem_ancestors root.cursor.outermost_mem.1)
  obtain ⟨hb, hr⟩ := Cursor.below_covering root.cursor (r := root.cursor.range) (by simp [Range.contains_iff])
  have hfull : root.fullRange.contains root.cursor.range = true := by
    simp [Range.contains_iff, fullRange, Cursor.range, cursor]
  have hfind : root.find? root.cursor.range = some root.cursor := by
    have hclimb := Cursor.Below.climb_eq hb hr
    rw [houter] at hclimb
    simpa [find?, covering?, hfull] using hclimb
  obtain ⟨cs, hcs⟩ := exists_cursors_eq_cons root.cursor
  show (root.find? root.cursor.range).bind _ = some root.cursor
  rw [hfind]
  show (root.cursor.cursors.takeWhile (·.range = root.cursor.range)).find? (·.kind = root.cursor.kind) = _
  rw [hcs, List.takeWhile_cons_of_pos (by simp), List.find?_cons_of_pos (by simp)]

/-- **The target of a node** leads to the node, or to one above it with the same kind and range, if the
node is not empty and nothing in front of it on the way from the root is.

**Proof sketch.** The outermost node with the range is found, and the preorder below it leads straight
to the node (`exists_cursors_eq`): the first node of the kind on this way is the one. -/
theorem Has.exists_resolve? (h : root.Has c) (hc : 0 < c.node.length)
    (hsolid : ∀ f ∈ c.path, ∀ e ∈ f.before, 0 < e.length) : ∃ x ∈ c.ancestors,
      c.target.resolve? root = some x ∧ x.kind = c.kind ∧ x.range = c.range := by
  obtain ⟨homem, horange⟩ := c.outermost_mem
  obtain ⟨chain, rest, heq, hall⟩ :=
    exists_cursors_eq (h.below_of_mem_ancestors homem) horange hsolid
  obtain ⟨cs, hcs⟩ := exists_cursors_eq_cons c
  have htake : c.outermost.cursors.takeWhile (·.range = c.range) =
      (chain ++ [c]) ++ (cs ++ rest).takeWhile (·.range = c.range) := by
    rw [heq, hcs, List.append_assoc, List.takeWhile_append_of_pos
      (by simpa using fun y hy => (hall y hy).2)]
    simp
  obtain ⟨x, hx⟩ : ∃ x, (chain ++ [c]).find? (·.kind = c.kind) = some x :=
    Option.isSome_iff_exists.mp (by simp)
  have hmem := List.mem_of_find?_eq_some hx
  have hresolve : c.target.resolve? root = some x := by
    show (root.find? c.range).bind _ = some x
    rw [h.find?_range hc]
    show (c.outermost.cursors.takeWhile (·.range = c.range)).find? (·.kind = c.kind) = some x
    rw [htake, List.find?_append, hx, Option.some_or]
  refine ⟨x, ?_, hresolve, by simpa using List.find?_some hx, ?_⟩
  · rcases List.mem_append.mp hmem with hmem | hmem
    · exact List.mem_of_mem_tail (hall x hmem).1
    · obtain ⟨as, has⟩ := c.ancestors_eq_cons
      rw [List.mem_singleton.mp hmem, has]
      exact List.mem_cons_self
  · rcases List.mem_append.mp hmem with hmem | hmem
    · exact (hall x hmem).2
    · rw [List.mem_singleton.mp hmem]

/-- **The target of a node leads back to it**, if the node is not empty, nothing before it on the
way from the root is empty, and no node above it has the same kind and range. -/
theorem Has.resolve?_target (h : root.Has c) (hc : 0 < c.node.length)
    (hsolid : ∀ f ∈ c.path, ∀ e ∈ f.before, 0 < e.length)
    (huniq : ∀ a ∈ c.ancestors.tail, a.kind = c.kind → a.range ≠ c.range) :
    c.target.resolve? root = some c := by
  obtain ⟨x, hx, hresolve, hkind, hrange⟩ := h.exists_resolve? hc hsolid
  obtain ⟨as, has⟩ := c.ancestors_eq_cons
  rw [has, List.mem_cons] at hx
  rcases hx with rfl | hx
  · exact hresolve
  · exact absurd hrange (huniq x (by rwa [has]) hkind)

/-- A node starts behind everything before it on the way from the root. -/
lemma Has.start_le_of_mem_ancestors (h : root.Has c) {a : Cursor} (ha : a ∈ c.ancestors.tail) :
    ∃ f ∈ c.path, f.kind = a.kind ∧ a.start + Element.lengthList f.before ≤ c.start := by
  induction h with
  | refl => simp [Cursor.ancestors, cursor, Cursor.ancestorsAlong] at ha
  | tail hb hstep ih =>
    rename_i p c
    have hstart := hstep.start_eq
    rw [hstep.ancestors_eq, List.tail_cons] at ha
    obtain ⟨cs, hcs⟩ := p.ancestors_eq_cons
    rw [hcs, List.mem_cons] at ha
    rcases ha with rfl | ha
    · exact ⟨_, by rw [hstep.path_eq]; exact List.mem_cons_self, rfl, by simp only; omega⟩
    · obtain ⟨f, hf, hk, hle⟩ := ih (by rw [hcs]; exact ha)
      exact ⟨f, by rw [hstep.path_eq]; exact List.mem_cons_of_mem _ hf, hk, by omega⟩

/-- No node above a node has its kind and range if each node above it of the same kind has
something before it. -/
lemma Has.range_ne_of_headed (h : root.Has c)
    (hsolid : ∀ f ∈ c.path, ∀ e ∈ f.before, 0 < e.length)
    (hhead : ∀ f ∈ c.path, f.kind = c.kind → f.before ≠ []) :
    ∀ a ∈ c.ancestors.tail, a.kind = c.kind → a.range ≠ c.range := by
  intro a ha hk hr
  obtain ⟨f, hf, hfk, hle⟩ := h.start_le_of_mem_ancestors ha
  obtain ⟨e, es, hes⟩ := List.exists_cons_of_ne_nil (hhead f hf (hfk.trans hk))
  have hpos := hsolid f hf e (by simp [hes])
  rw [Cursor.range_eq_iff] at hr
  simp only [hes, Element.lengthList_cons] at hle
  omega

end Node

end TreeLint
