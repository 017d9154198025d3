import TreeLint.Fix.Edit
import TreeLint.Proofs.Locate
import TreeLint.Proofs.Substitution

/-!
# Batches of edits are substitutions

A batch of edits is applied one edit after the other, from the last to the first, and each edit looks
its target up in the tree that the later ones have left. This file shows that the result is the
substitution that makes all replacements at once, in the tree as it was.

An edit fits a tree if it removes whole consecutive children of one node, its target among them. The
node must be the root, or begin with something that stays: then no edit of a batch empties a node,
and no target can be mistaken for another.

## Main definitions

* `TreeLint.Edit.FitsAt` — an edit that removes consecutive children of a node.
* `TreeLint.batchRule` — the rule of a batch: what lies in a removed range is replaced.

## Main results

* `TreeLint.Edit.FitsAt.owner` — an element that an edit removes, below a node that it does not
  remove, is a child of the node that the edit is about.
* `TreeLint.Edit.FitsAt.apply_eq` — one edit, in a tree that has been changed behind it.
* `TreeLint.applySorted_eq` — a batch in order is the substitution by its rule.
-/

namespace TreeLint

/-! ## Edits that fit -/

/-- An edit removes consecutive children of the node at `p`, its target among them. The node is the
root or begins in front of what is removed, and no node above the target that has the target's kind
begins where the target does. -/
structure Edit.FitsAt (e : Edit) (root : Node) (p : Cursor) : Prop where
  /-- The node belongs to the tree. -/
  has : root.Has p
  /-- The node is the root or begins in front of what is removed. -/
  anchored : p = root.cursor ∨ p.start < e.removed.start
  /-- What is removed are consecutive children. -/
  segment : ∃ xs seg ys, p.node.children = xs ++ seg ++ ys ∧
    e.removed.start = p.start + Element.lengthList xs ∧
    e.removed.stop = p.start + Element.lengthList (xs ++ seg)
  /-- The target is one of the children removed. -/
  target : ∃ c, p.IsChild c ∧ e.target = c.target ∧ e.removed.contains c.range = true ∧
    ∀ f ∈ c.path, f.kind = c.kind → f.before ≠ []

namespace Edit.FitsAt

variable {e : Edit} {root : Node} {p x : Cursor}

/-- What an edit removes lies inside the node that it is about. -/
lemma contains_removed (h : e.FitsAt root p) : p.range.contains e.removed = true := by
  obtain ⟨xs, seg, ys, hcs, hstart, hstop⟩ := h.segment
  have hlen : p.node.length = Element.lengthList (xs ++ seg) + Element.lengthList ys := by
    rw [Node.length, hcs, Element.lengthList_append]
  simp only [Range.contains_iff, Cursor.range_start, Cursor.range_stop, Cursor.stop]
  omega

/-- A child of the node that an edit is about is removed as a whole or not touched. -/
lemma contains_or_apart (h : e.FitsAt root p) {y : Placed Element} (hy : y ∈ p.elements) :
    e.removed.contains y.span = true ∨ y.span.stop ≤ e.removed.start ∨
      e.removed.stop ≤ y.span.start := by
  obtain ⟨xs, seg, ys, hcs, hstart, hstop⟩ := h.segment
  simp only [Element.lengthList_append] at hstop
  rw [Cursor.elements, hcs, Element.place_append, Element.place_append, List.mem_append,
    List.mem_append] at hy
  simp only [Range.contains_iff, Placed.span_start, Placed.span_stop]
  rcases hy with (hy | hy) | hy
  · have := Element.bounds_of_mem_place hy
    omega
  · have := Element.bounds_of_mem_place hy
    omega
  · have := Element.bounds_of_mem_place hy
    simp only [Element.lengthList_append] at this
    omega

/-- A node other than the root is not removed by an edit of its children. -/
lemma not_contains_range (h : e.FitsAt root p) (hne : p ≠ root.cursor) :
    e.removed.contains p.range = false := by
  have hlt := h.anchored.resolve_left hne
  rw [Bool.eq_false_iff, ne_eq, Range.contains_iff]
  rintro ⟨hle, -⟩
  simp only [Cursor.range_start] at hle
  omega

/-- **The owner of a removed element.** If an edit removes a non-empty child of a node, but not the
node, it is this node that the edit is about.

**Proof sketch.** The two nodes overlap, so one is above the other. If the owner were below the other
node, the child of the latter around the owner would be the removed element, and the owner would be
removed with it. If the owner were above, its child around the other node would be touched, so it
would be removed, and the other node with it. -/
theorem owner (h : e.FitsAt root p) (hx : root.Has x) {y : Placed Element} (hy : y ∈ x.elements)
    (hsolid : y.item.IsSolid) (hc : e.removed.contains y.span = true)
    (hlive : x = root.cursor ∨ e.removed.contains x.range = false) : x = p := by
  have hin := Range.contains_iff.mp h.contains_removed
  have hyb := Cursor.mem_elements_bounds hy
  have hyc := Range.contains_iff.mp hc
  simp only [Cursor.range_start, Cursor.range_stop, Placed.span_start, Placed.span_stop] at hin hyc
  unfold Element.IsSolid at hsolid
  by_contra hne
  rcases Cursor.Below.comparable hx h.has with hb | hb | hb
  · obtain ⟨z, hz, hzp⟩ := hb.exists_child hne
    have hzb := hzp.bounds
    have hp : p ≠ root.cursor := by
      rintro rfl
      exact hne (Node.cursor_of_below hb)
    have hnot := h.not_contains_range hp
    rw [Bool.eq_false_iff, ne_eq, Range.contains_iff] at hnot
    simp only [Cursor.range_start, Cursor.range_stop] at hnot
    rcases Element.eq_or_apart hy hz.mem_elements with rfl | hap
    · simp only [Node.toElement, Element.length_node] at hyc
      simp only [Cursor.stop, Node.length] at hzb hnot
      omega
    · simp only [Placed.span_start, Placed.span_stop, Node.toElement, Element.length_node] at hap
      simp only [Cursor.stop, Node.length] at hzb hin
      omega
  · obtain ⟨z, hz, hzx⟩ := hb.exists_child (Ne.symm hne)
    have hzb := hzx.bounds
    have hroot : x ≠ root.cursor := by
      rintro rfl
      exact hne (Node.cursor_of_below hb).symm
    have hnot := hlive.resolve_left hroot
    rw [Bool.eq_false_iff, ne_eq, Range.contains_iff] at hnot
    simp only [Cursor.range_start, Cursor.range_stop] at hnot
    rcases h.contains_or_apart hz.mem_elements with hzc | hap
    · have hzc := Range.contains_iff.mp hzc
      simp only [Placed.span_start, Placed.span_stop, Node.toElement, Element.length_node] at hzc
      simp only [Cursor.stop, Node.length] at hzb hnot
      omega
    · simp only [Placed.span_start, Placed.span_stop, Node.toElement, Element.length_node] at hap
      simp only [Cursor.stop, Node.length] at hzb hyb
      omega
  · omega

end Edit.FitsAt

/-! ## The rule of a batch -/

/-- The rule of a batch of edits: the first element that an edit removes gives way to what the edit
inserts, the others that it removes to nothing. -/
def batchRule : List Edit → Rule
  | [], _ => none
  | e :: es, x =>
    if e.removed.contains x.span then
      some (if x.start = e.removed.start then e.operation.elements else [])
    else batchRule es x

section BatchRule

variable {e : Edit} {es : List Edit} {x : Placed Element} {ds : List Element}

/-- An element that the first edit removes gives way to what this edit inserts if it begins the removed
range, and to nothing otherwise. -/
lemma batchRule_of_contains (h : e.removed.contains x.span = true) :
    batchRule (e :: es) x =
      some (if x.start = e.removed.start then e.operation.elements else []) := by
  simp [batchRule, h]

/-- An element that the first edit does not remove is left to the other edits. -/
lemma batchRule_of_not_contains (h : e.removed.contains x.span = false) :
    batchRule (e :: es) x = batchRule es x := by simp [batchRule, h]

/-- The rule replaces an element exactly if one of the edits removes it. -/
lemma batchRule_eq_none_iff :
    batchRule es x = none ↔ ∀ e ∈ es, e.removed.contains x.span = false := by
  induction es with
  | nil => simp [batchRule]
  | cons e es ih =>
    cases h : e.removed.contains x.span with
    | true => simp [batchRule_of_contains h, h]
    | false => simp [batchRule_of_not_contains h, ih, h]

/-- What the rule puts in the place of an element is inserted by an edit that removes it. -/
lemma exists_of_batchRule_eq_some (h : batchRule es x = some ds) :
    ∃ e ∈ es, e.removed.contains x.span = true ∧
      ds = if x.start = e.removed.start then e.operation.elements else [] := by
  induction es with
  | nil => cases h
  | cons e es ih =>
    cases hc : e.removed.contains x.span with
    | true =>
      rw [batchRule_of_contains hc, Option.some.injEq] at h
      exact ⟨e, List.mem_cons_self, hc, h.symm⟩
    | false =>
      rw [batchRule_of_not_contains hc] at h
      obtain ⟨f, hf, hcf, heq⟩ := ih h
      exact ⟨f, List.mem_cons_of_mem _ hf, hcf, heq⟩

/-- The rule leaves alone what starts before all that the edits remove. -/
lemma batchRule_eq_none_of_lt (h : ∀ e ∈ es, x.start < e.removed.start) :
    batchRule es x = none := by
  refine batchRule_eq_none_iff.mpr fun e he => ?_
  have := h e he
  rw [Bool.eq_false_iff, ne_eq, Range.contains_iff]
  simp only [Placed.span_start, Placed.span_stop]
  omega

/-- What ends before the first of some edits in order is left alone by all of them. -/
lemma batchRule_cons_eq_none (hes : ∀ f ∈ es, e.removed.stop ≤ f.removed.start)
    (hx : x.item.IsSolid) (hle : x.start + x.item.length ≤ e.removed.start) :
    batchRule (e :: es) x = none := by
  have hpos : 0 < x.item.length := hx
  have := e.removed.start_le_stop
  refine batchRule_eq_none_of_lt fun f hf => ?_
  rcases List.mem_cons.mp hf with rfl | hf
  · omega
  · have := hes f hf
    omega

/-- What begins behind an edit is left to the others. -/
lemma batchRule_cons_of_le (hx : x.item.IsSolid) (hle : e.removed.stop ≤ x.start) :
    batchRule (e :: es) x = batchRule es x := by
  have hpos : 0 < x.item.length := hx
  refine batchRule_of_not_contains ?_
  rw [Bool.eq_false_iff, ne_eq, Range.contains_iff]
  simp only [Placed.span_start, Placed.span_stop]
  omega

/-- The elements that an edit removes give way to what it inserts. -/
lemma substList_removed {seg : List Element} (hne : seg ≠ []) (hsolid : ∀ s ∈ seg, s.IsSolid)
    (hstop : e.removed.stop = e.removed.start + Element.lengthList seg) :
    Element.substList (batchRule (e :: es)) e.removed.start seg = e.operation.elements := by
  obtain ⟨s, seg, rfl⟩ := List.exists_cons_of_ne_nil hne
  simp only [Element.lengthList_cons] at hstop
  have hpos : 0 < s.length := hsolid s List.mem_cons_self
  have hfirst : s.subst (batchRule (e :: es)) e.removed.start = e.operation.elements := by
    refine Element.subst_of_some ?_
    rw [batchRule_of_contains, if_pos rfl]
    simp only [Range.contains_iff, Placed.span_start, Placed.span_stop]
    omega
  have hothers : Element.substList (batchRule (e :: es)) (e.removed.start + s.length) seg = [] := by
    rw [Element.substList_flatMap, List.flatMap_eq_nil_iff]
    intro x hx
    have hb := Element.bounds_of_mem_place hx
    have hne : x.start ≠ e.removed.start := by omega
    refine Element.subst_of_some ?_
    rw [batchRule_of_contains, if_neg hne]
    simp only [Range.contains_iff, Placed.span_start, Placed.span_stop]
    omega
  rw [Element.substList_cons, hfirst, hothers, List.append_nil]

end BatchRule

/-! ## What is left is not empty -/

/-- A rule that inserts nothing empty and, where it keeps a node other than the root, keeps its first
child. -/
structure Rule.Keeps (rule : Rule) (root : Node) : Prop where
  /-- What is inserted is not empty. -/
  solid : ∀ x ds, rule x = some ds → ∀ d ∈ ds, d.IsSolid
  /-- A node that is kept keeps its first child. -/
  head : ∀ c, root.Has c → c ≠ root.cursor → rule ⟨c.node.toElement, c.start⟩ = none →
    ∀ d ds, c.node.children = d :: ds → rule ⟨d, c.start⟩ = none

namespace Rule.Keeps

variable {rule : Rule} {root : Node}

/-- What stands in the place of a child of a kept node is not empty. -/
theorem isSolid_subst (hk : rule.Keeps root) (hs : root.All Element.IsSolid) {p : Cursor}
    (hp : rule.IsLive root p) {x : Placed Element} (hx : x ∈ p.elements) :
    ∀ d ∈ x.item.subst rule x.start, d.IsSolid := by
  refine Rule.subst_induction (motive := fun _ _ ds => ∀ d ∈ ds, d.IsSolid) ?_ ?_ ?_ hp hx
  · exact fun p x ds _ _ hr => hk.solid x ds hr
  · intro p t start hp hx _ d hd
    rw [List.mem_singleton] at hd
    exact hd ▸ (hs.children hp.1 _ (Element.item_mem hx)).self
  · intro p c hp hc hr ih d hd
    rw [List.mem_singleton] at hd
    have hne : c ≠ root.cursor := by
      rintro rfl
      simpa [Node.cursor] using hc.path_eq
    have hsolid : c.node.toElement.IsSolid := (hs.node (hp.1.child hc) hne).self
    cases hcs : c.node.children with
    | nil => simp [Element.IsSolid, Node.toElement, hcs] at hsolid
    | cons y ys =>
      have hy : rule ⟨y, c.start⟩ = none := hk.head c (hp.1.child hc) hne hr y ys hcs
      obtain ⟨y', hy'⟩ : ∃ y', y.subst rule c.start = [y'] := by
        cases y with
        | token t => exact ⟨_, Element.subst_token_of_none hy⟩
        | node l ds => exact ⟨_, Element.subst_node_of_none hy⟩
      have hsolid' : 0 < y'.length :=
        ih ⟨y, c.start⟩ (by simp [Cursor.elements, hcs, Element.place]) y' (by simp [hy'])
      simp only [hd, hcs, Element.IsSolid, Element.length_node, Element.substList_cons, hy',
        Element.lengthList_append, Element.lengthList_cons]
      omega

/-- What stands in the place of the last children of a kept node is not empty. -/
lemma isSolid_substList (hk : rule.Keeps root) (hs : root.All Element.IsSolid) {p : Cursor}
    (hp : rule.IsLive root p) {xs es : List Element} (hcs : p.node.children = xs ++ es) :
    ∀ d ∈ Element.substList rule (p.start + Element.lengthList xs) es, d.IsSolid := by
  intro d hd
  rw [Element.substList_flatMap, List.mem_flatMap] at hd
  obtain ⟨x, hx, hd⟩ := hd
  refine hk.isSolid_subst hs hp ?_ d hd
  rw [Cursor.elements, hcs, Element.place_append]
  exact List.mem_append_right _ hx

end Rule.Keeps

/-- The edits of a batch that fit keep the first child of every node that they keep. -/
lemma batchRule_keeps {root : Node} {es : List Edit} (hs : root.All Element.IsSolid)
    (hfits : ∀ e ∈ es, ∃ p, e.FitsAt root p)
    (hsolid : ∀ e ∈ es, ∀ d ∈ e.operation.elements, d.IsSolid) :
    (batchRule es).Keeps root where
  solid x ds h d hd := by
    obtain ⟨e, he, -, rfl⟩ := exists_of_batchRule_eq_some h
    split at hd
    · exact hsolid e he d hd
    · cases hd
  head c hc hne hlive d ds hcs := by
    refine batchRule_eq_none_iff.mpr fun e he => ?_
    by_contra hcon
    rw [Bool.not_eq_false] at hcon
    obtain ⟨p, hp⟩ := hfits e he
    have hd : (⟨d, c.start⟩ : Placed Element) ∈ c.elements := by
      simp [Cursor.elements, hcs, Element.place]
    have hds : d.IsSolid := (hs.children hc d (by simp [hcs])).self
    have hcp := hp.owner hc hd hds hcon (.inr (batchRule_eq_none_iff.mp hlive e he))
    have hlt := hp.anchored.resolve_left (hcp ▸ hne)
    have hle := Range.contains_iff.mp hcon
    simp only [Placed.span_start, hcp] at hle
    omega

/-! ## One edit -/

/-- In a list with a part whose ends pass the test, and nothing around that does, it is this part
that a replacement takes the place of. -/
lemma splice_eq {α : Type} {covered : α → Bool} {xs seg ys repl : List α}
    (hxs : ∀ x ∈ xs, covered x = false) (hseg : ∀ x ∈ seg, covered x = true) (hne : seg ≠ [])
    (hys : ∀ x ∈ ys, covered x = false) :
    splice covered repl (xs ++ seg ++ ys) = some (xs ++ repl ++ ys) := by
  obtain ⟨s, seg', rfl⟩ := List.exists_cons_of_ne_nil hne
  obtain ⟨init, l, hinit⟩ := List.eq_nil_or_concat (s :: seg') |>.resolve_left hne
  have hs : covered s = true := hseg s List.mem_cons_self
  have hl : covered l = true := hseg l (by rw [hinit]; simp)
  have hfront : (xs ++ (s :: seg') ++ ys).takeWhile (fun e => !covered e) = xs := by
    rw [List.append_assoc, List.takeWhile_append_of_pos (by simpa using hxs)]
    simp [hs]
  have hrest : (xs ++ (s :: seg') ++ ys).dropWhile (fun e => !covered e) = (s :: seg') ++ ys := by
    rw [List.append_assoc, List.dropWhile_append_of_pos (by simpa using hxs)]
    simp [hs]
  have hback : ((s :: seg') ++ ys).reverse.takeWhile (fun e => !covered e) = ys.reverse := by
    rw [hinit, List.concat_eq_append, List.reverse_append, List.reverse_append,
      List.takeWhile_append_of_pos (by simpa using hys)]
    simp [hl]
  simp only [splice, hfront, hrest, hback, List.reverse_reverse]
  simp

/-- A child node that is not empty and lies in some consecutive children is one of them. -/
lemma Cursor.IsChild.exists_front {p c : Cursor} (h : p.IsChild c) {xs seg ys : List Element}
    (hcs : p.node.children = xs ++ seg ++ ys) (hsolid : c.node.toElement.IsSolid)
    (hstart : p.start + Element.lengthList xs ≤ c.start)
    (hstop : c.stop ≤ p.start + Element.lengthList (xs ++ seg)) :
    seg ≠ [] ∧ ∃ rest, xs ++ seg = c.before.reverse ++ c.node.toElement :: rest := by
  have hsplit := h.children_eq
  have hcstart := h.start_eq
  simp only [Cursor.stop, Node.length, Element.lengthList_append] at hstop
  simp only [Element.IsSolid, Node.toElement, Element.length_node] at hsolid
  constructor
  · rintro rfl
    simp only [Element.lengthList_nil] at hstop
    omega
  rw [hcs] at hsplit
  rcases List.append_eq_append_iff.mp hsplit with ⟨zs, hzs, -⟩ | ⟨zs, hzs, hys⟩
  · have hlen := congrArg Element.lengthList hzs
    simp only [Element.lengthList_append, Element.lengthList_reverse] at hlen
    omega
  · cases zs with
    | nil =>
      have hlen := congrArg Element.lengthList hzs
      simp only [Element.lengthList_append, Element.lengthList_reverse, Element.lengthList_nil]
        at hlen
      omega
    | cons z zs =>
      obtain ⟨rfl, -⟩ := List.cons.inj hys
      exact ⟨zs, hzs⟩

/-- No solid element is empty, so nothing is dropped where empty elements would be. -/
lemma Element.dropWhile_eq_self {ds : List Element} (h : ∀ d ∈ ds, d.IsSolid) :
    ds.dropWhile (·.length = 0) = ds := by
  cases ds with
  | nil => rfl
  | cons d ds =>
    have hd : 0 < d.length := h d List.mem_cons_self
    exact List.dropWhile_cons_of_neg (by simpa using Nat.ne_of_gt hd)

/-- Among the children of a node, an edit takes out those in the removed range, if none in front of them
is empty. Empty ones directly behind them go with them. -/
lemma Edit.splice_elements {e : Edit} {start : Nat} {xs seg : List Element} (ys : List Element)
    (hxs : ∀ d ∈ xs, d.IsSolid) (hne : seg ≠ []) (hstart : e.removed.start = start + Element.lengthList xs)
    (hstop : e.removed.stop = start + Element.lengthList (xs ++ seg)) (ds : List Element) :
    ∃ zs, splice (fun x : Placed Element => e.removed.contains x.span)
        (ds.map fun x => (⟨x, 0⟩ : Placed Element)) (Element.place start (xs ++ seg ++ ys)) =
      some zs ∧ zs.map Placed.item = xs ++ ds ++ ys.dropWhile (·.length = 0) := by
  rw [Element.lengthList_append] at hstop
  have hys : ys = ys.takeWhile (·.length = 0) ++ ys.dropWhile (·.length = 0) :=
    List.takeWhile_append_dropWhile.symm
  have hempty : Element.lengthList (ys.takeWhile (·.length = 0)) = 0 :=
    Element.lengthList_eq_zero fun d hd => by simpa using List.mem_takeWhile_imp hd
  have hhead : ∀ d ∈ (ys.dropWhile (·.length = 0)).head?, 0 < d.length := by
    intro d hd
    have := List.head?_dropWhile_not (·.length = 0) ys
    rw [Option.mem_def.mp hd] at this
    have hd : ¬d.length = 0 := by simpa using this
    omega
  generalize ys.takeWhile (·.length = 0) = us, ys.dropWhile (·.length = 0) = vs at hys hempty hhead
  subst hys
  refine ⟨Element.place start xs ++ (ds.map fun x => (⟨x, 0⟩ : Placed Element)) ++
    Element.place (start + Element.lengthList (xs ++ (seg ++ us))) vs, ?_, ?_⟩
  · rw [show xs ++ seg ++ (us ++ vs) = xs ++ (seg ++ us) ++ vs by simp, Element.place_append,
      Element.place_append]
    refine splice_eq (fun x hx => ?_) (fun x hx => ?_) ?_ fun x hx => ?_
    · have hb := Element.bounds_of_mem_place hx
      have : 0 < x.item.length := hxs _ (Element.item_mem hx)
      rw [Bool.eq_false_iff, ne_eq, Range.contains_iff]
      simp only [Placed.span_start, Placed.span_stop]
      omega
    · have hb := Element.bounds_of_mem_place hx
      simp only [Element.lengthList_append] at hb
      simp only [Range.contains_iff, Placed.span_start, Placed.span_stop]
      omega
    · obtain ⟨s, seg', rfl⟩ := List.exists_cons_of_ne_nil hne
      simp [Element.place]
    · rw [Bool.eq_false_iff, ne_eq, Range.contains_iff]
      simp only [Placed.span_start, Placed.span_stop]
      cases vs with
      | nil => cases hx
      | cons v vs =>
        have hv : 0 < v.length := hhead v rfl
        simp only [Element.place, List.mem_cons, Element.lengthList_append] at hx
        rcases hx with rfl | hx
        · dsimp only
          omega
        · have hb := Element.bounds_of_mem_place hx
          omega
  · simp [Function.comp_def]

/-- An edit whose target is found in a tree takes out the children in the removed range. -/
lemma Edit.apply_eq_rebuildAlong {e : Edit} {root : Node} {c q : Cursor} {xs seg ys : List Element}
    (hresolve : e.target.resolve? root = some c) (hq : c.parent? = some q)
    (hcs : q.node.children = xs ++ seg ++ ys) (hxs : ∀ d ∈ xs, d.IsSolid) (hne : seg ≠ [])
    (hstart : e.removed.start = q.start + Element.lengthList xs)
    (hstop : e.removed.stop = q.start + Element.lengthList (xs ++ seg)) :
    e.apply root = .ok (Cursor.rebuildAlong
      ⟨q.kind, xs ++ e.operation.elements ++ ys.dropWhile (·.length = 0)⟩ q.path) := by
  obtain ⟨zs, hsplice, hzs⟩ := Edit.splice_elements ys hxs hne hstart hstop e.operation.elements
  rw [Edit.apply, hresolve, Option.bind_some, hq]
  simp only [Placed.span] at hsplice
  simp only [Cursor.elements, hcs, hsplice, hzs]
  rfl

namespace Edit.FitsAt

variable {e : Edit} {root : Node} {p : Cursor} {rule : Rule}

/-- An edit does not remove a node above the one that it is about. -/
lemma not_contains_of_below (h : e.FitsAt root p) {a : Cursor} (ha : a.Below p)
    (hne : a ≠ root.cursor) : e.removed.contains a.range = false := by
  have hp : p ≠ root.cursor := by
    rintro rfl
    exact hne (Node.cursor_of_below ha)
  have hnot := h.not_contains_range hp
  have hbounds := ha.bounds
  rw [Bool.eq_false_iff, ne_eq, Range.contains_iff] at hnot ⊢
  simp only [Cursor.range_start, Cursor.range_stop] at hnot ⊢
  omega

/-- The children of the node that an edit is about: what stays before, what goes, and what stays
behind. The target is among what goes. -/
lemma exists_split (h : e.FitsAt root p) (hs : root.All Element.IsSolid) :
    ∃ xs seg ys c rest, p.node.children = xs ++ seg ++ ys ∧ seg ≠ [] ∧
      e.removed.start = p.start + Element.lengthList xs ∧
      e.removed.stop = p.start + Element.lengthList (xs ++ seg) ∧
      p.IsChild c ∧ e.target = c.target ∧ c.node.toElement.IsSolid ∧
      xs ++ seg = c.before.reverse ++ c.node.toElement :: rest ∧
      ∀ f ∈ c.path, f.kind = c.kind → f.before ≠ [] := by
  obtain ⟨xs, seg, ys, hcs, hstart, hstop⟩ := h.segment
  obtain ⟨c, hc, htarget, hcon, hhead⟩ := h.target
  have hcsolid : c.node.toElement.IsSolid := (hs.children h.has _ hc.mem_children).self
  have hcon := Range.contains_iff.mp hcon
  simp only [Cursor.range_start, Cursor.range_stop] at hcon
  obtain ⟨hne, rest, hrest⟩ := hc.exists_front hcs hcsolid (by omega) (by omega)
  exact ⟨xs, seg, ys, c, rest, hcs, hne, hstart, hstop, hc, htarget, hcsolid, hrest, hhead⟩

/-- The children of the node that an edit is about, once the rule with the edit has been applied. -/
lemma substList_children (h : e.FitsAt root p) (hs : root.All Element.IsSolid)
    {es : List Edit} (hes : ∀ f ∈ es, e.removed.stop ≤ f.removed.start) {xs seg ys : List Element}
    (hcs : p.node.children = xs ++ seg ++ ys) (hne : seg ≠ [])
    (hstart : e.removed.start = p.start + Element.lengthList xs)
    (hstop : e.removed.stop = p.start + Element.lengthList (xs ++ seg)) :
    Element.substList (batchRule (e :: es)) p.start p.node.children =
      xs ++ e.operation.elements ++ Element.substList (batchRule es) e.removed.stop ys := by
  have hall := hs.children h.has
  rw [hcs] at hall
  have hxs : Element.substList (batchRule (e :: es)) p.start xs = xs :=
    Element.substList_eq_self
      (fun x hx (hle : x.start + x.item.length ≤ e.removed.start) =>
        batchRule_cons_eq_none hes hx hle)
      (fun x hx => hall x (by simp [hx])) (by omega)
  have hseg : Element.substList (batchRule (e :: es)) e.removed.start seg =
      e.operation.elements := by
    rw [Element.lengthList_append] at hstop
    exact substList_removed hne (fun s hs => (hall s (by simp [hs])).self) (by omega)
  have hys : Element.substList (batchRule (e :: es)) e.removed.stop ys =
      Element.substList (batchRule es) e.removed.stop ys :=
    Element.substList_congr
      (fun x hx (hle : e.removed.stop ≤ x.start) => batchRule_cons_of_le hx hle)
      (fun x hx => hall x (by simp [hx])) (Nat.le_refl _)
  rw [hcs, Element.substList_append, Element.substList_append, hxs, ← hstart, hseg, ← hstop, hys]

/-- The later edits leave alone what starts before the end of what an edit removes. -/
lemma batchRule_eq_none {es : List Edit} (hes : ∀ f ∈ es, e.removed.stop ≤ f.removed.start)
    {x : Placed Element} (hx : x.start < e.removed.stop) : batchRule es x = none :=
  batchRule_eq_none_of_lt fun f hf => by have := hes f hf; omega

/-- The tree that the later edits leave, seen from the node that an edit is about: what the edit
removes and what stands before it are still there. -/
lemma subst_later (h : e.FitsAt root p) (hs : root.All Element.IsSolid) {es : List Edit}
    (hes : ∀ f ∈ es, e.removed.stop ≤ f.removed.start) {xs ys : List Element}
    (hcs : p.node.children = xs ++ ys) (hstop : e.removed.stop = p.start + Element.lengthList xs)
    (hlt : p.start < e.removed.stop) :
    root.subst (batchRule es) = Cursor.rebuildAlong
      ⟨p.kind, xs ++ Element.substList (batchRule es) e.removed.stop ys⟩
      (Cursor.substPath (batchRule es) p.stop p.path) := by
  have hall := hs.children h.has
  rw [hcs] at hall
  have hxs : Element.substList (batchRule es) p.start xs = xs := by
    refine Element.substList_eq_self
      (fun x hx (hle : x.start + x.item.length ≤ e.removed.stop) => batchRule_eq_none hes ?_)
      (fun x hx => hall x (List.mem_append_left _ hx)) (Nat.le_of_eq hstop.symm)
    have : 0 < x.item.length := hx
    omega
  rw [Node.subst_eq_rebuild (batchRule es) h.has hs, hcs, Element.substList_append, ← hstop, hxs]
  · intro x hx hle
    have : 0 < x.item.length := hx
    exact batchRule_eq_none hes (by omega)
  · intro a _ ha _
    have := ha.bounds
    exact batchRule_eq_none hes (by simp only; omega)

/-- The target of an edit is found again in the tree that the later edits leave, and its parent is
the node that the edit is about. -/
lemma exists_resolve? (h : e.FitsAt root p) (hs : root.All Element.IsSolid) (rule : Rule) (n : Node)
    {c : Cursor} {rest : List Element} (hc : p.IsChild c) (htarget : e.target = c.target)
    (hcsolid : c.node.toElement.IsSolid) (hhead : ∀ f ∈ c.path, f.kind = c.kind → f.before ≠ [])
    (hk : n.kind = p.kind) (hn : n.children = c.before.reverse ++ c.node.toElement :: rest) :
    ∃ c', e.target.resolve? (Cursor.rebuildAlong n (Cursor.substPath rule p.stop p.path)) =
        some c' ∧ c'.parent? = some ⟨n, p.start, Cursor.substPath rule p.stop p.path⟩ := by
  let p' : Cursor := ⟨n, p.start, Cursor.substPath rule p.stop p.path⟩
  have hp' : (Cursor.rebuildAlong n p'.path).Has p' :=
    Cursor.has_rebuildAlong (Cursor.startsFit_substPath h.has.startsFit) _
  let c' : Cursor := ⟨c.node, c.start, ⟨n.kind, p.start, c.before, rest⟩ :: p'.path⟩
  have hc' : p'.IsChild c' := by
    have hmk := Cursor.IsChild.mk (p := p') hn
    rwa [List.reverse_reverse, Element.lengthList_reverse, ← hc.start_eq] at hmk
  have hbefore : ∀ f ∈ c'.path, ∃ g ∈ c.path, f.kind = g.kind ∧ f.before = g.before := by
    intro f hf
    rw [hc.path_eq]
    rcases List.mem_cons.mp hf with rfl | hf
    · exact ⟨_, List.mem_cons_self, hk, rfl⟩
    · obtain ⟨g, hg, heq⟩ := Cursor.mem_substPath hf
      exact ⟨g, List.mem_cons_of_mem _ hg, heq⟩
  have hsolid' : ∀ f ∈ c'.path, ∀ d ∈ f.before, 0 < d.length := by
    intro f hf d hd
    obtain ⟨g, hg, -, hgb⟩ := hbefore f hf
    exact (hs.before (h.has.child hc) g hg d (hgb ▸ hd)).self
  have hhead' : ∀ f ∈ c'.path, f.kind = c'.kind → f.before ≠ [] := by
    intro f hf hk
    obtain ⟨g, hg, hgk, hgb⟩ := hbefore f hf
    rw [hgb]
    exact hhead g hg (hgk ▸ hk)
  have hresolve := (hp'.child hc').resolve?_target hcsolid hsolid'
    ((hp'.child hc').range_ne_of_headed hsolid' hhead')
  exact ⟨c', by rw [htarget]; exact hresolve, hc'.parent?_eq⟩

/-- **An edit in a tree that has been changed behind it** has the same effect there as the rule with
the edit in the tree as it was.

**Proof sketch.** The changed tree is the old one with new children behind what the edit removes, in
its node and in those above (`subst_later`). The target and everything before it are as they were, so
the target is found again (`exists_resolve?`). What is left behind it is not empty, so among the
children of the node just those to be removed lie in the removed range (`splice_elements`). -/
theorem apply_eq (h : e.FitsAt root p) (hs : root.All Element.IsSolid) {es : List Edit}
    (hes : ∀ f ∈ es, e.removed.stop ≤ f.removed.start) (hkeeps : (batchRule es).Keeps root) :
    e.apply (root.subst (batchRule es)) = .ok (root.subst (batchRule (e :: es))) := by
  obtain ⟨xs, seg, ys, c, rest, hcs, hne, hstart, hstop, hc, htarget, hcsolid, hrest, hhead⟩ :=
    h.exists_split hs
  have hall := hs.children h.has
  have hlt : p.start < e.removed.stop := by
    have hlen := congrArg Element.lengthList hrest
    have hpos : 0 < c.node.toElement.length := hcsolid
    rw [Element.lengthList_append _ (_ :: _), Element.lengthList_cons] at hlen
    omega
  have hlive : (batchRule es).IsLive root p :=
    ⟨h.has, .inr (batchRule_eq_none_of_lt fun f hf => Nat.lt_of_lt_of_le hlt (hes f hf))⟩
  have hlater := h.subst_later hs hes hcs hstop hlt
  have hkept : xs ++ seg ++ Element.substList (batchRule es) e.removed.stop ys =
      c.before.reverse ++ c.node.toElement ::
        (rest ++ Element.substList (batchRule es) e.removed.stop ys) := by
    simp only [hrest, List.append_assoc, List.cons_append]
  obtain ⟨c', hresolve, hparent⟩ := h.exists_resolve? hs (batchRule es)
    ⟨p.kind, xs ++ seg ++ Element.substList (batchRule es) e.removed.stop ys⟩
    hc htarget hcsolid hhead rfl hkept
  have hxs : ∀ d ∈ xs, d.IsSolid := fun d hd => (hall d (by rw [hcs]; simp [hd])).self
  have hsolid : ∀ d ∈ Element.substList (batchRule es) e.removed.stop ys, d.IsSolid :=
    hstop ▸ hkeeps.isSolid_substList hs hlive hcs
  have happly : e.apply (root.subst (batchRule es)) = .ok (Cursor.rebuildAlong ⟨p.kind,
      xs ++ e.operation.elements ++ Element.substList (batchRule es) e.removed.stop ys⟩
      (Cursor.substPath (batchRule es) p.stop p.path)) := by
    rw [hlater, Edit.apply_eq_rebuildAlong hresolve hparent rfl hxs hne hstart hstop,
      Element.dropWhile_eq_self hsolid]
    rfl
  have hin := Range.contains_iff.mp h.contains_removed
  simp only [Cursor.range_start, Cursor.range_stop] at hin
  have hagree : ∀ x : Placed Element, x.item.IsSolid → p.stop ≤ x.start →
      batchRule es x = batchRule (e :: es) x :=
    fun x hx hle => (batchRule_cons_of_le hx (hin.2.trans hle)).symm
  rw [happly, Node.subst_eq_rebuild (batchRule (e :: es)) h.has hs,
    h.substList_children hs hes hcs hne hstart hstop, ← h.has.substPath_congr hs hagree]
  · exact fun x hx hle => batchRule_cons_eq_none hes hx (hle.trans hin.1)
  · intro a ha hap hne
    have hab := hap.bounds
    rw [batchRule_of_not_contains (h.not_contains_of_below hap hne)]
    exact batchRule_eq_none hes (by simp only; omega)

end Edit.FitsAt

/-! ## All edits -/

/-- Without an edit a tree stays as it is. -/
lemma Node.subst_batchRule_nil {root : Node} (hs : root.All Element.IsSolid) :
    root.subst (batchRule []) = root := by
  have heq : Element.substList (batchRule []) 0 root.children = root.children :=
    Element.substList_eq_self (fun _ _ _ => rfl) hs (Nat.le_refl _)
  cases root
  simp only [Node.subst, heq]

/-- **A batch of edits in order**, all of which fit, is the substitution by its rule.

**Proof sketch.** Induction on the batch: the later edits make a substitution, and the first edit
takes its own place in it (`Edit.FitsAt.apply_eq`). -/
theorem applySorted_eq {root : Node} (hs : root.All Element.IsSolid) {es : List Edit}
    (hfits : ∀ e ∈ es, ∃ p, e.FitsAt root p)
    (hsolid : ∀ e ∈ es, ∀ d ∈ e.operation.elements, d.IsSolid)
    (hsorted : es.Pairwise fun e f => e.removed.stop ≤ f.removed.start) :
    ∃ ranges, applySorted root es = .ok (root.subst (batchRule es), ranges) := by
  induction es with
  | nil =>
    exact ⟨[], by rw [Node.subst_batchRule_nil hs]; rfl⟩
  | cons e es ih =>
    rw [List.pairwise_cons] at hsorted
    obtain ⟨ranges, hlater⟩ := ih (fun f hf => hfits f (List.mem_cons_of_mem _ hf))
      (fun f hf => hsolid f (List.mem_cons_of_mem _ hf)) hsorted.2
    obtain ⟨p, hp⟩ := hfits e List.mem_cons_self
    have hkeeps : (batchRule es).Keeps root :=
      batchRule_keeps hs (fun f hf => hfits f (List.mem_cons_of_mem _ hf))
        fun f hf => hsolid f (List.mem_cons_of_mem _ hf)
    refine ⟨e.insertedRange?.toList ++ ranges.map e.shift, ?_⟩
    simp only [applySorted, hlater, hp.apply_eq hs hsorted.1 hkeeps, bind, Except.bind, pure,
      Except.pure]

/-! ## Order and overlap -/

/-- Sorted edits stand in the order of what they remove. -/
lemma pairwise_sortEdits (es : List Edit) :
    (sortEdits es).Pairwise fun e f => e.removed.le f.removed = true := by
  refine List.pairwise_mergeSort (fun a b c => ?_) (fun a b => ?_) es
  · simp only [Range.le, Bool.or_eq_true, Bool.and_eq_true, decide_eq_true_eq, beq_iff_eq]
    omega
  · simp only [Range.le, Bool.or_eq_true, Bool.and_eq_true, decide_eq_true_eq, beq_iff_eq]
    omega

/-- Sorting keeps the edits of a batch. -/
lemma sortEdits_perm (es : List Edit) : (sortEdits es).Perm es := List.mergeSort_perm es _

@[simp] lemma mem_sortEdits {e : Edit} {es : List Edit} : e ∈ sortEdits es ↔ e ∈ es :=
  (sortEdits_perm es).mem_iff

/-- Two edits overlap if each begins to remove before the other one stops. -/
lemma Edit.overlaps_iff {e f : Edit} : e.overlaps f = true ↔
    e.removed.start < f.removed.stop ∧ f.removed.start < e.removed.stop := Range.overlaps_iff

/-- In order, edits of which no neighbours overlap come one behind the other. -/
lemma neighboursOverlap_eq_false_iff {es : List Edit}
    (hsorted : es.Pairwise fun e f => e.removed.le f.removed = true)
    (hpos : ∀ e ∈ es, e.removed.start < e.removed.stop) :
    neighboursOverlap es = false ↔ es.Pairwise fun e f => e.removed.stop ≤ f.removed.start := by
  induction es with
  | nil => simp [neighboursOverlap]
  | cons e es ih =>
    obtain ⟨hhead, htail⟩ := List.pairwise_cons.mp hsorted
    have ih := ih htail fun f hf => hpos f (List.mem_cons_of_mem _ hf)
    cases es with
    | nil => simp [neighboursOverlap]
    | cons f es =>
      have hle := hhead f List.mem_cons_self
      have hf := hpos f (List.mem_cons_of_mem _ List.mem_cons_self)
      have hapart : e.overlaps f = false ↔ e.removed.stop ≤ f.removed.start := by
        rw [Bool.eq_false_iff, ne_eq, Edit.overlaps_iff]
        simp only [Range.le, Bool.or_eq_true, Bool.and_eq_true, decide_eq_true_eq, beq_iff_eq] at hle
        omega
      rw [List.pairwise_cons, neighboursOverlap, Bool.or_eq_false_iff, ih, hapart]
      constructor
      · rintro ⟨hef, htail'⟩
        refine ⟨fun g hg => ?_, htail'⟩
        rcases List.mem_cons.mp hg with rfl | hg
        · exact hef
        · have := (List.pairwise_cons.mp htail').1 g hg
          omega
      · rintro ⟨hef, htail'⟩
        exact ⟨hef f List.mem_cons_self, htail'⟩

/-- Edits that remove something are a conflict exactly if two of them overlap. -/
theorem neighboursOverlap_sortEdits {es : List Edit}
    (hpos : ∀ e ∈ es, e.removed.start < e.removed.stop) :
    neighboursOverlap (sortEdits es) = false ↔ es.Pairwise fun e f => e.overlaps f = false := by
  have hpos' : ∀ e ∈ sortEdits es, e.removed.start < e.removed.stop :=
    fun e he => hpos e (mem_sortEdits.mp he)
  have hsymm : ∀ {e f : Edit}, e.overlaps f = false → f.overlaps e = false := by
    intro e f h
    rwa [Edit.overlaps, Range.overlaps_comm]
  rw [neighboursOverlap_eq_false_iff (pairwise_sortEdits es) hpos',
    ← (sortEdits_perm es).pairwise_iff hsymm]
  constructor
  · refine fun h => h.imp fun hle => ?_
    rw [Bool.eq_false_iff, ne_eq, Edit.overlaps_iff]
    omega
  · intro h
    refine (h.and (pairwise_sortEdits es)).imp_of_mem fun he hf hap => ?_
    have hle := hap.2
    have hap := hap.1
    have := hpos' _ hf
    rw [Bool.eq_false_iff, ne_eq, Edit.overlaps_iff] at hap
    simp only [Range.le, Bool.or_eq_true, Bool.and_eq_true, decide_eq_true_eq, beq_iff_eq] at hle
    omega

/-- **A batch of edits that fit** is refused exactly if two of them overlap, and is the substitution
by the rule of the batch otherwise. -/
theorem applyEdits_eq {root : Node} (hs : root.All Element.IsSolid) {es : List Edit}
    (hfits : ∀ e ∈ es, ∃ p, e.FitsAt root p)
    (hsolid : ∀ e ∈ es, ∀ d ∈ e.operation.elements, d.IsSolid)
    (hpos : ∀ e ∈ es, e.removed.start < e.removed.stop) :
    (¬(es.Pairwise fun e f => e.overlaps f = false) ∧
        applyEdits root es = .error .conflictingEdits) ∨
      ((es.Pairwise fun e f => e.overlaps f = false) ∧
        ∃ ranges, applyEdits root es = .ok (root.subst (batchRule (sortEdits es)), ranges)) := by
  rw [← neighboursOverlap_sortEdits hpos]
  cases hover : neighboursOverlap (sortEdits es) with
  | true => exact .inl ⟨by simp, by simp [applyEdits, hover]⟩
  | false =>
    have hpos' : ∀ e ∈ sortEdits es, e.removed.start < e.removed.stop :=
      fun e he => hpos e (mem_sortEdits.mp he)
    obtain ⟨ranges, h⟩ := applySorted_eq hs (fun e he => hfits e (mem_sortEdits.mp he))
      (fun e he => hsolid e (mem_sortEdits.mp he))
      ((neighboursOverlap_eq_false_iff (pairwise_sortEdits es) hpos').mp hover)
    exact .inr ⟨rfl, ranges, by simp [applyEdits, hover, h]⟩

end TreeLint
