import TreeLint.Fix.Rethrow
import TreeLint.Proofs.Batch
import TreeLint.Proofs.Shape

/-!
# Handlers in their guarded blocks

The place of a handler in a shaped tree: it is a child of its guarded block, it is found again by its
target, and the trivia that go with it are the nearest of its siblings.

A range sweeps handlers if it begins and ends between children of a guarded block and holds nothing
but trivia and these handlers. The removal of a handler sweeps it, and ranges that sweep and overlap
sweep together.

## Main definitions

* `TreeLint.Cursor.IsBoundary` — an offset between two children.
* `TreeLint.Rethrow.Sweeps` — a range of trivia and handlers.

## Main results

* `TreeLint.Node.IsShaped.resolve?_target` — guarded blocks and handlers are found by their targets.
* `TreeLint.Rethrow.sweeps_removal` — the removal of a handler sweeps it.
* `TreeLint.Rethrow.Sweeps.cover`, `TreeLint.Rethrow.Sweeps.widen` — sweeping further.
-/

namespace TreeLint

/-! ## Guarded blocks and handlers -/

namespace Cursor

variable {c d t : Cursor}

/-- The handlers of a guarded block are its child nodes of that kind. -/
lemma mem_handlers : c ∈ t.handlers ↔ t.IsChild c ∧ c.kind = .catchClause := by
  simp [handlers, mem_children]

/-- The child nodes have cursors. -/
lemma mem_childNodes {n : Node} : n ∈ t.node.childNodes ↔ ∃ c, t.IsChild c ∧ c.node = n := by
  constructor
  · intro h
    obtain ⟨e, he, hnode⟩ := List.mem_filterMap.mp h
    cases e with
    | token u => cases hnode
    | node l cs =>
      obtain rfl := Option.some.inj hnode
      obtain ⟨xs, ys, hcs⟩ := List.append_of_mem he
      exact ⟨_, .mk hcs, rfl⟩
  · rintro ⟨c, hc, rfl⟩
    exact List.mem_filterMap.mpr ⟨c.node.toElement, hc.mem_children, rfl⟩

/-- The child node of a kind has a cursor. -/
lemma exists_of_child? {b : Node} {k : Kind} (h : t.node.child? k = some b) :
    ∃ d, t.IsChild d ∧ d.node = b ∧ b.kind = k := by
  obtain ⟨d, hd, rfl⟩ := mem_childNodes.mp (List.mem_of_find?_eq_some h)
  exact ⟨d, hd, rfl, by simpa using List.find?_some h⟩

/-- A clause runs in any case if one is a child node. -/
lemma hasFinally_iff : t.node.hasFinally = true ↔ ∃ f, t.IsChild f ∧ f.kind = .finallyClause := by
  simp only [Node.hasFinally, Node.child?, List.find?_isSome, mem_childNodes, decide_eq_true_eq]
  constructor
  · rintro ⟨_, ⟨f, hf, rfl⟩, hk⟩
    exact ⟨f, hf, hk⟩
  · rintro ⟨f, hf, hk⟩
    exact ⟨f.node, ⟨f, hf, rfl⟩, hk⟩

/-- A guarded block without handlers has no cursors at handlers. -/
lemma handlers_eq_nil_iff : t.node.handlers = [] ↔ t.handlers = [] := by
  simp only [List.eq_nil_iff_forall_not_mem, mem_handlers, Node.handlers, List.mem_filter,
    mem_childNodes, decide_eq_true_eq]
  constructor
  · exact fun h c hc => h c.node ⟨⟨c, hc.1, rfl⟩, hc.2⟩
  · rintro h _ ⟨⟨c, hc, rfl⟩, hk⟩
    exact h c ⟨hc, hk⟩

/-- The child nodes are in the order of the text, and none occurs twice. -/
lemma nodup_childrenFrom (path : List Frame) (k : Kind) (start : Nat) (before : List Element)
    (offset : Nat) (es : List Element) : (childrenFrom path k start before offset es).Nodup := by
  induction es generalizing before offset with
  | nil => exact List.nodup_nil
  | cons e es ih =>
    cases e with
    | token u => exact ih _ _
    | node l ds =>
      refine List.nodup_cons.mpr ⟨fun hmem => ?_, ih _ _⟩
      obtain ⟨xs, l', ds', ys, -, heq⟩ := (mem_childrenFrom ..).mp hmem
      have hpath := congrArg (fun c : Cursor => c.before.length) heq
      simp only [Cursor.before, List.head?_cons, Option.map_some, Option.getD_some,
        List.length_append, List.length_reverse, List.length_cons] at hpath
      omega

/-- No handler occurs twice in a guarded block. -/
lemma nodup_handlers (t : Cursor) : t.handlers.Nodup := (nodup_childrenFrom ..).filter _

/-- The guarded block of a child node is its parent, if that is one. -/
lemma tryStatement?_eq_some (h : t.IsChild c) :
    c.tryStatement? = if t.kind = .tryStatement then some t else none := by
  rw [tryStatement?, h.parent?_eq, Option.filter_some]
  simp

end Cursor

namespace Node.IsShaped

variable {root : Node} {c d t p : Cursor}

/-- **Guarded blocks and handlers** are found again by their targets. -/
theorem resolve?_target (h : root.IsShaped) (hc : root.Has c)
    (hk : c.kind = .tryStatement ∨ c.kind = .catchClause) : c.target.resolve? root = some c := by
  have hne : c ≠ root.cursor := h.ne_cursor (by rcases hk with hk | hk <;> simp [hk])
  have hsolid : ∀ f ∈ c.path, ∀ e ∈ f.before, 0 < e.length :=
    fun f hf e he => (h.solid.before hc f hf e he).self
  refine hc.resolve?_target (h.shaped hc hne).length_pos hsolid (hc.range_ne_of_headed hsolid ?_)
  exact fun f hf hfk => h.headed hc f hf (by rw [hfk]; exact hk)

/-- Guarded blocks and handlers with the same target are the same. -/
theorem eq_of_target_eq (h : root.IsShaped) (hc : root.Has c) (hd : root.Has d)
    (hk : c.kind = .tryStatement ∨ c.kind = .catchClause) (ht : c.target = d.target) : c = d := by
  have hkind : c.kind = d.kind := congrArg Target.kind ht
  have hcr := h.resolve?_target hc hk
  rw [ht, h.resolve?_target hd (by rwa [← hkind])] at hcr
  exact (Option.some.inj hcr).symm

/-- A handler is found by its target among the handlers of its guarded block. -/
lemma find?_target (h : root.IsShaped) (ht : root.Has t) (hc : c ∈ t.handlers) :
    (t.handlers.find? fun d => d.target = c.target) = some c := by
  have hsome : (t.handlers.find? fun d => d.target = c.target).isSome = true :=
    List.find?_isSome.mpr ⟨c, hc, decide_eq_true rfl⟩
  obtain ⟨d, hd⟩ := Option.isSome_iff_exists.mp hsome
  have hdt : d.target = c.target := by simpa using List.find?_some hd
  obtain ⟨htd, hdk⟩ := Cursor.mem_handlers.mp (List.mem_of_find?_eq_some hd)
  rw [hd, h.eq_of_target_eq (ht.child htd) (ht.child (Cursor.mem_handlers.mp hc).1) (.inr hdk) hdt]

/-- No node below the root is empty. -/
lemma length_pos (h : root.IsShaped) (hc : root.Has c) (hne : c ≠ root.cursor) :
    c.start < c.stop := by
  have := (h.shaped hc hne).length_pos
  simp only [Cursor.stop, Node.length]
  omega

/-- At the range of a guarded block or a handler stands this node and none above it. -/
theorem find?_range (h : root.IsShaped) (hc : root.Has c)
    (hk : c.kind = .tryStatement ∨ c.kind = .catchClause) (hp : p.IsChild c)
    (hpr : p ≠ root.cursor) : root.find? c.range = some c := by
  have hne : c ≠ root.cursor := h.ne_cursor (by rcases hk with hk | hk <;> simp [hk])
  obtain ⟨q, hq, hqc⟩ := Cursor.Below.exists_parent hc hne.symm
  obtain rfl : q = p := by simpa [hqc.parent?_eq] using hp.parent?_eq
  have hbefore := h.before_ne_nil hq hpr hqc hk
  obtain ⟨e, es, hes⟩ := List.exists_cons_of_ne_nil hbefore
  have hpos : 0 < e.length :=
    (h.solid.children hq e (by rw [hqc.children_eq, hes]; simp)).self
  have hstart := hqc.start_eq
  rw [hes, Element.lengthList_cons] at hstart
  rw [hc.find?_range (h.shaped hc hne).length_pos]
  congr 1
  have hrange : q.range ≠ c.range := by
    rw [ne_eq, Cursor.range_eq_iff]
    omega
  obtain ⟨cs, hcs⟩ := q.ancestors_eq_cons
  rw [Cursor.outermost, hqc.ancestors_eq, hcs]
  simp [hrange]

/-- What stands directly in a guarded block. -/
theorem kind_of_mem_try (h : root.IsShaped) (ht : root.Has t) (hk : t.kind = .tryStatement)
    {e : Element} (he : e ∈ t.node.children) : e.isTrivia = true ∨ e.kind = .tryKw ∨
      e.kind = .block ∨ e.kind = .catchClause ∨ e.kind = .finallyClause := by
  cases htriv : e.isTrivia with
  | true => exact .inl rfl
  | false =>
    have hslots := (h.shaped ht (h.ne_cursor (by simp [hk]))).slots _ (by rw [hk]; rfl)
    simpa [List.mem_map] using hslots.mem _ (Element.mem_kinds he htriv)

/-- A handler among the children of its guarded block. -/
lemma exists_handler (h : root.IsShaped) (ht : root.Has t) {x : Placed Element}
    (hx : x ∈ t.elements) (hk : x.item.kind = .catchClause) :
    ∃ c, t.IsChild c ∧ c.kind = .catchClause ∧ x = ⟨c.node.toElement, c.start⟩ := by
  have hshaped := (h.all.children ht x.item (Element.item_mem hx)).self
  obtain ⟨cs, hitem⟩ := hshaped.exists_node (by rw [hk]; decide)
  rw [hk] at hitem
  have hx' : (⟨.node .catchClause cs, x.start⟩ : Placed Element) ∈ t.elements := by
    rw [← hitem]
    exact hx
  obtain ⟨c, hc, hnode, hstart⟩ := Cursor.isChild_of_mem_elements hx'
  refine ⟨c, hc, by rw [Cursor.kind, hnode], ?_⟩
  cases x
  simp_all [Node.toElement]

end Node.IsShaped

/-! ## Trivia around a handler -/

/-- The first line end divides some tokens in two. -/
lemma throughNewline_append_behindNewline (ts : List Token) :
    throughNewline ts ++ behindNewline ts = ts := by
  induction ts with
  | nil => rfl
  | cons t ts ih =>
    simp only [throughNewline, behindNewline]
    split <;> simp [ih]

namespace Element

/-- The elements at the start that are trivia are the tokens of the trivia run. -/
lemma takeWhile_isTrivia (es : List Element) :
    es.takeWhile isTrivia = (triviaRun es).map .token := by
  induction es with
  | nil => rfl
  | cons e es ih =>
    cases e with
    | token t =>
      cases ht : t.kind.isTrivia with
      | true => simpa [triviaRun, isTrivia, ht, token?] using ih
      | false => simp [triviaRun, isTrivia, ht]
    | node k cs => simp [triviaRun, isTrivia]

/-- The trivia at the start of some elements, and the elements behind them. -/
lemma triviaRun_append (es : List Element) :
    (triviaRun es).map .token ++ es.dropWhile isTrivia = es := by
  rw [← takeWhile_isTrivia, List.takeWhile_append_dropWhile]

/-- Elements that are tokens are as long as these. -/
lemma lengthList_map_token (ts : List Token) :
    lengthList (ts.map .token) = total (ts.map Token.length) := by
  induction ts with
  | nil => rfl
  | cons t ts ih => simp [ih]

/-- What stands in a trivia run are trivia. -/
lemma isTrivia_of_mem_triviaRun {es : List Element} {t : Token} (h : t ∈ triviaRun es) :
    t.kind.isTrivia = true := by
  have hmem : Element.token t ∈ es.takeWhile isTrivia := by
    rw [takeWhile_isTrivia]
    exact List.mem_map_of_mem h
  exact (List.mem_takeWhile_imp hmem : (Element.token t).isTrivia = true)

end Element

namespace Cursor

variable {c : Cursor}

/-- The trivia that lead to a node are the nearest of its siblings before it. -/
lemma exists_before_eq (c : Cursor) :
    ∃ rest, c.before = (c.leadingTrivia.map .token).reverse ++ rest := by
  have hsuffix : ∃ front, (Element.triviaRun c.before).reverse = front ++ c.leadingTrivia := by
    rw [leadingTrivia]
    split
    · exact ⟨[], rfl⟩
    · exact ⟨_, (throughNewline_append_behindNewline _).symm⟩
  obtain ⟨front, hfront⟩ := hsuffix
  have hrun : Element.triviaRun c.before = c.leadingTrivia.reverse ++ front.reverse := by
    rw [← List.reverse_append, ← hfront, List.reverse_reverse]
  refine ⟨front.reverse.map .token ++ c.before.dropWhile Element.isTrivia, ?_⟩
  rw [← List.map_reverse, ← List.append_assoc, ← List.map_append, ← hrun,
    Element.triviaRun_append]

/-- The trivia behind a node that belong to it are the nearest of its siblings behind it. -/
lemma exists_after_eq (c : Cursor) : ∃ rest, c.after = c.trailingTrivia.map .token ++ rest := by
  refine ⟨(behindNewline (Element.triviaRun c.after)).map .token ++
    c.after.dropWhile Element.isTrivia, ?_⟩
  rw [trailingTrivia, ← List.append_assoc, ← List.map_append, throughNewline_append_behindNewline,
    Element.triviaRun_append]

/-- The leading trivia of a node are trivia. -/
lemma isTrivia_of_mem_leadingTrivia {t : Token} (h : t ∈ c.leadingTrivia) :
    t.kind.isTrivia = true := by
  have hmem : t ∈ (Element.triviaRun c.before).reverse := by
    rw [leadingTrivia] at h
    split at h
    · exact h
    · rw [← throughNewline_append_behindNewline (Element.triviaRun c.before).reverse]
      exact List.mem_append_right _ h
  exact Element.isTrivia_of_mem_triviaRun (List.mem_reverse.mp hmem)

/-- The trailing trivia of a node are trivia. -/
lemma isTrivia_of_mem_trailingTrivia {t : Token} (h : t ∈ c.trailingTrivia) :
    t.kind.isTrivia = true := by
  have hmem : t ∈ Element.triviaRun c.after := by
    rw [← throughNewline_append_behindNewline (Element.triviaRun c.after)]
    exact List.mem_append_left _ h
  exact Element.isTrivia_of_mem_triviaRun hmem

/-- The siblings that are the leading trivia of a node are trivia. -/
lemma isTrivia_of_mem_leading {e : Element} (he : e ∈ (c.leadingTrivia.map Element.token).reverse) :
    e.isTrivia = true := by
  obtain ⟨u, hu, rfl⟩ := List.mem_map.mp (List.mem_reverse.mp he)
  exact isTrivia_of_mem_leadingTrivia hu

/-- The siblings that are the trailing trivia of a node are trivia. -/
lemma isTrivia_of_mem_trailing {e : Element} (he : e ∈ c.trailingTrivia.map Element.token) :
    e.isTrivia = true := by
  obtain ⟨u, hu, rfl⟩ := List.mem_map.mp he
  exact isTrivia_of_mem_trailingTrivia hu

/-- A node with its trivia begins where its leading trivia do. -/
lemma rangeWithTrivia_start (c : Cursor) : c.rangeWithTrivia.start =
    c.start - Element.lengthList (c.leadingTrivia.map .token).reverse := by
  rw [Element.lengthList_reverse, Element.lengthList_map_token]
  rfl

/-- A node with its trivia ends where its trailing trivia do. -/
lemma rangeWithTrivia_stop (c : Cursor) : c.rangeWithTrivia.stop =
    c.stop + Element.lengthList (c.trailingTrivia.map .token) := by
  rw [Element.lengthList_map_token]
  rfl

end Cursor

/-! ## Boundaries -/

namespace Cursor

variable {t c : Cursor} {b : Nat}

/-- An offset at which a child of a node starts or ends. -/
def IsBoundary (t : Cursor) (b : Nat) : Prop :=
  ∃ xs ys, t.node.children = xs ++ ys ∧ b = t.start + Element.lengthList xs

/-- No child reaches across a boundary. -/
lemma IsBoundary.apart (h : t.IsBoundary b) {x : Placed Element} (hx : x ∈ t.elements) :
    x.start + x.item.length ≤ b ∨ b ≤ x.start := by
  obtain ⟨xs, ys, hcs, rfl⟩ := h
  rw [elements, hcs, Element.place_append, List.mem_append] at hx
  rcases hx with hx | hx
  · exact .inl (Element.bounds_of_mem_place hx).2
  · exact .inr (Element.bounds_of_mem_place hx).1

/-- A boundary between children lies within the node. -/
lemma IsBoundary.bounds (h : t.IsBoundary b) : t.start ≤ b ∧ b ≤ t.stop := by
  obtain ⟨xs, ys, hcs, rfl⟩ := h
  simp only [stop, Node.length, hcs, Element.lengthList_append]
  omega

/-- Before a child node, behind some of its nearest siblings, is a boundary. -/
lemma IsChild.isBoundary_before (hc : t.IsChild c) {near far : List Element}
    (h : c.before = near ++ far) : t.IsBoundary (c.start - Element.lengthList near) := by
  refine ⟨far.reverse, near.reverse ++ c.node.toElement :: c.after, ?_, ?_⟩
  · rw [hc.children_eq, h, List.reverse_append, List.append_assoc]
  · rw [hc.start_eq, h, Element.lengthList_append, Element.lengthList_reverse]
    omega

/-- Behind a child node and some of its nearest siblings is a boundary. -/
lemma IsChild.isBoundary_after (hc : t.IsChild c) {near far : List Element}
    (h : c.after = near ++ far) : t.IsBoundary (c.stop + Element.lengthList near) := by
  refine ⟨c.before.reverse ++ c.node.toElement :: near, far, ?_, ?_⟩
  · rw [hc.children_eq, h, List.append_assoc, List.cons_append]
  · simp only [Element.lengthList_append, Element.lengthList_reverse, Element.lengthList_cons,
      Node.toElement, Element.length_node, stop, Node.length, hc.start_eq]
    omega

/-- The children between the nearest siblings on both sides of a child node: these siblings, and the
node. -/
lemma IsChild.mem_between (hc : t.IsChild c) {near far near' far' : List Element}
    (hb : c.before = near ++ far) (ha : c.after = near' ++ far')
    {x : Placed Element} (hx : x ∈ t.elements) (hsolid : x.item.IsSolid)
    (hstart : c.start - Element.lengthList near ≤ x.start)
    (hstop : x.start + x.item.length ≤ c.stop + Element.lengthList near') :
    x.item ∈ near ∨ x.item ∈ near' ∨ x = ⟨c.node.toElement, c.start⟩ := by
  have hcs : t.node.children = far.reverse ++ (near.reverse ++ c.node.toElement :: (near' ++ far')) := by
    rw [hc.children_eq, hb, ha, List.reverse_append, List.append_assoc]
  have hcstart := hc.start_eq
  rw [hb, Element.lengthList_append] at hcstart
  have hpos : 0 < x.item.length := hsolid
  rw [elements, hcs, Element.place_append, Element.place_append, List.mem_append, List.mem_append,
    Element.place, List.mem_cons, Element.place_append, List.mem_append] at hx
  simp only [Element.lengthList_reverse] at hx
  simp only [stop, Node.length] at hstop
  rcases hx with hx | hx | hx | hx | hx
  · have := Element.bounds_of_mem_place hx
    rw [Element.lengthList_reverse] at this
    omega
  · obtain ⟨as, bs, heq, -⟩ := Element.mem_place.mp hx
    exact .inl (List.mem_reverse.mp (by rw [heq]; simp))
  · refine .inr (.inr ?_)
    rw [hx, hcstart]
    congr 1
    omega
  · obtain ⟨as, bs, heq, -⟩ := Element.mem_place.mp hx
    exact .inr (.inl (by rw [heq]; simp))
  · have := Element.bounds_of_mem_place hx
    simp only [Node.toElement, Element.length_node] at this
    omega

end Cursor

/-! ## Sweeps -/

namespace Rethrow

/-- A range that begins and ends between children of a guarded block, and holds of them nothing but
trivia and handlers with a property. -/
structure Sweeps (t : Cursor) (P : Cursor → Prop) (r : Range) : Prop where
  /-- The range begins between children. -/
  start : t.IsBoundary r.start
  /-- The range ends between children. -/
  stop : t.IsBoundary r.stop
  /-- What it holds are trivia and handlers. -/
  swept : ∀ x ∈ t.elements, r.contains x.span = true →
    x.item.isTrivia = true ∨ ∃ c, t.IsChild c ∧ P c ∧ x = ⟨c.node.toElement, c.start⟩

variable {t c : Cursor} {P Q : Cursor → Prop} {r s : Range}

/-- A range that sweeps some handlers sweeps more of them. -/
lemma Sweeps.mono (h : Sweeps t P r) (hPQ : ∀ c, P c → Q c) : Sweeps t Q r := by
  refine ⟨h.start, h.stop, fun x hx hr => ?_⟩
  rcases h.swept x hx hr with htriv | ⟨c, hc, hP, rfl⟩
  · exact .inl htriv
  · exact .inr ⟨c, hc, hPQ c hP, rfl⟩

/-- Ranges that sweep and overlap sweep together. -/
theorem Sweeps.cover (hr : Sweeps t P r) (hs : Sweeps t P s) (h : r.overlaps s = true) :
    Sweeps t P (r.cover s) := by
  rw [Range.overlaps_iff] at h
  have hboundary : ∀ {a b : Nat}, t.IsBoundary a → t.IsBoundary b →
      t.IsBoundary (min a b) ∧ t.IsBoundary (max a b) := by
    intro a b ha hb
    rcases Nat.le_total a b with hab | hab
    · rw [Nat.min_eq_left hab, Nat.max_eq_right hab]
      exact ⟨ha, hb⟩
    · rw [Nat.min_eq_right hab, Nat.max_eq_left hab]
      exact ⟨hb, ha⟩
  refine ⟨(hboundary hr.start hs.start).1, (hboundary hr.stop hs.stop).2, fun x hx hc => ?_⟩
  have hbounds := Range.contains_iff.mp hc
  simp only [Range.cover, Placed.span_start, Placed.span_stop] at hbounds
  have h₁ := hr.start.apart hx
  have h₂ := hr.stop.apart hx
  have h₃ := hs.start.apart hx
  have h₄ := hs.stop.apart hx
  have heither : r.contains x.span = true ∨ s.contains x.span = true := by
    simp only [Range.contains_iff, Placed.span_start, Placed.span_stop]
    omega
  rcases heither with hin | hin
  · exact hr.swept x hx hin
  · exact hs.swept x hx hin

/-- Around a handler, the nearest of its siblings on both sides can be swept with it if they are
trivia. -/
lemma sweeps_around {root : Node} (h : root.IsShaped) (ht : root.Has t) (hc : t.IsChild c)
    {near far near' far' : List Element} (hb : c.before = near ++ far) (ha : c.after = near' ++ far')
    (hnear : ∀ e ∈ near, e.isTrivia = true) (hnear' : ∀ e ∈ near', e.isTrivia = true)
    (hstart : r.start = c.start - Element.lengthList near)
    (hstop : r.stop = c.stop + Element.lengthList near') : Sweeps t (· = c) r := by
  refine ⟨hstart ▸ hc.isBoundary_before hb, hstop ▸ hc.isBoundary_after ha, fun x hx hr => ?_⟩
  have hbounds := Range.contains_iff.mp hr
  simp only [Placed.span_start, Placed.span_stop] at hbounds
  have hsolid : x.item.IsSolid := (h.solid.children ht x.item (Element.item_mem hx)).self
  rcases hc.mem_between hb ha hx hsolid (by omega) (by omega) with hin | hin | rfl
  · exact .inl (hnear _ hin)
  · exact .inl (hnear' _ hin)
  · exact .inr ⟨c, hc, rfl, rfl⟩

/-- The siblings before a node that its removal can take along: the trivia that lead to it, and the
blanks and line ends before these. -/
lemma exists_before_eq_layout (c : Cursor) : ∃ rest,
    c.before = ((c.leadingTrivia.map .token).reverse ++ layoutBefore c) ++ rest := by
  obtain ⟨rest, hrest⟩ := c.exists_before_eq
  refine ⟨rest.dropWhile Element.isLayout, ?_⟩
  have hdrop : c.before.drop c.leadingTrivia.length = rest := by
    rw [hrest, List.drop_append_of_le_length (by simp), List.drop_of_length_le (by simp)]
    simp
  rw [layoutBefore, hdrop, List.append_assoc, List.takeWhile_append_dropWhile, ← hrest]

/-- The blanks and line ends before the trivia of a handler are trivia of its guarded block. -/
lemma isTrivia_of_mem_layoutBefore {root : Node} (h : root.IsShaped) (ht : root.Has t)
    (hc : t.IsChild c) {e : Element} (he : e ∈ layoutBefore c) : e.isTrivia = true := by
  obtain ⟨rest, hrest⟩ := exists_before_eq_layout c
  have hlayout : e.isLayout = true := List.mem_takeWhile_imp he
  have hshaped : e.IsShaped := by
    refine (h.all.children ht e ?_).self
    rw [hc.children_eq, hrest]
    simp [he]
  have hkind : Token.IsTokenKind e.kind ∧ e.kind.isTrivia = true := by
    unfold Element.isLayout Kind.isLayout at hlayout
    split at hlayout <;> simp_all <;> decide
  obtain ⟨u, rfl, -⟩ := hshaped.exists_token hkind.1
  exact hkind.2

/-- Widening a range to the blanks and line ends before a handler. -/
lemma widenTo_layoutStart (hle : r.start ≤ c.rangeWithTrivia.start) :
    (widenTo (layoutStart? c) r).start =
        min (c.rangeWithTrivia.start - Element.lengthList (layoutBefore c)) r.start ∧
      (widenTo (layoutStart? c) r).stop = r.stop := by
  rw [layoutStart?]
  cases hlayout : layoutBefore c with
  | nil => simp [widenTo, Nat.min_eq_right hle]
  | cons e es => simp [widenTo, Range.extendLeft]

/-- **The removal of a handler sweeps it.** -/
theorem sweeps_removal {root : Node} (h : root.IsShaped) (ht : root.Has t) (hc : t.IsChild c) :
    Sweeps t (· = c) (removal c).removed := by
  obtain ⟨rest, hrest⟩ := exists_before_eq_layout c
  obtain ⟨rest', hrest'⟩ := c.exists_after_eq
  have hstart := Cursor.rangeWithTrivia_start c
  have hstop := Cursor.rangeWithTrivia_stop c
  unfold removal
  cases hlast : isLast c with
  | true =>
    obtain ⟨hwstart, hwstop⟩ := widenTo_layoutStart (Nat.le_refl c.rangeWithTrivia.start)
    refine sweeps_around h ht hc hrest hrest' (fun e he => ?_)
      (fun e he => Cursor.isTrivia_of_mem_trailing he) ?_ ?_
    · rcases List.mem_append.mp he with he | he
      · exact Cursor.isTrivia_of_mem_leading he
      · exact isTrivia_of_mem_layoutBefore h ht hc he
    · simp only [Edit.removal, if_true, hwstart, hstart, Element.lengthList_append]
      omega
    · simp only [Edit.removal, if_true, hwstop, hstop]
  | false =>
    rw [List.append_assoc] at hrest
    refine sweeps_around h ht hc hrest hrest' (fun e he => Cursor.isTrivia_of_mem_leading he)
      (fun e he => Cursor.isTrivia_of_mem_trailing he) ?_ ?_
    · simpa [Edit.removal] using hstart
    · simpa [Edit.removal] using hstop

/-- The removal of a handler takes the handler. -/
lemma contains_removal (c : Cursor) : (removal c).removed.contains c.range = true := by
  have hstart := Cursor.rangeWithTrivia_start c
  have hstop := Cursor.rangeWithTrivia_stop c
  unfold removal
  cases hlast : isLast c with
  | true =>
    obtain ⟨hwstart, hwstop⟩ := widenTo_layoutStart (Nat.le_refl c.rangeWithTrivia.start)
    simp only [Edit.removal, if_true, Range.contains_iff, hwstart, hwstop, Cursor.range_start,
      Cursor.range_stop]
    omega
  | false =>
    simp only [Edit.removal, Range.contains_iff, Cursor.range_start, Cursor.range_stop]
    simp only [Bool.false_eq_true, if_false]
    omega

/-- A range that sweeps up to a handler sweeps on over the blanks and line ends before it. -/
theorem Sweeps.widen {root : Node} (h : root.IsShaped) (ht : root.Has t) (hc : t.IsChild c)
    (hr : Sweeps t P r) (hle : r.start ≤ c.rangeWithTrivia.start) :
    Sweeps t P (widenTo (layoutStart? c) r) := by
  obtain ⟨hwstart, hwstop⟩ := widenTo_layoutStart hle
  obtain ⟨rest, hrest⟩ := exists_before_eq_layout c
  have hstart := Cursor.rangeWithTrivia_start c
  have hboundary := hc.isBoundary_before hrest
  rw [Element.lengthList_append, ← Nat.sub_sub, ← hstart] at hboundary
  refine ⟨?_, hwstop ▸ hr.stop, fun x hx hcon => ?_⟩
  · rcases Nat.le_total (c.rangeWithTrivia.start - Element.lengthList (layoutBefore c)) r.start
      with hmin | hmin
    · rwa [hwstart, Nat.min_eq_left hmin]
    · rw [hwstart, Nat.min_eq_right hmin]
      exact hr.start
  · have hbounds := Range.contains_iff.mp hcon
    simp only [hwstart, hwstop, Placed.span_start, Placed.span_stop] at hbounds
    rcases hr.start.apart hx with hbefore | hbehind
    · have hsolid : x.item.IsSolid := (h.solid.children ht x.item (Element.item_mem hx)).self
      have hpos : 0 < x.item.length := hsolid
      have hcs := c.start_le_stop
      rcases hc.mem_between hrest (List.nil_append c.after).symm hx hsolid
        (by rw [Element.lengthList_append]; omega) (by simp; omega) with hin | hin | rfl
      · rcases List.mem_append.mp hin with hin | hin
        · exact .inl (Cursor.isTrivia_of_mem_leading hin)
        · exact .inl (isTrivia_of_mem_layoutBefore h ht hc hin)
      · cases hin
      · simp only at hpos hbefore
        omega
    · exact hr.swept x hx (by
        simp only [Range.contains_iff, Placed.span_start, Placed.span_stop]
        omega)

/-- What is swept begins behind the keyword of the guarded block. -/
lemma Sweeps.start_lt {root : Node} (h : root.IsShaped) (ht : root.Has t)
    (hk : t.kind = .tryStatement) (hr : Sweeps t P r) (hP : ∀ c, P c → c.kind = .catchClause)
    (hlt : r.start < r.stop) : t.start < r.start := by
  by_contra hcon
  have hshaped := h.shaped ht (h.ne_cursor (by simp [hk]))
  have hbounds := hr.start.bounds
  obtain ⟨e, es, hes⟩ : ∃ e es, t.node.children = e :: es := by
    refine List.exists_cons_of_ne_nil fun hnil => ?_
    have := hshaped.length_pos
    rw [hnil] at this
    simp at this
  have hx : (⟨e, t.start⟩ : Placed Element) ∈ t.elements := by
    simp [Cursor.elements, hes, Element.place]
  have hpos : 0 < e.length := (h.solid.children ht e (by simp [hes])).self
  have hcontains : r.contains (⟨e, t.start⟩ : Placed Element).span = true := by
    have hapart : t.start + e.length ≤ r.stop ∨ r.stop ≤ t.start := hr.stop.apart hx
    simp only [Range.contains_iff, Placed.span_start, Placed.span_stop]
    omega
  have hmay := hshaped.begins e es hes
  rcases hr.swept _ hx hcontains with htriv | ⟨c, hc, hPc, heq⟩
  · simp [hmay.1] at htriv
  · simp only [Placed.mk.injEq] at heq
    have hlead := hmay.2 _ _ heq.1
    rw [show c.node.kind = .catchClause from hP c hPc, hk] at hlead
    cases hlead

/-- Children of a shaped tree between two boundaries. -/
lemma exists_segment {root : Node} (h : root.IsShaped) (ht : root.Has t) {a b : Nat}
    (ha : t.IsBoundary a) (hb : t.IsBoundary b) (hle : a ≤ b) :
    ∃ xs seg ys, t.node.children = xs ++ seg ++ ys ∧ a = t.start + Element.lengthList xs ∧
      b = t.start + Element.lengthList (xs ++ seg) := by
  obtain ⟨xs, rest, hxs, rfl⟩ := ha
  obtain ⟨ys, rest', hys, rfl⟩ := hb
  have hsame := hxs.symm.trans hys
  rcases List.append_eq_append_iff.mp hsame with ⟨zs, rfl, hrest⟩ | ⟨zs, rfl, hrest⟩
  · exact ⟨xs, zs, rest', by rw [hys], rfl, rfl⟩
  · have hzs : zs = [] := by
      cases zs with
      | nil => rfl
      | cons z zs =>
        have hz : 0 < z.length := (h.solid.children ht z (by simp [hxs])).self
        simp only [Element.lengthList_append, Element.lengthList_cons] at hle
        omega
    subst hzs
    exact ⟨ys, [], rest', by simpa using hys, by simp, by simp⟩

/-- **A removal of what sweeps fits** if its target is a handler among it. -/
theorem Sweeps.fitsAt {root : Node} (h : root.IsShaped) (ht : root.Has t)
    (hk : t.kind = .tryStatement) {e : Edit} (hr : Sweeps t P e.removed)
    (hP : ∀ c, P c → c.kind = .catchClause) (hc : t.IsChild c) (hck : c.kind = .catchClause)
    (htarget : e.target = c.target) (hcon : e.removed.contains c.range = true) :
    e.FitsAt root t := by
  have hlt : e.removed.start < e.removed.stop := by
    have hpos := h.length_pos (ht.child hc) (h.ne_cursor (by simp [hck]))
    have := Range.contains_iff.mp hcon
    simp only [Cursor.range_start, Cursor.range_stop] at this
    omega
  exact {
    has := ht
    anchored := .inr (hr.start_lt h ht hk hP hlt)
    segment := exists_segment h ht hr.start hr.stop (Nat.le_of_lt hlt)
    target := ⟨c, hc, htarget, hcon,
      fun f hf hfk => h.headed (ht.child hc) f hf (.inr (hfk.trans hck))⟩ }

/-- **A replacement of a guarded block fits.** -/
theorem replacement_fitsAt {root : Node} (h : root.IsShaped) {p : Cursor} (hp : root.Has p)
    (ht : p.IsChild t) (hk : t.kind = .tryStatement) (ds : List Element) :
    (Edit.replacement t.target ds).FitsAt root p := by
  have hstart := ht.start_eq
  have hcs := ht.children_eq
  constructor
  · exact hp
  · by_cases hroot : p = root.cursor
    · exact .inl hroot
    · obtain ⟨e, es, hes⟩ := List.exists_cons_of_ne_nil (h.before_ne_nil hp hroot ht (.inl hk))
      have hpos : 0 < e.length := (h.solid.children hp e (by rw [hcs, hes]; simp)).self
      rw [hes, Element.lengthList_cons] at hstart
      refine .inr ?_
      simp only [Edit.replacement, Cursor.target, Cursor.range_start]
      omega
  · refine ⟨t.before.reverse, [t.node.toElement], t.after, by simp [hcs], ?_, ?_⟩
    · simp [Edit.replacement, Cursor.target, hstart]
    · simp only [Edit.replacement, Cursor.target, Cursor.range_stop, Cursor.stop, hstart, Node.length,
        Element.lengthList_append, Element.lengthList_reverse, Element.lengthList_cons,
        Element.lengthList_nil, Node.toElement, Element.length_node]
      omega
  · exact ⟨t, ht, rfl, by simp [Edit.replacement, Cursor.target, Range.contains_iff],
      fun f hf hfk => h.headed (hp.child ht) f hf (.inl (hfk.trans hk))⟩

end Rethrow

end TreeLint
