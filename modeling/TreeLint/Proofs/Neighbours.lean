import Mathlib.Data.List.Chain
import TreeLint.Proofs.Handlers

/-!
# Neighbouring handlers

Between neighbouring handlers of a guarded block stand nothing but trivia, and these are divided
between the two: the first owns those up to and including the first line end, the second owns the
rest. So the ranges of handlers with their trivia touch. If a handler takes the blanks and line ends
before its trivia along, its range reaches into that of its neighbour, but no further.

## Main definitions

* `TreeLint.Cursor.IsNext` — neighbouring nodes.
* `TreeLint.Rethrow.reach` — where a handler begins that takes the blanks before its trivia along.

## Main results

* `TreeLint.Node.IsShaped.isChain_handlers` — consecutive handlers are neighbours.
* `TreeLint.Rethrow.isChain_touch` — the ranges of neighbours touch.
* `TreeLint.Rethrow.pairwise_precedes` — the ranges of handlers are in order.
-/

namespace TreeLint

namespace Cursor

/-- Two nodes with nothing but trivia between them, the second behind the first. -/
structure IsNext (c d : Cursor) (gap : List Token) : Prop where
  /-- What stands between them are trivia. -/
  trivia : ∀ u ∈ gap, u.kind.isTrivia = true
  /-- The siblings behind the first. -/
  after : c.after = gap.map .token ++ d.node.toElement :: d.after
  /-- The siblings before the second. -/
  before : d.before = (gap.map .token).reverse ++ c.node.toElement :: c.before

/-- The first child node of a kind among some children, and what stands before it. -/
lemma exists_of_head?_filter {k l : Kind} {path : List Frame} {start offset : Nat}
    {before es : List Element} {d : Cursor} (htoken : ∀ u, Element.token u ∈ es → u.kind ≠ k)
    (h : ((childrenFrom path l start before offset es).filter fun c => c.kind = k).head? = some d) :
    ∃ gap, es = gap ++ d.node.toElement :: d.after ∧ d.before = gap.reverse ++ before ∧
      ∀ e ∈ gap, e.kind ≠ k := by
  induction es generalizing before offset with
  | nil => simp [childrenFrom] at h
  | cons e es ih =>
    have htoken' := fun u hu => htoken u (List.mem_cons_of_mem _ hu)
    cases e with
    | token u =>
      obtain ⟨gap, rfl, hbefore, hgap⟩ := ih htoken' h
      exact ⟨.token u :: gap, rfl, by simp [hbefore],
        List.forall_mem_cons.mpr ⟨htoken u List.mem_cons_self, hgap⟩⟩
    | node m ds =>
      by_cases hm : m = k
      · subst hm
        obtain rfl : _ = d := by simpa [childrenFrom, kind] using h
        exact ⟨[], rfl, rfl, by simp⟩
      · have hrest : ((childrenFrom path l start (.node m ds :: before)
            (offset + (Element.node m ds).length) es).filter fun c => c.kind = k).head? = some d := by
          simpa [childrenFrom, kind, hm] using h
        obtain ⟨gap, rfl, hbefore, hgap⟩ := ih htoken' hrest
        exact ⟨.node m ds :: gap, rfl, by simp [hbefore], List.forall_mem_cons.mpr ⟨hm, hgap⟩⟩

/-- Consecutive child nodes of a kind, and what stands between them. -/
lemma isChain_filter_childrenFrom {k : Kind} (path : List Frame) (l : Kind) (start : Nat)
    (before : List Element) (offset : Nat) {es : List Element}
    (htoken : ∀ u, Element.token u ∈ es → u.kind ≠ k) :
    ((childrenFrom path l start before offset es).filter fun c => c.kind = k).IsChain fun c d =>
      ∃ gap, c.after = gap ++ d.node.toElement :: d.after ∧
        d.before = gap.reverse ++ c.node.toElement :: c.before ∧ ∀ e ∈ gap, e.kind ≠ k := by
  induction es generalizing before offset with
  | nil => exact .nil
  | cons e es ih =>
    have htoken' := fun u hu => htoken u (List.mem_cons_of_mem _ hu)
    cases e with
    | token u => exact ih _ _ htoken'
    | node m ds =>
      have hrest := ih (.node m ds :: before) (offset + (Element.node m ds).length) htoken'
      by_cases hm : m = k
      · simp only [childrenFrom, kind, hm, List.filter_cons, decide_true, if_true] at hrest ⊢
        refine List.isChain_cons.mpr ⟨fun d hd => ?_, by simpa [kind] using hrest⟩
        exact exists_of_head?_filter htoken' hd
      · simpa [childrenFrom, kind, hm] using hrest

end Cursor

/-- Behind a handler of a guarded block come handlers and a clause that runs in any case, which is the
last. -/
lemma pairwise_kinds_try {ks : List Kind}
    (h : Arranged [(.tryKw, .once), (.block, .atMostOnce), (.catchClause, .anyTimes),
      (.finallyClause, .atMostOnce)] ks) :
    ks.Pairwise fun k l => (k = .catchClause → l = .catchClause ∨ l = .finallyClause) ∧
      (k = .finallyClause → l = .finallyClause) := by
  obtain ⟨n₁, _, rfl, -, n₂, _, rfl, -, n₃, _, rfl, -, n₄, _, rfl, -, rfl⟩ := h
  simp +contextual [List.pairwise_append, List.pairwise_replicate, List.mem_replicate]

namespace Node.IsShaped

variable {root : Node} {c d t : Cursor}

/-- What stands behind a handler in its guarded block is a handler or a clause that runs in any case,
and behind such a clause stands no handler. -/
lemma kind_of_sublist (h : root.IsShaped) (ht : root.Has t) (hk : t.kind = .tryStatement)
    {e f : Element} (hef : [e, f].Sublist t.node.children) (he : e.isTrivia = false)
    (hf : f.isTrivia = false) :
    (e.kind = .catchClause → f.kind = .catchClause ∨ f.kind = .finallyClause) ∧
      (e.kind = .finallyClause → f.kind = .finallyClause) := by
  have hpair := pairwise_kinds_try
    ((h.shaped ht (h.ne_cursor (by simp [hk]))).slots _ (by rw [hk]; rfl))
  have hkinds : [e.kind, f.kind].Sublist (Element.kinds t.node.children) := by
    simpa [he, hf, Element.kinds] using (hef.filter fun e => !e.isTrivia).map Element.kind
  simpa using hpair.sublist hkinds

/-- What stands behind a handler, in its guarded block. -/
lemma kind_of_mem_after (h : root.IsShaped) (ht : root.Has t) (hk : t.kind = .tryStatement)
    (hc : t.IsChild c) (hck : c.kind = .catchClause) {e : Element} (he : e ∈ c.after)
    (htriv : e.isTrivia = false) : e.kind = .catchClause ∨ e.kind = .finallyClause := by
  have hsub : [c.node.toElement, e].Sublist t.node.children := by
    rw [hc.children_eq]
    exact ((List.singleton_sublist.mpr he).cons_cons _).trans (List.sublist_append_right _ _)
  exact (h.kind_of_sublist ht hk hsub rfl htriv).1 hck

/-- **Consecutive handlers** are neighbours. -/
theorem isChain_handlers (h : root.IsShaped) (ht : root.Has t) (hk : t.kind = .tryStatement) :
    t.handlers.IsChain fun c d => ∃ gap, c.IsNext d gap := by
  have htoken : ∀ u, Element.token u ∈ t.node.children → u.kind ≠ .catchClause :=
    fun u hu => h.token_kind_ne ht hu (by decide)
  have hchain := Cursor.isChain_filter_childrenFrom t.path t.kind t.start [] t.start htoken
  refine hchain.imp_of_mem_imp fun c d hc hd => ?_
  rintro ⟨gap, hafter, hbefore, hgap⟩
  obtain ⟨hc, hck⟩ := Cursor.mem_handlers.mp hc
  obtain ⟨hd, hdk⟩ := Cursor.mem_handlers.mp hd
  have htriv : ∀ e ∈ gap, e.isTrivia = true := by
    intro e he
    by_contra hcon
    have hnot : e.isTrivia = false := by simpa using hcon
    rcases h.kind_of_mem_after ht hk hc hck (by rw [hafter]; simp [he]) hnot with hek | hek
    · exact hgap e he hek
    · have hsub : [e, d.node.toElement].Sublist t.node.children := by
        have hpair : [e, d.node.toElement].Sublist c.after := by
          rw [hafter]
          exact (List.singleton_sublist.mpr he).append
            (List.singleton_sublist.mpr List.mem_cons_self)
        rw [hc.children_eq]
        exact (hpair.cons _).trans (List.sublist_append_right _ _)
      have hfinally := (h.kind_of_sublist ht hk hsub hnot rfl).2 hek
      rw [show d.node.toElement.kind = .catchClause from hdk] at hfinally
      cases hfinally
  refine ⟨Element.triviaRun gap, fun u hu => Element.isTrivia_of_mem_triviaRun hu, ?_, ?_⟩
  all_goals
    rw [← Element.takeWhile_isTrivia, List.takeWhile_eq_self_iff.mpr htriv]
    assumption

end Node.IsShaped

/-! ## The trivia between neighbours -/

/-- The trivia in front of an element that is none. -/
lemma Element.triviaRun_tokens {gap : List Token} {e : Element} {es : List Element}
    (hgap : ∀ u ∈ gap, u.kind.isTrivia = true) (he : e.isTrivia = false) :
    triviaRun (gap.map .token ++ e :: es) = gap := by
  have hrun : (gap.map Element.token ++ e :: es).takeWhile isTrivia = gap.map .token := by
    rw [List.takeWhile_append_of_pos]
    · simp [he]
    · intro x hx
      obtain ⟨u, hu, rfl⟩ := List.mem_map.mp hx
      exact hgap u hu
  rw [triviaRun, hrun, List.filterMap_map]
  exact List.filterMap_some

/-- Trivia at the start of some elements end in front of an element that is none. -/
lemma Element.lengthList_le_of_append_eq {es rest front back : List Element} {x : Element}
    (h : es ++ rest = front ++ x :: back) (hes : ∀ e ∈ es, e.isTrivia = true) (hx : x.isTrivia = false) :
    lengthList es ≤ lengthList front := by
  rcases List.append_eq_append_iff.mp h with ⟨as, rfl, -⟩ | ⟨as, rfl, has⟩
  · rw [lengthList_append]
    exact Nat.le_add_right ..
  · cases as with
    | nil => rw [List.append_nil]
    | cons a as =>
      obtain ⟨rfl, -⟩ := List.cons.inj has
      rw [hes x (by simp)] at hx
      cases hx

namespace Cursor.IsNext

variable {c d t : Cursor} {gap : List Token}

/-- The first of two neighbours owns the trivia between them up to the first line end. -/
lemma trailingTrivia_eq (h : c.IsNext d gap) : c.trailingTrivia = throughNewline gap := by
  rw [trailingTrivia, h.after, Element.triviaRun_tokens h.trivia rfl]

/-- The second of two neighbours owns the trivia behind the first line end between them. -/
lemma leadingTrivia_eq (h : c.IsNext d gap) : d.leadingTrivia = behindNewline gap := by
  have hrun : Element.triviaRun d.before = gap.reverse := by
    rw [h.before, ← List.map_reverse]
    exact Element.triviaRun_tokens (fun u hu => h.trivia u (List.mem_reverse.mp hu)) rfl
  have hnot : d.before.all Element.isTrivia = false := by
    rw [h.before]
    simp [Element.isTrivia, Node.toElement]
  rw [leadingTrivia, hrun, hnot, List.reverse_reverse]
  rfl

/-- The second of two neighbours starts behind the trivia between them. -/
lemma start_eq (h : c.IsNext d gap) (hc : t.IsChild c) (hd : t.IsChild d) :
    d.start = c.stop + Element.lengthList (gap.map .token) := by
  rw [hd.start_eq, h.before, Element.lengthList_append, Element.lengthList_reverse,
    Element.lengthList_cons, Node.toElement, Element.length_node, stop, Node.length, hc.start_eq]
  omega

/-- The ranges of neighbours with their trivia touch. -/
theorem touch (h : c.IsNext d gap) (hc : t.IsChild c) (hd : t.IsChild d) :
    c.rangeWithTrivia.stop = d.rangeWithTrivia.start := by
  have hsplit := congrArg (fun ts => Element.lengthList (ts.map .token))
    (throughNewline_append_behindNewline gap)
  simp only [List.map_append, Element.lengthList_append] at hsplit
  rw [rangeWithTrivia_stop, rangeWithTrivia_start, Element.lengthList_reverse,
    h.trailingTrivia_eq, h.leadingTrivia_eq, h.start_eq hc hd]
  omega

end Cursor.IsNext

namespace Rethrow

variable {root : Node} {c d t : Cursor} {gap : List Token}

/-- Where the removal of a node begins that takes the blanks and line ends before the trivia of the
node along. -/
def reach (c : Cursor) : Nat := c.rangeWithTrivia.start - Element.lengthList (layoutBefore c)

/-- The blanks and line ends before the trivia of a node lie before them. -/
lemma reach_le (c : Cursor) : reach c ≤ c.rangeWithTrivia.start := Nat.sub_le ..

/-- A node lies within its range with trivia. -/
lemma rangeWithTrivia_bounds (c : Cursor) :
    c.rangeWithTrivia.start ≤ c.start ∧ c.stop ≤ c.rangeWithTrivia.stop := by
  rw [Cursor.rangeWithTrivia_start, Cursor.rangeWithTrivia_stop]
  omega

/-- The trivia and the blanks before a handler do not reach beyond its neighbour. -/
lemma stop_le_reach (h : root.IsShaped) (ht : root.Has t) (hc : t.IsChild c) (hd : t.IsChild d)
    (hn : c.IsNext d gap) : c.stop ≤ reach d := by
  obtain ⟨rest, hrest⟩ := exists_before_eq_layout d
  have hstart := hn.start_eq hc hd
  have hle : Element.lengthList ((d.leadingTrivia.map .token).reverse ++ layoutBefore d) ≤
      Element.lengthList (gap.map .token).reverse := by
    rw [hn.before] at hrest
    refine Element.lengthList_le_of_append_eq hrest.symm (fun e he => ?_) rfl
    rcases List.mem_append.mp he with he | he
    · exact Cursor.isTrivia_of_mem_leading he
    · exact isTrivia_of_mem_layoutBefore h ht hd he
  rw [Element.lengthList_reverse] at hle
  rw [Element.lengthList_append] at hle
  rw [reach, Cursor.rangeWithTrivia_start]
  omega

/-- The removal reaches further than the trivia of a node if blanks or line ends stand before these. -/
lemma reach_lt_iff (h : root.IsShaped) (ht : root.Has t) (hd : t.IsChild d) :
    reach d < d.rangeWithTrivia.start ↔ layoutBefore d ≠ [] := by
  obtain ⟨rest, hrest⟩ := exists_before_eq_layout d
  have hstart := hd.start_eq
  rw [hrest, Element.lengthList_append, Element.lengthList_append] at hstart
  rw [reach, Cursor.rangeWithTrivia_start]
  constructor
  · intro hlt hnil
    simp [hnil] at hlt
  · intro hne
    obtain ⟨e, es, hes⟩ := List.exists_cons_of_ne_nil hne
    have hpos : 0 < e.length :=
      (h.solid.children ht e (by rw [hd.children_eq, hrest, hes]; simp)).self
    rw [hes, Element.lengthList_cons] at hstart ⊢
    omega

/-! ## Handlers in order -/

/-- A handler with its trivia ends before another one with its trivia begins, and the other one does
not reach back into it. -/
def Precedes (c d : Cursor) : Prop :=
  c.rangeWithTrivia.stop ≤ d.rangeWithTrivia.start ∧ c.stop ≤ reach d

/-- A handler that precedes another one that precedes a third. -/
lemma Precedes.stop_le_reach {m : Cursor} (hcm : Precedes c m) (hmd : Precedes m d) :
    c.rangeWithTrivia.stop ≤ reach d := by
  have hm := rangeWithTrivia_bounds m
  have := m.start_le_stop
  exact Nat.le_trans hcm.1 (by have := hmd.2; omega)

/-- A handler precedes those that are preceded by one that it precedes. -/
lemma Precedes.trans {m : Cursor} (hcm : Precedes c m) (hmd : Precedes m d) : Precedes c d := by
  have hfar := hcm.stop_le_reach hmd
  have hc := rangeWithTrivia_bounds c
  have hd := reach_le d
  exact ⟨by omega, by omega⟩

/-- **The handlers of a guarded block** are in order, and neighbours touch. -/
theorem isChain_touch (h : root.IsShaped) (ht : root.Has t) (hk : t.kind = .tryStatement) :
    t.handlers.IsChain fun c d =>
      Precedes c d ∧ c.rangeWithTrivia.stop = d.rangeWithTrivia.start := by
  refine (h.isChain_handlers ht hk).imp_of_mem_imp fun c d hc hd hn => ?_
  obtain ⟨gap, hn⟩ := hn
  obtain ⟨hc, -⟩ := Cursor.mem_handlers.mp hc
  obtain ⟨hd, -⟩ := Cursor.mem_handlers.mp hd
  have htouch := hn.touch hc hd
  exact ⟨⟨Nat.le_of_eq htouch, stop_le_reach h ht hc hd hn⟩, htouch⟩

/-- **The handlers of a guarded block** are in order, each before all later ones. -/
theorem pairwise_precedes (h : root.IsShaped) (ht : root.Has t) (hk : t.kind = .tryStatement) :
    t.handlers.Pairwise Precedes := by
  have htrans : IsTrans Cursor Precedes := ⟨fun _ _ _ => Precedes.trans⟩
  exact List.isChain_iff_pairwise.mp ((isChain_touch h ht hk).imp fun _ _ hcd => hcd.1)

/-- Whether a handler that takes the blanks and line ends before its trivia along reaches into another
one before it: only into its neighbour, and only if there are such blanks or line ends. -/
theorem reach_lt_stop_iff (h : root.IsShaped) (ht : root.Has t) (hk : t.kind = .tryStatement)
    {front between back : List Cursor} (hs : t.handlers = front ++ c :: (between ++ d :: back)) :
    reach d < c.rangeWithTrivia.stop ↔ between = [] ∧ layoutBefore d ≠ [] := by
  have hd : t.IsChild d := (Cursor.mem_handlers.mp (by rw [hs]; simp)).1
  cases between with
  | nil =>
    have hchain := (isChain_touch h ht hk).suffix ⟨front, hs.symm⟩
    rw [List.nil_append, List.isChain_cons_cons] at hchain
    rw [hchain.1.2, reach_lt_iff h ht hd]
    simp
  | cons m between =>
    have hpair := (pairwise_precedes h ht hk).sublist (hs ▸ List.sublist_append_right _ _)
    simp only [List.cons_append, List.pairwise_cons, List.mem_cons, List.mem_append] at hpair
    have hfar := (hpair.1 m (.inl rfl)).stop_le_reach (hpair.2.1 d (.inr (.inl rfl)))
    simp only [reduceCtorEq, false_and, iff_false]
    omega

/-! ## The last handler -/

/-- Nodes do not carry the kinds of trivia. -/
lemma isTrivia_kind {e : Element} (h : e.IsShaped) : e.kind.isTrivia = e.isTrivia := by
  cases e with
  | token u => rfl
  | node k cs =>
    have hk : ¬(k.code < 200 ∨ k = .error) := Shaped.kind h
    have hcode : ¬k.code < 10 := by omega
    exact decide_eq_false hcode

/-- A node is the last one in its guarded block if nothing but trivia stands behind it. -/
lemma isLast_iff (h : root.IsShaped) (ht : root.Has t) (hc : t.IsChild c) :
    isLast c = true ↔ ∀ e ∈ c.after, e.isTrivia = true := by
  rw [isLast, List.all_eq_true]
  refine forall₂_congr fun e he => ?_
  have hshaped : e.IsShaped := (h.all.children ht e (hc.mem_of_mem_after he)).self
  rw [isTrivia_kind hshaped]

/-- A handler with another one behind it is not the last thing in its guarded block. -/
lemma isLast_eq_false (h : root.IsShaped) (ht : root.Has t) (hk : t.kind = .tryStatement)
    {front back : List Cursor} (hs : t.handlers = front ++ c :: d :: back) : isLast c = false := by
  have hchain := (h.isChain_handlers ht hk).suffix ⟨front, hs.symm⟩
  rw [List.isChain_cons_cons] at hchain
  obtain ⟨gap, hn⟩ := hchain.1
  have hc : t.IsChild c := (Cursor.mem_handlers.mp (by rw [hs]; simp)).1
  rw [Bool.eq_false_iff, ne_eq, isLast_iff h ht hc]
  intro hall
  cases hall d.node.toElement (by rw [hn.after]; simp)

/-- What stands behind a handler, if no clause runs in any case, are trivia and the handlers behind
it. -/
lemma exists_handler_behind (h : root.IsShaped) (ht : root.Has t) (hk : t.kind = .tryStatement)
    {front back : List Cursor} (hs : t.handlers = front ++ c :: back)
    (hfin : t.node.hasFinally = false) {x : Placed Element} (hx : x ∈ Element.place c.stop c.after)
    (htriv : x.item.isTrivia = false) : ∃ d ∈ back, x = ⟨d.node.toElement, d.start⟩ := by
  obtain ⟨hc, hck⟩ := Cursor.mem_handlers.mp (show c ∈ t.handlers by rw [hs]; simp)
  have hmem : x ∈ t.elements := by rw [hc.elements_eq]; simp [hx]
  have hafter : x.item ∈ c.after := Element.item_mem hx
  rcases h.kind_of_mem_after ht hk hc hck hafter htriv with hxk | hxk
  · obtain ⟨d, hd, hdk, rfl⟩ := h.exists_handler ht hmem hxk
    have hstart : c.stop ≤ d.start := (Element.bounds_of_mem_place hx).1
    have hcpos := h.length_pos (ht.child hc) (h.ne_cursor (by simp [hck]))
    have hd : d ∈ front ++ c :: back := hs ▸ Cursor.mem_handlers.mpr ⟨hd, hdk⟩
    rcases List.mem_append.mp hd with hd | hd
    · have hprecedes := (List.pairwise_append.mp (hs ▸ pairwise_precedes h ht hk)).2.2 d hd c
        List.mem_cons_self
      have := hprecedes.2
      have := reach_le c
      have := (rangeWithTrivia_bounds c).1
      have := d.start_le_stop
      omega
    · rcases List.mem_cons.mp hd with rfl | hd
      · omega
      · exact ⟨d, hd, rfl⟩
  · have hshaped := (h.all.children ht x.item (Element.item_mem hmem)).self
    obtain ⟨ds, hitem⟩ := hshaped.exists_node (by rw [hxk]; decide)
    have hnode : (⟨.node x.item.kind ds, x.start⟩ : Placed Element) ∈ t.elements := hitem ▸ hmem
    obtain ⟨f, hf, hnode, -⟩ := Cursor.isChild_of_mem_elements hnode
    have hfinally := Cursor.hasFinally_iff.mpr ⟨f, hf, by rw [Cursor.kind, hnode, hxk]⟩
    rw [hfin] at hfinally
    cases hfinally

/-- The last handler is the last thing in its guarded block unless a clause runs in any case. -/
lemma isLast_eq (h : root.IsShaped) (ht : root.Has t) (hk : t.kind = .tryStatement)
    {front : List Cursor} (hs : t.handlers = front ++ [c]) : isLast c = !t.node.hasFinally := by
  obtain ⟨hc, hck⟩ := Cursor.mem_handlers.mp (show c ∈ t.handlers by rw [hs]; simp)
  rw [Bool.eq_iff_iff, isLast_iff h ht hc, Bool.not_eq_true', Bool.eq_false_iff, ne_eq,
    Cursor.hasFinally_iff]
  constructor
  · rintro hall ⟨f, hf, hfk⟩
    have hmem : f.node.toElement ∈ c.before.reverse ++ c.node.toElement :: c.after := by
      rw [← hc.children_eq]
      exact hf.mem_children
    have hfkind : f.node.toElement.kind = .finallyClause := hfk
    have hckind : c.node.toElement.kind = .catchClause := hck
    rcases List.mem_append.mp hmem with hmem | hmem
    · have hsub : [f.node.toElement, c.node.toElement].Sublist t.node.children := by
        rw [hc.children_eq]
        exact (List.singleton_sublist.mpr hmem).append
          (List.singleton_sublist.mpr List.mem_cons_self)
      have := (h.kind_of_sublist ht hk hsub rfl rfl).2 hfkind
      rw [hckind] at this
      cases this
    · rcases List.mem_cons.mp hmem with heq | hmem
      · rw [heq, hckind] at hfkind
        cases hfkind
      · cases hall _ hmem
  · intro hnone e he
    by_contra htriv
    have hfin : t.node.hasFinally = false := by
      rw [Bool.eq_false_iff, ne_eq, Cursor.hasFinally_iff]
      exact hnone
    obtain ⟨x, hx, rfl⟩ := List.mem_map.mp ((Element.map_item_place c.stop c.after).symm ▸ he)
    obtain ⟨d, hd, -⟩ := exists_handler_behind h ht hk hs hfin hx (by simpa using htriv)
    cases hd

end Rethrow

end TreeLint
