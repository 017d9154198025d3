import Mathlib.Data.List.Flatten
import TreeLint.Proofs.Plan
import TreeLint.Proofs.Prune

/-!
# What a fix leaves of a tree

A plan for chosen handlers that is applied to a tree prunes it: aside from blanks, line ends and the
trivia directly in guarded blocks, the new tree is the old one without these handlers. Nothing is
moved or doubled, everything outside the guarded blocks of the chosen handlers is as it was, and the
comments of a body that is put in the place of the whole are all there.

## Main definitions

* `TreeLint.Placed.isAffected` — a guarded block with a chosen handler.

## Main results

* `TreeLint.Rethrow.IsOutcome.erase_eq` — the tree after a plan is the pruned tree.
* `TreeLint.Rethrow.IsOutcome.sublist_leaves` — its tokens are tokens of the old tree, in order.
* `TreeLint.Rethrow.IsOutcome.exists_eq_subst` — only affected guarded blocks have changed.
* `TreeLint.Rethrow.IsOutcome.infix_comments` — the comments of a body survive.
* `TreeLint.Rethrow.IsOutcome.exists_bare` — no guarded block becomes bare.
-/

namespace TreeLint

/-! ## Leaves of lists of elements -/

namespace Element

/-- The tokens of collected elements are collected. -/
lemma leavesList_flatMap {α : Type} (f : α → List Element) (as : List α) :
    leavesList (as.flatMap f) = as.flatMap fun a => leavesList (f a) := by
  induction as with
  | nil => rfl
  | cons a as ih => simp [ih]

/-- The tokens of elements are those of each of them at its place. -/
lemma leavesList_place (start : Nat) (es : List Element) :
    leavesList es = (place start es).flatMap fun x => x.item.leaves := by
  induction es generalizing start with
  | nil => rfl
  | cons e es ih => simp [place, ← ih]

/-- Fewer elements have fewer tokens, in the same order. -/
lemma leavesList_sublist {es ds : List Element} (h : es.Sublist ds) :
    (leavesList es).Sublist (leavesList ds) := by
  induction h with
  | slnil => exact .slnil
  | cons e _ ih => exact ih.trans (List.sublist_append_right _ _)
  | cons_cons e _ ih => exact (List.Sublist.refl _).append ih

/-- The tokens of an element are among those of the list that it stands in. -/
lemma leaves_sublist_of_mem {e : Element} {es : List Element} (h : e ∈ es) :
    e.leaves.Sublist (leavesList es) := by
  simpa using leavesList_sublist (List.singleton_sublist.mpr h)

end Element

/-- The comments of a node, in order. -/
def Node.commentTokens (n : Node) : List Token := n.leaves.filter fun u => u.kind.isComment

/-- A guarded block at some place, one of whose handlers is chosen. -/
def Placed.isAffected (chosen : List Target) (x : Placed Element) : Bool :=
  match x.item with
  | .token _ => false
  | .node k cs => k = .tryStatement &&
      (Element.place x.start cs).any fun y => ⟨y.item.kind, y.span⟩ ∈ chosen

/-! ## Trimmed bodies -/

/-- Trimming takes blanks and line ends away at both ends. -/
lemma exists_trimLayout (es : List Element) : ∃ xs ys, es = xs ++ trimLayout es ++ ys ∧
    (∀ e ∈ xs, e.isLayout = true) ∧ ∀ e ∈ ys, e.isLayout = true := by
  refine ⟨es.takeWhile Element.isLayout,
    ((es.dropWhile Element.isLayout).reverse.takeWhile Element.isLayout).reverse, ?_,
    fun e he => List.mem_takeWhile_imp he,
    fun e he => List.mem_takeWhile_imp (List.mem_reverse.mp he)⟩
  rw [trimLayout, List.append_assoc, ← List.reverse_append, List.takeWhile_append_dropWhile,
    List.reverse_reverse, List.takeWhile_append_dropWhile]

/-- Blanks and line ends are tokens. -/
lemma Element.IsShaped.exists_token_of_isLayout {e : Element} (h : e.IsShaped)
    (hl : e.isLayout = true) : ∃ t, e = .token t ∧ t.kind.isLayout = true := by
  have hkind : Token.IsTokenKind e.kind := by
    unfold Element.isLayout Kind.isLayout at hl
    split at hl <;> simp_all <;> decide
  obtain ⟨t, rfl, -⟩ := h.exists_token hkind
  exact ⟨t, rfl, hl⟩

namespace Rethrow

variable {root tree : Node} {cs : List Cursor} {es : List Edit} {t c d p : Cursor} {b : Node}

/-! ## Chosen handlers by their targets -/

/-- The chosen handlers are known by their targets. -/
lemma IsPlan.target_mem_iff (h : root.IsShaped) (hes : IsPlan root (· ∈ cs) es) (hc : root.Has c) :
    c.target ∈ cs.map Cursor.target ↔ c ∈ cs := by
  refine ⟨fun hmem => ?_, List.mem_map_of_mem⟩
  obtain ⟨d, hd, htarget⟩ := List.mem_map.mp hmem
  obtain ⟨t, ht, -, htd, hdk, -⟩ := hes.covers d hd
  rwa [← h.eq_of_target_eq (ht.child htd) hc (.inr hdk) htarget]

/-- What a plan removes are handlers. -/
lemma IsPlan.kind_of_mem (hes : IsPlan root (· ∈ cs) es) :
    ∀ τ ∈ cs.map Cursor.target, τ.kind = .catchClause := by
  intro τ hτ
  obtain ⟨d, hd, rfl⟩ := List.mem_map.mp hτ
  obtain ⟨t, -, -, -, hdk, -⟩ := hes.covers d hd
  exact hdk

/-- A node of another kind is not removed. -/
lemma IsPlan.not_mem_of_kind_ne (hes : IsPlan root (· ∈ cs) es) (hk : c.kind ≠ .catchClause) :
    c ∉ cs :=
  fun hmem => hk (hes.kind_of_mem _ (List.mem_map_of_mem hmem))

/-- Whether a guarded block gives way to its body is told by the targets of the removed handlers. -/
lemma IsPlan.isPointless_iff (h : root.IsShaped) (hes : IsPlan root (· ∈ cs) es)
    (ht : root.Has t) (hk : t.kind = .tryStatement) :
    Element.isPointless (cs.map Cursor.target) t.start t.kind t.node.children = true ↔
      IsPointless (· ∈ cs) t := by
  have hmem : ∀ c ∈ t.handlers, c.target ∈ cs.map Cursor.target ↔ c ∈ cs := fun c hc =>
    hes.target_mem_iff h (ht.child (Cursor.mem_handlers.mp hc).1)
  rw [Element.isPointless_iff h ht hk]
  constructor
  · rintro ⟨hne, hall, hfin⟩
    exact ⟨hfin, hne, fun c hc => (hmem c hc).mp (hall c hc)⟩
  · rintro ⟨hfin, hne, hall⟩
    exact ⟨hne, fun c hc => (hmem c hc).mpr (hall c hc), hfin⟩

/-! ## Bodies -/

/-- What stands directly in a guarded block is not a guarded block. -/
lemma kind_ne_of_mem_try (h : root.IsShaped) (ht : root.Has t) (hk : t.kind = .tryStatement)
    {e : Element} (he : e ∈ t.node.children) : e.kind ≠ .tryStatement := by
  intro hek
  rcases h.kind_of_mem_try ht hk he with htriv | hek' | hek' | hek' | hek'
  · cases e with
    | token u =>
      rw [Element.isTrivia, show u.kind = .tryStatement from hek] at htriv
      cases htriv
    | node k ds => cases htriv
  all_goals
    rw [hek'] at hek
    cases hek

/-- A child node of a guarded block does not begin where the block does. -/
lemma start_lt_of_isChild_try (h : root.IsShaped) (ht : root.Has t) (hk : t.kind = .tryStatement)
    (hd : t.IsChild d) : t.start < d.start := by
  have hcs := hd.children_eq
  have hstart := hd.start_eq
  have hshaped := h.shaped ht (h.ne_cursor (by simp [hk]))
  cases hbefore : d.before with
  | nil =>
    rw [hbefore] at hcs
    have hmay := (hshaped.begins _ _ hcs).2 _ _ rfl
    rw [hk] at hmay
    cases hmay
  | cons e es =>
    have hpos : 0 < e.length :=
      (h.solid.children ht e (by rw [hcs, hbefore]; simp)).self
    rw [hbefore, Element.lengthList_cons] at hstart
    omega

/-- The body of a guarded block of which nothing else is left stays as it is. -/
lemma IsPlan.prune_block (h : root.IsShaped) (hes : IsPlan root (· ∈ cs) es)
    (hapart : ∀ e ∈ es, ∀ f ∈ es, e.overlaps f = true → e = f) (ht : root.Has t)
    (hk : t.kind = .tryStatement) (hpoint : IsPointless (· ∈ cs) t) (hd : t.IsChild d)
    (hdk : d.kind = .block) :
    d.node.toElement.prune (cs.map Cursor.target) d.start = [d.node.toElement] := by
  refine Element.prune_eq_self fun τ hτ => ?_
  obtain ⟨c, hc, rfl⟩ := List.mem_map.mp hτ
  rw [Bool.eq_false_iff, ne_eq, Range.contains_iff]
  intro hin
  have hin : d.start ≤ c.start ∧ c.stop ≤ d.stop := hin
  obtain ⟨u, hu, -, huc, hck, -⟩ := hes.covers c hc
  have hpos := h.length_pos (hu.child huc) (h.ne_cursor (by simp [hck]))
  have hlt := start_lt_of_isChild_try h ht hk hd
  have hbelow : d.Below c := by
    rcases Cursor.Below.comparable (ht.child hd) (hu.child huc) with hdc | hcd | hap
    · exact hdc
    · rcases Relation.ReflTransGen.cases_tail hcd with rfl | ⟨q, hcq, hqd⟩
      · exact .refl
      · obtain rfl : q = t := by simpa [hqd.parent?_eq] using hd.parent?_eq
        have := Cursor.Below.bounds hcq
        omega
    · omega
  exact hes.not_chosen h hapart ht hk hpoint hd (by rw [hdk]; decide) hbelow hc

/-- The kind of what is left of an element that is no guarded block. -/
lemma kind_of_mem_prune {chosen : List Target} {x : Placed Element} (hk : x.item.kind ≠ .tryStatement)
    {e : Element} (he : e ∈ x.item.prune chosen x.start) : e.kind = x.item.kind := by
  obtain ⟨item, start⟩ := x
  cases item with
  | token u =>
    obtain rfl := List.mem_singleton.mp he
    rfl
  | node k ds =>
    have hnot : Element.isPointless chosen start k ds = false := by
      simp [Element.isPointless, show k ≠ .tryStatement from hk]
    rw [Element.prune_node, hnot] at he
    split at he
    · cases he
    · obtain rfl := List.mem_singleton.mp (by simpa using he)
      rfl

/-- The first node of a kind among some elements. -/
lemma find?_of_filterMap_node? {k : Kind} {ds : List Element}
    (htoken : ∀ u, Element.token u ∈ ds → u.kind ≠ k)
    (hb : ((ds.filterMap Element.node?).find? fun n => n.kind = k) = some b) :
    (ds.find? fun e => e.kind = k) = some b.toElement := by
  induction ds with
  | nil => cases hb
  | cons e ds ih =>
    have ih := ih fun u hu => htoken u (List.mem_cons_of_mem _ hu)
    cases e with
    | token u =>
      have hu : (Element.token u).kind ≠ k := htoken u List.mem_cons_self
      rw [List.find?_cons_of_neg (by simpa using hu)]
      exact ih hb
    | node l cs =>
      have hnode : (Element.node l cs).node? = some ⟨l, cs⟩ := rfl
      have hkind : (Element.node l cs).kind = l := rfl
      rw [List.filterMap_cons_some hnode] at hb
      by_cases hl : l = k
      · rw [List.find?_cons_of_pos (by simpa using hl)] at hb
        obtain rfl := Option.some.inj hb
        rw [List.find?_cons_of_pos (by simpa [hkind] using hl)]
        rfl
      · rw [List.find?_cons_of_neg (by simpa using hl)] at hb
        rw [List.find?_cons_of_neg (by simpa [hkind] using hl)]
        exact ih hb

/-- The first of some elements that passes a test, found place by place. -/
lemma findSome?_eq_find? {p : Element → Bool} {f : Placed Element → Option Element}
    {xs : List (Placed Element)} (hf : ∀ x ∈ xs, f x = if p x.item then some x.item else none) :
    xs.findSome? f = (xs.map Placed.item).find? p := by
  induction xs with
  | nil => rfl
  | cons x xs ih =>
    have ih := ih fun y hy => hf y (List.mem_cons_of_mem _ hy)
    rw [List.findSome?_cons, hf x List.mem_cons_self, List.map_cons, List.find?_cons]
    cases hx : p x.item with
    | true => simp
    | false => simpa using ih

/-- The body of a guarded block that gives way to it is left as it is, and nothing else that is left of
the block is one. -/
lemma IsPlan.find?_block_prune (h : root.IsShaped) (hes : IsPlan root (· ∈ cs) es)
    (hapart : ∀ e ∈ es, ∀ f ∈ es, e.overlaps f = true → e = f) (ht : root.Has t)
    (hk : t.kind = .tryStatement) (hpoint : IsPointless (· ∈ cs) t) {x : Placed Element}
    (hx : x ∈ t.elements) :
    ((x.item.prune (cs.map Cursor.target) x.start).find? fun e => e.kind = .block) =
      if decide (x.item.kind = .block) = true then some x.item else none := by
  have hmem : x.item ∈ t.node.children := Element.item_mem hx
  split
  · rename_i hxk
    rw [decide_eq_true_eq] at hxk
    obtain ⟨item, start⟩ := x
    cases item with
    | token u => exact absurd hxk (h.token_kind_ne ht hmem (by decide))
    | node k ds =>
      obtain ⟨d, hd, hnode, rfl⟩ := Cursor.isChild_of_mem_elements hx
      have hdk : d.kind = .block := by rw [Cursor.kind, hnode]; exact hxk
      have hsame := hes.prune_block h hapart ht hk hpoint hd hdk
      simp only [Node.toElement, hnode] at hsame
      rw [hsame]
      simpa using hxk
  · rename_i hxk
    rw [List.find?_eq_none]
    intro e he
    rwa [kind_of_mem_prune (kind_ne_of_mem_try h ht hk hmem) he]

/-- What a pruned guarded block is replaced by is what stands between the braces of its body. -/
lemma IsPlan.bodyOf_pruneList (h : root.IsShaped) (hes : IsPlan root (· ∈ cs) es)
    (hapart : ∀ e ∈ es, ∀ f ∈ es, e.overlaps f = true → e = f) (ht : root.Has t)
    (hk : t.kind = .tryStatement) (hpoint : IsPointless (· ∈ cs) t)
    (hb : t.node.child? .block = some b) :
    Element.bodyOf (Element.pruneList (cs.map Cursor.target) t.start t.node.children) = body b := by
  have hfirst : (Element.pruneList (cs.map Cursor.target) t.start t.node.children).find?
      (fun e => e.kind = .block) = some b.toElement := by
    rw [Element.pruneList_flatMap, List.find?_flatMap]
    refine (findSome?_eq_find? (p := fun e => e.kind = .block) fun x hx =>
      hes.find?_block_prune h hapart ht hk hpoint hx).trans ?_
    rw [Cursor.elements, Element.map_item_place]
    exact find?_of_filterMap_node? (fun u hu => h.token_kind_ne ht hu (by decide)) hb
  obtain ⟨l, inner, r, hcs, hl, hr, hinner⟩ := h.exists_braces ht hk hpoint.handlers hb
  rw [Element.bodyOf, hfirst, body_eq hcs hl hr hinner]
  simp [Node.toElement, hcs]

/-- Nothing is left of a removed handler. -/
lemma prune_of_mem (hc : c ∈ cs) : c.node.toElement.prune (cs.map Cursor.target) c.start = [] := by
  rw [Element.prune_cursor, if_pos (List.mem_map_of_mem hc)]

/-- A guarded block of which nothing but a body is left gives way to what stands in it. -/
lemma IsPlan.prune_of_pointless (h : root.IsShaped) (hes : IsPlan root (· ∈ cs) es)
    (hapart : ∀ e ∈ es, ∀ f ∈ es, e.overlaps f = true → e = f) (ht : root.Has t)
    (hk : t.kind = .tryStatement) (hpoint : IsPointless (· ∈ cs) t)
    (hb : t.node.child? .block = some b) :
    t.node.toElement.prune (cs.map Cursor.target) t.start = body b := by
  have hkept : t ∉ cs := hes.not_mem_of_kind_ne (by simp [hk])
  rw [Element.prune_cursor, if_neg ((hes.target_mem_iff h ht).not.mpr hkept),
    if_pos ((hes.isPointless_iff h ht hk).mpr hpoint), hes.bodyOf_pruneList h hapart ht hk hpoint hb]

/-- Any other node is left, without what is removed from it. -/
lemma IsPlan.prune_of_stays (h : root.IsShaped) (hes : IsPlan root (· ∈ cs) es) (hc : root.Has c)
    (hkept : c ∉ cs) (hstays : c.kind = .tryStatement → ¬IsPointless (· ∈ cs) c) :
    c.node.toElement.prune (cs.map Cursor.target) c.start =
      [.node c.kind (Element.pruneList (cs.map Cursor.target) c.start c.node.children)] := by
  have hnot : Element.isPointless (cs.map Cursor.target) c.start c.kind c.node.children = false := by
    by_cases hk : c.kind = .tryStatement
    · rw [Bool.eq_false_iff, ne_eq, hes.isPointless_iff h hc hk]
      exact hstays hk
    · simp [Element.isPointless, hk]
  rw [Element.prune_cursor, if_neg ((hes.target_mem_iff h hc).not.mpr hkept), hnot,
    if_neg (by simp)]

/-! ## The pruned tree -/

section Erase

variable {drop : Kind → Token → Bool}

/-- Trimming makes no difference to elements without blanks and line ends. -/
lemma eraseList_trimLayout (hlayout : ∀ k u, u.kind.isLayout = true → drop k u = true)
    {ds : List Element} (hds : ∀ e ∈ ds, e.IsShaped) (k : Kind) :
    Element.eraseList drop k (trimLayout ds) = Element.eraseList drop k ds := by
  obtain ⟨xs, ys, heq, hxs, hys⟩ := exists_trimLayout ds
  have hnil : ∀ zs, (∀ e ∈ zs, e.isLayout = true) → (∀ e ∈ zs, e ∈ ds) →
      Element.eraseList drop k zs = [] := by
    intro zs hzs hin
    refine Element.eraseList_eq_nil fun e he => ?_
    obtain ⟨u, rfl, hu⟩ := (hds e (hin e he)).exists_token_of_isLayout (hzs e he)
    exact ⟨u, rfl, hlayout k u hu⟩
  have hleft := hnil xs hxs fun e he => by rw [heq]; simp [he]
  have hright := hnil ys hys fun e he => by rw [heq]; simp [he]
  calc Element.eraseList drop k (trimLayout ds)
      = Element.eraseList drop k (xs ++ trimLayout ds ++ ys) := by simp [hleft, hright]
    _ = Element.eraseList drop k ds := by rw [← heq]

/-- What stands between the braces of a block are children of the block. -/
lemma mem_of_mem_body {e : Element} (he : e ∈ body b) : e ∈ b.children :=
  (List.dropWhile_sublist _).subset ((List.drop_sublist _ _).subset
    ((List.takeWhile_sublist _).subset he))

/-- What stands between the braces of a body belongs to the tree. -/
lemma isShaped_of_mem_body (h : root.IsShaped) (ht : root.Has t)
    (hb : t.node.child? .block = some b) : ∀ e ∈ body b, e.IsShaped := by
  obtain ⟨d, hd, rfl, -⟩ := Cursor.exists_of_child? hb
  exact fun e he => (h.all.children (ht.child hd) e (mem_of_mem_body he)).self

/-- What takes the place of an element and what is left of it differ in tokens that are dropped. -/
lemma IsPlan.eraseList_replaced (h : root.IsShaped) (hes : IsPlan root (· ∈ cs) es)
    (hapart : ∀ e ∈ es, ∀ f ∈ es, e.overlaps f = true → e = f)
    (hlayout : ∀ k u, u.kind.isLayout = true → drop k u = true)
    (htry : ∀ u, u.kind.isTrivia = true → drop .tryStatement u = true)
    (hp : (batchRule es).IsLive root p) {x : Placed Element} (hx : x ∈ p.elements)
    {ds : List Element} (hr : batchRule es x = some ds) :
    Element.eraseList drop p.kind ds =
      Element.eraseList drop p.kind (x.item.prune (cs.map Cursor.target) x.start) := by
  rcases hes.replaced h hp hx hr with ⟨hk, -, -, rfl, htriv | ⟨c, hc, hcs, rfl⟩⟩ |
    ⟨t, b, hpt, hk, hpoint, hb, rfl, rfl⟩
  · obtain ⟨item, start⟩ := x
    cases item with
    | token u => simp [Element.erase_token, hk, htry u htriv]
    | node k ds => cases htriv
  · rw [prune_of_mem hcs]
  · have ht := hp.1.child hpt
    rw [hes.prune_of_pointless h hapart ht hk hpoint hb,
      eraseList_trimLayout hlayout (isShaped_of_mem_body h ht hb)]

/-- **The tree after a plan is the pruned tree**, aside from blanks and line ends, and from trivia
directly in guarded blocks.

**Proof sketch.** Induction on the substitution. What the plan replaces by nothing are trivia in a
guarded block, which are dropped on both sides, and chosen handlers, which pruning leaves out; what
it replaces by a body, pruning replaces by the same. A node that is kept is neither a chosen handler
nor a guarded block of which only the body is left, so pruning keeps it, too. -/
theorem IsOutcome.erase_eq (h : root.IsShaped) (hout : IsOutcome root (· ∈ cs) tree)
    (hlayout : ∀ k u, u.kind.isLayout = true → drop k u = true)
    (htry : ∀ u, u.kind.isTrivia = true → drop .tryStatement u = true) :
    tree.erase drop = (root.prune (cs.map Cursor.target)).erase drop := by
  obtain ⟨hes, hapart, rfl⟩ := hout
  rename_i es
  have key : ∀ p x, (batchRule es).IsLive root p → x ∈ p.elements →
      Element.eraseList drop p.kind (x.item.subst (batchRule es) x.start) =
        Element.eraseList drop p.kind (x.item.prune (cs.map Cursor.target) x.start) := by
    intro p x hp hx
    refine Rule.subst_induction (motive := fun p x ds => Element.eraseList drop p.kind ds =
      Element.eraseList drop p.kind (x.item.prune (cs.map Cursor.target) x.start)) ?_ ?_ ?_ hp hx
    · exact fun p x ds hp hx hr => hes.eraseList_replaced h hapart hlayout htry hp hx hr
    · exact fun p u start _ _ _ => rfl
    · intro p c hp hpc hr ih
      rw [hes.prune_of_stays h (hp.1.child hpc) (fun hc => hes.rule_handler hc hr)
        (fun _ hpoint => hes.rule_pointless hpoint hr), Element.eraseList_cons,
        Element.eraseList_cons, Element.erase_node, Element.erase_node, Element.substList_flatMap,
        Element.pruneList_flatMap, Element.eraseList_flatMap, Element.eraseList_flatMap]
      congr 3
      exact List.flatMap_congr ih
  simp only [Node.erase, Node.subst, Node.prune, Element.substList_flatMap,
    Element.pruneList_flatMap, Element.eraseList_flatMap]
  congr 1
  exact List.flatMap_congr fun x hx => key _ _ (Rule.isLive_cursor _ _) hx

end Erase

/-! ## Order -/

/-- **The tokens after a plan** are tokens of the tree, in order. -/
theorem IsOutcome.sublist_leaves (h : root.IsShaped) (hout : IsOutcome root (· ∈ cs) tree) :
    tree.leaves.Sublist root.leaves := by
  obtain ⟨hes, hapart, rfl⟩ := hout
  rename_i es
  have key : ∀ p x, (batchRule es).IsLive root p → x ∈ p.elements →
      (Element.leavesList (x.item.subst (batchRule es) x.start)).Sublist x.item.leaves := by
    intro p x hp hx
    refine Rule.subst_induction
      (motive := fun _ x ds => (Element.leavesList ds).Sublist x.item.leaves) ?_ ?_ ?_ hp hx
    · intro p x ds hp hx hr
      rcases hes.replaced h hp hx hr with ⟨-, -, -, rfl, -⟩ | ⟨t, b, -, -, -, hb, rfl, rfl⟩
      · exact List.nil_sublist _
      · obtain ⟨d, hd, rfl, -⟩ := Cursor.exists_of_child? hb
        have hbody : (body d.node).Sublist d.node.children :=
          (List.takeWhile_sublist _).trans ((List.drop_sublist _ _).trans
            (List.dropWhile_sublist _))
        have hchild : d.node.toElement.leaves.Sublist t.node.toElement.leaves :=
          Element.leaves_sublist_of_mem hd.mem_children
        obtain ⟨xs, ys, heq, -, -⟩ := exists_trimLayout (body d.node)
        have htrim : (trimLayout (body d.node)).Sublist (body d.node) := by
          conv_rhs => rw [heq]
          exact (List.sublist_append_right _ _).trans (List.sublist_append_left _ _)
        exact (Element.leavesList_sublist (htrim.trans hbody)).trans hchild
    · exact fun p u start _ _ _ => by simp
    · intro p c _ _ _ ih
      simp only [Node.toElement, Element.leaves_node, Element.leavesList_cons,
        Element.leavesList_nil, List.append_nil]
      rw [Element.substList_flatMap, Element.leavesList_flatMap,
        Element.leavesList_place c.start c.node.children]
      exact List.Sublist.flatMap_right _ ih
  simp only [Node.leaves, Node.subst]
  rw [Element.substList_flatMap, Element.leavesList_flatMap,
    Element.leavesList_place 0 root.children]
  exact List.Sublist.flatMap_right _ fun x hx => key _ _ (Rule.isLive_cursor _ _) hx

/-! ## What has not changed -/

/-- Whether a handler of a guarded block is removed is told by the targets of the removed handlers. -/
lemma IsPlan.isAffected_iff (h : root.IsShaped) (hes : IsPlan root (· ∈ cs) es)
    (ht : root.Has t) (hk : t.kind = .tryStatement) :
    (⟨t.node.toElement, t.start⟩ : Placed Element).isAffected (cs.map Cursor.target) = true ↔
      ∃ c ∈ t.handlers, c ∈ cs := by
  have hkind : t.node.kind = .tryStatement := hk
  simp only [Placed.isAffected, Node.toElement, hkind, decide_true, Bool.true_and, List.any_eq_true,
    decide_eq_true_eq]
  constructor
  · rintro ⟨x, hx, hin⟩
    obtain ⟨c, hc, hck, rfl⟩ := h.exists_handler ht hx (hes.kind_of_mem _ hin)
    exact ⟨c, Cursor.mem_handlers.mpr ⟨hc, hck⟩, (hes.target_mem_iff h (ht.child hc)).mp hin⟩
  · rintro ⟨c, hc, hin⟩
    obtain ⟨hc, -⟩ := Cursor.mem_handlers.mp hc
    exact ⟨_, hc.mem_elements, (hes.target_mem_iff h (ht.child hc)).mpr hin⟩

/-- Neither what stands directly in a kept node nor the node itself being affected, a plan replaces
nothing there. -/
lemma IsPlan.rule_eq_none (h : root.IsShaped) (hes : IsPlan root (· ∈ cs) es)
    (hp : (batchRule es).IsLive root p) (hnot : p = root.cursor ∨
      (⟨p.node.toElement, p.start⟩ : Placed Element).isAffected (cs.map Cursor.target) = false)
    {x : Placed Element} (hx : x ∈ p.elements)
    (hxnot : x.isAffected (cs.map Cursor.target) = false) : batchRule es x = none := by
  cases hr : batchRule es x with
  | none => rfl
  | some ds =>
    rcases hes.replaced h hp hx hr with ⟨hk, -, hchosen, -, -⟩ | ⟨t, b, hpt, hk, hpoint, -, rfl, -⟩
    · rw [(hes.isAffected_iff h hp.1 hk).mpr hchosen] at hnot
      rcases hnot with rfl | hnot
      · have := h.kind
        rw [show root.kind = .tryStatement from hk] at this
        cases this
      · cases hnot
    · obtain ⟨c, hc⟩ := List.exists_mem_of_ne_nil _ hpoint.handlers
      rw [(hes.isAffected_iff h (hp.1.child hpt) hk).mpr ⟨c, hc, hpoint.chosen c hc⟩] at hxnot
      cases hxnot

/-- **Only affected guarded blocks have changed**: the tree after a plan is the tree with something
else in the place of each of them. -/
theorem IsOutcome.exists_eq_subst (h : root.IsShaped) (hout : IsOutcome root (· ∈ cs) tree) :
    ∃ g : Placed Element → List Element, tree = root.subst fun x =>
      if x.isAffected (cs.map Cursor.target) then some (g x) else none := by
  obtain ⟨hes, hapart, rfl⟩ := hout
  rename_i es
  refine ⟨fun x => x.item.subst (batchRule es) x.start, ?_⟩
  let rule : Rule := fun x => if x.isAffected (cs.map Cursor.target) then
    some (x.item.subst (batchRule es) x.start) else none
  have hrule : ∀ {x}, rule x = none → x.isAffected (cs.map Cursor.target) = false := by
    intro x hx
    simpa [rule] using hx
  have key : ∀ p x, rule.IsLive root p → x ∈ p.elements → (batchRule es).IsLive root p →
      x.item.subst rule x.start = x.item.subst (batchRule es) x.start := by
    intro p x hp hx
    refine Rule.subst_induction (motive := fun p x ds => (batchRule es).IsLive root p →
      ds = x.item.subst (batchRule es) x.start) ?_ ?_ ?_ hp hx
    · intro p x ds _ _ hr _
      simp only [rule] at hr
      split at hr
      · exact (Option.some.inj hr).symm
      · cases hr
    · intro p u start hp hx hr hlive
      rw [Element.subst_token_of_none
        (hes.rule_eq_none h hlive (hp.2.imp_right hrule) hx (hrule hr))]
    · intro p c hp hpc hr ih hlive
      have hnone := hes.rule_eq_none h hlive (hp.2.imp_right hrule) hpc.mem_elements (hrule hr)
      have hchildren : Element.substList rule c.start c.node.children =
          Element.substList (batchRule es) c.start c.node.children := by
        rw [Element.substList_flatMap, Element.substList_flatMap]
        exact List.flatMap_congr fun y hy => ih y hy (hlive.child hpc hnone)
      rw [hchildren]
      exact (Element.subst_node_of_none hnone).symm
  simp only [Node.subst, Element.substList_flatMap]
  congr 1
  exact List.flatMap_congr fun x hx =>
    (key _ _ (Rule.isLive_cursor _ _) hx (Rule.isLive_cursor _ _)).symm

/-! ## Comments -/

/-- What stands in the place of a node below kept ones can be read in the new tree. -/
lemma infix_leaves_subst {rule : Rule} (hc : root.Has c) (hne : c ≠ root.cursor)
    (habove : ∀ a, root.Has a → a.Below c → a ≠ c → a ≠ root.cursor →
      rule ⟨a.node.toElement, a.start⟩ = none) :
    Element.leavesList (c.node.toElement.subst rule c.start) <:+: (root.subst rule).leaves := by
  induction hc with
  | refl => exact absurd rfl hne
  | tail hb hstep ih =>
    rename_i p c
    have hpc : p ≠ c := by
      rintro rfl
      simpa using congrArg List.length hstep.path_eq
    have hin : Element.leavesList (c.node.toElement.subst rule c.start) <:+:
        Element.leavesList (Element.substList rule p.start p.node.children) := by
      rw [hstep.children_eq, Element.substList_append, Element.lengthList_reverse, ← hstep.start_eq,
        Element.substList_cons, Element.leavesList_append, Element.leavesList_append]
      exact ⟨_, _, List.append_assoc _ _ _⟩
    by_cases hroot : p = root.cursor
    · subst hroot
      exact hin
    · refine hin.trans ?_
      have hnone := habove p hb (.single hstep) hpc hroot
      have hup := ih hroot fun a ha hap hne hroot => habove a ha (.tail hap hstep) (by
        rintro rfl
        have := Cursor.Below.length_path_le hap
        rw [hstep.path_eq, List.length_cons] at this
        omega) hroot
      have hnode : p.node.toElement.subst rule p.start =
          [.node p.kind (Element.substList rule p.start p.node.children)] :=
        Element.subst_node_of_none hnone
      rwa [hnode, Element.leavesList_cons, Element.leavesList_nil, List.append_nil,
        Element.leaves_node] at hup

/-- Blanks and line ends are no comments. -/
lemma filter_isComment_eq_nil {ds : List Element} (hds : ∀ e ∈ ds, e.IsShaped)
    (hlayout : ∀ e ∈ ds, e.isLayout = true) :
    (Element.leavesList ds).filter (fun u => u.kind.isComment) = [] := by
  induction ds with
  | nil => rfl
  | cons e ds ih =>
    obtain ⟨u, rfl, hu⟩ :=
      (hds e List.mem_cons_self).exists_token_of_isLayout (hlayout e List.mem_cons_self)
    have hnot : u.kind.isComment = false := by
      revert hu
      cases u.kind <;> decide
    rw [Element.leavesList_cons, List.filter_append,
      ih (fun d hd => hds d (List.mem_cons_of_mem _ hd))
        fun d hd => hlayout d (List.mem_cons_of_mem _ hd)]
    simp [hnot]

/-- What is cut off a body in front and behind holds no comments. -/
lemma filter_isComment_trimLayout {ds : List Element} (hds : ∀ e ∈ ds, e.IsShaped) :
    (Element.leavesList (trimLayout ds)).filter (fun u => u.kind.isComment) =
      (Element.leavesList ds).filter fun u => u.kind.isComment := by
  obtain ⟨xs, ys, heq, hxs, hys⟩ := exists_trimLayout ds
  conv_rhs => rw [heq]
  rw [Element.leavesList_append, Element.leavesList_append, List.filter_append, List.filter_append,
    filter_isComment_eq_nil (fun e he => hds e (by rw [heq]; simp [he])) hxs,
    filter_isComment_eq_nil (fun e he => hds e (by rw [heq]; simp [he])) hys]
  simp

/-- Braces are no comments, so those of a block are those of its body. -/
lemma commentTokens_eq (h : root.IsShaped) (ht : root.Has t) (hk : t.kind = .tryStatement)
    (hne : t.handlers ≠ []) (hb : t.node.child? .block = some b) :
    b.commentTokens = (Element.leavesList (trimLayout (body b))).filter fun u => u.kind.isComment := by
  obtain ⟨l, inner, r, hcs, hl, hr, hinner⟩ := h.exists_braces ht hk hne hb
  rw [filter_isComment_trimLayout (isShaped_of_mem_body h ht hb), Node.commentTokens, Node.leaves,
    body_eq hcs hl hr hinner, hcs]
  simp [hl, hr, Kind.isComment]

/-- If a guarded block gives way, nothing above it does: an edit that removes a node above it would
overlap the one for the block, and be this one, but something stands in front of the block. -/
lemma batchRule_eq_none_of_above (h : root.IsShaped) (ht : root.Has t) (hk : t.kind = .tryStatement)
    (hapart : ∀ e ∈ es, ∀ f ∈ es, e.overlaps f = true → e = f) {ds : List Element}
    (he : Edit.replacement t.target ds ∈ es) {a : Cursor} (hat : a.Below t) (hne : a ≠ t)
    (hroot : a ≠ root.cursor) : batchRule es ⟨a.node.toElement, a.start⟩ = none := by
  have htroot : t ≠ root.cursor := h.ne_cursor (by simp [hk])
  obtain ⟨p, hp, hpt⟩ := Cursor.Below.exists_parent ht htroot.symm
  have hpos := h.length_pos ht htroot
  refine batchRule_eq_none_iff.mpr fun f hf => ?_
  by_contra hcon
  have hcon : f.removed.start ≤ a.start ∧ a.stop ≤ f.removed.stop :=
    Range.contains_iff.mp (by simpa using hcon)
  have hbounds := hat.bounds
  have hover : (Edit.replacement t.target ds).overlaps f = true := by
    rw [Edit.overlaps_iff]
    simp only [Edit.replacement, Cursor.target, Cursor.range_start, Cursor.range_stop]
    omega
  obtain rfl := hapart _ he f hf hover
  have hap : a.Below p := by
    rcases Relation.ReflTransGen.cases_tail hat with rfl | ⟨q, haq, hqt⟩
    · exact absurd rfl hne
    · obtain rfl : q = p := by simpa [hqt.parent?_eq] using hpt.parent?_eq
      exact haq
  have hproot : p ≠ root.cursor := by
    rintro rfl
    exact hroot (Node.cursor_of_below hap)
  obtain ⟨e, front, hbefore⟩ :=
    List.exists_cons_of_ne_nil (h.before_ne_nil hp hproot hpt (.inl hk))
  have hsolid : 0 < e.length :=
    (h.solid.children hp e (by rw [hpt.children_eq, hbefore]; simp)).self
  have hstart := hpt.start_eq
  rw [hbefore, Element.lengthList_cons] at hstart
  have hpb := Cursor.Below.bounds hap
  simp only [Edit.replacement, Cursor.target, Cursor.range_start] at hcon
  omega

/-- A guarded block of which nothing but a body is left becomes this body. -/
lemma subst_pointless (h : root.IsShaped) (hes : IsPlan root (· ∈ cs) es)
    (hapart : ∀ e ∈ es, ∀ f ∈ es, e.overlaps f = true → e = f) (ht : root.Has t)
    (hk : t.kind = .tryStatement) (hpoint : IsPointless (· ∈ cs) t)
    (hb : t.node.child? .block = some b) :
    t.node.toElement.subst (batchRule es) t.start = trimLayout (body b) := by
  obtain ⟨b', hb', he⟩ := hes.exists_flat hpoint
  obtain rfl : b' = b := Option.some.inj (hb'.symm.trans hb)
  obtain ⟨p, hp, hpt⟩ := Cursor.Below.exists_parent ht (h.ne_cursor (by simp [hk])).symm
  have hlive : (batchRule es).IsLive root p := by
    refine ⟨hp, ?_⟩
    by_cases hroot : p = root.cursor
    · exact .inl hroot
    · refine .inr (batchRule_eq_none_of_above h ht hk hapart he (.single hpt) ?_ hroot)
      rintro rfl
      simpa using congrArg List.length hpt.path_eq
  cases hr : batchRule es ⟨t.node.toElement, t.start⟩ with
  | none => exact absurd hr (hes.rule_pointless hpoint)
  | some ds =>
    rw [Element.subst_of_some hr]
    rcases hes.replaced h hlive hpt.mem_elements hr with ⟨hpk, -⟩ |
      ⟨u, b'', -, -, -, hb'', heq, rfl⟩
    · exact absurd hk (kind_ne_of_mem_try h hp hpk hpt.mem_children)
    · have hnode : t.node = u.node := by
        have := congrArg (Element.node? ∘ Placed.item) heq
        exact Option.some.inj this
      rw [← hnode, hb] at hb''
      rw [Option.some.inj hb'']

/-- **The comments of a body** that is put in the place of the whole are all in the new tree, one
after the other. -/
theorem IsOutcome.infix_comments (h : root.IsShaped) (hout : IsOutcome root (· ∈ cs) tree)
    (ht : root.Has t) (hk : t.kind = .tryStatement) (hpoint : IsPointless (· ∈ cs) t)
    (hb : t.node.child? .block = some b) : b.commentTokens <:+: tree.commentTokens := by
  obtain ⟨hes, hapart, rfl⟩ := hout
  rename_i es
  obtain ⟨b', hb', he⟩ := hes.exists_flat hpoint
  have hinfix := infix_leaves_subst ht (h.ne_cursor (by simp [hk])) fun a _ hat hne hroot =>
    batchRule_eq_none_of_above h ht hk hapart he hat hne hroot
  rw [subst_pointless h hes hapart ht hk hpoint hb] at hinfix
  rw [commentTokens_eq h ht hk hpoint.handlers hb]
  exact hinfix.filter _

/-! ## Bare guarded blocks -/

/-- **No guarded block becomes bare**: one that has neither a handler nor a clause that runs in any
case after a plan had neither before. -/
theorem IsOutcome.exists_bare (h : root.IsShaped) (hout : IsOutcome root (· ∈ cs) tree)
    {drop : Kind → Token → Bool} (hlayout : ∀ k u, u.kind.isLayout = true → drop k u = true)
    (htry : ∀ u, u.kind.isTrivia = true → drop .tryStatement u = true) {n : Node}
    (hn : n ∈ tree.nodes) (hbare : n.IsBare) :
    ∃ (c : Cursor) (m : Node), root.Has c ∧ c.node.IsBare ∧
      c.node.toElement.prune (cs.map Cursor.target) c.start = [m.toElement] ∧
      m.erase drop = n.erase drop := by
  have hmem : n.erase drop ∈ (tree.erase drop).nodes := by
    rw [Node.nodes_erase]
    exact List.mem_map_of_mem hn
  rw [hout.erase_eq h hlayout htry, Node.nodes_erase, List.mem_map] at hmem
  obtain ⟨m, hm, heq⟩ := hmem
  have hmbare : m.IsBare := Node.isBare_erase.mp (heq ▸ Node.isBare_erase.mpr hbare)
  obtain ⟨hes, -, -⟩ := hout
  rcases List.mem_cons.mp hm with rfl | hm
  · have := hmbare.kind
    rw [Node.prune, h.kind] at this
    cases this
  · obtain ⟨e, he, hme⟩ := Element.mem_nodesList.mp hm
    simp only [Node.prune] at he
    rw [Element.pruneList_flatMap, List.mem_flatMap] at he
    obtain ⟨x, hx, hex⟩ := he
    obtain ⟨c, hc, hcbare, hprune⟩ := Element.exists_bare_of_prune h hes.kind_of_mem
      root.has_cursor (x := x) hx m (Element.mem_nodesList.mpr ⟨e, hex, hme⟩) hmbare
    exact ⟨c, m, hc, hcbare, hprune, heq⟩

end Rethrow

end TreeLint
