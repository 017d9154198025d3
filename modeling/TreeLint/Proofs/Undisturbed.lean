import TreeLint.Proofs.Progress

/-!
# Handlers in front of what is changed

When a tree is changed behind a handler, the handler is still there, at the same place. If the children
of its guarded block are kept, though something may change in those behind the handler, then the
removal of the handler is the same edit as before, and if the whole guarded block is kept as it is, so
is the edit that flattens it.

## Main definitions

* `TreeLint.Element.Alike` — elements that are alike from outside.
* `TreeLint.Cursor.Alike` — nodes that are the same, but for what stands behind them.

## Main results

* `TreeLint.Cursor.Alike.removal_eq` — handlers that are alike have the same removal.
* `TreeLint.Rethrow.exists_alike` — a handler whose guarded block keeps its children.
* `TreeLint.Rethrow.exists_whole` — a guarded block that is kept as a whole.
-/

namespace TreeLint

/-! ## Elements that are alike -/

namespace Element

/-- Two elements are alike from outside: they are the same token, or nodes of the same kind. -/
inductive Alike : Element → Element → Prop where
  /-- The same token. -/
  | token (t : Token) : Alike (.token t) (.token t)
  /-- Nodes of the same kind. -/
  | node (k : Kind) (cs ds : List Element) : Alike (.node k cs) (.node k ds)

variable {e d : Element} {es ds : List Element} {rule : Rule} {start : Nat}

/-- An element is alike to itself. -/
lemma Alike.refl (e : Element) : Alike e e := by
  cases e with
  | token t => exact .token t
  | node k cs => exact .node k cs cs

/-- Elements that are alike are of the same kind. -/
lemma Alike.kind_eq (h : Alike e d) : d.kind = e.kind := by cases h <;> rfl

/-- A substitution inside an element leaves it alike from outside. -/
lemma alike_substInside (rule : Rule) (start : Nat) (e : Element) :
    Alike e (e.substInside rule start) := by
  cases e with
  | token t => exact .token t
  | node k cs => exact .node k cs _

/-- Elements that a rule keeps are alike before and after the substitution. -/
lemma forall₂_alike_substList (h : ∀ x ∈ place start es, rule x = none) :
    List.Forall₂ Alike es (substList rule start es) := by
  induction es generalizing start with
  | nil => exact .nil
  | cons e es ih =>
    rw [substList_cons, subst_of_none (h _ List.mem_cons_self)]
    exact .cons (alike_substInside ..) (ih fun x hx => h x (List.mem_cons_of_mem _ hx))

/-- Elements that are alike begin with the same trivia. -/
lemma triviaRun_congr (h : List.Forall₂ Alike es ds) : triviaRun ds = triviaRun es := by
  induction h with
  | nil => rfl
  | cons hed _ ih =>
    have hcons : ∀ t es, triviaRun (.token t :: es) =
        if (Element.token t).isTrivia then t :: triviaRun es else [] := by
      intro t es
      rw [triviaRun, List.takeWhile_cons]
      split <;> rfl
    cases hed with
    | token t => rw [hcons, hcons, ih]
    | node k cs ds => rfl

/-- Whether all elements are trivia can be seen from outside. -/
lemma all_isTrivia_congr (h : List.Forall₂ Alike es ds) :
    (ds.all fun e => e.kind.isTrivia) = es.all fun e => e.kind.isTrivia := by
  induction h with
  | nil => rfl
  | cons hed _ ih => rw [List.all_cons, List.all_cons, hed.kind_eq, ih]

/-- Elements that are alike are nodes of the same kinds. -/
lemma map_kind_node?_congr (h : List.Forall₂ Alike es ds) :
    (ds.filterMap node?).map Node.kind = (es.filterMap node?).map Node.kind := by
  induction h with
  | nil => rfl
  | cons hed _ ih =>
    cases hed with
    | token t => exact ih
    | node k cs ds => exact congrArg (k :: ·) ih

end Element

namespace Node

variable {n m : Node}

/-- Nodes whose children are alike have as many handlers. -/
lemma length_handlers_congr (h : List.Forall₂ Element.Alike n.children m.children) :
    m.handlers.length = n.handlers.length := by
  have hcount : ∀ n : Node, n.handlers.length =
      ((n.childNodes.map Node.kind).filter (· = .catchClause)).length := by
    intro n
    rw [List.filter_map, List.length_map]
    rfl
  rw [hcount, hcount, childNodes, childNodes, Element.map_kind_node?_congr h]

/-- Nodes whose children are alike have a clause that runs in any case, or none. -/
lemma hasFinally_congr (h : List.Forall₂ Element.Alike n.children m.children) :
    m.hasFinally = n.hasFinally := by
  have hmem : ∀ n : Node, n.hasFinally = true ↔ Kind.finallyClause ∈ n.childNodes.map Node.kind := by
    intro n
    simp [hasFinally, child?]
  rw [Bool.eq_iff_iff, hmem, hmem, childNodes, childNodes, Element.map_kind_node?_congr h]

end Node

/-! ## Nodes that are alike -/

/-- The same node at the same place behind the same siblings, with siblings behind it that are alike. -/
structure Cursor.Alike (c d : Cursor) : Prop where
  /-- The node is the same. -/
  node : d.node = c.node
  /-- It begins at the same offset. -/
  start : d.start = c.start
  /-- The siblings before it are the same. -/
  before : d.before = c.before
  /-- The siblings behind it are alike. -/
  after : List.Forall₂ Element.Alike c.after d.after

namespace Cursor.Alike

variable {c d : Cursor}

/-- Nodes that are alike have the same range. -/
lemma range_eq (h : c.Alike d) : d.range = c.range := by rw [range, range, h.node, h.start]

/-- Nodes that are alike have the same target. -/
lemma target_eq (h : c.Alike d) : d.target = c.target := by
  rw [target, target, h.range_eq, kind, h.node]
  rfl

/-- Nodes that are alike have the same range with trivia. -/
lemma rangeWithTrivia_eq (h : c.Alike d) : d.rangeWithTrivia = c.rangeWithTrivia := by
  refine Range.eq_of_bounds ?_ ?_
  · simp only [rangeWithTrivia, leadingTrivia, h.range_eq, h.before]
  · simp only [rangeWithTrivia, trailingTrivia, h.range_eq, Element.triviaRun_congr h.after]

/-- **Handlers that are alike** have the same removal. -/
theorem removal_eq (h : c.Alike d) : Rethrow.removal d = Rethrow.removal c := by
  have hlast : Rethrow.isLast d = Rethrow.isLast c := Element.all_isTrivia_congr h.after
  have hlayout : Rethrow.layoutBefore d = Rethrow.layoutBefore c := by
    simp only [Rethrow.layoutBefore, leadingTrivia, h.before]
  simp only [Rethrow.removal, hlast, h.target_eq, h.rangeWithTrivia_eq, Rethrow.layoutStart?, hlayout]

end Cursor.Alike

namespace Rethrow

variable {root : Node} {c t : Cursor} {rule : Rule}

/-! ## Handlers in front of a substitution -/

/-- A node that begins where a rule does not yet replace anything stands in the substituted tree, at
the same place. -/
lemma exists_kept (hs : root.All Element.IsSolid) (ht : root.Has t)
    (hfront : ∀ x : Placed Element, x.start ≤ t.start → rule x = none) :
    ∃ t', (root.subst rule).Has t' ∧ t'.kind = t.kind ∧ t'.start = t.start ∧
      t'.node.children = Element.substList rule t.start t.node.children := by
  have hsubst := Node.subst_eq_rebuild rule ht hs (fun x _ hle => hfront x (by omega))
    fun a _ hat _ => hfront _ hat.bounds.1
  rw [hsubst]
  exact ⟨_, Cursor.has_rebuildAlong (Cursor.startsFit_substPath ht.startsFit) _, rfl, rfl, rfl⟩

/-- A child with siblings behind it that are alike. -/
lemma exists_alike_child {t' : Cursor} {after : List Element} (hc : t.IsChild c)
    (hstart : t'.start = t.start)
    (hchildren : t'.node.children = c.before.reverse ++ c.node.toElement :: after)
    (hafter : List.Forall₂ Element.Alike c.after after) : ∃ c', t'.IsChild c' ∧ c.Alike c' := by
  refine ⟨_, .mk hchildren, rfl, ?_, List.reverse_reverse _, hafter⟩
  simp only [hstart, Element.lengthList_reverse, hc.start_eq]

/-- **A guarded block that is kept as a whole.** -/
theorem exists_whole (hs : root.All Element.IsSolid) (ht : root.Has t) (hpos : t.start < t.stop)
    (hc : t.IsChild c) (hfront : ∀ x : Placed Element, x.start < t.stop → rule x = none) :
    ∃ t' c', (root.subst rule).Has t' ∧ t'.node = t.node ∧ t'.start = t.start ∧ t'.IsChild c' ∧
      c.Alike c' := by
  obtain ⟨t', ht', hkind, hstart, hchildren⟩ := exists_kept hs ht fun x hx => hfront x (by omega)
  have hsame : Element.substList rule t.start t.node.children = t.node.children := by
    refine Element.substList_eq_self (fun x hx hle => hfront x ?_) (hs.children ht) (Nat.le_refl _)
    have : 0 < x.item.length := hx
    have : t.stop = t.start + Element.lengthList t.node.children := rfl
    omega
  rw [hsame] at hchildren
  obtain ⟨c', hc', halike⟩ := exists_alike_child hc hstart (hchildren.trans hc.children_eq)
    (List.forall₂_same.mpr fun e _ => .refl e)
  refine ⟨t', c', ht', ?_, hstart, hc', halike⟩
  rw [Cursor.kind, Cursor.kind] at hkind
  cases hn : t'.node
  cases hm : t.node
  simp_all

/-- **A handler whose guarded block keeps its children**, in front of what is replaced. -/
theorem exists_alike (hs : root.All Element.IsSolid) (ht : root.Has t) (hc : t.IsChild c)
    (hpos : c.start < c.stop) (hfront : ∀ x : Placed Element, x.start < c.stop → rule x = none)
    (hkept : ∀ x ∈ t.elements, rule x = none) :
    ∃ t' c', (root.subst rule).Has t' ∧ t'.kind = t.kind ∧
      List.Forall₂ Element.Alike t.node.children t'.node.children ∧ t'.IsChild c' ∧ c.Alike c' := by
  have hcstop : c.stop = c.start + c.node.length := rfl
  have hcstart := hc.start_eq
  obtain ⟨t', ht', hkind, hstart, hchildren⟩ := exists_kept hs ht fun x hx => hfront x (by omega)
  have halike := Element.forall₂_alike_substList hkept
  rw [← hchildren] at halike
  have hall := hs.children ht
  have hlist : t.node.children = c.before.reverse ++ [c.node.toElement] ++ c.after := by
    rw [hc.children_eq]
    simp
  have hstop : t.start + Element.lengthList (c.before.reverse ++ [c.node.toElement]) = c.stop := by
    rw [Element.lengthList_append, Element.lengthList_reverse, hcstop, hcstart, Nat.add_assoc]
    rfl
  have hsame : Element.substList rule t.start (c.before.reverse ++ [c.node.toElement]) =
      c.before.reverse ++ [c.node.toElement] := by
    refine Element.substList_eq_self (fun x hx hle => hfront x ?_)
      (fun e he => hall e (by rw [hlist]; exact List.mem_append_left _ he)) (Nat.le_of_eq hstop)
    have : 0 < x.item.length := hx
    omega
  have hafter : List.Forall₂ Element.Alike c.after (Element.substList rule c.stop c.after) := by
    refine Element.forall₂_alike_substList fun x hx => hkept x ?_
    rw [hc.elements_eq]
    exact List.mem_append_right _ (List.mem_cons_of_mem _ hx)
  rw [hlist, Element.substList_append, hsame, hstop, List.append_assoc] at hchildren
  obtain ⟨c', hc', hcc'⟩ := exists_alike_child hc hstart hchildren hafter
  exact ⟨t', c', ht', hkind, halike, hc', hcc'⟩

end Rethrow

end TreeLint
