import Mathlib.Logic.Relation
import Mathlib.Tactic.Common
import TreeLint.Syntax.Cursor

/-!
# Places below a node

A cursor that is built by hand need not belong to any tree. This file says which cursors do: those
reached from the root by steps to child nodes. Such a cursor lies inside the range of every node
above it, its parents and ancestors are those of the tree, and two of them are either one above
the other or apart in the text.

## Main definitions

* `TreeLint.Cursor.IsChild`, `TreeLint.Cursor.Below` — one step down, and any number of them.
* `TreeLint.Node.Has` — the cursors of a tree.

## Main results

* `TreeLint.Node.mem_cursors` — the cursors of a tree are the members of its preorder.
* `TreeLint.Cursor.Below.mem_ancestors`, `TreeLint.Cursor.Below.of_mem_ancestors` — the ancestors of
  a cursor are the cursors that it is below of.
* `TreeLint.Cursor.Below.comparable` — two cursors of one tree are comparable or apart.
-/

namespace TreeLint

/-! ## Ranges in numbers -/

namespace Range

/-- A range contains another one if it begins no later and ends no earlier. -/
lemma contains_iff {r s : Range} :
    r.contains s = true ↔ r.start ≤ s.start ∧ s.stop ≤ r.stop := by simp [contains]

/-- Ranges overlap if each begins before the other one ends. -/
lemma overlaps_iff {r s : Range} :
    r.overlaps s = true ↔ r.start < s.stop ∧ s.start < r.stop := by simp [overlaps]

/-- Ranges with the same bounds are the same. -/
lemma eq_of_bounds {r s : Range} (hstart : r.start = s.start) (hstop : r.stop = s.stop) :
    r = s := by
  cases r; cases s; simp_all

end Range

/-! ## Lengths and leaves of lists -/

namespace Element

@[simp] lemma length_token (t : Token) : (token t).length = t.length := rfl

@[simp] lemma length_node (k : Kind) (cs : List Element) : (node k cs).length = lengthList cs := rfl

@[simp] lemma leaves_token (t : Token) : (token t).leaves = [t] := rfl

@[simp] lemma leaves_node (k : Kind) (cs : List Element) : (node k cs).leaves = leavesList cs := rfl

@[simp] lemma lengthList_nil : lengthList [] = 0 := rfl

@[simp] lemma lengthList_cons (e : Element) (es : List Element) :
    lengthList (e :: es) = e.length + lengthList es := rfl

@[simp] lemma leavesList_nil : leavesList [] = [] := rfl

@[simp] lemma leavesList_cons (e : Element) (es : List Element) :
    leavesList (e :: es) = e.leaves ++ leavesList es := rfl

@[simp] lemma lengthList_append (es ds : List Element) :
    lengthList (es ++ ds) = lengthList es + lengthList ds := by
  induction es with
  | nil => simp
  | cons e es ih => simp [ih, Nat.add_assoc]

/-- Elements without a byte take up no room. -/
lemma lengthList_eq_zero {es : List Element} (h : ∀ e ∈ es, e.length = 0) : lengthList es = 0 := by
  induction es with
  | nil => rfl
  | cons e es ih =>
    rw [lengthList_cons, h e List.mem_cons_self, ih fun d hd => h d (List.mem_cons_of_mem _ hd)]

@[simp] lemma lengthList_reverse (es : List Element) : lengthList es.reverse = lengthList es := by
  induction es with
  | nil => rfl
  | cons e es ih => simp [ih, Nat.add_comm]

@[simp] lemma leavesList_append (es ds : List Element) :
    leavesList (es ++ ds) = leavesList es ++ leavesList ds := by
  induction es with
  | nil => simp
  | cons e es ih => simp [ih]

/-- A part of a list of elements is at most as long as the whole. -/
lemma length_le_of_mem {e : Element} {es : List Element} (h : e ∈ es) :
    e.length ≤ lengthList es := by
  obtain ⟨xs, ys, rfl⟩ := List.append_of_mem h
  simp only [lengthList_append, lengthList_cons]
  omega

/-- Leaving elements out makes a list of elements no longer. -/
lemma lengthList_le_of_sublist {es ds : List Element} (h : es.Sublist ds) :
    lengthList es ≤ lengthList ds := by
  induction h with
  | slnil => exact Nat.le_refl _
  | cons _ _ ih => simp only [lengthList_cons]; omega
  | cons_cons _ _ ih => simp only [lengthList_cons]; omega

end Element

/-! ## One step down -/

namespace Cursor

/-- The offset just behind the node at the cursor. -/
def stop (c : Cursor) : Nat := c.start + c.node.length

@[simp] lemma range_start (c : Cursor) : c.range.start = c.start := rfl

@[simp] lemma range_stop (c : Cursor) : c.range.stop = c.stop := rfl

/-- A node does not stop before it starts. -/
lemma start_le_stop (c : Cursor) : c.start ≤ c.stop := Nat.le_add_right ..

/-- `c` is the cursor at a child node of the node at `p`. -/
inductive IsChild (p : Cursor) : Cursor → Prop where
  /-- The child node with the siblings `xs` before it and `ys` behind it. -/
  | mk {xs ys : List Element} {k : Kind} {cs : List Element} :
    p.node.children = xs ++ .node k cs :: ys →
      IsChild p ⟨⟨k, cs⟩, p.start + Element.lengthList xs, ⟨p.kind, p.start, xs.reverse, ys⟩ :: p.path⟩

/-- `c` is the cursor at the node at `p` or at a node below it. -/
abbrev Below : Cursor → Cursor → Prop := Relation.ReflTransGen IsChild

/-- The parent of a child node is the node that it was reached from. -/
lemma IsChild.parent?_eq {p c : Cursor} (h : p.IsChild c) : c.parent? = some p := by
  obtain ⟨hcs⟩ := h
  simp only [parent?, Frame.plug, Node.toElement, List.reverse_reverse, ← hcs]
  rfl

/-- The ancestors of a child node are itself and those of its parent. -/
lemma IsChild.ancestors_eq {p c : Cursor} (h : p.IsChild c) : c.ancestors = c :: p.ancestors := by
  obtain ⟨hcs⟩ := h
  simp only [ancestors, ancestorsAlong, Frame.plug, Node.toElement, List.reverse_reverse, ← hcs]
  rfl

/-- The siblings of a child node, the node itself between them, are the children of its parent. -/
lemma IsChild.children_eq {p c : Cursor} (h : p.IsChild c) :
    p.node.children = c.before.reverse ++ c.node.toElement :: c.after := by
  obtain ⟨hcs⟩ := h
  simpa [before, after, Node.toElement] using hcs

/-- A child node is an element among the children. -/
lemma IsChild.mem_children {p c : Cursor} (h : p.IsChild c) :
    c.node.toElement ∈ p.node.children := by
  rw [h.children_eq]
  simp

/-- The siblings behind a child node are children of its parent. -/
lemma IsChild.mem_of_mem_after {p c : Cursor} (h : p.IsChild c) {e : Element} (he : e ∈ c.after) :
    e ∈ p.node.children := by
  rw [h.children_eq]
  simp [he]

/-- A child node starts behind the siblings before it. -/
lemma IsChild.start_eq {p c : Cursor} (h : p.IsChild c) :
    c.start = p.start + Element.lengthList c.before := by
  obtain ⟨hcs⟩ := h
  simp [before]

/-- With nothing empty before it, a child node that begins where its parent does is the first child. -/
lemma IsChild.before_eq_nil {p c : Cursor} (h : p.IsChild c) (hsolid : ∀ e ∈ c.before, 0 < e.length)
    (hstart : c.start ≤ p.start) : c.before = [] := by
  cases hb : c.before with
  | nil => rfl
  | cons e es =>
    have hpos := hsolid e (by simp [hb])
    have heq := h.start_eq
    simp only [hb, Element.lengthList_cons] at heq
    omega

/-- The way to a child node has one frame more than the way to its parent. -/
lemma IsChild.path_eq {p c : Cursor} (h : p.IsChild c) :
    c.path = ⟨p.kind, p.start, c.before, c.after⟩ :: p.path := by
  obtain ⟨hcs⟩ := h
  simp [before, after]

/-- A child node lies inside its parent, with its siblings before and behind it. -/
lemma IsChild.stop_eq {p c : Cursor} (h : p.IsChild c) :
    p.stop = c.stop + Element.lengthList c.after := by
  have hcs := h.children_eq
  have hs := h.start_eq
  simp only [stop, Node.length, hcs, Element.lengthList_append, Element.lengthList_reverse,
    Element.lengthList_cons, Node.toElement, Element.length_node, hs]
  omega

/-- A child node lies within its parent. -/
lemma IsChild.bounds {p c : Cursor} (h : p.IsChild c) : p.start ≤ c.start ∧ c.stop ≤ p.stop := by
  rw [h.start_eq, h.stop_eq]
  omega

/-- A child node is known by its siblings before it. -/
lemma IsChild.eq_of_before {p c d : Cursor} (hc : p.IsChild c) (hd : p.IsChild d)
    (h : c.before.length = d.before.length) : c = d := by
  have hcs := hc.children_eq.symm.trans hd.children_eq
  have hb := List.append_inj_left hcs (by simpa using h)
  have ha := List.append_inj_right hcs (by simpa using h)
  simp only [List.cons.injEq, Node.toElement, Element.node.injEq] at ha
  obtain ⟨⟨hk, hn⟩, hafter⟩ := ha
  have hbefore : c.before = d.before := List.reverse_inj.mp hb
  have hnode : c.node = d.node := by
    cases hcn : c.node; cases hdn : d.node; simp_all
  have hstart : c.start = d.start := by rw [hc.start_eq, hd.start_eq, hbefore]
  have hpath : c.path = d.path := by rw [hc.path_eq, hd.path_eq, hbefore, hafter]
  cases c; cases d; simp_all

/-- Of two child nodes, the one with fewer siblings before it stands before the other. -/
lemma IsChild.exists_between {p c d : Cursor} (hc : p.IsChild c) (hd : p.IsChild d)
    (h : c.before.length < d.before.length) : ∃ between,
      c.after = between ++ d.node.toElement :: d.after ∧
        d.before = between.reverse ++ c.node.toElement :: c.before := by
  have hcs := hc.children_eq.symm.trans hd.children_eq
  rcases List.append_eq_append_iff.mp hcs with ⟨zs, hzs, hrest⟩ | ⟨zs, hzs, -⟩
  · cases zs with
    | nil =>
      have hlen := congrArg List.length hzs
      simp only [List.append_nil, List.length_reverse] at hlen
      omega
    | cons z zs =>
      obtain ⟨rfl, hafter⟩ := List.cons.inj hrest
      refine ⟨zs, hafter, ?_⟩
      rw [← List.reverse_reverse d.before, hzs]
      simp
  · have hlen := congrArg List.length hzs
    simp only [List.length_reverse, List.length_append] at hlen
    omega

/-! ## Any number of steps down -/

namespace Below

variable {a b c d : Cursor}

/-- A node lies inside every node above it. -/
lemma bounds (h : Below a c) : a.start ≤ c.start ∧ c.stop ≤ a.stop := by
  induction h with
  | refl => exact ⟨Nat.le_refl _, Nat.le_refl _⟩
  | tail _ hstep ih =>
    have := hstep.bounds
    omega

/-- A node contains every node below it. -/
lemma contains (h : Below a c) : a.range.contains c.range = true :=
  Range.contains_iff.mpr h.bounds

/-- The way up from a node is no shorter than that from a node above it. -/
lemma length_path_le (h : Below a c) : a.path.length ≤ c.path.length := by
  induction h with
  | refl => exact Nat.le_refl _
  | tail _ hstep ih =>
    rw [hstep.path_eq, List.length_cons]
    omega

/-- Two nodes that are below each other are one. -/
lemma antisymm (h : Below a c) (h' : Below c a) : a = c := by
  rcases Relation.ReflTransGen.cases_tail h with rfl | ⟨p, hp, hstep⟩
  · rfl
  · have h₁ := length_path_le hp
    have h₂ := length_path_le h'
    rw [hstep.path_eq, List.length_cons] at h₂
    omega

/-- The nodes above a node are among its ancestors. -/
theorem mem_ancestors (h : Below a c) : a ∈ c.ancestors := by
  induction h with
  | refl =>
    unfold ancestors
    cases hp : a.path <;> simp [ancestorsAlong, ← hp]
  | tail _ hstep ih => rw [hstep.ancestors_eq]; exact List.mem_cons_of_mem _ ih

/-- Two nodes of one tree are one above the other, or apart in the text.

**Proof sketch.** Walk down from the common node. As long as both walks take the same child, the
induction hypothesis applies to that child. If one walk ends, its end is above the other. If they
take different children, all that is below the first ends before all that is below the second
begins. -/
theorem comparable (ha : Below d a) (hb : Below d b) :
    Below a b ∨ Below b a ∨ a.stop ≤ b.start ∨ b.stop ≤ a.start := by
  induction ha using Relation.ReflTransGen.head_induction_on with
  | refl => exact .inl hb
  | head hx hxa ih =>
    rename_i p x
    rcases Relation.ReflTransGen.cases_head hb with rfl | ⟨y, hy, hyb⟩
    · exact .inr (.inl (.head hx hxa))
    · have hxs := bounds hxa
      have hys := bounds hyb
      rcases Nat.lt_trichotomy x.before.length y.before.length with hlt | heq | hgt
      · exact .inr (.inr (.inl (by have := apart hx hy hlt; omega)))
      · obtain rfl := hx.eq_of_before hy heq
        exact ih hyb
      · exact .inr (.inr (.inr (by have := apart hy hx hgt; omega)))
where
  /-- Of two children, the one with fewer siblings before it ends before the other begins. -/
  apart {p x y : Cursor} (hx : p.IsChild x) (hy : p.IsChild y)
      (h : x.before.length < y.before.length) : x.stop ≤ y.start := by
    obtain ⟨between, -, hbefore⟩ := hx.exists_between hy h
    have hxs := hx.start_eq
    have hys := hy.start_eq
    simp only [hbefore, Element.lengthList_append, Element.lengthList_reverse, Element.lengthList_cons,
      Node.toElement, Element.length_node] at hys
    simp only [stop, Node.length]
    omega

/-- The ancestors of a node of a tree are the nodes above it. -/
theorem of_mem_ancestors (h : Below d c) (hd : d.path = []) (ha : a ∈ c.ancestors) :
    Below d a ∧ Below a c := by
  induction h with
  | refl =>
    obtain rfl : a = d := by
      simp only [ancestors, hd, ancestorsAlong, List.mem_singleton] at ha
      rw [ha]; cases d; simp_all
    exact ⟨.refl, .refl⟩
  | tail hb hstep ih =>
    rw [hstep.ancestors_eq, List.mem_cons] at ha
    rcases ha with rfl | ha
    · exact ⟨.tail hb hstep, .refl⟩
    · obtain ⟨h₁, h₂⟩ := ih ha
      exact ⟨h₁, .tail h₂ hstep⟩

/-- A node that is not the topmost has a parent. -/
lemma exists_parent (h : Below a c) (hne : a ≠ c) : ∃ p, Below a p ∧ p.IsChild c := by
  rcases Relation.ReflTransGen.cases_tail h with heq | ⟨p, hp, hstep⟩
  · exact absurd heq.symm hne
  · exact ⟨p, hp, hstep⟩

end Below

/-! ## Preorder and child nodes -/

mutual
/-- The cursors of an element are those below it. -/
theorem mem_cursorsElement (path : List Frame) (start : Nat) {c : Cursor} : ∀ e : Element,
    c ∈ e.cursors path start ↔ ∃ k cs, e = .node k cs ∧ Below ⟨⟨k, cs⟩, start, path⟩ c
  | .token t => by simp [Element.cursors]
  | .node k cs => by
    simp only [Element.cursors, List.mem_cons, mem_cursorsList path k start [] start cs]
    constructor
    · rintro (rfl | ⟨xs, l, ds, ys, hcs, hb⟩)
      · exact ⟨k, cs, rfl, .refl⟩
      · exact ⟨k, cs, rfl, .head (.mk hcs) (by simpa [kind] using hb)⟩
    · rintro ⟨_, _, heq, hb⟩
      obtain ⟨rfl, rfl⟩ := Element.node.inj heq
      rcases Relation.ReflTransGen.cases_head hb with rfl | ⟨_, ⟨hcs⟩, hb⟩
      · exact .inl rfl
      · exact .inr ⟨_, _, _, _, hcs, by simpa [kind] using hb⟩
/-- The cursors of some consecutive children are those below one of the child nodes. -/
theorem mem_cursorsList (path : List Frame) (k : Kind) (start : Nat) (before : List Element)
    (offset : Nat) {c : Cursor} : ∀ es : List Element,
    c ∈ Element.cursorsList path k start before offset es ↔
      ∃ xs l ds ys, es = xs ++ .node l ds :: ys ∧
        Below ⟨⟨l, ds⟩, offset + Element.lengthList xs,
          ⟨k, start, xs.reverse ++ before, ys⟩ :: path⟩ c
  | [] => by simp [Element.cursorsList]
  | e :: es => by
    simp only [Element.cursorsList, List.mem_append, mem_cursorsElement _ offset e,
      mem_cursorsList path k start (e :: before) (offset + e.length) es]
    constructor
    · rintro (⟨l, ds, rfl, hb⟩ | ⟨xs, l, ds, ys, rfl, hb⟩)
      · exact ⟨[], l, ds, es, rfl, by simpa using hb⟩
      · exact ⟨e :: xs, l, ds, ys, rfl, by simpa [Nat.add_assoc] using hb⟩
    · rintro ⟨xs, l, ds, ys, heq, hb⟩
      cases xs with
      | nil =>
        obtain ⟨rfl, rfl⟩ := List.cons.inj heq
        exact .inl ⟨l, ds, rfl, by simpa using hb⟩
      | cons x xs =>
        obtain ⟨rfl, rfl⟩ := List.cons.inj heq
        exact .inr ⟨xs, l, ds, ys, rfl, by simpa [Nat.add_assoc] using hb⟩
end

/-- The preorder below a node consists of the cursors below it. -/
theorem mem_cursors {p c : Cursor} : c ∈ p.cursors ↔ Below p c := by
  simp only [cursors, Node.toElement, mem_cursorsElement]
  constructor
  · rintro ⟨k, cs, heq, hb⟩
    obtain ⟨rfl, rfl⟩ := Element.node.inj heq
    exact hb
  · exact fun hb => ⟨_, _, rfl, hb⟩

/-- The cursors at some children are those at the nodes among them, each with what stands before and
behind it. -/
lemma mem_childrenFrom (path : List Frame) (k : Kind) (start : Nat) (before : List Element)
    (offset : Nat) (es : List Element) {c : Cursor} :
    c ∈ childrenFrom path k start before offset es ↔
      ∃ xs l ds ys, es = xs ++ .node l ds :: ys ∧
        c = ⟨⟨l, ds⟩, offset + Element.lengthList xs,
          ⟨k, start, xs.reverse ++ before, ys⟩ :: path⟩ := by
  induction es generalizing before offset with
  | nil => simp [childrenFrom]
  | cons e es ih =>
    have hrest : c ∈ childrenFrom path k start (e :: before) (offset + e.length) es ↔
        ∃ xs l ds ys, e :: es = (e :: xs) ++ .node l ds :: ys ∧
          c = ⟨⟨l, ds⟩, offset + Element.lengthList (e :: xs),
            ⟨k, start, (e :: xs).reverse ++ before, ys⟩ :: path⟩ := by
      rw [ih]; simp [Nat.add_assoc]
    cases e with
    | token t =>
      simp only [childrenFrom, hrest]
      constructor
      · rintro ⟨xs, l, ds, ys, h⟩
        exact ⟨_, l, ds, ys, h⟩
      · rintro ⟨xs, l, ds, ys, heq, rfl⟩
        cases xs with
        | nil => cases heq
        | cons x xs =>
          obtain ⟨rfl, rfl⟩ := List.cons.inj heq
          exact ⟨xs, l, ds, ys, rfl, rfl⟩
    | node l ds =>
      simp only [childrenFrom, List.mem_cons, hrest]
      constructor
      · rintro (rfl | ⟨xs, l, ds, ys, h⟩)
        · exact ⟨[], l, ds, es, rfl, by simp⟩
        · exact ⟨_, l, ds, ys, h⟩
      · rintro ⟨xs, l', ds', ys, heq, rfl⟩
        cases xs with
        | nil => cases heq; exact .inl (by simp)
        | cons x xs =>
          obtain ⟨rfl, rfl⟩ := List.cons.inj heq
          exact .inr ⟨xs, l', ds', ys, rfl, rfl⟩

/-- The cursors at the child nodes are those one step down. -/
theorem mem_children {p c : Cursor} : c ∈ p.children ↔ p.IsChild c := by
  simp only [children, mem_childrenFrom, List.append_nil]
  constructor
  · rintro ⟨xs, l, ds, ys, hcs, rfl⟩
    exact .mk hcs
  · rintro ⟨hcs⟩
    exact ⟨_, _, _, _, hcs, rfl⟩

end Cursor

/-! ## The cursors of a tree -/

/-- `c` is a cursor of the tree: it is reached from the root. -/
def Node.Has (root : Node) (c : Cursor) : Prop := root.cursor.Below c

namespace Node

variable {root : Node} {a c p : Cursor}

/-- The cursors of a tree are the members of its preorder. -/
theorem mem_cursors : c ∈ root.cursors ↔ root.Has c := Cursor.mem_cursors

/-- The root belongs to its tree. -/
lemma has_cursor (root : Node) : root.Has root.cursor := .refl

/-- A child node belongs to the tree of its parent. -/
lemma Has.child (h : root.Has p) (hc : p.IsChild c) : root.Has c := .tail h hc

/-- The root is below no other node. -/
lemma cursor_of_below (h : c.Below root.cursor) : c = root.cursor := by
  rcases Relation.ReflTransGen.cases_tail h with heq | ⟨p, -, hstep⟩
  · exact heq.symm
  · simpa [cursor] using hstep.path_eq

/-- The ancestors of a node belong to its tree. -/
lemma Has.of_mem_ancestors (h : root.Has c) (ha : a ∈ c.ancestors) : root.Has a :=
  (Cursor.Below.of_mem_ancestors h rfl ha).1

/-- A node is below each of its ancestors. -/
lemma Has.below_of_mem_ancestors (h : root.Has c) (ha : a ∈ c.ancestors) : a.Below c :=
  (Cursor.Below.of_mem_ancestors h rfl ha).2

/-- A node does not stand above itself. -/
lemma Has.ne_of_mem_tail (h : root.Has c) (ha : a ∈ c.ancestors.tail) : a ≠ c := by
  rintro rfl
  rcases Relation.ReflTransGen.cases_tail h with rfl | ⟨p, hp, hstep⟩
  · simp [cursor, Cursor.ancestors, Cursor.ancestorsAlong] at ha
  · rw [hstep.ancestors_eq, List.tail_cons] at ha
    have hle := Cursor.Below.length_path_le (Has.below_of_mem_ancestors hp ha)
    rw [hstep.path_eq, List.length_cons] at hle
    omega

/-- The parent that a cursor of a tree names is its parent in the tree. -/
theorem Has.parent (h : root.Has c) (hp : c.parent? = some p) : root.Has p ∧ p.IsChild c := by
  rcases Relation.ReflTransGen.cases_tail h with rfl | ⟨q, hq, hstep⟩
  · simp [cursor, Cursor.parent?] at hp
  · obtain rfl : q = p := by simpa [hstep.parent?_eq] using hp
    exact ⟨hq, hstep⟩

end Node

end TreeLint
