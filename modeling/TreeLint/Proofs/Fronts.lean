import TreeLint.Proofs.Groups
import TreeLint.Proofs.Substitution

/-!
# Trees that agree up to an offset

A batch of edits is applied from the last to the first, so an edit meets a tree that is as it was up to
where the later edits begin. Behind that offset anything may stand: also elements that hold no byte,
since an edit may remove all children of a node. This file says what such a tree has in common with the
tree it comes from.

## Main definitions

* `TreeLint.Element.AgreeTo`, `TreeLint.Node.AgreeTo` — elements and trees that agree up to an offset.
* `TreeLint.Cursor.SameFront` — places with the same way to them, as far as it lies in front of them.

## Main results

* `TreeLint.Node.AgreeTo.exists_cursor` — a node that begins in the part that agrees is found again.
* `TreeLint.Node.AgreeTo.exists_child` — so are the first children of a node, and a node among them.
* `TreeLint.Cursor.agreeTo_rebuildAlong` — a node changed from an offset on, with the tree around it.
-/

namespace TreeLint

/-! ## Elements that agree -/

namespace Element

/-- Consecutive elements, the first at a given offset, agree with others up to a limit: what ends in
front of the limit is the same, and nodes around the limit are of the same kind and agree inside. -/
inductive AgreeTo (limit : Nat) : Nat → List Element → List Element → Prop where
  /-- Behind the limit anything may stand. -/
  | behind {start : Nat} {es ds : List Element} (h : limit ≤ start) : AgreeTo limit start es ds
  /-- Both end. -/
  | nil {start : Nat} : AgreeTo limit start [] []
  /-- Both go on with the same element. -/
  | same {start : Nat} {e : Element} {es ds : List Element}
    (h : AgreeTo limit (start + e.length) es ds) : AgreeTo limit start (e :: es) (e :: ds)
  /-- The limit lies in a node. -/
  | inside {start : Nat} {k : Kind} {cs cs' es ds : List Element}
    (hlimit : limit < start + lengthList cs) (h : AgreeTo limit start cs cs') :
    AgreeTo limit start (.node k cs :: es) (.node k cs' :: ds)

namespace AgreeTo

variable {limit limit' start : Nat} {es ds fs xs ys zs : List Element}

/-- Elements agree with themselves. -/
lemma refl (limit start : Nat) (es : List Element) : AgreeTo limit start es es := by
  induction es generalizing start with
  | nil => exact .nil
  | cons e es ih => exact .same (ih _)

/-- Elements that agree up to an offset agree up to a smaller one. -/
lemma mono (h : AgreeTo limit start es ds) (hle : limit' ≤ limit) : AgreeTo limit' start es ds := by
  induction h with
  | behind h => exact .behind (Nat.le_trans hle h)
  | nil => exact .nil
  | same _ ih => exact .same ih
  | inside h _ ih => exact .inside (Nat.lt_of_le_of_lt hle h) ih

/-- Elements agree with what those agree with with which they agree, up to the smaller offset. -/
lemma trans (h : AgreeTo limit start es ds) (h' : AgreeTo limit' start ds fs) (hle : limit' ≤ limit) :
    AgreeTo limit' start es fs := by
  induction h generalizing fs with
  | behind h => exact .behind (Nat.le_trans hle h)
  | nil => exact h'
  | same _ ih =>
    cases h' with
    | behind h' => exact .behind h'
    | same h' => exact .same (ih h')
    | inside hlimit h' => exact .inside hlimit h'
  | inside hlimit h ih =>
    cases h' with
    | behind h' => exact .behind h'
    | same h' => exact .inside (Nat.lt_of_le_of_lt hle hlimit) (h.mono hle)
    | inside _ h' => exact .inside (Nat.lt_of_le_of_lt hle hlimit) (ih h')

/-- Elements agree behind equal ones. -/
lemma append (xs : List Element) (h : AgreeTo limit (start + lengthList xs) ys zs) :
    AgreeTo limit start (xs ++ ys) (xs ++ zs) := by
  induction xs generalizing start with
  | nil => exact h
  | cons x xs ih =>
    rw [lengthList_cons, ← Nat.add_assoc] at h
    exact .same (ih h)

/-- Elements that are not empty and end in front of the limit are the same. -/
lemma exists_eq_append (h : AgreeTo limit start (xs ++ ys) ds)
    (hle : start + lengthList xs ≤ limit) (hxs : ∀ x ∈ xs, x.IsSolid) :
    ∃ zs, ds = xs ++ zs ∧ AgreeTo limit (start + lengthList xs) ys zs := by
  induction xs generalizing start ds with
  | nil => exact ⟨ds, rfl, h⟩
  | cons x xs ih =>
    have hx : 0 < x.length := hxs x List.mem_cons_self
    have hxs := fun y hy => hxs y (List.mem_cons_of_mem x hy)
    rw [lengthList_cons, ← Nat.add_assoc] at hle ⊢
    cases h with
    | behind h => omega
    | same h =>
      obtain ⟨zs, rfl, hzs⟩ := ih h hle hxs
      exact ⟨zs, rfl, hzs⟩
    | inside hlimit => rw [length_node] at hle; omega

/-- A node that begins in front of the limit is a node of the same kind. -/
lemma exists_eq_cons {k : Kind} {cs : List Element} (h : AgreeTo limit start (.node k cs :: ys) ds)
    (hlt : start < limit) : ∃ cs' zs, ds = .node k cs' :: zs ∧ AgreeTo limit start cs cs' := by
  cases h with
  | behind h => omega
  | same => exact ⟨cs, _, rfl, refl ..⟩
  | inside _ h => exact ⟨_, _, rfl, h⟩

end AgreeTo

end Element

/-! ## Trees that agree -/

/-- Two trees agree up to a limit. -/
structure Node.AgreeTo (limit : Nat) (root tree : Node) : Prop where
  /-- The roots are of the same kind. -/
  kind : tree.kind = root.kind
  /-- The children agree. -/
  children : Element.AgreeTo limit 0 root.children tree.children

/-- A tree agrees with itself. -/
lemma Node.AgreeTo.refl (limit : Nat) (root : Node) : root.AgreeTo limit root :=
  ⟨rfl, .refl ..⟩

/-- A tree that agrees with another one agrees with what this one agrees with, up to the smaller offset.
-/
lemma Node.AgreeTo.trans {limit limit' : Nat} {root tree tree' : Node} (h : root.AgreeTo limit tree)
    (h' : tree.AgreeTo limit' tree') (hle : limit' ≤ limit) : root.AgreeTo limit' tree' :=
  ⟨h'.kind.trans h.kind, h.children.trans h'.children hle⟩

namespace Cursor

/-- The same step up, but for what stands behind it. -/
def SameStep (f g : Frame) : Prop := g.kind = f.kind ∧ g.start = f.start ∧ g.before = f.before

/-- Two places have the same way to them, but for what stands behind it, and nodes of the same kind. -/
structure SameFront (c d : Cursor) : Prop where
  /-- The nodes are of the same kind. -/
  kind : d.kind = c.kind
  /-- They begin at the same offset. -/
  start : d.start = c.start
  /-- The steps up are the same. -/
  path : List.Forall₂ SameStep c.path d.path

/-- The way to a node goes on from the way to a node above it. -/
lemma Below.path_suffix {c d : Cursor} (h : c.Below d) : c.path <:+ d.path := by
  induction h with
  | refl => exact List.suffix_refl _
  | tail _ hstep ih => rw [hstep.path_eq]; exact ih.trans (List.suffix_cons _ _)

/-- **A node changed from an offset on**, with the tree around it: the trees agree up to the offset. -/
theorem agreeTo_rebuildAlong {limit start : Nat} {path : List Frame} (hfit : StartsFit start path)
    {n m : Node} (hk : m.kind = n.kind) (hlimit : limit < start + n.length)
    (h : Element.AgreeTo limit start n.children m.children) :
    (rebuildAlong n path).AgreeTo limit (rebuildAlong m path) := by
  induction path generalizing n m start with
  | nil =>
    obtain rfl : start = 0 := hfit
    exact ⟨hk, h⟩
  | cons f path ih =>
    obtain ⟨hstart, hfit⟩ := hfit
    have hlen : (f.plug n).length = Element.lengthList f.before + (n.length +
        Element.lengthList f.after) := by
      simp [Node.length, Frame.plug, Node.toElement]
    refine ih hfit rfl (by omega) ?_
    have hinside : Element.AgreeTo limit start (n.toElement :: f.after) (m.toElement :: f.after) := by
      rw [Node.toElement, Node.toElement, hk]
      exact .inside hlimit h
    rw [hstart, ← Element.lengthList_reverse] at hinside
    exact hinside.append f.before.reverse

end Cursor

namespace Node

variable {limit : Nat} {root tree : Node} {p c : Cursor}

/-- A tree is rebuilt around each of its nodes. -/
lemma Has.rebuildAlong_eq (h : root.Has c) : Cursor.rebuildAlong c.node c.path = root := by
  induction h with
  | refl => rfl
  | @tail p c _ hstep ih =>
    have hplug : (⟨p.kind, p.start, c.before, c.after⟩ : Frame).plug c.node = p.node := by
      rw [Frame.plug, ← hstep.children_eq]
      rfl
    rw [hstep.path_eq, Cursor.rebuildAlong, hplug, ih]

/-- **A node that begins in the part that agrees** has a counterpart in the other tree. -/
theorem AgreeTo.exists_cursor (h : root.AgreeTo limit tree) (hs : root.All Element.IsSolid)
    (hp : root.Has p) (hlt : p.start < limit) : ∃ p', tree.Has p' ∧ p.SameFront p' ∧
      Element.AgreeTo limit p.start p.node.children p'.node.children := by
  induction hp with
  | refl => exact ⟨tree.cursor, tree.has_cursor, ⟨h.kind, rfl, .nil⟩, h.children⟩
  | @tail p c hb hstep ih =>
    have hstart := hstep.start_eq
    obtain ⟨p', hp', hfront, hagree⟩ := ih (by omega)
    rw [hstep.children_eq] at hagree
    have hbefore : ∀ x ∈ c.before.reverse, x.IsSolid := fun x hx =>
      (hs.children hb x (by rw [hstep.children_eq]; exact List.mem_append_left _ hx)).self
    rw [← Element.lengthList_reverse] at hstart
    obtain ⟨zs, hzs, hrest⟩ := hagree.exists_eq_append (by omega) hbefore
    rw [← hstart] at hrest
    obtain ⟨cs, ys, rfl, hcs⟩ := hrest.exists_eq_cons hlt
    have hchild := Cursor.IsChild.mk hzs
    refine ⟨_, hp'.child hchild, ⟨rfl, ?_, ?_⟩, hcs⟩
    · simp only [hstart, hfront.start]
    · rw [hstep.path_eq, List.reverse_reverse]
      exact .cons ⟨hfront.kind, hfront.start, rfl⟩ hfront.path

/-- **The first children of a node**, if they end in the part that agrees, stand in the other tree, and
each node among them has its counterpart there. -/
theorem AgreeTo.exists_child (h : root.AgreeTo limit tree) (hs : root.All Element.IsSolid)
    (hp : root.Has p) (hc : p.IsChild c) {rest ys : List Element}
    (hcs : p.node.children = c.before.reverse ++ c.node.toElement :: rest ++ ys)
    (hstop : p.start + Element.lengthList (c.before.reverse ++ c.node.toElement :: rest) ≤ limit) :
    ∃ p' c' zs, tree.Has p' ∧ p'.IsChild c' ∧ p'.start = p.start ∧
      p'.node.children = c.before.reverse ++ c.node.toElement :: rest ++ zs ∧
      c.SameFront c' ∧ c'.node = c.node := by
  have hall := hs.children hp
  have hsolid : 0 < c.node.toElement.length := (hall _ hc.mem_children).self
  have hpos : 0 < Element.lengthList (c.before.reverse ++ c.node.toElement :: rest) := by
    rw [Element.lengthList_append, Element.lengthList_cons]
    omega
  obtain ⟨p', hp', hfront, hinside⟩ := h.exists_cursor hs hp (by omega)
  rw [hcs] at hinside
  obtain ⟨zs, hzs, -⟩ := hinside.exists_eq_append hstop fun d hd =>
    (hall d (by rw [hcs]; exact List.mem_append_left _ hd)).self
  have hchild := @Cursor.IsChild.mk p' c.before.reverse (rest ++ zs) c.node.kind c.node.children (by
    rw [hzs, List.append_assoc, List.cons_append]; rfl)
  refine ⟨p', _, zs, hp', hchild, hfront.start, hzs, ⟨rfl, ?_, ?_⟩, rfl⟩
  · rw [hc.start_eq, Element.lengthList_reverse, hfront.start]
  · rw [hc.path_eq, List.reverse_reverse]
    exact .cons ⟨hfront.kind, hfront.start, rfl⟩ hfront.path

end Node

end TreeLint
