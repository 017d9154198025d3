import Mathlib.Data.List.Pairwise
import TreeLint.Proofs.Place

/-!
# Substitution in trees

A rule says of some elements, by what they are and where they start, which elements shall stand in
their place. A substitution applies a rule from the root down: an element that the rule replaces is
not searched any further. Changes of a tree at several places at once are stated as substitutions.

## Main definitions

* `TreeLint.Element.All`, `TreeLint.Node.All` — a property of every element below a node.
* `TreeLint.Element.IsSolid` — an element that holds at least one byte.
* `TreeLint.Element.subst`, `TreeLint.Node.subst` — substitution by a rule.
* `TreeLint.Cursor.substPath` — the way up from a node after a substitution behind it.

## Main results

* `TreeLint.Element.subst_eq_self`, `TreeLint.Element.subst_congr` — elements that a rule leaves
  alone, and rules that agree.
* `TreeLint.Rule.subst_induction` — induction on a substitution, down along the nodes that are kept.
* `TreeLint.Node.subst_eq_rebuild` — a substitution that leaves alone what stands before a node
  replaces the children of the node and what stands behind it.
-/

namespace TreeLint

/-! ## Properties of all elements -/

/-- Every element of a tree, from the given one down, has a property. -/
inductive Element.All (P : Element → Prop) : Element → Prop where
  /-- A token has the property. -/
  | token {t : Token} : P (.token t) → All P (.token t)
  /-- A node has the property, and so has everything below it. -/
  | node {k : Kind} {cs : List Element} :
    P (.node k cs) → (∀ e ∈ cs, All P e) → All P (.node k cs)

/-- A property of all elements from one down is a property of this one. -/
lemma Element.All.self {P : Element → Prop} {e : Element} (h : e.All P) : P e := by
  cases h <;> assumption

/-- A property of all elements from a node down is one of all from each child down. -/
lemma Element.All.of_mem {P : Element → Prop} {k : Kind} {cs : List Element} {e : Element}
    (h : (Element.node k cs).All P) (he : e ∈ cs) : e.All P := by
  cases h with
  | node _ hcs => exact hcs e he

/-- A property that implies another carries over. -/
lemma Element.All.imp {P Q : Element → Prop} (hPQ : ∀ e, P e → Q e) {e : Element} (h : e.All P) :
    e.All Q := by
  induction h with
  | token h => exact .token (hPQ _ h)
  | node h _ ih => exact .node (hPQ _ h) ih

/-- Every element below the root has a property. -/
def Node.All (P : Element → Prop) (root : Node) : Prop := ∀ e ∈ root.children, e.All P

/-- An element that holds at least one byte. -/
def Element.IsSolid (e : Element) : Prop := 0 < e.length

/-- Elements that are not empty take up room. -/
lemma Element.lengthList_pos_iff {ds : List Element} (hds : ∀ e ∈ ds, e.IsSolid) :
    0 < lengthList ds ↔ ds ≠ [] := by
  cases ds with
  | nil => simp
  | cons e ds =>
    have hpos : 0 < e.length := hds e List.mem_cons_self
    simp only [lengthList_cons, ne_eq, reduceCtorEq, not_false_eq_true, iff_true]
    omega

namespace Node

variable {P : Element → Prop} {root : Node} {c : Cursor}

/-- A property of all elements of a tree is one of all from each child of a node down. -/
lemma All.children (h : root.All P) (hc : root.Has c) : ∀ e ∈ c.node.children, e.All P := by
  induction hc with
  | refl => exact h
  | tail hb hstep ih =>
    intro e he
    exact (ih _ hstep.mem_children).of_mem he

/-- A property of all elements of a tree is one of all from each node below the root down. -/
lemma All.node (h : root.All P) (hc : root.Has c) (hne : c ≠ root.cursor) :
    c.node.toElement.All P := by
  obtain ⟨p, hp, hstep⟩ := Cursor.Below.exists_parent hc hne.symm
  exact h.children hp _ hstep.mem_children

/-- What stands before a node on the way from the root has the property, too. -/
lemma All.before (h : root.All P) (hc : root.Has c) : ∀ f ∈ c.path, ∀ e ∈ f.before, e.All P := by
  induction hc with
  | refl => simp [cursor]
  | tail hb hstep ih =>
    intro f hf e he
    rw [hstep.path_eq, List.mem_cons] at hf
    rcases hf with rfl | hf
    · refine h.children hb e ?_
      rw [hstep.children_eq]
      exact List.mem_append_left _ (List.mem_reverse.mpr he)
    · exact ih f hf e he

end Node

/-! ## Children with their offsets -/

/-- The bytes that a placed element spans. -/
def Placed.span (x : Placed Element) : Range := .ofLength x.start x.item.length

@[simp] lemma Placed.span_start (x : Placed Element) : x.span.start = x.start := rfl

@[simp] lemma Placed.span_stop (x : Placed Element) : x.span.stop = x.start + x.item.length := rfl

/-- An element is placed behind those in front of it. -/
lemma Element.mem_place {start : Nat} {es : List Element} {x : Placed Element} :
    x ∈ Element.place start es ↔
      ∃ xs ys, es = xs ++ x.item :: ys ∧ x.start = start + lengthList xs := by
  induction es generalizing start with
  | nil => simp [place]
  | cons e es ih =>
    simp only [place, List.mem_cons, ih]
    constructor
    · rintro (rfl | ⟨xs, ys, rfl, hx⟩)
      · exact ⟨[], es, rfl, rfl⟩
      · exact ⟨e :: xs, ys, rfl, by simp only [lengthList_cons]; omega⟩
    · rintro ⟨xs, ys, heq, hx⟩
      cases xs with
      | nil =>
        obtain ⟨rfl, rfl⟩ := List.cons.inj heq
        exact .inl (by cases x; simp_all)
      | cons d xs =>
        obtain ⟨rfl, rfl⟩ := List.cons.inj heq
        exact .inr ⟨xs, ys, rfl, by simp only [lengthList_cons] at hx; omega⟩

namespace Element

/-- A placed element is one of those that were placed. -/
lemma item_mem {start : Nat} {es : List Element} {x : Placed Element} (h : x ∈ place start es) :
    x.item ∈ es := by
  obtain ⟨xs, ys, rfl, -⟩ := mem_place.mp h
  simp

/-- Elements behind others are placed from the end of these on. -/
lemma place_append (start : Nat) (es ds : List Element) :
    place start (es ++ ds) = place start es ++ place (start + lengthList es) ds := by
  induction es generalizing start with
  | nil => simp [place]
  | cons e es ih => simp [place, ih, Nat.add_assoc]

@[simp] lemma map_item_place (start : Nat) (es : List Element) :
    (place start es).map Placed.item = es := by
  induction es generalizing start with
  | nil => rfl
  | cons e es ih => simp [place, ih]

/-- A placed element lies within all of them. -/
lemma bounds_of_mem_place {start : Nat} {es : List Element} {x : Placed Element}
    (h : x ∈ place start es) :
    start ≤ x.start ∧ x.start + x.item.length ≤ start + lengthList es := by
  obtain ⟨xs, ys, rfl, hx⟩ := mem_place.mp h
  simp only [lengthList_append, lengthList_cons]
  omega

/-- Each child ends before the next one begins. -/
lemma pairwise_place (start : Nat) (es : List Element) :
    (place start es).Pairwise fun x y => x.span.stop ≤ y.span.start := by
  induction es generalizing start with
  | nil => exact List.Pairwise.nil
  | cons e es ih =>
    refine List.Pairwise.cons (fun y hy => ?_) (ih _)
    exact (bounds_of_mem_place hy).1

/-- Two of several children are the same or apart. -/
lemma eq_or_apart {start : Nat} {es : List Element} {x y : Placed Element}
    (hx : x ∈ place start es) (hy : y ∈ place start es) :
    x = y ∨ x.span.stop ≤ y.span.start ∨ y.span.stop ≤ x.span.start := by
  have happart := pairwise_place start es
  exact List.Pairwise.forall_of_forall_of_flip
    (R := fun x y => x = y ∨ x.span.stop ≤ y.span.start ∨ y.span.stop ≤ x.span.start)
    (fun x _ => .inl rfl) (happart.imp fun h => .inr (.inl h))
    (happart.imp fun h => .inr (.inr h)) hx hy

end Element

namespace Cursor

/-- The children of a node around one of them, at their places. -/
lemma IsChild.elements_eq {p c : Cursor} (h : p.IsChild c) :
    p.elements = Element.place p.start c.before.reverse ++
      ⟨c.node.toElement, c.start⟩ :: Element.place c.stop c.after := by
  rw [elements, h.children_eq, Element.place_append, Element.lengthList_reverse, ← h.start_eq]
  rfl

/-- A child node is one of the elements of its parent, at its place. -/
lemma IsChild.mem_elements {p c : Cursor} (h : p.IsChild c) :
    (⟨c.node.toElement, c.start⟩ : Placed Element) ∈ p.elements := by
  rw [h.elements_eq]
  simp

/-- The elements of a node lie within it. -/
lemma mem_elements_bounds {p : Cursor} {x : Placed Element} (h : x ∈ p.elements) :
    p.start ≤ x.start ∧ x.start + x.item.length ≤ p.stop := Element.bounds_of_mem_place h

/-- A child that is a node has a cursor. -/
lemma isChild_of_mem_elements {p : Cursor} {k : Kind} {cs : List Element} {start : Nat}
    (h : (⟨.node k cs, start⟩ : Placed Element) ∈ p.elements) :
    ∃ c, p.IsChild c ∧ c.node = ⟨k, cs⟩ ∧ c.start = start := by
  obtain ⟨xs, ys, hcs, hstart⟩ := Element.mem_place.mp h
  exact ⟨_, .mk hcs, rfl, hstart.symm⟩

/-- Below a node, but not the node itself: below one of its children. -/
lemma Below.exists_child {p c : Cursor} (h : p.Below c) (hne : p ≠ c) :
    ∃ d, p.IsChild d ∧ d.Below c := by
  rcases Relation.ReflTransGen.cases_head h with rfl | h
  · exact absurd rfl hne
  · exact h

end Cursor

/-! ## Rules -/

/-- What shall stand in the place of an element, if anything else than the element itself. -/
abbrev Rule := Placed Element → Option (List Element)

namespace Element

mutual
/-- The elements that stand in the place of an element by a rule. -/
def subst (rule : Rule) (start : Nat) : Element → List Element
  | .token t => (rule ⟨.token t, start⟩).getD [.token t]
  | .node k cs => (rule ⟨.node k cs, start⟩).getD [.node k (substList rule start cs)]
/-- The elements that stand in the place of consecutive elements by a rule. -/
def substList (rule : Rule) (start : Nat) : List Element → List Element
  | [] => []
  | e :: es => e.subst rule start ++ substList rule (start + e.length) es
end

variable {rule rule' : Rule} {start limit : Nat}

@[simp] lemma substList_nil : substList rule start [] = [] := rfl

@[simp] lemma substList_cons (e : Element) (es : List Element) :
    substList rule start (e :: es) =
      e.subst rule start ++ substList rule (start + e.length) es := rfl

/-- In two lists of elements one after the other, the second is substituted from the end of the first on.
-/
lemma substList_append (es ds : List Element) :
    substList rule start (es ++ ds) =
      substList rule start es ++ substList rule (start + lengthList es) ds := by
  induction es generalizing start with
  | nil => simp
  | cons e es ih => simp [ih, Nat.add_assoc]

/-- An element that a rule replaces gives way. -/
lemma subst_of_some {e : Element} {ds : List Element} (h : rule ⟨e, start⟩ = some ds) :
    e.subst rule start = ds := by
  cases e <;> simp [subst, h]

/-- A node that a rule does not replace is kept, with what is left of its children. -/
lemma subst_node_of_none {k : Kind} {cs : List Element} (h : rule ⟨.node k cs, start⟩ = none) :
    (Element.node k cs).subst rule start = [.node k (substList rule start cs)] := by
  simp [subst, h]

/-- A token that a rule does not replace is kept. -/
lemma subst_token_of_none {t : Token} (h : rule ⟨.token t, start⟩ = none) :
    (Element.token t).subst rule start = [.token t] := by simp [subst, h]

/-- Each of consecutive elements is substituted at its own place. -/
lemma substList_flatMap (es : List Element) :
    substList rule start es = (place start es).flatMap fun x => x.item.subst rule x.start := by
  induction es generalizing start with
  | nil => rfl
  | cons e es ih => simp [place, ih]

mutual
/-- An element in which a rule replaces nothing stays as it is. -/
theorem subst_eq_self (hrule : ∀ x : Placed Element, x.item.IsSolid →
    x.start + x.item.length ≤ limit → rule x = none) :
    ∀ {e : Element} {start : Nat}, e.All IsSolid → start + e.length ≤ limit →
      e.subst rule start = [e]
  | .token t, start, hs, hle => subst_token_of_none (hrule ⟨_, _⟩ hs.self hle)
  | .node k cs, start, hs, hle => by
    rw [subst_node_of_none (hrule ⟨_, _⟩ hs.self hle),
      substList_eq_self hrule (fun _ => hs.of_mem) hle]
/-- Elements in which a rule replaces nothing stay as they are. -/
theorem substList_eq_self (hrule : ∀ x : Placed Element, x.item.IsSolid →
    x.start + x.item.length ≤ limit → rule x = none) :
    ∀ {es : List Element} {start : Nat}, (∀ e ∈ es, e.All IsSolid) →
      start + lengthList es ≤ limit → substList rule start es = es
  | [], _, _, _ => rfl
  | e :: es, start, hs, hle => by
    simp only [lengthList_cons] at hle
    rw [substList_cons, subst_eq_self hrule (hs e List.mem_cons_self) (by omega),
      substList_eq_self hrule (fun d hd => hs d (List.mem_cons_of_mem _ hd)) (by omega)]
    rfl
end

mutual
/-- Rules that agree from an offset on replace an element behind it by the same. -/
theorem subst_congr (hrule : ∀ x : Placed Element, x.item.IsSolid → limit ≤ x.start →
    rule x = rule' x) :
    ∀ {e : Element} {start : Nat}, e.All IsSolid → limit ≤ start →
      e.subst rule start = e.subst rule' start
  | .token t, start, hs, hle => by simp only [subst, hrule ⟨_, _⟩ hs.self hle]
  | .node k cs, start, hs, hle => by
    simp only [subst, hrule ⟨_, _⟩ hs.self hle, substList_congr hrule (fun _ => hs.of_mem) hle]
/-- Rules that agree from an offset on replace elements behind it by the same. -/
theorem substList_congr (hrule : ∀ x : Placed Element, x.item.IsSolid → limit ≤ x.start →
    rule x = rule' x) :
    ∀ {es : List Element} {start : Nat}, (∀ e ∈ es, e.All IsSolid) → limit ≤ start →
      substList rule start es = substList rule' start es
  | [], _, _, _ => rfl
  | e :: es, start, hs, hle => by
    rw [substList_cons, substList_cons, subst_congr hrule (hs e List.mem_cons_self) hle,
      substList_congr hrule (fun d hd => hs d (List.mem_cons_of_mem _ hd)) (by omega)]
end

end Element

/-- The tree with a rule applied to everything below the root. -/
def Node.subst (rule : Rule) (root : Node) : Node :=
  ⟨root.kind, Element.substList rule 0 root.children⟩

/-! ## Walking down along what is kept -/

/-- A node of a tree that a rule does not replace. -/
def Rule.IsLive (rule : Rule) (root : Node) (p : Cursor) : Prop :=
  root.Has p ∧ (p = root.cursor ∨ rule ⟨p.node.toElement, p.start⟩ = none)

/-- The root is never replaced. -/
lemma Rule.isLive_cursor (rule : Rule) (root : Node) : rule.IsLive root root.cursor :=
  ⟨root.has_cursor, .inl rfl⟩

/-- A child of a kept node is kept if the rule does not replace it. -/
lemma Rule.IsLive.child {rule : Rule} {root : Node} {p c : Cursor} (hp : rule.IsLive root p)
    (hc : p.IsChild c) (h : rule ⟨c.node.toElement, c.start⟩ = none) : rule.IsLive root c :=
  ⟨hp.1.child hc, .inr h⟩

/-- **Induction on a substitution.** What stands in the place of the children of kept nodes has a
property if it holds of what replaces one of them, of a token that is kept, and of a node that is
kept whenever it holds of what stands in the place of its children. -/
theorem Rule.subst_induction {rule : Rule} {root : Node}
    {motive : Cursor → Placed Element → List Element → Prop}
    (replaced : ∀ p x ds, rule.IsLive root p → x ∈ p.elements → rule x = some ds → motive p x ds)
    (token : ∀ p t start, rule.IsLive root p → ⟨.token t, start⟩ ∈ p.elements →
      rule ⟨.token t, start⟩ = none → motive p ⟨.token t, start⟩ [.token t])
    (node : ∀ p c, rule.IsLive root p → p.IsChild c → rule ⟨c.node.toElement, c.start⟩ = none →
      (∀ y ∈ c.elements, motive c y (y.item.subst rule y.start)) →
      motive p ⟨c.node.toElement, c.start⟩
        [.node c.kind (Element.substList rule c.start c.node.children)])
    {p : Cursor} (hp : rule.IsLive root p) :
    ∀ {x : Placed Element}, x ∈ p.elements → motive p x (x.item.subst rule x.start)
  | ⟨.token t, start⟩, hx => by
    cases hr : rule ⟨.token t, start⟩ with
    | some ds => simpa only [Element.subst_of_some hr] using replaced p _ ds hp hx hr
    | none => simpa only [Element.subst_token_of_none hr] using token p t start hp hx hr
  | ⟨.node k cs, start⟩, hx => by
    cases hr : rule ⟨.node k cs, start⟩ with
    | some ds => simpa only [Element.subst_of_some hr] using replaced p _ ds hp hx hr
    | none =>
      obtain ⟨c, hc, hnode, rfl⟩ := Cursor.isChild_of_mem_elements hx
      have helement : c.node.toElement = .node k cs := by rw [hnode]; rfl
      have hr' : rule ⟨c.node.toElement, c.start⟩ = none := by rwa [helement]
      have := node p c hp hc hr' fun y hy =>
        subst_induction replaced token node (hp.child hc hr') hy
      simpa only [Element.subst_node_of_none hr, Cursor.kind, hnode, Node.toElement] using this
termination_by x => sizeOf x.item
decreasing_by
  obtain ⟨xs, ys, hcs, -⟩ := Element.mem_place.mp hy
  rw [hnode] at hcs
  have hmem : y.item ∈ cs := by
    rw [show cs = xs ++ y.item :: ys from hcs]
    simp
  have := List.sizeOf_lt_of_mem hmem
  simp only [Element.node.sizeOf_spec]
  omega

/-- Induction on the elements of a tree, from the tokens up. -/
theorem Node.element_induction {root : Node} {motive : Cursor → Placed Element → Prop}
    (token : ∀ p t start, root.Has p → ⟨.token t, start⟩ ∈ p.elements → motive p ⟨.token t, start⟩)
    (node : ∀ p c, root.Has p → p.IsChild c → (∀ y ∈ c.elements, motive c y) →
      motive p ⟨c.node.toElement, c.start⟩)
    {p : Cursor} (hp : root.Has p) {x : Placed Element} (hx : x ∈ p.elements) : motive p x := by
  -- the substitution that replaces nothing walks through the whole tree
  have hlive : Rule.IsLive (fun _ => none) root p := ⟨hp, .inr rfl⟩
  exact Rule.subst_induction (motive := fun p x _ => motive p x)
    (fun _ _ _ _ _ h => by cases h) (fun p t start hp hx _ => token p t start hp.1 hx)
    (fun p c hp hc _ ih => node p c hp.1 hc ih) hlive hx

/-! ## Substitution behind a node -/

namespace Cursor

/-- The way up from a node that ends at an offset, after a substitution behind the node. -/
def substPath (rule : Rule) : Nat → List Frame → List Frame
  | _, [] => []
  | stop, f :: path =>
    { f with after := Element.substList rule stop f.after } ::
      substPath rule (stop + Element.lengthList f.after) path

/-- What stands before a node on its way up is not changed behind it. -/
lemma mem_substPath {rule : Rule} {stop : Nat} {path : List Frame} {f : Frame}
    (h : f ∈ substPath rule stop path) : ∃ g ∈ path, f.kind = g.kind ∧ f.before = g.before := by
  induction path generalizing stop with
  | nil => cases h
  | cons g path ih =>
    rcases List.mem_cons.mp h with rfl | h
    · exact ⟨g, List.mem_cons_self, rfl, rfl⟩
    · obtain ⟨g', hg', heq⟩ := ih h
      exact ⟨g', List.mem_cons_of_mem _ hg', heq⟩

/-- The starts along a way up fit the lengths of the elements before. -/
def StartsFit : Nat → List Frame → Prop
  | start, [] => start = 0
  | start, f :: path => start = f.start + Element.lengthList f.before ∧ StartsFit f.start path

/-- A substitution behind a node moves nothing in front of it. -/
lemma startsFit_substPath {rule : Rule} {start stop : Nat} {path : List Frame}
    (h : StartsFit start path) : StartsFit start (substPath rule stop path) := by
  induction path generalizing start stop with
  | nil => exact h
  | cons f path ih => exact ⟨h.1, ih h.2⟩

/-- A node put at the lower end of a way up whose starts fit is a node of the tree rebuilt. -/
lemma has_rebuildAlong {start : Nat} {path : List Frame} (h : StartsFit start path) (n : Node) :
    (rebuildAlong n path).Has ⟨n, start, path⟩ := by
  induction path generalizing n start with
  | nil =>
    obtain rfl : start = 0 := h
    exact .refl
  | cons f path ih =>
    refine .tail (ih h.2 (f.plug n)) ?_
    have hchildren : (f.plug n).children =
        f.before.reverse ++ .node n.kind n.children :: f.after := rfl
    have hstep := IsChild.mk (p := ⟨f.plug n, f.start, path⟩) hchildren
    simpa [h.1, Frame.plug, kind] using hstep

end Cursor

namespace Node

variable {root : Node} {c : Cursor} {rule rule' : Rule}

/-- On the way up from a node of a tree, the starts fit. -/
lemma Has.startsFit (h : root.Has c) : Cursor.StartsFit c.start c.path := by
  induction h with
  | refl => rfl
  | tail _ hstep ih => rw [hstep.path_eq]; exact ⟨hstep.start_eq, ih⟩

/-- Rules that agree behind a node change the way up from it in the same manner. -/
lemma Has.substPath_congr (h : root.Has c) (hs : root.All Element.IsSolid)
    (hrule : ∀ x : Placed Element, x.item.IsSolid → c.stop ≤ x.start → rule x = rule' x) :
    Cursor.substPath rule c.stop c.path = Cursor.substPath rule' c.stop c.path := by
  induction h with
  | refl => rfl
  | tail hb hstep ih =>
    rename_i p c
    have hstop := hstep.stop_eq
    have hafter : ∀ e ∈ c.after, e.All Element.IsSolid := by
      intro e he
      refine hs.children hb e ?_
      rw [hstep.children_eq]
      exact List.mem_append_right _ (List.mem_cons_of_mem _ he)
    rw [hstep.path_eq]
    simp only [Cursor.substPath, ← hstop, Element.substList_congr hrule hafter (Nat.le_refl _),
      ih fun x hx hle => hrule x hx (by omega)]

/-- **A substitution that leaves alone what stands before a node**, the node and the nodes above it
changes the children of the node and what stands behind it.

**Proof sketch.** Induction on the way down. At each step the children before the next node stay, the
node itself is entered, and the substitution goes on behind it, which is the next frame of the new
way up. -/
theorem subst_eq_rebuild (rule : Rule) (h : root.Has c) (hs : root.All Element.IsSolid)
    (hbefore : ∀ x : Placed Element, x.item.IsSolid → x.start + x.item.length ≤ c.start →
      rule x = none)
    (habove : ∀ a, root.Has a → a.Below c → a ≠ root.cursor →
      rule ⟨a.node.toElement, a.start⟩ = none) :
    root.subst rule = Cursor.rebuildAlong
      ⟨c.kind, Element.substList rule c.start c.node.children⟩
      (Cursor.substPath rule c.stop c.path) := by
  induction h with
  | refl => rfl
  | tail hb hstep ih =>
    rename_i p c
    have hstart := hstep.start_eq
    have hstop := hstep.stop_eq
    have hchildren := hstep.children_eq
    have hsolid := hs.children hb
    rw [hchildren] at hsolid
    have hnode : (c.node.toElement).subst rule c.start =
        [.node c.kind (Element.substList rule c.start c.node.children)] := by
      refine Element.subst_node_of_none (habove c (.tail hb hstep) .refl ?_)
      rintro rfl
      simpa [cursor] using hstep.path_eq
    have hleft : Element.substList rule p.start c.before.reverse = c.before.reverse := by
      refine Element.substList_eq_self hbefore (fun e he => hsolid e ?_) ?_
      · exact List.mem_append_left _ he
      · rw [Element.lengthList_reverse]; omega
    rw [ih (fun x hx hle => hbefore x hx (by omega))
      fun a ha hap hne => habove a ha (.tail hap hstep) hne]
    rw [hstep.path_eq, hchildren, Element.substList_append, hleft, Element.lengthList_reverse,
      ← hstart, Element.substList_cons, hnode]
    simp only [Cursor.substPath, Cursor.rebuildAlong, Frame.plug, toElement, ← hstop,
      Element.length_node, List.singleton_append]
    rfl

end Node

end TreeLint
