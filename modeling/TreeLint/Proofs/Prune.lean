import TreeLint.Proofs.Handlers

/-!
# Trees without chosen handlers

What a tree is like without some of its handlers: each of them is left out, and a guarded block of
which nothing but the body is left is replaced by what stands between the braces of this body.
Trivia aside, this is what a fix shall do; two trees are compared aside from some of their tokens by
erasing these.

## Main definitions

* `TreeLint.Element.erase`, `TreeLint.Node.erase` — a tree without some of its tokens.
* `TreeLint.Element.prune`, `TreeLint.Node.prune` — a tree without chosen handlers.
* `TreeLint.Node.IsBare` — a guarded block with neither a handler nor a clause that runs in any case.

## Main results

* `TreeLint.Element.prune_eq_self` — an element in which no handler is chosen stays as it is.
* `TreeLint.Element.exists_bare_of_prune` — a bare guarded block in a pruned tree was bare before.
* `TreeLint.Node.nodes_erase` — the nodes of a tree without some of its tokens.
-/

namespace TreeLint

/-! ## Erasing tokens -/

/-- Trivia, wherever they stand. -/
def isAnyTrivia (_parent : Kind) (t : Token) : Bool := t.kind.isTrivia

namespace Element

mutual
/-- An element without the tokens that are to be dropped, which may depend on the kind of the node
that they stand in. -/
def erase (drop : Kind → Token → Bool) (parent : Kind) : Element → List Element
  | .token t => if drop parent t then [] else [.token t]
  | .node k cs => [.node k (eraseList drop k cs)]
/-- Consecutive elements without the tokens that are to be dropped. -/
def eraseList (drop : Kind → Token → Bool) (parent : Kind) : List Element → List Element
  | [] => []
  | e :: es => e.erase drop parent ++ eraseList drop parent es
end

variable {drop : Kind → Token → Bool} {parent : Kind}

@[simp] lemma eraseList_nil : eraseList drop parent [] = [] := rfl

@[simp] lemma eraseList_cons (e : Element) (es : List Element) :
    eraseList drop parent (e :: es) = e.erase drop parent ++ eraseList drop parent es := rfl

/-- A node is kept, without the tokens that are dropped inside it. -/
lemma erase_node (k : Kind) (cs : List Element) :
    (Element.node k cs).erase drop parent = [.node k (eraseList drop k cs)] := rfl

/-- A token is dropped or kept as it is. -/
lemma erase_token (t : Token) :
    (Element.token t).erase drop parent = if drop parent t then [] else [.token t] := rfl

@[simp] lemma eraseList_append (es ds : List Element) :
    eraseList drop parent (es ++ ds) = eraseList drop parent es ++ eraseList drop parent ds := by
  induction es with
  | nil => rfl
  | cons e es ih => simp [ih]

/-- What is collected from a list is erased member by member. -/
lemma eraseList_flatMap {α : Type} (f : α → List Element) (as : List α) :
    eraseList drop parent (as.flatMap f) = as.flatMap fun a => eraseList drop parent (f a) := by
  induction as with
  | nil => rfl
  | cons a as ih => simp [ih]

/-- Elements that are dropped at both ends of others make no difference. -/
lemma eraseList_eq_nil {es : List Element}
    (h : ∀ e ∈ es, ∃ t, e = .token t ∧ drop parent t = true) : eraseList drop parent es = [] := by
  induction es with
  | nil => rfl
  | cons e es ih =>
    obtain ⟨t, rfl, ht⟩ := h e List.mem_cons_self
    rw [eraseList_cons, erase_token, if_pos ht, ih fun d hd => h d (List.mem_cons_of_mem _ hd)]
    rfl

mutual
/-- What is left of an element has some of its tokens, in their order. -/
theorem leaves_erase_sublist : ∀ (e : Element) (parent : Kind),
    (leavesList (e.erase drop parent)).Sublist e.leaves
  | .token t, parent => by
    rw [erase_token]
    split
    · exact List.nil_sublist _
    · exact List.Sublist.refl _
  | .node k cs, parent => by
    rw [erase_node, leavesList_cons, leavesList_nil, List.append_nil]
    exact leavesList_eraseList_sublist cs k
/-- What is left of consecutive elements has some of their tokens, in their order. -/
theorem leavesList_eraseList_sublist : ∀ (es : List Element) (parent : Kind),
    (leavesList (eraseList drop parent es)).Sublist (leavesList es)
  | [], _ => List.Sublist.refl _
  | e :: es, parent => by
    rw [eraseList_cons, leavesList_append, leavesList_cons]
    exact (leaves_erase_sublist e parent).append (leavesList_eraseList_sublist es parent)
end

/-! ## Leaving handlers out -/

/-- What stands between the braces of the first block among some elements. -/
def bodyOf (cs : List Element) : List Element :=
  match cs.find? fun e => e.kind = .block with
  | some (.node _ ds) => ds.tail.dropLast
  | _ => []

/-- A node at some place is a guarded block of which nothing but the body is left without the chosen
handlers: all its handlers are chosen, there are some, and no clause runs in any case. -/
def isPointless (chosen : List Target) (start : Nat) (k : Kind) (cs : List Element) : Bool :=
  let handlers := (place start cs).filter fun x => x.item.kind = .catchClause
  k = .tryStatement && !handlers.isEmpty && handlers.all (fun x => ⟨x.item.kind, x.span⟩ ∈ chosen)
    && !(⟨k, cs⟩ : Node).hasFinally

mutual
/-- What is left of an element at some place without the chosen handlers. -/
def prune (chosen : List Target) (start : Nat) : Element → List Element
  | .token t => [.token t]
  | .node k cs =>
    if ⟨k, .ofLength start (lengthList cs)⟩ ∈ chosen then []
    else if isPointless chosen start k cs then bodyOf (pruneList chosen start cs)
    else [.node k (pruneList chosen start cs)]
/-- What is left of consecutive elements without the chosen handlers. -/
def pruneList (chosen : List Target) (start : Nat) : List Element → List Element
  | [] => []
  | e :: es => e.prune chosen start ++ pruneList chosen (start + e.length) es
end

variable {chosen : List Target} {start : Nat}

@[simp] lemma prune_token (t : Token) : (Element.token t).prune chosen start = [.token t] := rfl

/-- A chosen node goes, a guarded block of which nothing but the body is left gives way to it, and any
other node is kept, pruned inside. -/
lemma prune_node (k : Kind) (cs : List Element) : (Element.node k cs).prune chosen start =
    if ⟨k, .ofLength start (lengthList cs)⟩ ∈ chosen then []
    else if isPointless chosen start k cs then bodyOf (pruneList chosen start cs)
    else [.node k (pruneList chosen start cs)] := rfl

/-- Each element is pruned at its own place. -/
lemma pruneList_flatMap (es : List Element) : pruneList chosen start es =
    (place start es).flatMap fun x => x.item.prune chosen x.start := by
  induction es generalizing start with
  | nil => rfl
  | cons e es ih => simp [place, pruneList, ih]

/-- A guarded block with no chosen handler is not left out. -/
lemma isPointless_eq_false {k : Kind} {cs : List Element}
    (h : ∀ x ∈ place start cs, ⟨x.item.kind, x.span⟩ ∉ chosen) :
    isPointless chosen start k cs = false := by
  unfold isPointless
  cases hhandlers : (place start cs).filter fun x => decide (x.item.kind = .catchClause) with
  | nil => simp
  | cons x xs =>
    have hx : x ∈ place start cs := (List.mem_filter.mp (hhandlers ▸ List.mem_cons_self)).1
    simp [h x hx]

mutual
/-- An element in which no handler is chosen stays as it is. -/
theorem prune_eq_self : ∀ {e : Element} {start : Nat},
    (∀ τ ∈ chosen, (Range.ofLength start e.length).contains τ.range = false) →
      e.prune chosen start = [e]
  | .token t, _, _ => rfl
  | .node k cs, start, h => by
    have hself : ⟨k, .ofLength start (lengthList cs)⟩ ∉ chosen := by
      intro hmem
      have := h _ hmem
      simp [Range.contains] at this
    have hchild : ∀ x ∈ place start cs, ⟨x.item.kind, x.span⟩ ∉ chosen := by
      intro x hx hmem
      have hbounds := bounds_of_mem_place hx
      have hnot := h _ hmem
      rw [Bool.eq_false_iff, ne_eq, Range.contains_iff] at hnot
      simp only [Range.ofLength, Placed.span, length_node] at hnot
      omega
    rw [prune_node, if_neg hself, isPointless_eq_false hchild, if_neg (by simp),
      pruneList_eq_self h]
/-- Elements in which no handler is chosen stay as they are. -/
theorem pruneList_eq_self : ∀ {es : List Element} {start : Nat},
    (∀ τ ∈ chosen, (Range.ofLength start (lengthList es)).contains τ.range = false) →
      pruneList chosen start es = es
  | [], _, _ => rfl
  | e :: es, start, h => by
    have hinside : ∀ {first length : Nat}, start ≤ first →
        first + length ≤ start + (e.length + lengthList es) →
        ∀ τ ∈ chosen, (Range.ofLength first length).contains τ.range = false := by
      intro first length hfirst hlength τ hτ
      have hnot := h τ hτ
      rw [Bool.eq_false_iff, ne_eq, Range.contains_iff] at hnot ⊢
      simp only [Range.ofLength, lengthList_cons] at hnot ⊢
      omega
    rw [pruneList, prune_eq_self (hinside (Nat.le_refl _) (by omega)),
      pruneList_eq_self (hinside (Nat.le_add_right ..) (by omega))]
    rfl
end

end Element

namespace Node

/-- A tree without the tokens that are to be dropped. -/
def erase (drop : Kind → Token → Bool) (n : Node) : Node :=
  ⟨n.kind, Element.eraseList drop n.kind n.children⟩

/-- A tree without the chosen handlers. -/
def prune (chosen : List Target) (root : Node) : Node :=
  ⟨root.kind, Element.pruneList chosen 0 root.children⟩

/-- A guarded block with neither a handler nor a clause that runs in any case. -/
structure IsBare (n : Node) : Prop where
  /-- The node is a guarded block. -/
  kind : n.kind = .tryStatement
  /-- There is no handler. -/
  handlers : n.handlers = []
  /-- No clause runs in any case. -/
  hasFinally : n.hasFinally = false

end Node

/-! ## Nodes of erased and pruned trees -/

namespace Element

variable {drop : Kind → Token → Bool} {parent : Kind} {chosen : List Target}

/-- The nodes of two lists of elements, one after the other. -/
lemma nodesList_append (es ds : List Element) :
    nodesList (es ++ ds) = nodesList es ++ nodesList ds := by
  induction es with
  | nil => rfl
  | cons e es ih => simp [nodesList, ih]

/-- A node of some elements is a node of one of them. -/
lemma mem_nodesList {es : List Element} {n : Node} :
    n ∈ nodesList es ↔ ∃ e ∈ es, n ∈ e.nodes := by
  induction es with
  | nil => simp [nodesList]
  | cons e es ih => simp [nodesList, ih]

mutual
/-- The nodes of an element without some of its tokens. -/
theorem nodes_erase : ∀ (e : Element) (parent : Kind),
    nodesList (e.erase drop parent) = e.nodes.map (Node.erase drop)
  | .token t, parent => by
    rw [erase_token]
    split <;> rfl
  | .node k cs, _ => by
    rw [erase_node, nodesList, nodes, nodesList_erase cs k]
    simp [nodes, nodesList, Node.erase]
/-- The nodes of consecutive elements without some of their tokens. -/
theorem nodesList_erase : ∀ (es : List Element) (parent : Kind),
    nodesList (eraseList drop parent es) = (nodesList es).map (Node.erase drop)
  | [], _ => rfl
  | e :: es, parent => by
    rw [eraseList_cons, nodesList_append, nodes_erase e, nodesList_erase es, nodesList,
      List.map_append]
end

/-- The child nodes of an element without some of its tokens. -/
lemma filterMap_node?_eraseList (es : List Element) :
    (eraseList drop parent es).filterMap node? = (es.filterMap node?).map (Node.erase drop) := by
  induction es with
  | nil => rfl
  | cons e es ih =>
    cases e with
    | token t =>
      have hnone : (Element.token t).node? = none := rfl
      rw [eraseList_cons, erase_token]
      split <;> simp [hnone, ih]
    | node k cs => simp [eraseList_cons, erase_node, ih, node?, Node.erase]

end Element

namespace Node

variable {drop : Kind → Token → Bool}

/-- The nodes of a tree without some of its tokens. -/
theorem nodes_erase (n : Node) : (n.erase drop).nodes = n.nodes.map (Node.erase drop) := by
  simp only [nodes, toElement, Element.nodes, erase, Element.nodesList_erase, List.map_cons]

/-- Erasing tokens keeps the child nodes of a node. -/
lemma childNodes_erase (n : Node) :
    (n.erase drop).childNodes = n.childNodes.map (Node.erase drop) :=
  Element.filterMap_node?_eraseList _

/-- Erasing tokens keeps the handlers of a guarded block. -/
lemma handlers_erase (n : Node) : (n.erase drop).handlers = n.handlers.map (Node.erase drop) := by
  rw [handlers, childNodes_erase, List.filter_map]
  rfl

/-- A guarded block is bare whether or not some of its tokens are left out. -/
theorem isBare_erase {n : Node} : (n.erase drop).IsBare ↔ n.IsBare := by
  have hfinally : (n.erase drop).hasFinally = n.hasFinally := by
    rw [hasFinally, child?, childNodes_erase, List.find?_map, Option.isSome_map]
    rfl
  constructor
  · rintro ⟨hk, hh, hf⟩
    exact ⟨hk, by simpa [handlers_erase] using hh, hfinally ▸ hf⟩
  · rintro ⟨hk, hh, hf⟩
    exact ⟨hk, by simp [handlers_erase, hh], hfinally.trans hf⟩

section Handlers

variable {f : Node → Node} (hkind : ∀ n, (f n).kind = n.kind)
  (hchildren : ∀ n, (f n).childNodes = n.childNodes.map f)

include hkind hchildren

/-- The first child node of a kind, where all nodes are changed but for their kinds. -/
lemma child?_of_map (n : Node) (k : Kind) : (f n).child? k = (n.child? k).map f := by
  have htest : (fun m : Node => decide (m.kind = k)) ∘ f = fun m => decide (m.kind = k) := by
    funext m
    simp only [Function.comp_apply, hkind]
  rw [child?, hchildren, List.find?_map, htest]
  rfl

/-- Whether a handler is redundant depends only on the kinds of the nodes in it. -/
theorem isRedundantHandler_of_map (n : Node) : (f n).isRedundantHandler = n.isRedundantHandler := by
  have hstatements : ∀ m : Node, (f m).statements = m.statements.map f := by
    intro m
    rw [statements, hchildren, List.filter_map]
    simp only [Function.comp_def, hkind]
    rfl
  have hrethrow : ∀ m : Node, (f m).isBareRethrow = m.isBareRethrow := by
    intro m
    rw [isBareRethrow, hchildren, List.any_map]
    simp only [Function.comp_def, isThrownValue, hkind]
    rfl
  have honly : (f n).onlyRethrows = n.onlyRethrows := by
    rw [onlyRethrows, onlyRethrows, child?_of_map hkind hchildren, Option.map_map]
    cases n.child? .block with
    | none => rfl
    | some b =>
      rw [Option.map_some, Option.map_some, Function.comp, hstatements]
      rcases b.statements with _ | ⟨s, _ | ⟨s', ss⟩⟩
      · rfl
      · simp [hrethrow, hkind]
      · rfl
  rw [isRedundantHandler, isRedundantHandler, honly, isFiltered, isFiltered,
    child?_of_map hkind hchildren, Option.isSome_map]

end Handlers

/-- Whether a handler is redundant does not depend on its tokens. -/
theorem isRedundantHandler_erase (n : Node) :
    (n.erase drop).isRedundantHandler = n.isRedundantHandler := by
  have hkind : ∀ m : Node, (m.erase drop).kind = m.kind := fun _ => rfl
  exact isRedundantHandler_of_map hkind childNodes_erase n

end Node

/-! ## Bare guarded blocks -/

namespace Element

variable {root : Node} {chosen : List Target}

/-- What is left of a node without the chosen handlers. -/
lemma prune_cursor (c : Cursor) : c.node.toElement.prune chosen c.start =
    if c.target ∈ chosen then []
    else if isPointless chosen c.start c.kind c.node.children then
      bodyOf (pruneList chosen c.start c.node.children)
    else [.node c.kind (pruneList chosen c.start c.node.children)] := rfl

/-- A child node that is neither a guarded block nor chosen is still there in a pruned tree. -/
lemma mem_pruneList_of_kept {p c : Cursor} (hc : p.IsChild c) (hk : c.kind ≠ .tryStatement)
    (hkept : c.target ∉ chosen) :
    Element.node c.kind (pruneList chosen c.start c.node.children) ∈
      pruneList chosen p.start p.node.children := by
  rw [pruneList_flatMap p.node.children, List.mem_flatMap]
  refine ⟨_, hc.mem_elements, ?_⟩
  have hnot : isPointless chosen c.start c.kind c.node.children = false := by
    simp [isPointless, hk]
  simp only
  rw [prune_cursor, if_neg hkept, hnot, if_neg (by simp)]
  exact List.mem_singleton.mpr rfl

/-- The nodes of a body are nodes of what the body stands in. -/
lemma nodesList_bodyOf_subset (cs : List Element) : nodesList (bodyOf cs) ⊆ nodesList cs := by
  intro n hn
  unfold bodyOf at hn
  split at hn
  · rename_i k ds hfind
    obtain ⟨e, he, hne⟩ := mem_nodesList.mp hn
    refine mem_nodesList.mpr ⟨_, List.mem_of_find?_eq_some hfind, ?_⟩
    exact List.mem_cons_of_mem _ (mem_nodesList.mpr
      ⟨e, List.mem_of_mem_tail (List.dropLast_subset _ he), hne⟩)
  · cases hn

/-- A guarded block is pointless if its handlers are all chosen. -/
lemma isPointless_iff (h : root.IsShaped) {t : Cursor} (ht : root.Has t)
    (hk : t.kind = .tryStatement) :
    isPointless chosen t.start t.kind t.node.children = true ↔
      t.handlers ≠ [] ∧ (∀ c ∈ t.handlers, c.target ∈ chosen) ∧ t.node.hasFinally = false := by
  have hmem : ∀ x, x ∈ (place t.start t.node.children).filter
      (fun x => decide (x.item.kind = .catchClause)) ↔
        ∃ c ∈ t.handlers, x = ⟨c.node.toElement, c.start⟩ := by
    intro x
    rw [List.mem_filter, decide_eq_true_eq]
    constructor
    · rintro ⟨hx, hxk⟩
      obtain ⟨c, hc, hck, rfl⟩ := h.exists_handler ht hx hxk
      exact ⟨c, Cursor.mem_handlers.mpr ⟨hc, hck⟩, rfl⟩
    · rintro ⟨c, hc, rfl⟩
      obtain ⟨hc, hck⟩ := Cursor.mem_handlers.mp hc
      exact ⟨hc.mem_elements, hck⟩
  simp only [isPointless, hk, decide_true, Bool.true_and, Bool.and_eq_true, List.all_eq_true,
    decide_eq_true_eq, Bool.not_eq_true', List.isEmpty_eq_false_iff, and_assoc]
  refine and_congr ?_ (and_congr ?_ ?_)
  · simp only [ne_eq, List.eq_nil_iff_forall_not_mem, hmem, not_forall, not_not]
    constructor
    · rintro ⟨_, c, hc, rfl⟩
      exact ⟨c, hc⟩
    · rintro ⟨c, hc⟩
      exact ⟨_, c, hc, rfl⟩
  · constructor
    · exact fun hall c hc => hall _ ((hmem _).mpr ⟨c, hc, rfl⟩)
    · intro hall x hx
      obtain ⟨c, hc, rfl⟩ := (hmem x).mp hx
      exact hall c hc
  · rw [show (⟨.tryStatement, t.node.children⟩ : Node) = t.node from by rw [← hk]; rfl]

/-- A guarded block that is left bare had no handler: otherwise all its handlers would be chosen, and
it would not be left at all. -/
lemma isBare_of_prune (h : root.IsShaped) (hchosen : ∀ τ ∈ chosen, τ.kind = .catchClause)
    {c : Cursor} (hc : root.Has c)
    (hnot : isPointless chosen c.start c.kind c.node.children = false)
    (hbare : (⟨c.kind, pruneList chosen c.start c.node.children⟩ : Node).IsBare) :
    c.node.IsBare := by
  have hk : c.kind = .tryStatement := hbare.kind
  have hfin : c.node.hasFinally = false := by
    by_contra hcon
    obtain ⟨f, hf, hfk⟩ := Cursor.hasFinally_iff.mp (by simpa using hcon)
    have hkept : f.target ∉ chosen := by
      intro hin
      have := hchosen _ hin
      rw [Cursor.target, hfk] at this
      cases this
    have hmem := mem_pruneList_of_kept hf (by simp [hfk]) hkept
    have hsome : (⟨c.kind, pruneList chosen c.start c.node.children⟩ : Node).hasFinally = true := by
      rw [Node.hasFinally, Node.child?, List.find?_isSome]
      exact ⟨_, List.mem_filterMap.mpr ⟨_, hmem, rfl⟩, by simpa using hfk⟩
    rw [hbare.hasFinally] at hsome
    cases hsome
  have hall : ∀ d ∈ c.handlers, d.target ∈ chosen := by
    intro d hd
    obtain ⟨hcd, hdk⟩ := Cursor.mem_handlers.mp hd
    by_contra hkept
    have hmem := mem_pruneList_of_kept hcd (by simp [hdk]) hkept
    have hin : (⟨d.kind, pruneList chosen d.start d.node.children⟩ : Node) ∈
        (⟨c.kind, pruneList chosen c.start c.node.children⟩ : Node).handlers :=
      List.mem_filter.mpr ⟨List.mem_filterMap.mpr ⟨_, hmem, rfl⟩, by simpa using hdk⟩
    rw [hbare.handlers] at hin
    cases hin
  refine ⟨hk, Cursor.handlers_eq_nil_iff.mpr ?_, hfin⟩
  by_contra hne
  rw [(isPointless_iff h hc hk).mpr ⟨hne, hall, hfin⟩] at hnot
  cases hnot

/-- **A bare guarded block in a pruned tree** was bare before, and nothing but chosen handlers
inside it has been left out. -/
theorem exists_bare_of_prune (h : root.IsShaped) (hchosen : ∀ τ ∈ chosen, τ.kind = .catchClause)
    {p : Cursor} (hp : root.Has p) {x : Placed Element} (hx : x ∈ p.elements) :
    ∀ n ∈ nodesList (x.item.prune chosen x.start), n.IsBare →
      ∃ c, root.Has c ∧ c.node.IsBare ∧
        c.node.toElement.prune chosen c.start = [n.toElement] := by
  refine Node.element_induction (motive := fun _ x =>
    ∀ n ∈ nodesList (x.item.prune chosen x.start), n.IsBare →
      ∃ c, root.Has c ∧ c.node.IsBare ∧ c.node.toElement.prune chosen c.start = [n.toElement])
    ?_ ?_ hp hx
  · intro p t start _ _ n hn
    simp [nodesList, nodes] at hn
  · intro p c hp hc ih n hn hbare
    have hrest : n ∈ nodesList (pruneList chosen c.start c.node.children) →
        ∃ c, root.Has c ∧ c.node.IsBare ∧
          c.node.toElement.prune chosen c.start = [n.toElement] := by
      intro hmem
      obtain ⟨e, he, hne⟩ := mem_nodesList.mp hmem
      rw [pruneList_flatMap, List.mem_flatMap] at he
      obtain ⟨y, hy, hey⟩ := he
      exact ih y hy n (mem_nodesList.mpr ⟨e, hey, hne⟩) hbare
    simp only [prune_cursor] at hn
    split at hn
    · cases hn
    · rename_i hkept
      split at hn
      · exact hrest (nodesList_bodyOf_subset _ hn)
      · rename_i hnot
        rw [nodesList, nodes, nodesList, List.append_nil, List.mem_cons] at hn
        rcases hn with rfl | hn
        · have hnot' : isPointless chosen c.start c.kind c.node.children = false := by
            simpa using hnot
          refine ⟨c, hp.child hc, isBare_of_prune h hchosen (hp.child hc) hnot' hbare, ?_⟩
          rw [prune_cursor, if_neg hkept, if_neg hnot]
          rfl
        · exact hrest hn

end Element

end TreeLint
