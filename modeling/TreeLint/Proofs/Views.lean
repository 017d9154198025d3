import Mathlib.Data.List.Forall2
import TreeLint.Check.Instantiation
import TreeLint.Check.Rethrow
import TreeLint.Proofs.Renaming

/-!
# What checks see of a tree

The structural checks look at the kinds of nodes, at the modifiers of declarations, and at whether two
names are the same. So they find the same in a tree without its trivia, and under other names, as long
as different names stay different.

## Main definitions

* `TreeLint.Cursor.view` — what the checks look at: a node and the nodes behind it.
* `TreeLint.Instantiation.isReported` — the classes that are reported.

## Main results

* `TreeLint.Node.map_view_strip` — the nodes of a stripped tree in preorder.
* `TreeLint.Rethrow.map_isSuperfluous_strip`, `TreeLint.Instantiation.map_isReported_strip` — what is
  reported in a stripped tree.
-/

namespace TreeLint

variable {ρ : String → String}

/-! ## Nodes of stripped trees -/

namespace Element

/-- The nodes among renamed elements are the renamed nodes. -/
lemma filterMap_node?_renameList (es : List Element) :
    (renameList ρ es).filterMap node? = (es.filterMap node?).map (Node.rename ρ) := by
  induction es with
  | nil => rfl
  | cons e es ih =>
    cases e with
    | token t => exact ih
    | node k cs => exact congrArg (Node.rename ρ ⟨k, cs⟩ :: ·) ih

/-- The nodes among what is left of elements are what is left of the nodes. -/
lemma filterMap_node?_strip (parent : Kind) (es : List Element) :
    (strip ρ parent es).filterMap node? = (es.filterMap node?).map (Node.strip ρ) := by
  rw [strip, filterMap_node?_renameList, filterMap_node?_eraseList, List.map_map]
  rfl

/-- The tokens among what is left of elements are the real ones, renamed. -/
lemma filterMap_token?_strip (parent : Kind) (es : List Element) :
    (strip ρ parent es).filterMap token? = Token.strip ρ (es.filterMap token?) := by
  induction es with
  | nil => rfl
  | cons e es ih =>
    cases e with
    | node k cs => exact ih
    | token t =>
      have htokens : (token t :: es).filterMap token? = t :: es.filterMap token? := rfl
      cases h : t.kind.isTrivia with
      | true => rw [strip_cons_of_trivia h, htokens, Token.strip_cons_of_trivia h, ih]
      | false =>
        rw [strip_cons_of_real h, htokens, Token.strip_cons_of_real h, ← ih]
        rfl

mutual
/-- The nodes of an element under other names. -/
theorem nodes_rename : ∀ e : Element, (e.rename ρ).nodes = e.nodes.map (Node.rename ρ)
  | .token _ => rfl
  | .node k cs => by
    rw [rename, nodes, nodes, nodesList_renameList cs]
    rfl
/-- The nodes of consecutive elements under other names. -/
theorem nodesList_renameList : ∀ es : List Element,
    nodesList (renameList ρ es) = (nodesList es).map (Node.rename ρ)
  | [] => rfl
  | e :: es => by
    rw [renameList, nodesList, nodesList, nodes_rename e, nodesList_renameList es, List.map_append]
end

/-- All nodes of what is left of elements are what is left of their nodes. -/
lemma nodesList_strip (parent : Kind) (es : List Element) :
    nodesList (strip ρ parent es) = (nodesList es).map (Node.strip ρ) := by
  rw [strip, nodesList_renameList, nodesList_erase, List.map_map]
  rfl

end Element

namespace Node

/-- All nodes of what is left of a node are what is left of its nodes. -/
lemma nodes_strip (n : Node) : (n.strip ρ).nodes = n.nodes.map (strip ρ) :=
  congrArg (n.strip ρ :: ·) (Element.nodesList_strip n.kind n.children)

/-- The child nodes are seen without trivia and under other names. -/
lemma childNodes_strip (n : Node) : (n.strip ρ).childNodes = n.childNodes.map (strip ρ) :=
  Element.filterMap_node?_strip n.kind n.children

/-- Of the tokens among the children, the real ones are seen. -/
lemma childTokens_strip (n : Node) : (n.strip ρ).childTokens = Token.strip ρ n.childTokens :=
  Element.filterMap_token?_strip n.kind n.children

/-- The child node of a kind is seen. -/
lemma child?_strip (n : Node) (k : Kind) : (n.strip ρ).child? k = (n.child? k).map (strip ρ) :=
  child?_of_map (fun m => m.kind_strip ρ) childNodes_strip n k

/-- Whether a handler is redundant depends neither on trivia nor on names. -/
lemma isRedundantHandler_strip (n : Node) : (n.strip ρ).isRedundantHandler = n.isRedundantHandler :=
  isRedundantHandler_of_map (fun m => m.kind_strip ρ) childNodes_strip n

/-! ## Declarations in stripped trees -/

/-- Modifiers are no trivia. -/
lemma modifiers_strip (n : Node) : (n.strip ρ).modifiers = n.modifiers := by
  have hreal : ∀ k : Kind, (k.isModifier && !k.isTrivia) = k.isModifier := by
    intro k
    cases k <;> rfl
  rw [modifiers, childTokens_strip, Token.map_kind_strip, List.filter_filter]
  exact List.filter_congr fun k _ => hreal k

/-- Whether a declaration is static does not depend on trivia and names. -/
lemma isStatic_strip (n : Node) : (n.strip ρ).isStatic = n.isStatic := by
  rw [isStatic, modifiers_strip, isStatic]

/-- Whether a declaration is private does not depend on trivia and names. -/
lemma isPrivate_strip (n : Node) : (n.strip ρ).isPrivate = n.isPrivate := by
  rw [isPrivate, modifiers_strip, isPrivate]

/-- The child nodes of some kinds. -/
lemma filter_childNodes_strip (n : Node) (f : Kind → Bool) :
    (n.strip ρ).childNodes.filter (fun m => f m.kind) =
      (n.childNodes.filter fun m => f m.kind).map (strip ρ) := by
  rw [childNodes_strip, List.filter_map]
  rfl

/-- The members of a class are seen. -/
lemma members_strip (n : Node) : (n.strip ρ).members = n.members.map (strip ρ) :=
  n.filter_childNodes_strip Kind.isMember

/-- The constructors of a class are seen. -/
lemma constructors_strip (n : Node) : (n.strip ρ).constructors = n.constructors.map (strip ρ) := by
  rw [constructors, members_strip, List.filter_map]
  rfl

/-- The classes in a class are seen. -/
lemma nestedClasses_strip (n : Node) :
    (n.strip ρ).nestedClasses = n.nestedClasses.map (strip ρ) := by
  rw [nestedClasses, children_strip, Element.nodesList_strip, List.filter_map]
  rfl

end Node

/-- The first name among some tokens has its other name. -/
lemma Token.find?_ident_strip (ts : List Token) :
    (strip ρ ts).find? (fun t => t.kind = .ident) =
      (ts.find? fun t => t.kind = .ident).map (rename ρ) := by
  have hreal : ∀ k : Kind, ((!k.isTrivia) = true ∧ k = .ident) ↔ k = .ident :=
    fun k => ⟨And.right, fun hk => ⟨by rw [hk]; rfl, hk⟩⟩
  rw [strip, List.find?_map, List.find?_filter]
  simp only [Function.comp_apply, kind_rename, decide_eq_true_eq, hreal]

namespace Node

/-- A type has its other name. -/
lemma typeName?_strip (n : Node) : (n.strip ρ).typeName? = n.typeName?.map ρ := by
  rw [typeName?, typeName?, token?, childTokens_strip, Token.find?_ident_strip, Option.map_map,
    token?, Option.map_map]
  refine Option.map_congr fun t ht => ?_
  have hk := List.find?_some ht
  exact Token.text_rename (by simpa using hk)

/-- The type of an object creation is seen under its other name. -/
lemma createdType?_strip (n : Node) : (n.strip ρ).createdType? = n.createdType?.map ρ := by
  rw [createdType?, child?_strip, createdType?]
  cases n.child? .typeRef with
  | none => rfl
  | some m => exact m.typeName?_strip

/-- The bases of a class have their other names. -/
lemma baseNames?_strip (n : Node) : (n.strip ρ).baseNames? = n.baseNames?.map (List.map ρ) := by
  rw [baseNames?, child?_strip, baseNames?]
  cases n.child? .baseList with
  | none => rfl
  | some m =>
    have htypes := m.filter_childNodes_strip (ρ := ρ) fun k => k = .typeRef
    rw [Option.map_some, Option.map_some, Option.map_some, Option.map_some, htypes,
      List.filterMap_map, List.map_filterMap]
    simp only [Function.comp_def, typeName?_strip]

end Node

/-! ## Nodes and the nodes behind them -/

/-- What the checks see of a node: the node, and the nodes behind it among its siblings. -/
def Cursor.view (c : Cursor) : Node × List Node := (c.node, c.after.filterMap Element.node?)

/-- What is left of a node and the nodes behind it without trivia, with other names. -/
def stripView (ρ : String → String) : Node × List Node → Node × List Node :=
  Prod.map (Node.strip ρ) (List.map (Node.strip ρ))

/-- The nodes of stripped elements stand in the same order, with the same nodes behind them. Neither
view depends on what is around the elements. -/
theorem Element.map_view_strip {k k' parent : Kind} (path path' : List Frame)
    (start start' : Nat) (before before' : List Element) (offset offset' : Nat) :
    ∀ es : List Element,
      (cursorsList path' k' start' before' offset' (strip ρ parent es)).map Cursor.view =
        ((cursorsList path k start before offset es).map Cursor.view).map (stripView ρ)
  | [] => rfl
  | .token t :: es => by
    have hcursors : cursorsList path k start before offset (.token t :: es) =
        cursorsList path k start (.token t :: before) (offset + (token t).length) es := rfl
    rw [hcursors]
    cases h : t.kind.isTrivia with
    | true =>
      rw [strip_cons_of_trivia h]
      exact map_view_strip _ _ _ _ _ _ _ _ es
    | false =>
      rw [strip_cons_of_real h]
      exact map_view_strip _ _ _ _ _ _ _ _ es
  | .node l cs :: es => by
    rw [strip_cons_node, cursorsList, cursorsList, cursors, cursors, List.map_append, List.map_append,
      List.map_append, List.map_cons, List.map_cons, List.map_cons,
      map_view_strip _ _ _ _ _ _ _ _ cs, map_view_strip _ _ _ _ _ _ _ _ es]
    have hview :
        Cursor.view ⟨⟨l, strip ρ l cs⟩, offset', ⟨k', start', before', strip ρ parent es⟩ :: path'⟩ =
        stripView ρ (Cursor.view ⟨⟨l, cs⟩, offset, ⟨k, start, before, es⟩ :: path⟩) :=
      Prod.ext rfl (filterMap_node?_strip parent es)
    rw [hview]
termination_by es => sizeOf es

/-- **The nodes of a stripped tree** in preorder. -/
theorem Node.map_view_strip (root : Node) :
    (root.strip ρ).cursors.map Cursor.view = (root.cursors.map Cursor.view).map (stripView ρ) :=
  congrArg (((root.strip ρ), []) :: ·)
    (Element.map_view_strip [] [] 0 0 [] [] 0 0 root.children)

/-- What depends only on what the checks see, and neither on trivia nor on names, is the same
everywhere in a stripped tree. -/
theorem Node.map_cursors_strip {α : Type} {f : Cursor → α}
    (hf : ∀ c d : Cursor, d.view = stripView ρ c.view → f d = f c) (root : Node) :
    (root.strip ρ).cursors.map f = root.cursors.map f := by
  have hviews := root.map_view_strip (ρ := ρ)
  rw [List.map_map, ← List.forall₂_eq_eq_eq, List.forall₂_map_left_iff,
    List.forall₂_map_right_iff] at hviews
  rw [← List.forall₂_eq_eq_eq, List.forall₂_map_left_iff, List.forall₂_map_right_iff]
  exact hviews.imp fun d c h => hf c d h

/-! ## What is reported -/

/-- **Superfluous handlers** are the same in a stripped tree. -/
theorem Rethrow.map_isSuperfluous_strip (root : Node) :
    (root.strip ρ).cursors.map isSuperfluous = root.cursors.map isSuperfluous := by
  refine Node.map_cursors_strip (fun c d h => ?_) root
  have hnode : d.node = c.node.strip ρ := congrArg Prod.fst h
  have hafter : d.after.filterMap Element.node? =
      (c.after.filterMap Element.node?).map (Node.strip ρ) := congrArg Prod.snd h
  have hlater : (laterHandlers d).all Node.isRedundantHandler =
      (laterHandlers c).all Node.isRedundantHandler := by
    rw [laterHandlers, hafter, List.filter_map, List.all_map]
    simp only [Function.comp_def, Node.isRedundantHandler_strip]
    rfl
  rw [isSuperfluous, isSuperfluous, hlater, Cursor.kind, Cursor.kind, hnode,
    Node.isRedundantHandler_strip, Node.kind_strip]

/-! ## The names of classes -/

namespace Cursor

/-- Names stand behind a keyword in the same way whether or not tokens have a place. -/
lemma map_item_tokens (c : Cursor) : c.tokens.map Placed.item = c.node.childTokens := by
  have hplace : ∀ (es : List Element) (start : Nat),
      ((Element.place start es).filterMap fun p => p.item.token?.map (⟨·, p.start⟩)).map
        (Placed.item (α := Token)) = es.filterMap Element.token? := by
    intro es
    induction es with
    | nil => exact fun _ => rfl
    | cons e es ih =>
      intro start
      cases e with
      | token t => exact congrArg (t :: ·) (ih _)
      | node k cs => exact ih _
  exact hplace c.node.children c.start

/-- The name of a class, read off the child tokens of its node. -/
lemma name?_eq (c : Cursor) : c.name? =
    ((c.node.childTokens.dropWhile fun t => !t.kind.isTypeKeyword).find?
      fun t => t.kind = .ident).map Token.text := by
  rw [← map_item_tokens, List.dropWhile_map, List.find?_map, Option.map_map]
  rfl

end Cursor

/-- Keywords of types are no trivia. -/
lemma Token.dropWhile_isTypeKeyword_strip (ts : List Token) :
    (strip ρ ts).dropWhile (fun t => !t.kind.isTypeKeyword) =
      strip ρ (ts.dropWhile fun t => !t.kind.isTypeKeyword) := by
  have hkeyword : ∀ k : Kind, k.isTypeKeyword = true → k.isTrivia = false := by
    intro k
    cases k <;> decide
  induction ts with
  | nil => rfl
  | cons t ts ih =>
    cases hk : t.kind.isTypeKeyword with
    | true =>
      rw [strip_cons_of_real (hkeyword _ hk), List.dropWhile_cons_of_neg (by simp [hk]),
        List.dropWhile_cons_of_neg (by simp [hk]), strip_cons_of_real (hkeyword _ hk)]
    | false =>
      rw [List.dropWhile_cons_of_pos (l := ts) (by simp [hk]), ← ih]
      cases h : t.kind.isTrivia with
      | true => rw [strip_cons_of_trivia h]
      | false => rw [strip_cons_of_real h, List.dropWhile_cons_of_pos (by simp [hk])]

/-- The name of a declaration is seen under its other name. -/
lemma Cursor.name?_strip {c d : Cursor} (h : d.node = c.node.strip ρ) : d.name? = c.name?.map ρ := by
  rw [name?_eq, name?_eq, h, Node.childTokens_strip, Token.dropWhile_isTypeKeyword_strip,
    Token.find?_ident_strip, Option.map_map, Option.map_map]
  refine Option.map_congr fun t ht => ?_
  have hk := List.find?_some ht
  exact Token.text_rename (by simpa using hk)

/-! ## Classes without instances -/

namespace Instantiation

variable {n : Node} {name : String}

/-- A class is reported if it has a name and is never instantiated. -/
def isReported (c : Cursor) : Bool :=
  c.kind = .classDeclaration && c.name?.any (isNeverInstantiated c.node)

/-- Whether all constructors are private does not depend on trivia and names. -/
lemma hasOnlyPrivateConstructors_strip :
    hasOnlyPrivateConstructors (n.strip ρ) = hasOnlyPrivateConstructors n := by
  rw [hasOnlyPrivateConstructors, hasOnlyPrivateConstructors, Node.constructors_strip,
    List.filter_map]
  simp only [Function.comp_def, Node.isStatic_strip, List.isEmpty_map, List.all_map,
    Node.isPrivate_strip]

/-- Whether a static member is exposed does not depend on trivia and names. -/
lemma exposesStatic_strip : exposesStatic (n.strip ρ) = exposesStatic n := by
  rw [exposesStatic, exposesStatic, Node.members_strip, List.any_map]
  simp only [Function.comp_def, Node.kind_strip, Node.isStatic_strip, Node.isPrivate_strip]
  rfl

/-- A class inside is derived from the class also under other names, as long as different names stay
different. -/
lemma hasDerivedInside_strip (hρ : Function.Injective ρ) :
    hasDerivedInside (n.strip ρ) (ρ name) = hasDerivedInside n name := by
  have hcontains : ∀ names : List String, (names.map ρ).contains (ρ name) = names.contains name := by
    intro names
    rw [Bool.eq_iff_iff, List.contains_iff_mem, List.contains_iff_mem, List.mem_map_of_injective hρ]
  rw [hasDerivedInside, hasDerivedInside, Node.nestedClasses_strip, List.any_map]
  congr 1
  funext m
  rw [Function.comp_apply, Node.baseNames?_strip, ← hcontains]
  cases m.baseNames? <;> rfl

/-- The class is created inside also under other names, as long as different names stay different. -/
lemma creates_strip (hρ : Function.Injective ρ) : creates (n.strip ρ) (ρ name) = creates n name := by
  rw [creates, creates, Node.nodes_strip, List.any_map]
  congr 1
  funext m
  rw [Function.comp_apply, Node.kind_strip, Node.createdType?_strip]
  congr 1
  rw [Bool.eq_iff_iff, beq_iff_eq, beq_iff_eq, Option.map_eq_some_iff]
  simp [hρ.eq_iff]

/-- Whether a class is instantiated depends neither on trivia nor on the choice of names, as long as
different names stay different. -/
theorem isNeverInstantiated_strip (hρ : Function.Injective ρ) :
    isNeverInstantiated (n.strip ρ) (ρ name) = isNeverInstantiated n name := by
  rw [isNeverInstantiated, isNeverInstantiated, hasOnlyPrivateConstructors_strip, exposesStatic_strip,
    hasDerivedInside_strip hρ, creates_strip hρ]

/-- **Classes that are never instantiated** are the same in a stripped tree. -/
theorem map_isReported_strip (hρ : Function.Injective ρ) (root : Node) :
    (root.strip ρ).cursors.map isReported = root.cursors.map isReported := by
  refine Node.map_cursors_strip (fun c d h => ?_) root
  have hnode : d.node = c.node.strip ρ := congrArg Prod.fst h
  rw [isReported, isReported, Cursor.name?_strip hnode, Cursor.kind, Cursor.kind, hnode,
    Node.kind_strip, Option.any_map]
  congr 2
  funext name
  exact isNeverInstantiated_strip hρ

/-- There is a finding about a class that is reported, and about no other. -/
lemma isSome_finding? (rule : Descriptor) (c : Cursor) :
    (finding? rule c).isSome = c.name?.any (isNeverInstantiated c.node) := by
  rw [finding?, Cursor.name?]
  cases c.nameToken? with
  | none => rfl
  | some t =>
    simp only [Option.map_some, Option.any_some]
    split <;> simp [*]

end Instantiation

end TreeLint
