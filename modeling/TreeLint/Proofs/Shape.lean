import TreeLint.Proofs.Lexing
import TreeLint.Proofs.Substitution
import TreeLint.Syntax.Handler

/-!
# The shape of syntax trees

The grammar puts the children of a node in a fixed order. This file says in which, as a property of
one node and its children, so that it can be proved of parsers and kept by changes of trees without
looking further down.

## Main definitions

* `TreeLint.Arranged` — kinds in a row, as a list of slots prescribes.
* `TreeLint.Shaped` — the children of a node of some kind are in order.
* `TreeLint.Element.IsShaped`, `TreeLint.Node.IsShaped` — shaped elements and trees.
* `TreeLint.Element.IsTrimmed` — an element that neither begins nor ends with trivia.

## Main results

* `TreeLint.Node.IsShaped.solid` — nothing in a shaped tree is empty.
* `TreeLint.Node.IsShaped.exists_try` — every handler stands in a guarded block.
* `TreeLint.Node.IsShaped.before_ne_nil`, `TreeLint.Node.IsShaped.headed` — guarded blocks and
  handlers are never the first child of a node below the root.
-/

namespace TreeLint

/-! ## Kinds in a row -/

/-- How often a kind may occur in a row. -/
inductive Occurs where
  /-- Once. -/
  | once
  /-- Once or not at all. -/
  | atMostOnce
  /-- Any number of times. -/
  | anyTimes

/-- The numbers that a bound on occurrences allows. -/
def Occurs.Allows : Occurs → Nat → Prop
  | once, n => n = 1
  | atMostOnce, n => n ≤ 1
  | anyTimes, _ => True

/-- Kinds in a row, each as often as its slot allows, in the order of the slots. -/
def Arranged : List (Kind × Occurs) → List Kind → Prop
  | [], ks => ks = []
  | (k, o) :: slots, ks => ∃ n rest, ks = List.replicate n k ++ rest ∧ o.Allows n ∧ Arranged slots rest

/-- Only kinds with a slot occur. -/
lemma Arranged.mem {slots : List (Kind × Occurs)} {ks : List Kind} (h : Arranged slots ks) :
    ∀ k ∈ ks, k ∈ slots.map Prod.fst := by
  induction slots generalizing ks with
  | nil =>
    obtain rfl : ks = [] := h
    simp
  | cons slot slots ih =>
    obtain ⟨n, rest, rfl, -, hrest⟩ := h
    intro k hk
    rcases List.mem_append.mp hk with hk | hk
    · simp [List.eq_of_mem_replicate hk]
    · exact List.mem_cons_of_mem _ (ih hrest k hk)

/-- Kinds in the order of some slots, and behind them kinds in the order of others. -/
lemma Arranged.append {slots slots' : List (Kind × Occurs)} {ks ks' : List Kind}
    (h : Arranged slots ks) (h' : Arranged slots' ks') : Arranged (slots ++ slots') (ks ++ ks') := by
  induction slots generalizing ks with
  | nil =>
    obtain rfl : ks = [] := h
    exact h'
  | cons slot slots ih =>
    obtain ⟨m, rest, rfl, hm, hrest⟩ := h
    exact ⟨m, rest ++ ks', by rw [List.append_assoc], hm, ih hrest⟩

/-- A kind that is repeated as often as its slot allows is in order. -/
lemma arranged_replicate {κ : Kind} {o : Occurs} {m : Nat} (ho : o.Allows m) :
    Arranged [(κ, o)] (List.replicate m κ) := ⟨m, [], by simp, ho, rfl⟩

/-- The slots for the children of the nodes around exception handling. -/
def Kind.slots? : Kind → Option (List (Kind × Occurs))
  | .tryStatement => some [(.tryKw, .once), (.block, .atMostOnce), (.catchClause, .anyTimes),
      (.finallyClause, .atMostOnce)]
  | .catchClause => some [(.catchKw, .once), (.catchDeclaration, .atMostOnce),
      (.catchFilter, .atMostOnce), (.block, .atMostOnce)]
  | .finallyClause => some [(.finallyKw, .once), (.block, .atMostOnce)]
  | _ => none

/-- A node of one kind may begin with a node of another. -/
def Kind.mayBegin : Kind → Kind → Bool
  | .expressionStatement, .expression => true
  | .expression, .objectCreationExpression => true
  | .methodDeclaration, .typeRef | .fieldDeclaration, .typeRef | .propertyDeclaration, .typeRef =>
    true
  | _, _ => false

/-! ## Shapes -/

namespace Element

/-- An element with which a node of kind `k` may begin. -/
def MayStart (k : Kind) (e : Element) : Prop :=
  e.isTrivia = false ∧ ∀ l ds, e = .node l ds → k.mayBegin l = true

/-- The kinds of consecutive elements, trivia left out. -/
def kinds (es : List Element) : List Kind := (es.filter fun e => !e.isTrivia).map kind

@[simp] lemma kinds_nil : kinds [] = [] := rfl

@[simp] lemma kinds_append (es ds : List Element) :
    kinds (es ++ ds) = kinds es ++ kinds ds := by simp [kinds]

@[simp] lemma kinds_node (k : Kind) (cs : List Element) : kinds [node k cs] = [k] := rfl

/-- The kind of an element that is no trivia is counted. -/
lemma mem_kinds {es : List Element} {e : Element} (he : e ∈ es) (ht : e.isTrivia = false) :
    e.kind ∈ kinds es := List.mem_map_of_mem (by simp [he, ht])

/-- An element that neither holds a handler nor a clause that runs in any case. -/
def IsFree (e : Element) : Prop := e.kind ≠ .catchClause ∧ e.kind ≠ .finallyClause

/-- A node that ends with a closing brace. -/
def IsClosed (e : Element) : Prop :=
  ∃ k cs t, e = .node k (cs ++ [.token t]) ∧ t.kind = .rBrace

/-- The children of a block: an opening brace, elements none of which is a brace, and, unless the
text ends, a closing brace. -/
def IsBraced (cs : List Element) : Prop :=
  ∃ l inner tail, cs = .token l :: (inner ++ tail) ∧ l.kind = .lBrace ∧
    (∀ e ∈ inner, e.kind ≠ .lBrace ∧ e.kind ≠ .rBrace) ∧
    (tail = [] ∨ ∃ r, r.kind = .rBrace ∧ tail = [.token r])

end Element

/-- The children of a node of kind `k` are as they should be. -/
structure Shaped (k : Kind) (cs : List Element) : Prop where
  /-- The kind is the kind of a structural node. -/
  kind : ¬Token.IsTokenKind k
  /-- The node is not empty. -/
  length_pos : 0 < Element.lengthList cs
  /-- The node does not begin with trivia, and only nodes of some kinds begin with a node, which is
  then of a fixed kind. -/
  begins : ∀ e es, cs = e :: es → e.MayStart k
  /-- The children around exception handling are in order. -/
  slots : ∀ slots, k.slots? = some slots → Arranged slots (Element.kinds cs)
  /-- Handlers and clauses that run in any case stand in guarded blocks only. -/
  free : k ≠ .tryStatement → ∀ e ∈ cs, e.IsFree
  /-- Blocks stand between braces. -/
  braced : k = .block → Element.IsBraced cs
  /-- The body of a guarded block with handlers is complete. -/
  closed : k = .tryStatement → (∃ e ∈ cs, e.kind = .catchClause) →
    ∀ e ∈ cs, e.kind = .block → e.IsClosed

namespace Element

/-- An element that is as it should be, apart from what is further down. -/
def IsShaped : Element → Prop
  | token t => t.IsPlain
  | node k cs => Shaped k cs

/-- No shaped element is empty. -/
lemma IsShaped.isSolid {e : Element} (h : e.IsShaped) : e.IsSolid := by
  cases e with
  | token t => exact Token.IsPlain.length_pos h
  | node k cs => exact Shaped.length_pos h

/-- An element with the kind of a structural node is one. -/
lemma IsShaped.exists_node {e : Element} (h : e.IsShaped) (hk : ¬Token.IsTokenKind e.kind) :
    ∃ cs, e = .node e.kind cs := by
  cases e with
  | token t => exact absurd (Token.IsPlain.kind h) hk
  | node k cs => exact ⟨cs, rfl⟩

/-- An element with the kind of a token is one. -/
lemma IsShaped.exists_token {e : Element} (h : e.IsShaped) (hk : Token.IsTokenKind e.kind) :
    ∃ t, e = .token t ∧ t.IsPlain := by
  cases e with
  | token t => exact ⟨t, rfl, h⟩
  | node k cs => exact absurd hk (Shaped.kind h)

/-- A list of tokens that neither begins nor ends with trivia. -/
def IsTight (ts : List Token) : Prop :=
  (∀ t ∈ ts.head?, t.kind.isTrivia = false) ∧ ∀ t ∈ ts.getLast?, t.kind.isTrivia = false

/-- A token, or a node that neither begins nor ends with trivia. -/
def IsTrimmed : Element → Prop
  | token _ => True
  | node _ cs => IsTight (leavesList cs)

end Element

/-- A tree all of whose elements are as they should be. -/
structure Node.IsShaped (root : Node) : Prop where
  /-- The root is a compilation unit. -/
  kind : root.kind = .compilationUnit
  /-- What stands at the top is neither a handler nor a clause that runs in any case. -/
  free : ∀ e ∈ root.children, e.IsFree
  /-- Everything below the root is as it should be. -/
  all : root.All Element.IsShaped

namespace Node.IsShaped

variable {root : Node} {c p : Cursor}

/-- Nothing in a shaped tree is empty. -/
theorem solid (h : root.IsShaped) : root.All Element.IsSolid :=
  fun e he => (h.all e he).imp fun _ => Element.IsShaped.isSolid

/-- The children of every node of a shaped tree but the root are in order. -/
lemma shaped (h : root.IsShaped) (hc : root.Has c) (hne : c ≠ root.cursor) :
    Shaped c.kind c.node.children := (h.all.node hc hne).self

/-- The tokens of a shaped tree do not carry the kinds of structural nodes. -/
lemma token_kind_ne (h : root.IsShaped) (hc : root.Has c) {u : Token}
    (hu : Element.token u ∈ c.node.children) {k : Kind} (hk : ¬Token.IsTokenKind k) : u.kind ≠ k := by
  have hplain : u.IsPlain := (h.all.children hc _ hu).self
  exact fun huk => hk (huk ▸ hplain.kind)

/-- A node that is no compilation unit is not the root. -/
lemma ne_cursor (h : root.IsShaped) (hk : c.kind ≠ .compilationUnit) : c ≠ root.cursor := by
  rintro rfl
  exact hk h.kind

/-- Every handler stands in a guarded block. -/
theorem exists_try (h : root.IsShaped) (hc : root.Has c) (hk : c.kind = .catchClause) :
    ∃ t, root.Has t ∧ t.IsChild c ∧ t.kind = .tryStatement := by
  have hne : c ≠ root.cursor := h.ne_cursor (by simp [hk])
  obtain ⟨p, hp, hstep⟩ := Cursor.Below.exists_parent hc hne.symm
  refine ⟨p, hp, hstep, ?_⟩
  by_contra hpk
  have hmem := hstep.mem_children
  by_cases hroot : p = root.cursor
  · subst hroot
    exact (h.free _ hmem).1 hk
  · exact ((h.shaped hp hroot).free hpk _ hmem).1 hk

/-- A guarded block or a handler is not the first child of a node below the root. -/
theorem before_ne_nil (h : root.IsShaped) (hp : root.Has p) (hne : p ≠ root.cursor)
    (hc : p.IsChild c) (hk : c.kind = .tryStatement ∨ c.kind = .catchClause) : c.before ≠ [] := by
  intro hbefore
  have hcs := hc.children_eq
  rw [hbefore] at hcs
  have hlead := ((h.shaped hp hne).begins _ _ hcs).2 _ _ rfl
  rw [show c.node.kind = c.kind from rfl] at hlead
  rcases hk with hk | hk <;> rw [hk] at hlead <;> cases hpk : p.kind <;>
    simp [hpk, Kind.mayBegin] at hlead

/-- Every guarded block or handler above a node has something before what leads to that node. -/
theorem headed (h : root.IsShaped) (hc : root.Has c) :
    ∀ f ∈ c.path, f.kind = .tryStatement ∨ f.kind = .catchClause → f.before ≠ [] := by
  induction hc with
  | refl => simp [cursor]
  | tail hb hstep ih =>
    rename_i p c
    intro f hf hk
    rw [hstep.path_eq, List.mem_cons] at hf
    rcases hf with rfl | hf
    · intro hbefore
      simp only at hbefore hk
      have hne : p ≠ root.cursor := h.ne_cursor (by rcases hk with hk | hk <;> simp [hk])
      have hcs := hstep.children_eq
      rw [hbefore] at hcs
      have hlead := ((h.shaped hb hne).begins _ _ hcs).2 _ _ rfl
      rcases hk with hk | hk <;> rw [hk] at hlead <;> simp [Kind.mayBegin] at hlead
    · exact ih f hf hk

end Node.IsShaped

end TreeLint
