import TreeLint.Proofs.Closing
import TreeLint.Proofs.Reported

/-!
# What stands in the block of a reported handler

A reported handler has one statement, which raises the caught exception again. The check looks at the
statements of the block and at nothing else. A member declaration is no statement, although it can stand
among statements, and neither is a token that starts nothing. So the block of a reported handler does
nothing but rethrow exactly if none of these stand in it, semicolons apart. If one does, the fix removes it
with the handler.

## Main definitions

* `TreeLint.wordKinds` — the kinds of tokens, trivia and semicolons left out.
* `TreeLint.Element.IsIdle` — an element of a block that is neither a member declaration nor a token that
  starts nothing.

## Main results

* `TreeLint.wordKinds_of_isBareRethrow` — a bare rethrow consists of its keyword.
* `TreeLint.Element.IsItem.wordKinds_eq_nil_iff` — what stands in a block besides statements and is not
  idle has a word.
* `TreeLint.Rethrow.wordKinds_reported_iff` — when a reported handler does nothing but rethrow.
-/

namespace TreeLint

open Element

/-- The kinds of tokens, in order; trivia and semicolons are left out. -/
def wordKinds (ts : List Token) : List Kind :=
  (ts.filter fun t => !t.kind.isTrivia && t.kind != .semicolon).map Token.kind

@[simp] lemma wordKinds_nil : wordKinds [] = [] := rfl

@[simp] lemma wordKinds_append (ts us : List Token) : wordKinds (ts ++ us) = wordKinds ts ++ wordKinds us := by
  simp [wordKinds]

/-- A token that is neither trivia nor a semicolon is a word. -/
lemma wordKinds_singleton {t : Token} (ht : t.kind.isTrivia = false) (hs : t.kind ≠ .semicolon) :
    wordKinds [t] = [t.kind] := by simp [wordKinds, ht, hs]

/-- There are no words among trivia and semicolons only. -/
lemma wordKinds_eq_nil_iff {ts : List Token} :
    wordKinds ts = [] ↔ ∀ t ∈ ts, t.kind.isTrivia = true ∨ t.kind = .semicolon := by
  simp only [wordKinds, List.map_eq_nil_iff, List.filter_eq_nil_iff]
  refine forall₂_congr fun t _ => ?_
  cases t.kind.isTrivia <;> simp

/-- Elements have no words if none of them has one. -/
lemma wordKinds_leavesList_eq_nil_iff {es : List Element} :
    wordKinds (leavesList es) = [] ↔ ∀ e ∈ es, wordKinds e.leaves = [] := by
  induction es with
  | nil => simp
  | cons e es ih => simp [ih]

/-! ## The statement that rethrows -/

/-- The words of elements that are tokens are their kinds. -/
lemma wordKinds_of_tokens {es : List Element} (h : ∀ e ∈ es, ∃ t, e = .token t) :
    wordKinds (leavesList es) = (kinds es).filter (· != .semicolon) := by
  induction es with
  | nil => rfl
  | cons e es ih =>
    obtain ⟨t, rfl⟩ := h e List.mem_cons_self
    have ih := ih fun d hd => h d (List.mem_cons_of_mem _ hd)
    rw [show token t :: es = [token t] ++ es from rfl, leavesList_append, wordKinds_append, ih, kinds_append,
      List.filter_append]
    congr 1
    cases ht : t.kind.isTrivia <;> cases hs : t.kind != .semicolon <;>
      simp [wordKinds, kinds, isTrivia, kind, ht, hs]

variable {source : String} {b c t : Cursor}

/-- A bare rethrow holds no expression. -/
lemma ne_expression_of_isBareRethrow (ht : (parse source).Has t) (hbare : t.node.isBareRethrow = true)
    {e : Element} (he : e ∈ t.node.children) : e.kind ≠ .expression := by
  intro hexpression
  obtain ⟨cs, hcs⟩ : ∃ cs, e = .node e.kind cs :=
    ((isShaped_parse source).all.children ht e he).self.exists_node (by rw [hexpression]; decide)
  have hmem : (⟨e.kind, cs⟩ : Node) ∈ t.node.childNodes :=
    List.mem_filterMap.mpr ⟨e, he, by rw [hcs]; rfl⟩
  simp only [Node.isBareRethrow, Bool.not_eq_true', List.any_eq_false] at hbare
  exact hbare _ hmem (by simp [Node.isThrownValue, hexpression])

/-- The children of a bare rethrow are its keyword and its semicolon, if there is one. -/
lemma kinds_of_isBareRethrow (ht : (parse source).Has t) (hk : t.kind = .throwStatement)
    (hbare : t.node.isBareRethrow = true) :
    ∃ n, kinds t.node.children = .throwKw :: List.replicate n .semicolon := by
  have hne := (isShaped_parse source).ne_cursor (c := t) (by rw [hk]; decide)
  obtain ⟨_, rest, hkinds, rfl, m, rest', rfl, -, n, _, rfl, -, rfl⟩ :=
    (formed_parse source ht hne).thrown hk
  refine ⟨n, ?_⟩
  cases m with
  | zero => simpa using hkinds
  | succ m =>
    have hmem : Kind.expression ∈ kinds t.node.children := by
      rw [hkinds]
      simp
    obtain ⟨e, he, hexpression⟩ := List.mem_map.mp hmem
    exact absurd hexpression (ne_expression_of_isBareRethrow ht hbare (List.mem_filter.mp he).1)

/-- A bare rethrow consists of its keyword. -/
theorem wordKinds_of_isBareRethrow (ht : (parse source).Has t) (hk : t.kind = .throwStatement)
    (hbare : t.node.isBareRethrow = true) : wordKinds t.node.leaves = [.throwKw] := by
  obtain ⟨n, hkinds⟩ := kinds_of_isBareRethrow ht hk hbare
  have htokens : ∀ e ∈ t.node.children, ∃ u, e = .token u := by
    intro e he
    cases htrivia : e.isTrivia with
    | true =>
      cases e with
      | token u => exact ⟨u, rfl⟩
      | node k cs => cases htrivia
    | false =>
      have hmem := mem_kinds he htrivia
      rw [hkinds, List.mem_cons, List.mem_replicate] at hmem
      refine (isTokenKind_iff ht he).mp ?_
      rcases hmem with h | ⟨-, h⟩ <;> (rw [h]; decide)
  rw [Node.leaves, wordKinds_of_tokens htokens, hkinds]
  simp

/-! ## The items of a block -/

namespace Element

/-- An element of a block that is neither a member declaration nor a token that starts nothing, semicolons
and braces apart. -/
def IsIdle (e : Element) : Prop :=
  e.kind.isMember = false ∧ e.kind.isModifier = false ∧ e.kind ∉ [.rParen, .rBracket, .comma]

instance (e : Element) : Decidable e.IsIdle := inferInstanceAs (Decidable (_ ∧ _))

/-- Besides statements and its closing brace, the idle elements of a block are those without words. -/
theorem IsItem.wordKinds_eq_nil_iff {e : Element} (h : e.IsItem) (hs : e.kind.isStatement = false)
    (hb : e.kind ≠ .rBrace) : wordKinds e.leaves = [] ↔ e.IsIdle := by
  cases h with
  | trivia h =>
    have hkind := Grammar.kind_of_isTrivia h
    refine iff_of_true ?_ ?_
    · cases e with
      | token t => exact TreeLint.wordKinds_eq_nil_iff.mpr (by simpa using .inl hkind)
      | node k cs => cases h
    · unfold IsIdle
      revert hkind
      cases e.kind <;> decide
  | statement h => rw [h] at hs; cases hs
  | member h ht hkind =>
    refine iff_of_false (fun hnil => ?_) fun hidle => ?_
    · have hword := TreeLint.wordKinds_eq_nil_iff.mp hnil _ ht
      revert hkind hword
      generalize Token.kind _ = k
      cases k <;> decide
    · rw [hidle.1] at h
      cases h
  | stray h =>
    rename_i t
    simp only [kind, leaves_token] at hb ⊢
    rw [TreeLint.wordKinds_eq_nil_iff, List.forall_mem_singleton, IsIdle, kind]
    revert h hb
    generalize t.kind = k
    cases k <;> decide

end Element

/-- Among items that are no statements, all are idle exactly if they have no words. -/
lemma wordKinds_idle_iff {es : List Element}
    (hes : ∀ e ∈ es, e.IsItem ∧ e.kind ≠ .rBrace ∧ (Token.IsTokenKind e.kind ↔ ∃ t, e = .token t))
    (hnone : ∀ e ∈ es, (e.node?.filter fun n => n.kind.isStatement) = none) :
    wordKinds (leavesList es) = [] ↔ ∀ e ∈ es, e.IsIdle := by
  rw [wordKinds_leavesList_eq_nil_iff]
  refine forall₂_congr fun e he => ?_
  obtain ⟨hitem, hbrace, htoken⟩ := hes e he
  refine hitem.wordKinds_eq_nil_iff ?_ hbrace
  cases e with
  | token t =>
    have hkind := htoken.mpr ⟨t, rfl⟩
    revert hkind
    cases (token t).kind <;> decide
  | node k cs => simpa [Element.node?, kind] using hnone _ he

/-- Among items of which one is a statement, only the words of this statement count exactly if all items
are idle. -/
lemma wordKinds_items_iff {es : List Element} {only : Node} {κ : Kind}
    (hes : ∀ e ∈ es, e.IsItem ∧ e.kind ≠ .rBrace ∧ (Token.IsTokenKind e.kind ↔ ∃ t, e = .token t))
    (honly : (es.filterMap Element.node?).filter (·.kind.isStatement) = [only])
    (hword : wordKinds only.leaves = [κ]) :
    wordKinds (leavesList es) = [κ] ↔ ∀ e ∈ es, e.IsIdle := by
  rw [List.filter_filterMap, List.filterMap_eq_cons_iff] at honly
  obtain ⟨xs, e, ys, rfl, hxs, he, hys⟩ := honly
  rw [List.filterMap_eq_nil_iff] at hys
  obtain ⟨hnode, hstatement⟩ := Option.filter_eq_some_iff.mp he
  obtain ⟨hleaves, hkind⟩ : e.leaves = only.leaves ∧ e.kind = only.kind := by
    cases e with
    | token t => cases hnode
    | node k cs =>
      obtain rfl := Option.some.inj hnode
      exact ⟨rfl, rfl⟩
  have hself : e.IsIdle := by
    unfold IsIdle
    rw [hkind]
    revert hstatement
    cases only.kind <;> decide
  have hwords : wordKinds (leavesList (xs ++ e :: ys)) =
      wordKinds (leavesList xs) ++ κ :: wordKinds (leavesList ys) := by
    rw [leavesList_append, leavesList_cons, wordKinds_append, wordKinds_append, hleaves, hword]
    rfl
  -- the words are those of the statement exactly if the other items have none
  have hothers : wordKinds (leavesList (xs ++ e :: ys)) = [κ] ↔
      wordKinds (leavesList xs) = [] ∧ wordKinds (leavesList ys) = [] := by
    rw [hwords, List.append_eq_singleton_iff]
    simp
  rw [hothers, wordKinds_idle_iff (fun d hd => hes d (by simp [hd])) hxs,
    wordKinds_idle_iff (fun d hd => hes d (by simp [hd])) hys, List.forall_mem_append,
    List.forall_mem_cons]
  exact and_congr_right fun _ => (and_iff_right hself).symm

/-! ## Filled blocks -/

/-- A block: an opening brace, items, and a closing brace unless it is missing. -/
structure Node.IsFilled (n : Node) (items : List Element) (closing : Option Token) : Prop where
  /-- The items stand between the braces. -/
  children : ∃ l, n.children = .token l :: (items ++ closing.toList.map .token) ∧ l.kind = .lBrace
  /-- The closing brace, if there is one. -/
  closing : ∀ r ∈ closing, r.kind = .rBrace
  /-- The items are no braces. -/
  items : ∀ e ∈ items, e.IsItem ∧ e.kind ≠ .rBrace ∧ (Token.IsTokenKind e.kind ↔ ∃ t, e = .token t)

/-- The blocks of the tree of a text are filled with items. -/
lemma exists_isFilled (hb : (parse source).Has b) (hk : b.kind = .block) :
    ∃ items closing, b.node.IsFilled items closing := by
  obtain ⟨l, inner, tail, hcs, hl, hinner, htail⟩ := exists_braces hb hk
  have hne := (isShaped_parse source).ne_cursor (c := b) (by rw [hk]; decide)
  obtain ⟨r, rfl, hr⟩ : ∃ r : Option Token, tail = r.toList.map .token ∧ ∀ u ∈ r, u.kind = .rBrace := by
    rcases htail with ⟨r, hr, rfl⟩ | ⟨rfl, -⟩
    · exact ⟨some r, rfl, by simpa using hr⟩
    · exact ⟨none, rfl, by simp⟩
  refine ⟨inner, r, ⟨l, hcs, hl⟩, hr, fun e he => ?_⟩
  have hmem : e ∈ b.node.children := by simp [hcs, he]
  exact ⟨((formed_parse source hb hne).items hk e hmem).resolve_left (hinner e he).1, (hinner e he).2,
    isTokenKind_iff hb hmem⟩

namespace Node.IsFilled

variable {n : Node} {items : List Element} {closing : Option Token}

/-- The statements of a block are the nodes among its items that are statements. -/
lemma statements_eq (h : n.IsFilled items closing) :
    n.statements = (items.filterMap Element.node?).filter (·.kind.isStatement) := by
  obtain ⟨l, hcs, -⟩ := h.children
  have hopen : (token l).node? = none := rfl
  have hclose : (closing.toList.map Element.token).filterMap Element.node? = [] := by
    cases closing <;> rfl
  rw [statements, childNodes, hcs, List.filterMap_cons, hopen, List.filterMap_append, hclose,
    List.append_nil]

/-- The closing brace that is found in a block is the one behind its items. -/
lemma token?_eq (h : n.IsFilled items closing) : n.token? .rBrace = closing := by
  obtain ⟨l, hcs, hl⟩ := h.children
  have hnone : (items.filterMap Element.token?).find? (·.kind = .rBrace) = none := by
    rw [List.find?_eq_none]
    intro u hu hkind
    obtain ⟨e, he, hu⟩ := List.mem_filterMap.mp hu
    cases e with
    | token v =>
      obtain rfl := Option.some.inj hu
      exact (h.items _ he).2.1 (of_decide_eq_true hkind)
    | node k cs => cases hu
  have hopen : n.childTokens =
      l :: (items.filterMap Element.token? ++ (closing.toList.map .token).filterMap Element.token?) := by
    rw [childTokens, hcs, List.filterMap_cons, List.filterMap_append]
    rfl
  rw [token?, hopen, List.find?_cons_of_neg (by simp [hl]), List.find?_append, hnone]
  cases closing with
  | none => rfl
  | some r =>
    have hr := h.closing r rfl
    simp [Element.token?, hr]

/-- The words of a block are its braces and those of its items. -/
lemma wordKinds_eq (h : n.IsFilled items closing) :
    wordKinds n.leaves = .lBrace :: (wordKinds (leavesList items) ++ closing.toList.map Token.kind) := by
  obtain ⟨l, hcs, hl⟩ := h.children
  have hclose : wordKinds closing.toList = closing.toList.map Token.kind := by
    cases closing with
    | none => rfl
    | some r =>
      have hr := h.closing r rfl
      exact wordKinds_singleton (by rw [hr]; rfl) (by rw [hr]; decide)
  have hopen : wordKinds [l] = [.lBrace] := by
    rw [wordKinds_singleton (by rw [hl]; rfl) (by rw [hl]; decide), hl]
  have hleaves : n.leaves = [l] ++ (leavesList items ++ closing.toList) := by
    rw [leaves, hcs, leavesList_cons, leaves_token, leavesList_append, Grammar.leavesList_map_token]
  rw [hleaves, wordKinds_append, hopen, wordKinds_append, hclose]
  rfl

/-- The braces are idle. -/
lemma isIdle_iff (h : n.IsFilled items closing) :
    (∀ e ∈ n.children, e.IsIdle) ↔ ∀ e ∈ items, e.IsIdle := by
  obtain ⟨l, hcs, hl⟩ := h.children
  have hbrace : ∀ u : Token, u.kind = .lBrace ∨ u.kind = .rBrace → (token u).IsIdle := by
    intro u hu
    unfold IsIdle
    rw [Element.kind]
    rcases hu with hu | hu <;> (rw [hu]; decide)
  rw [hcs, List.forall_mem_cons, List.forall_mem_append]
  refine ⟨fun hall => hall.2.1, fun hall => ⟨hbrace l (.inl hl), hall, fun e he => ?_⟩⟩
  obtain ⟨r, hr, rfl⟩ := List.mem_map.mp he
  exact hbrace r (.inr (h.closing r (by simpa using hr)))

end Node.IsFilled

/-! ## Reported handlers -/

/-- A range is known by its span. -/
lemma Span.ofRange_inj {r s : Range} (h : Span.ofRange r = Span.ofRange s) : r = s := by
  obtain ⟨hstart, hlength⟩ := Span.mk.inj h
  have hr := r.start_le_stop
  have hs := s.start_le_stop
  rw [Range.length, Range.length] at hlength
  exact Range.eq_of_bounds hstart (by omega)

namespace Rethrow

variable {a : Analyzer} {d : Diagnostic}

/-- A handler with the span of a reported finding is superfluous. -/
lemma isSuperfluous_of_reported (ha : Analyzer.builtin = .ok a)
    (hd : d ∈ a.analyze (parse source) ∧ d.ruleId = ruleId) (hc : (parse source).Has c)
    (hk : c.kind = .catchClause) (hspan : d.span = .ofRange c.range) : isSuperfluous c = true := by
  obtain ⟨c', hc', hsuper, rfl⟩ := (Analyzer.mem_analyze_iff ha).mp hd
  have hrange : c'.range = c.range := Span.ofRange_inj hspan
  have hkind := (isRedundantHandler_of_isSuperfluous hsuper).1
  have hsame := handlerAround?_range (isShaped_parse source) hc hk
  rw [← hrange, handlerAround?_range (isShaped_parse source) hc' hkind] at hsame
  rwa [← Option.some.inj hsame]

/-- A redundant handler has a block with one statement, a bare rethrow. -/
lemma exists_of_isRedundantHandler {n : Node} (h : n.isRedundantHandler = true) : ∃ b only,
    n.child? .block = some b ∧ b.statements = [only] ∧ only.kind = .throwStatement ∧
      only.isBareRethrow = true := by
  simp only [Node.isRedundantHandler, Node.onlyRethrows, Bool.and_eq_true] at h
  obtain ⟨-, h⟩ := h
  split at h
  · rename_i only honly
    obtain ⟨b, hb, hstatements⟩ := Option.map_eq_some_iff.mp honly
    simp only [Bool.and_eq_true, decide_eq_true_eq] at h
    exact ⟨b, only, hb, hstatements, h⟩
  · cases h

/-- **A reported handler** does nothing but rethrow exactly if neither a member declaration nor a token
that starts nothing stands in its block, semicolons apart.

Let a handler of the tree of a text be reported. Then it has a block, and the words of this block are its
braces and the keyword of one rethrow exactly if all direct children of the block are idle.

**Proof sketch.** A block consists of items between its braces (`formed_parse`, `exists_braces`). The check
makes sure that one of them is a statement, and that this is a bare rethrow, which has one word. The others
have a word each unless they are idle (`Element.IsItem.wordKinds_eq_nil_iff`). -/
theorem wordKinds_reported_iff (ha : Analyzer.builtin = .ok a)
    (hd : d ∈ a.analyze (parse source) ∧ d.ruleId = ruleId) (hc : (parse source).Has c)
    (hk : c.kind = .catchClause) (hspan : d.span = .ofRange c.range) :
    ∃ b, c.node.child? .block = some b ∧
      (wordKinds b.leaves = [.lBrace, .throwKw] ++ (b.token? .rBrace).toList.map Token.kind ↔
        ∀ e ∈ b.children, e.IsIdle) := by
  obtain ⟨n, only, hn, hstatements, honlyKind, hbare⟩ := exists_of_isRedundantHandler
    (isRedundantHandler_of_isSuperfluous (isSuperfluous_of_reported ha hd hc hk hspan)).2
  obtain ⟨b, hb, rfl, hbk⟩ := Cursor.exists_of_child? hn
  obtain ⟨items, closing, hfilled⟩ := exists_isFilled (hc.child hb) hbk
  refine ⟨b.node, hn, ?_⟩
  -- the one statement has one word
  have hmem : only ∈ b.node.statements := by rw [hstatements]; exact List.mem_cons_self
  obtain ⟨t, ht, rfl⟩ := Cursor.mem_childNodes.mp (List.mem_filter.mp hmem).1
  have hword := wordKinds_of_isBareRethrow ((hc.child hb).child ht) honlyKind hbare
  have honly := hfilled.statements_eq.symm.trans hstatements
  rw [hfilled.isIdle_iff, hfilled.token?_eq, hfilled.wordKinds_eq, List.cons_append,
    List.cons_inj_right, List.append_cancel_right_eq, wordKinds_items_iff hfilled.items honly hword]

/-- A handler with a comment and a stray semicolon in its block does nothing but rethrow. -/
theorem wordKinds_reported_idle : ∃ source a d c b,
    source = "try \x7b A(); \x7d catch (E e) \x7b /* log? */ throw; ; \x7d" ∧
    Analyzer.builtin = .ok a ∧ (d ∈ a.analyze (parse source) ∧ d.ruleId = ruleId) ∧
    (parse source).Has c ∧ c.kind = .catchClause ∧ d.span = .ofRange c.range ∧
    c.node.child? .block = some b ∧ wordKinds b.leaves = [.lBrace, .throwKw, .rBrace] := by
  obtain ⟨source, hsource⟩ : ∃ source,
    source = "try \x7b A(); \x7d catch (E e) \x7b /* log? */ throw; ; \x7d" := ⟨_, rfl⟩
  obtain ⟨a, ha⟩ := Analyzer.exists_builtin
  have hfind : ((parse source).cursors.find? fun c => isSuperfluous c &&
      (c.node.child? .block).any fun b => (b.token? .rBrace).any (·.kind == .rBrace) &&
        b.children.all fun e => decide e.IsIdle).isSome = true := by
    rw [hsource]
    decide +kernel
  obtain ⟨c, hcfind⟩ := Option.isSome_iff_exists.mp hfind
  have hc := Node.mem_cursors.mp (List.mem_of_find?_eq_some hcfind)
  obtain ⟨hsuper, hblock⟩ := Bool.and_eq_true _ _ ▸ List.find?_some hcfind
  have hk := (isRedundantHandler_of_isSuperfluous hsuper).1
  have hd : rule.finding [] c.range ∈ a.analyze (parse source) ∧
      (rule.finding [] c.range).ruleId = ruleId :=
    (Analyzer.mem_analyze_iff ha).mpr ⟨c, hc, hsuper, rfl⟩
  obtain ⟨b, hb, hiff⟩ := wordKinds_reported_iff ha hd hc hk rfl
  rw [hb, Option.any_some, Bool.and_eq_true, List.all_eq_true] at hblock
  obtain ⟨r, hr, hkind⟩ := (Option.any_eq_true _ _).mp hblock.1
  refine ⟨source, a, _, c, b, hsource, ha, hd, hc, hk, rfl, hb, ?_⟩
  rw [hiff.mpr fun e he => of_decide_eq_true (hblock.2 e he), hr]
  simp [eq_of_beq hkind]

/-- A class among the statements of a handler does not keep the handler from being reported. The fix
removes the class with it. -/
theorem wordKinds_reported_class : ∃ source a d c b,
    source = "try \x7b A(); \x7d catch \x7b class X \x7b \x7d throw; \x7d" ∧
    Analyzer.builtin = .ok a ∧ (d ∈ a.analyze (parse source) ∧ d.ruleId = ruleId) ∧
    (parse source).Has c ∧ c.kind = .catchClause ∧ d.span = .ofRange c.range ∧
    c.node.child? .block = some b ∧
    wordKinds b.leaves = [.lBrace, .classKw, .ident, .lBrace, .rBrace, .throwKw, .rBrace] := by
  obtain ⟨source, hsource⟩ : ∃ source,
    source = "try \x7b A(); \x7d catch \x7b class X \x7b \x7d throw; \x7d" := ⟨_, rfl⟩
  obtain ⟨a, ha⟩ := Analyzer.exists_builtin
  have hfind : ((parse source).cursors.find? fun c => isSuperfluous c &&
      (c.node.child? .block).any fun b => wordKinds b.leaves ==
        [.lBrace, .classKw, .ident, .lBrace, .rBrace, .throwKw, .rBrace]).isSome = true := by
    rw [hsource]
    decide +kernel
  obtain ⟨c, hcfind⟩ := Option.isSome_iff_exists.mp hfind
  have hc := Node.mem_cursors.mp (List.mem_of_find?_eq_some hcfind)
  obtain ⟨hsuper, hblock⟩ := Bool.and_eq_true _ _ ▸ List.find?_some hcfind
  have hk := (isRedundantHandler_of_isSuperfluous hsuper).1
  obtain ⟨b, hb, hwords⟩ := (Option.any_eq_true _ _).mp hblock
  exact ⟨source, a, _, c, b, hsource, ha, (Analyzer.mem_analyze_iff ha).mpr ⟨c, hc, hsuper, rfl⟩, hc, hk,
    rfl, hb, eq_of_beq hwords⟩

end Rethrow

end TreeLint
