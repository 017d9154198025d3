import TreeLint.Proofs.Expressions
import TreeLint.Proofs.Standing
import TreeLint.Syntax.Declaration

/-!
# What nodes hold and where they end

The grammar fills nodes of some kinds in a way on which the checks rely. A block without its closing brace
ends with the text. What stands between its braces is a statement, a member declaration or a token that
starts nothing. A statement that throws has one expression at most. An object creation begins with its
keyword and names the type whose name is the next token of the text.

Expressions are not read everywhere: the bodies of properties, the lists of parameters and other bracketed
runs are kept as plain tokens. Only in such places the keyword of an object creation can stand outside of
an object creation.

The relation between a node and the tokens behind it is proved here for types and expressions, which need
no assumption on the number of tokens.

## Main definitions

* `TreeLint.Kind.keepsTokens` — the nodes that keep expressions as plain tokens.
* `TreeLint.Element.IsItem` — what stands between the braces of a block.
* `TreeLint.Formed` — how a node is filled, and where it ends.

## Main results

* `TreeLint.Grammar.stands_objectCreationOver` — an object creation names the type behind its keyword.
* `TreeLint.Grammar.stands_expression`, `TreeLint.Grammar.stands_argumentList` — expressions and lists of
  them.
-/

namespace TreeLint

/-! ## The relation -/

/-- Nodes of these kinds keep bracketed runs, constraints or attributes as plain tokens, so the keyword of
an object creation may be one of their direct tokens. -/
def Kind.keepsTokens : Kind → Bool
  | .usingDirective | .namespaceDeclaration | .classDeclaration | .typeParameterList
  | .constructorDeclaration | .methodDeclaration | .fieldDeclaration | .propertyDeclaration
  | .parameterList => true
  | _ => false

/-- Tokens that start no statement and stay as they are among the statements of a block. -/
def Kind.isStray (kind : Kind) : Bool :=
  kind.isModifier || [semicolon, rParen, rBracket, rBrace, comma].contains kind

namespace Element

/-- The keyword of an object creation. -/
def IsNew : Element → Prop
  | token t => t.kind = .newKw ∧ t.text = "new"
  | node _ _ => False

/-- The keyword of an object creation has its kind. -/
lemma IsNew.kind_eq {e : Element} (h : e.IsNew) : e.kind = .newKw := by
  cases e with
  | token t => exact h.1
  | node k cs => exact h.elim

/-- What may stand between the braces of a block. -/
inductive IsItem : Element → Prop where
  /-- Trivia. -/
  | trivia {e : Element} (h : e.isTrivia = true) : IsItem e
  /-- A statement. -/
  | statement {e : Element} (h : e.kind.isStatement = true) : IsItem e
  /-- A member declaration, with a modifier or the keyword of a type among its tokens. -/
  | member {e : Element} {t : Token} (h : e.kind.isMember = true) (ht : t ∈ e.leaves)
    (hkind : (t.kind.isModifier || t.kind.isTypeKeyword) = true) : IsItem e
  /-- A token that starts nothing. -/
  | stray {t : Token} (h : t.kind.isStray = true) : IsItem (.token t)

/-- The keyword of an object creation does not stand among the items of a block. -/
lemma IsItem.not_isNew {e : Element} (h : e.IsItem) : ¬e.IsNew := by
  intro hnew
  have hkind := hnew.kind_eq
  cases h with
  | trivia h =>
    have htrivia := Grammar.kind_of_isTrivia h
    rw [hkind] at htrivia
    cases htrivia
  | statement h => rw [hkind] at h; cases h
  | member h => rw [hkind] at h; cases h
  | stray h =>
    simp only [kind] at hkind
    rw [hkind] at h
    cases h

end Element

open Element

/-- The children of a node and the tokens behind it are as the grammar leaves them. -/
structure Formed (k : Kind) (cs : List Element) (behind : List Token) : Prop where
  /-- A block that is not closed ends with the text. -/
  open_ : k = .block → (∀ e ∈ cs, e.kind ≠ .rBrace) → Grammar.peek behind = none
  /-- Apart from its opening brace, a block consists of items. -/
  items : k = .block → ∀ e ∈ cs, e.kind = .lBrace ∨ e.IsItem
  /-- The parts of a statement that throws are in order. -/
  thrown : k = .throwStatement →
    Arranged [(.throwKw, .once), (.expression, .atMostOnce), (.semicolon, .atMostOnce)] (kinds cs)
  /-- An object creation begins with its keyword, and names the type whose name is the next real token. -/
  created : k = .objectCreationExpression → ∃ t rest, cs = .token t :: rest ∧ t.kind = .newKw ∧
    ∀ u, Grammar.peekToken? (leavesList rest ++ behind) = some u → u.kind = .ident →
      (⟨k, cs⟩ : Node).createdType? = some u.text
  /-- No other node has the keyword of an object creation among its direct tokens, unless it keeps
  expressions as plain tokens. -/
  plain : k ≠ .objectCreationExpression → k.keepsTokens = false → ∀ e ∈ cs, ¬e.IsNew

/-- Nothing is asked of a node that keeps expressions as plain tokens. -/
lemma formed_of_keepsTokens {k : Kind} {cs : List Element} {behind : List Token}
    (hk : k.keepsTokens = true) : Formed k cs behind where
  open_ h := by subst h; cases hk
  items h := by subst h; cases hk
  thrown h := by subst h; cases hk
  created h := by subst h; cases hk
  plain _ h := by rw [hk] at h; cases h

/-- Kinds about whose nodes nothing is said but that they hold no keyword of an object creation. -/
def Kind.isCommon (k : Kind) : Bool := k ≠ .block && k ≠ .throwStatement && k ≠ .objectCreationExpression

/-- Of a common node nothing is asked but that the keyword of an object creation is not among its
children. -/
lemma formed_of_isCommon {k : Kind} {cs : List Element} {behind : List Token} (hk : k.isCommon = true)
    (h : ∀ e ∈ cs, ¬e.IsNew) : Formed k cs behind where
  open_ h := by subst h; cases hk
  items h := by subst h; cases hk
  thrown h := by subst h; cases hk
  created h := by subst h; cases hk
  plain _ _ := h

namespace Grammar

variable {ts us : List Token} {κ : Kind} {inner p : Parser} {P : Element → Prop}

/-! ## Tokens and nodes -/

/-- What makes nodes of one kind makes no keyword of an object creation. -/
lemma Makes.not_isNew {k : Kind} (hk : k ≠ .newKw) {e : Element} (h : Makes k e) : ¬e.IsNew :=
  fun hnew => h.kind_ne hk rfl hnew.kind_eq

/-- A token other than the keyword of an object creation. -/
lemma stands_bump_of_ne (h : peek ts ≠ some .newKw) : bump.Stands Formed (¬·.IsNew) ts := by
  refine stands_bump.mono ?_
  rintro _ ⟨t, rfl, ht⟩ ⟨hk, -⟩
  rcases ht with ht | ht
  · rw [hk] at ht
    cases ht
  · rw [peek, ht] at h
    exact h (congrArg some hk)

/-- Where a token of another kind is next, the keyword of an object creation is not. -/
lemma ne_newKw_of_at_ (hκ : κ ≠ .newKw) (h : at_ κ ts = true) : peek ts ≠ some .newKw := by
  rw [peek_of_at_ h]
  exact fun he => hκ (Option.some.inj he)

/-- Taking the next token if it has a given kind keeps the relation, and takes no keyword of an object
creation if the kind is another one. -/
lemma stands_eat (hκ : κ ≠ .newKw) : (eat κ).Stands Formed (¬·.IsNew) ts :=
  stands_when fun h => stands_bump_of_ne (ne_newKw_of_at_ hκ h)

/-- A node that keeps expressions as plain tokens. -/
lemma stands_keepingNode {k : Kind} (hk : k.keepsTokens = true)
    (hp : ∀ us, us <:+ ts → peek us = peek ts → p.Stands Formed P us) :
    (node k p).Stands Formed (Makes k) ts :=
  stands_node fun us hus hnext =>
    ⟨hp us hus (congrArg (Option.map Token.kind) hnext), formed_of_keepsTokens hk⟩

/-- A node of which nothing is said but that it holds no keyword of an object creation. -/
lemma stands_commonNode {k : Kind} (hk : k.isCommon = true)
    (hp : ∀ us, us <:+ ts → peek us = peek ts → p.Stands Formed (¬·.IsNew) us) :
    (node k p).Stands Formed (Makes k) ts := by
  refine stands_node (Q := (¬·.IsNew)) fun us hus hnext => ?_
  have hstands := hp us hus (congrArg (Option.map Token.kind) hnext)
  exact ⟨hstands, formed_of_isCommon hk hstands.holds⟩

/-- A bracketed run holds tokens of all kinds. -/
lemma stands_balanced {opening closing : Kind} :
    (balanced opening closing).Stands Formed (fun _ => True) ts := by
  rw [balanced_eq]
  refine stands_loop fun s us p s' _ hstep => ?_
  obtain ⟨rfl, -⟩ := eq_bump_of_balancedStep hstep
  exact stands_bump.mono fun _ _ => trivial

/-- A list of parameters keeps its tokens as they are. -/
lemma stands_parameterList : parameterList.Stands Formed (Makes .parameterList) ts :=
  stands_when fun _ => stands_keepingNode rfl fun _ _ _ => stands_balanced

/-! ## Types -/

/-- No type starts with the keyword of an object creation. -/
lemma ne_newKw_of_atTypeStart (h : atTypeStart ts = true) : peek ts ≠ some .newKw := by
  intro hk
  rw [atTypeStart, hk] at h
  cases h

/-- The arguments of a generic type keep the relation if the types among them do. -/
lemma stands_typeArguments
    (hinner : ∀ us, atTypeStart us = true → inner.Stands Formed (Makes .typeRef) us) :
    (typeArguments inner).Stands Formed (¬·.IsNew) ts := by
  refine stands_loop fun isOpen us p isOpen' _ hstep => ?_
  split at hstep
  · cases hstep
  · rename_i hk
    obtain ⟨rfl, -⟩ := by simpa using hstep
    exact stands_bump_of_ne (by simp [hk])
  · rename_i hk
    obtain ⟨rfl, -⟩ := by simpa using hstep
    exact stands_bump_of_ne (by simp [hk])
  · rename_i k hk
    split at hstep
    · rename_i hstart
      obtain ⟨rfl, -⟩ := by simpa using hstep
      exact (hinner us (by simp [atTypeStart, hk, hstart])).mono fun e he => he.not_isNew (by decide)
    · cases hstep
  · cases hstep

/-- A type keeps the relation if the types among its arguments do. -/
lemma stands_typeRefOver
    (hinner : ∀ us, atTypeStart us = true → inner.Stands Formed (Makes .typeRef) us)
    (h : atTypeStart ts = true) : (typeRefOver inner).Stands Formed (Makes .typeRef) ts := by
  refine stands_commonNode rfl fun us _ hpeek => ?_
  have hfirst : bump.Stands Formed (¬·.IsNew) us :=
    stands_bump_of_ne (by rw [hpeek]; exact ne_newKw_of_atTypeStart h)
  have hpairs : ∀ {κ κ' : Kind} (_ : κ ≠ .newKw) (_ : κ' ≠ .newKw) vs,
      (repeatWhile (fun ts => at_ κ ts && peekSecond ts == some κ') (bump ++ bump)).Stands Formed
        (¬·.IsNew) vs := by
    intro κ κ' hκ hκ' vs
    refine stands_repeatWhile fun ws _ htest => ?_
    simp only [Bool.and_eq_true, beq_iff_eq] at htest
    have hnext : peek ws = some κ := peek_of_at_ htest.1
    refine (stands_bump_of_ne (ne_newKw_of_at_ hκ htest.1)).andThen (stands_bump_of_ne ?_)
    rw [peek_bump hnext, htest.2]
    exact fun he => hκ' (Option.some.inj he)
  have harguments : ∀ vs, (when (at_ .lt) (bump ++ typeArguments inner)).Stands Formed (¬·.IsNew) vs :=
    fun vs => stands_when fun hat => (stands_bump_of_ne (ne_newKw_of_at_ (by decide) hat)).andThen
      (stands_typeArguments hinner)
  have hoptional : ∀ vs, (when (atText "?") bump).Stands Formed (¬·.IsNew) vs := by
    refine fun vs => stands_when fun hat => stands_bump.mono ?_
    rintro _ ⟨t, rfl, ht⟩ ⟨hk, htext⟩
    rcases ht with ht | ht
    · rw [hk] at ht
      cases ht
    · rw [atText, ht] at hat
      revert hat
      simp [htext]
  exact (((hfirst.andThen (hpairs (by decide) (by decide) _)).andThen (harguments _)).andThen
    (hpairs (by decide) (by decide) _)).andThen (hoptional _)

/-- Types nested to any depth keep the relation. -/
lemma stands_typeRefTo (d : Nat) :
    ∀ ts, atTypeStart ts = true → (typeRefTo d).Stands Formed (Makes .typeRef) ts := by
  induction d with
  | zero => exact fun _ _ => stands_skip
  | succ d ih => exact fun ts h => (stands_typeRefOver ih h).congr rfl

/-- A type. -/
theorem stands_typeRef (h : atTypeStart ts = true) : typeRef.Stands Formed (Makes .typeRef) ts :=
  (stands_typeRefTo ts.length ts h).congr rfl

/-- The next real token is the first one behind some trivia. -/
lemma exists_of_peekToken? {u : Token} (h : peekToken? ts = some u) : ∃ tr vs, ts = tr ++ u :: vs ∧
    (∀ w ∈ tr, w.kind.isTrivia = true) ∧ u.kind.isTrivia = false := by
  obtain ⟨hu, tr, vs, hts, htr⟩ := List.find?_eq_some_iff_append.mp h
  exact ⟨tr, vs, hts, by simpa using htr, by simpa using hu⟩

/-- A type begins with the next real token. -/
lemma exists_typeRef {u : Token} (h : peekToken? ts = some u) : ∃ (tr : List Token) (cs : List Element),
    (typeRef ts).1 = tr.map Element.token ++ [.node .typeRef (.token u :: cs)] := by
  obtain ⟨tr, vs, rfl, htr, hu⟩ := exists_of_peekToken? h
  obtain ⟨d, hd⟩ : ∃ d, (tr ++ u :: vs).length = d + 1 := ⟨tr.length + vs.length, by simp; omega⟩
  have hfirst := bump_cons hu vs
  have heq : typeRef (tr ++ u :: vs) = typeRefOver (typeRefTo d) (tr ++ u :: vs) := by
    rw [typeRef, hd]
    rfl
  rw [heq, typeRefOver, node_append htr hu]
  exact ⟨tr, _, by simp only [append_apply, hfirst]; rfl⟩

/-! ## Expressions -/

/-- No expression ends at the keyword of an object creation. -/
lemma ne_newKw_of_atExpressionEnd {depth : Nat} (h : atExpressionEnd depth ts = true) :
    peek ts ≠ some .newKw := by
  intro hk
  rw [atExpressionEnd, hk] at h
  cases h

/-- A list of arguments keeps the relation if the expressions in it do. -/
lemma stands_argumentListOver (hinner : ∀ us, inner.Stands Formed (Makes .expression) us)
    (h : at_ .lParen ts = true) :
    (argumentListOver inner).Stands Formed (Makes .argumentList) ts := by
  refine stands_commonNode rfl fun us _ hpeek => ?_
  refine (stands_bump_of_ne (by rw [hpeek]; exact ne_newKw_of_at_ (by decide) h)).andThen
    (stands_loop fun isOpen vs p isOpen' _ hstep => ?_)
  split at hstep <;> try cases hstep
  · rename_i hk
    exact stands_bump_of_ne (by simp [hk])
  · rename_i hk
    exact stands_bump_of_ne (by simp [hk])
  · exact stands_choose (fun hend => stands_bump_of_ne (ne_newKw_of_atExpressionEnd hend))
      fun _ => (hinner vs).mono fun e he => he.not_isNew (by decide)

/-- Behind its keyword and trivia, an object creation names the type that begins with the next token. -/
lemma createdType?_eq {k : Kind} {t u : Token} {tr : List Token} {cs es : List Element}
    (hu : u.kind = .ident) :
    (⟨k, .token t :: (tr.map .token ++ .node .typeRef (.token u :: cs) :: es)⟩ : Node).createdType? =
      some u.text := by
  have htokens : (tr.map Element.token).filterMap Element.node? = [] := by
    simp only [List.filterMap_map, List.filterMap_eq_nil_iff]
    exact fun _ _ => rfl
  have hnodes : (⟨k, .token t :: (tr.map .token ++ .node .typeRef (.token u :: cs) :: es)⟩ :
      Node).childNodes = ⟨.typeRef, .token u :: cs⟩ :: es.filterMap Element.node? := by
    rw [Node.childNodes, List.filterMap_cons_none rfl, List.filterMap_append, htokens,
      List.nil_append]
    rfl
  have hname : (⟨.typeRef, .token u :: cs⟩ : Node).childTokens = u :: cs.filterMap Element.token? := rfl
  rw [Node.createdType?, Node.child?, hnodes, List.find?_cons_of_pos (by rfl), Option.bind_some,
    Node.typeName?, Node.token?, hname, List.find?_cons_of_pos (by simp [hu]), Option.map_some]

/-- **An object creation** begins with its keyword. If a name is the next token of the text, this is the
name of the type of which an object is created. -/
theorem stands_objectCreationOver (hinner : ∀ us, inner.Stands Formed (Makes .expression) us)
    (hpeek : peek ts = some .newKw) :
    (objectCreationOver inner).Stands Formed (Makes .objectCreationExpression) ts := by
  obtain ⟨tr, t, vs, rfl, htr, htk, ht⟩ := exists_of_peek_eq_some hpeek
  have hat : (trivia (tr ++ t :: vs)).2 = t :: vs := by rw [trivia_append htr ht]
  have htrivia : trivia.Stands Formed (Makes .objectCreationExpression) (tr ++ t :: vs) :=
    stands_trivia fun _ h => .inl h
  refine htrivia.andThen ?_
  rw [hat]
  have htype : ∀ us, (when atTypeStart typeRef).Stands Formed (fun _ => True) us := fun us =>
    stands_when fun h => (stands_typeRef h).mono fun _ _ => trivial
  have harguments : ∀ us, (when (at_ .lParen) (argumentListOver inner)).Stands Formed (fun _ => True) us :=
    fun us => stands_when fun h => (stands_argumentListOver hinner h).mono fun _ _ => trivial
  have hinit : ∀ us, (when (at_ .lBrace) (balanced .lBrace .rBrace)).Stands Formed (fun _ => True) us :=
    fun us => stands_when fun _ => stands_balanced
  have hbump : bump.Stands Formed (fun _ => True) (t :: vs) := stands_bump.mono fun _ _ => trivial
  have hall := ((hbump.andThen (htype _)).andThen (harguments _)).andThen (hinit _)
  have hfirst := bump_cons ht vs
  refine stands_wrap hall ⟨fun h => (by cases h), fun h => (by cases h), fun h => (by cases h),
    fun _ => ?_, fun h => absurd rfl h⟩
  have hleaves := hall.leaves
  simp only [append_apply, hfirst, List.nil_append, List.append_assoc,
    leavesList_cons, leaves_token, List.cons_append] at hleaves ⊢
  refine ⟨t, _, rfl, htk, fun u hu hident => ?_⟩
  rw [(List.cons.inj hleaves).2] at hu
  -- the name is the next token behind the keyword, so the type is read from there on
  have hstart : atTypeStart vs = true := by simp [atTypeStart, peek, hu, hident, isTypeStart]
  obtain ⟨tr', cs, hcs⟩ := exists_typeRef hu
  rw [when, choose_of_true hstart, hcs, List.append_assoc]
  exact createdType?_eq hident

/-- A round of an expression takes an object creation where its keyword is ahead, and another token
otherwise. -/
lemma expressionStep_cases {s s' : Nat} (h : expressionStep inner s ts = some (p, s')) :
    (p = objectCreationOver inner ∧ peek ts = some .newKw) ∨ (p = bump ∧ peek ts ≠ some .newKw) := by
  unfold expressionStep at h
  split at h
  · cases h
  · split at h <;> cases h <;> simp_all

/-- An expression keeps the relation if those among the arguments of its object creations do. -/
lemma stands_expressionOver (hinner : ∀ us, inner.Stands Formed (Makes .expression) us) :
    (expressionOver inner).Stands Formed (Makes .expression) ts := by
  rw [expressionOver_eq]
  refine stands_choose (fun _ => stands_skip) fun _ => ?_
  refine stands_commonNode rfl fun us _ _ => stands_loop fun s vs p s' _ hstep => ?_
  obtain ⟨rfl, hpeek⟩ | ⟨rfl, hpeek⟩ := expressionStep_cases hstep
  · exact (stands_objectCreationOver hinner hpeek).mono fun e he => he.not_isNew (by decide)
  · exact stands_bump_of_ne hpeek

/-- Expressions nested to any depth keep the relation. -/
lemma stands_expressionTo (d : Nat) : ∀ ts, (expressionTo d).Stands Formed (Makes .expression) ts := by
  induction d with
  | zero => exact fun _ => stands_skip
  | succ d ih => exact fun ts => (stands_expressionOver ih).congr rfl

/-- An expression, or nothing. -/
theorem stands_expression : expression.Stands Formed (Makes .expression) ts :=
  (stands_expressionTo ts.length ts).congr rfl

/-- A parenthesised list of expressions. -/
theorem stands_argumentList (h : at_ .lParen ts = true) :
    argumentList.Stands Formed (Makes .argumentList) ts :=
  stands_argumentListOver (fun _ => stands_expression) h

end Grammar

end TreeLint
