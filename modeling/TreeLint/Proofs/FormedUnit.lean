import TreeLint.Proofs.Formed
import TreeLint.Proofs.Unit

/-!
# What the nodes of a compilation unit hold and where they end

Statements and members contain each other, and a block ends with its brace or with the text only because
the depth of the grammar is enough for all tokens. So the relation between nodes and the tokens behind them
is proved of statements and members for so many tokens, by induction on the depth, and then of items and of
the whole unit.

## Main definitions

* `TreeLint.Grammar.Parser.StandsTo` — a parser keeps the relation at all lists of so many tokens.
* `TreeLint.Grammar.Inner.Stands` — the same for the parsers of inner statements and members.

## Main results

* `TreeLint.Grammar.stands_block` — a block is closed, or the text ends.
* `TreeLint.Grammar.stands_innerTo` — statements and members nested to a depth.
* `TreeLint.formed_parse` — every node of the tree of a text is as the grammar leaves it.
-/

namespace TreeLint

open Element

namespace Grammar

variable {ts us : List Token} {κ : Kind} {n : Nat} {p q : Parser} {P Q : Element → Prop}

/-- Elements of any kind. -/
def IsAny (_ : Element) : Prop := True

/-- Where it does not matter which elements are made, any are. -/
lemma Parser.Stands.any (h : p.Stands Formed P ts) : p.Stands Formed IsAny ts := h.mono fun _ _ => trivial

/-- A token, or a node that is no compilation unit. -/
def IsPart (e : Element) : Prop := ∀ cs, e ≠ .node .compilationUnit cs

/-- A token is a part of a unit. -/
lemma isPart_token (t : Token) : IsPart (.token t) := by rintro cs ⟨⟩

/-- What makes nodes of a kind other than a unit makes parts of one. -/
lemma Makes.isPart {k : Kind} (hk : k ≠ .compilationUnit) {e : Element} (h : Makes k e) : IsPart e := by
  rintro cs rfl
  rcases h with h | h
  · cases h
  · exact hk h.symm

/-- What may stand in a block is a part of a unit. -/
lemma isPart_of_isItem {e : Element} (h : e.IsItem) : IsPart e := by
  rintro cs rfl
  cases h with
  | trivia h => cases h
  | statement h => cases h
  | member h => cases h

/-- Tokens are parts of a unit, wherever they are taken. -/
lemma stands_bump_part : bump.Stands Formed IsPart ts :=
  stands_bump.mono fun _ ⟨t, ht, _⟩ => ht ▸ isPart_token t

/-! ## Parsers for so many tokens -/

/-- A parser keeps the relation at all lists of at most `n` plain tokens. -/
def Parser.StandsTo (n : Nat) (P : Element → Prop) (p : Parser) : Prop :=
  ∀ ts, Within n ts → p.Stands Formed P ts

/-- A parser keeps the relation at some tokens and leaves at most `n` of them. -/
def Parser.StandsInto (n : Nat) (P : Element → Prop) (p : Parser) (ts : List Token) : Prop :=
  p.Stands Formed P ts ∧ Within n (p ts).2

/-- A sequence keeps the relation at so many tokens if both parts do. -/
lemma Parser.StandsTo.andThen (hp : p.StandsTo n P) (hq : q.StandsTo n P) : (p ++ q).StandsTo n P :=
  fun ts h => (hp ts h).andThen (hq _ (h.suffix (hp ts h).suffix))

/-- An optional part keeps the relation at so many tokens if it does where it is taken. -/
lemma Parser.StandsTo.when {test : List Token → Bool}
    (hp : ∀ ts, Within n ts → test ts = true → p.Stands Formed P ts) : (when test p).StandsTo n P :=
  fun ts h => stands_when (hp ts h)

/-- A repetition keeps the relation at so many tokens if its parser does where the test passes. -/
lemma Parser.StandsTo.repeatWhile {test : List Token → Bool}
    (hp : ∀ ts, Within n ts → test ts = true → p.Stands Formed P ts) :
    (repeatWhile test p).StandsTo n P :=
  fun _ h => stands_repeatWhile fun us hus htest => hp us (h.suffix hus) htest

/-- Taking a real token leaves fewer tokens to the parser behind it. -/
lemma Parser.StandsInto.bump (h : Within (n + 1) ts) (hpeek : (peek ts).isSome = true)
    (hP : bump.Stands Formed P ts) : Grammar.bump.StandsInto n P ts :=
  ⟨hP, (Parser.Enters.bump h hpeek).2⟩

/-- What follows a part that leaves fewer tokens leaves no more. -/
lemma Parser.StandsInto.andThen (hp : p.StandsInto n P ts) (hq : q.StandsTo n P) :
    (p ++ q).StandsInto n P ts :=
  ⟨hp.1.andThen (hq _ hp.2), hp.2.suffix (hq _ hp.2).suffix⟩

/-- Taking tokens as long as real ones are ahead. -/
lemma stands_repeatWhile_bump {test : List Token → Bool} :
    (repeatWhile test bump).Stands Formed IsAny ts :=
  stands_repeatWhile fun _ _ _ => stands_bump.any

/-- Taking the next token if it has a given kind keeps the relation, whatever the kind is. -/
lemma stands_eat_any : (eat κ).Stands Formed IsAny ts := stands_when fun _ => stands_bump.any

/-- A token that starts nothing is taken as it is. -/
lemma stands_bump_stray (hpeek : peek ts = some κ) (hκ : κ.isStray = true) :
    bump.Stands Formed IsItem ts := by
  refine stands_bump.mono ?_
  rintro _ ⟨u, rfl, hu | hu⟩
  · exact .trivia hu
  · obtain rfl : u.kind = κ := by simpa [peek, hu] using hpeek
    exact .stray hκ

/-- Parsers for statements and members that keep the relation at all lists of at most `n` plain tokens. -/
structure Inner.Stands (n : Nat) (inner : Inner) : Prop where
  /-- What is made of a statement may stand in a block. -/
  statement : inner.statement.StandsTo n IsItem
  /-- What is made of a member is no unit. -/
  member : inner.member.StandsTo n IsPart

/-- A statement may stand in a block, and so may the trivia in front of it. -/
lemma Makes.isItem {k : Kind} (hk : k.isStatement = true) {e : Element} (h : Makes k e) : e.IsItem := by
  rcases h with h | rfl
  · exact .trivia h
  · exact .statement hk

/-! ## Clauses and statements without blocks -/

/-- The declaration of a handler keeps the relation where its bracket is ahead. -/
lemma stands_catchDeclaration (h : at_ .lParen ts = true) :
    catchDeclaration.Stands Formed (Makes .catchDeclaration) ts := by
  refine stands_commonNode rfl fun us _ hpeek => ?_
  have htype : ∀ vs, (when atTypeStart typeRef).Stands Formed (¬·.IsNew) vs := fun vs =>
    stands_when fun h => (stands_typeRef h).mono fun e he => he.not_isNew (by decide)
  exact (((stands_bump_of_ne (by rw [hpeek]; exact ne_newKw_of_at_ (by decide) h)).andThen
    (htype _)).andThen (stands_eat (by decide))).andThen (stands_eat (by decide))

/-- An expression is not the keyword with which it may begin. -/
lemma not_isNew_expression {e : Element} (h : Makes .expression e) : ¬e.IsNew := h.not_isNew (by decide)

/-- The filter of a handler keeps the relation where its keyword is ahead. -/
lemma stands_catchFilter (h : at_ .whenKw ts = true) :
    catchFilter.Stands Formed (Makes .catchFilter) ts := by
  refine stands_commonNode rfl fun us _ hpeek => ?_
  have hcondition : ∀ vs, (when (at_ .lParen) (bump ++ expression ++ eat .rParen)).Stands Formed
      (¬·.IsNew) vs := fun vs => stands_when fun hat =>
    ((stands_bump_of_ne (ne_newKw_of_at_ (by decide) hat)).andThen
      (stands_expression.mono fun _ => not_isNew_expression)).andThen (stands_eat (by decide))
  exact (stands_bump_of_ne (by rw [hpeek]; exact ne_newKw_of_at_ (by decide) h)).andThen (hcondition _)

/-- A statement that returns keeps the relation where its keyword is ahead. -/
lemma stands_returnStatement (h : peek ts = some .returnKw) :
    (keywordStatement .returnStatement).Stands Formed (Makes .returnStatement) ts :=
  stands_commonNode rfl fun us _ hpeek =>
    ((stands_bump_of_ne (by rw [hpeek, h]; decide)).andThen
      (stands_expression.mono fun _ => not_isNew_expression)).andThen (stands_eat (by decide))

/-- There is one expression at most where one may stand. -/
lemma arranges_expression : expression.Arranges [(.expression, .atMostOnce)] ts := by
  have hnone : Arranged [(.expression, .atMostOnce)] (kinds []) := arranged_replicate (m := 0) (Nat.zero_le 1)
  unfold Parser.Arranges
  rw [expression]
  cases hd : ts.length with
  | zero => exact hnone
  | succ d =>
    cases hend : atExpressionEnd 0 ts with
    | true =>
      have heq : expressionTo (d + 1) ts = ([], ts) := choose_of_true hend
      rw [heq]
      exact hnone
    | false =>
      obtain ⟨κ, hκ⟩ := Option.isSome_iff_exists.mp (isSome_of_not_atExpressionEnd hend)
      have heq : expressionTo (d + 1) ts =
          node .expression (loop (expressionStep (expressionTo d)) 0) ts := choose_of_false hend
      rw [heq, kinds_nodeParser hκ]
      exact arranged_replicate (m := 1) (Nat.le_refl 1)

/-- There is one token at most where one of a given kind may stand. -/
lemma arranges_eat : (eat κ).Arranges [(κ, .atMostOnce)] ts := by
  rw [Parser.Arranges, eat, when]
  cases hat : at_ κ ts with
  | true =>
    have hpeek : peek ts = some κ := peek_of_at_ hat
    obtain ⟨m, rest, hkinds, hm, hrest⟩ := arranges_bump hpeek
    rw [choose_of_true hat]
    exact ⟨m, rest, hkinds, Nat.le_of_eq hm, hrest⟩
  | false =>
    rw [choose_of_false hat]
    exact arranged_replicate (m := 0) (Nat.zero_le 1)

/-- A statement that throws holds its keyword, one expression at most and its semicolon at most. -/
lemma stands_throwStatement (h : peek ts = some .throwKw) :
    (keywordStatement .throwStatement).Stands Formed (Makes .throwStatement) ts := by
  refine stands_node (Q := (¬·.IsNew)) fun us _ hnext => ?_
  have hpeek : peek us = some .throwKw := by rw [← h, peek, peek, hnext]
  have hkeyword : bump.Stands Formed (¬·.IsNew) us := stands_bump_of_ne (by rw [hpeek]; decide)
  have hstands : (bump ++ expression ++ eat .semicolon).Stands Formed (¬·.IsNew) us :=
    (hkeyword.andThen (stands_expression.mono fun _ => not_isNew_expression)).andThen
      (stands_eat (by decide))
  have hparts : Parser.Arranges (bump ++ expression ++ eat .semicolon)
      ([(.throwKw, .once)] ++ [(.expression, .atMostOnce)] ++ [(.semicolon, .atMostOnce)]) us :=
    ((arranges_bump hpeek).andThen fun _ => arranges_expression).andThen fun _ => arranges_eat
  exact ⟨hstands, fun h => (by cases h), fun h => (by cases h), fun _ => hparts, fun h => (by cases h),
    fun _ _ => hstands.holds⟩

/-- An expression as a statement keeps the relation at any tokens. -/
lemma stands_expressionStatement :
    expressionStatement.Stands Formed (Makes .expressionStatement) ts := by
  refine stands_commonNode rfl fun us _ _ => ?_
  have hfirst : (choose (atExpressionEnd 0) bump expression).Stands Formed (¬·.IsNew) us :=
    stands_choose (fun hend => stands_bump_of_ne (ne_newKw_of_atExpressionEnd hend))
      fun _ => stands_expression.mono fun _ => not_isNew_expression
  exact hfirst.andThen (stands_eat (by decide))

/-! ## Parts of members -/

/-- A list of type parameters keeps its tokens as they are. -/
lemma stands_typeParameterList : typeParameterList.Stands Formed (Makes .typeParameterList) ts := by
  refine stands_keepingNode rfl fun us _ _ => stands_bump.any.andThen ?_
  refine stands_loop fun isOpen vs p isOpen' _ hstep => ?_
  split at hstep <;> cases hstep <;> exact stands_bump.any

/-- A list of base types keeps the relation where its colon is ahead. -/
lemma stands_baseList (h : at_ .colon ts = true) : baseList.Stands Formed (Makes .baseList) ts := by
  refine stands_commonNode rfl fun us _ hpeek => ?_
  refine (stands_bump_of_ne (by rw [hpeek]; exact ne_newKw_of_at_ (by decide) h)).andThen
    (stands_repeatWhile fun vs _ htest => ?_)
  refine stands_choose (fun hat => (stands_typeRef hat).mono fun e he => he.not_isNew (by decide))
    fun hat => ?_
  rw [hat, Bool.false_or] at htest
  exact stands_bump_of_ne (ne_newKw_of_at_ (by decide) htest)

/-- Attributes and modifiers are kept as plain tokens. -/
lemma stands_memberPrefix : memberPrefix.Stands Formed IsAny ts :=
  (stands_repeatWhile fun _ _ _ => stands_balanced).andThen stands_repeatWhile_bump

/-- The initializer of a member keeps the relation at any tokens. -/
lemma stands_initializer : initializer.Stands Formed IsAny ts :=
  stands_when fun _ => stands_bump.any.andThen stands_expression.any

/-- The accessors of a property keep the relation, since their bodies are plain tokens. -/
lemma stands_accessorsRest : accessorsRest.Stands Formed IsAny ts :=
  Parser.Stands.andThen stands_balanced <| stands_when fun _ =>
    (stands_bump.any.andThen stands_expression.any).andThen stands_eat_any

/-- What follows the name of a field keeps the relation at any tokens. -/
lemma stands_fieldRest : fieldRest.Stands Formed IsAny ts :=
  (stands_initializer.andThen (stands_repeatWhile fun _ _ _ =>
    (stands_bump.any.andThen stands_eat_any).andThen stands_initializer)).andThen stands_eat_any

/-- The name of a member with its type in front. -/
lemma stands_typedName (h : atTypeStart ts = true) : (typeRef ++ eat .ident).Stands Formed IsAny ts :=
  (stands_typeRef h).any.andThen stands_eat_any

/-! ## Blocks and exception handling -/

section Productions

variable {inner : Inner} (hsound : inner.Sound n) (hinner : inner.Stands n)

include hsound hinner

/-- **A block** holds items behind its opening brace. If it is not closed, no real token is left. -/
theorem stands_block (h : Within (n + 1) ts) (hpeek : peek ts = some .lBrace) :
    (block inner).Stands Formed (Makes .block) ts := by
  obtain ⟨tr, t, vs, rfl, htr, htk, ht⟩ := exists_of_peek_eq_some hpeek
  have hat : (trivia (tr ++ t :: vs)).2 = t :: vs := by rw [trivia_append htr ht]
  have hw : Within (n + 1) (t :: vs) := h.suffix (List.suffix_append ..)
  have htrivia : trivia.Stands Formed (Makes .block) (tr ++ t :: vs) := stands_trivia fun _ h => .inl h
  refine htrivia.andThen ?_
  rw [hat]
  have hbump : bump.StandsInto n (fun e => e.kind = .lBrace ∨ e.IsItem) (t :: vs) := by
    refine .bump hw (by simp [peek_cons ht]) (stands_bump.mono ?_)
    rintro _ ⟨u, rfl, hu | hu⟩
    · exact .inr (.trivia hu)
    · obtain rfl : t = u := by simpa [peekToken?, ht] using hu
      exact .inl htk
  have hstatements : (closedBy .rBrace inner.statement).StandsTo n
      (fun e => e.kind = .lBrace ∨ e.IsItem) := by
    refine fun us hus => stands_loop fun isOpen ws p isOpen' hws hstep => ?_
    have hw := hus.suffix hws
    split at hstep <;> try cases hstep
    rename_i k hk
    split at hstep <;> cases hstep
    · -- the closing brace
      rename_i hclosing
      exact (stands_bump_stray hk (by rw [hclosing]; rfl)).mono fun _ => .inr
    · exact (hinner.statement ws hw).mono fun _ => .inr
  have hstands := (hbump.andThen hstatements).1
  refine stands_wrap hstands ⟨fun _ hopen => ?_, fun _ => hstands.holds, fun h => (by cases h),
    fun h => (by cases h), fun _ _ e he => ?_⟩
  · obtain ⟨-, es, tail, heq, -, htail⟩ := block_children hsound hw ht
    rw [heq] at hopen ⊢
    rcases htail with ⟨-, hnone⟩ | ⟨r, hr, rfl⟩
    · exact hnone
    · exact absurd hr (hopen (.token r) (by simp))
  · intro hnew
    rcases hstands.holds e he with h | h
    · rw [hnew.kind_eq] at h
      cases h
    · exact h.not_isNew hnew

/-- A block that may be absent keeps the relation if inner statements and members do. -/
lemma stands_optionalBlock : (optionalBlock inner).StandsTo (n + 1) (Makes .block) :=
  .when fun _ h hat => stands_block hsound hinner h (peek_of_at_ hat)

/-- The same at fewer tokens, in a node that holds no keyword of an object creation. -/
lemma standsTo_optionalBlock : (optionalBlock inner).StandsTo n (¬·.IsNew) := fun ts h =>
  (stands_optionalBlock hsound hinner ts h.succ).mono fun _ he => he.not_isNew (by decide)

/-- A handler. -/
lemma stands_catchClause (h : Within (n + 1) ts) (hpeek : peek ts = some .catchKw) :
    (catchClause inner).Stands Formed (Makes .catchClause) ts := by
  refine stands_commonNode rfl fun us hus hsame => ?_
  rw [hpeek] at hsame
  have hdeclaration : (when (at_ .lParen) catchDeclaration).StandsTo n (¬·.IsNew) :=
    .when fun _ _ hat => (stands_catchDeclaration hat).mono fun e he => he.not_isNew (by decide)
  have hfilter : (when (at_ .whenKw) catchFilter).StandsTo n (¬·.IsNew) :=
    .when fun _ _ hat => (stands_catchFilter hat).mono fun e he => he.not_isNew (by decide)
  exact ((((Parser.StandsInto.bump (h.suffix hus) (by simp [hsame])
    (stands_bump_of_ne (by rw [hsame]; decide))).andThen hdeclaration).andThen hfilter).andThen
    (standsTo_optionalBlock hsound hinner)).1

/-- A clause that runs in any case keeps the relation if its block does. -/
lemma stands_finallyClause (h : Within (n + 1) ts) (hpeek : peek ts = some .finallyKw) :
    (finallyClause inner).Stands Formed (Makes .finallyClause) ts := by
  refine stands_commonNode rfl fun us hus hsame => ?_
  rw [hpeek] at hsame
  exact ((Parser.StandsInto.bump (h.suffix hus) (by simp [hsame])
    (stands_bump_of_ne (by rw [hsame]; decide))).andThen (standsTo_optionalBlock hsound hinner)).1

/-- A guarded block with its handlers. -/
lemma stands_tryStatement (h : Within (n + 1) ts) (hpeek : peek ts = some .tryKw) :
    (tryStatement inner).Stands Formed (Makes .tryStatement) ts := by
  refine stands_commonNode rfl fun us hus hsame => ?_
  rw [hpeek] at hsame
  have hclauses : (repeatWhile (at_ .catchKw) (catchClause inner)).StandsTo n (¬·.IsNew) :=
    .repeatWhile fun ws hws hat => (stands_catchClause hsound hinner hws.succ (peek_of_at_ hat)).mono
      fun e he => he.not_isNew (by decide)
  have hlast : (when (at_ .finallyKw) (finallyClause inner)).StandsTo n (¬·.IsNew) :=
    .when fun ws hws hat => (stands_finallyClause hsound hinner hws.succ (peek_of_at_ hat)).mono
      fun e he => he.not_isNew (by decide)
  exact ((((Parser.StandsInto.bump (h.suffix hus) (by simp [hsame])
    (stands_bump_of_ne (by rw [hsame]; decide))).andThen
    (standsTo_optionalBlock hsound hinner)).andThen hclauses).andThen hlast).1

/-! ## Members -/

omit hsound hinner in
/-- A body between braces, over a parser for what is in it. -/
lemma stands_braced {p : Parser} (hp : ∀ us, us <:+ ts → p.Stands Formed IsAny us) :
    (braced p).Stands Formed IsAny ts := by
  refine stands_choose (fun _ => ?_) fun _ => stands_eat_any
  have hbrace : bump.Stands Formed IsAny ts := stands_bump.any
  refine hbrace.andThen (stands_loop fun isOpen ws q isOpen' hws hstep => ?_)
  split at hstep <;> try cases hstep
  split at hstep <;> cases hstep
  · exact stands_bump.any
  · exact hp ws (hws.trans hbrace.suffix)

omit hsound in
/-- A class from its keyword on keeps the relation if its members do. -/
lemma stands_classRest (h : Within (n + 1) ts) (hpeek : (peek ts).isSome = true) :
    (classRest inner).Stands Formed IsAny ts := by
  have hparameters : (when (at_ .lt) typeParameterList).StandsTo n IsAny :=
    .when fun _ _ _ => stands_typeParameterList.any
  have hbases : (when (at_ .colon) baseList).StandsTo n IsAny := .when fun _ _ hat => (stands_baseList hat).any
  have hbody : (braced inner.member).StandsTo n IsAny := fun us hus =>
    stands_braced fun ws hws => (hinner.member ws (hus.suffix hws)).any
  exact (((((Parser.StandsInto.bump h hpeek stands_bump.any).andThen fun _ _ => stands_eat_any).andThen
    hparameters).andThen hbases).andThen fun _ _ => stands_repeatWhile_bump).andThen hbody |>.1

/-- The body of a member keeps the relation if it is a block in which inner statements and members do. -/
lemma stands_memberBody : (memberBody inner).StandsTo n IsAny := by
  intro ts h
  suffices hp : ∃ p : Parser, memberBody inner ts = p ts ∧ p.Stands Formed IsAny ts by
    obtain ⟨p, heq, hstands⟩ := hp
    exact hstands.congr heq
  unfold memberBody
  split
  · rename_i hk
    exact ⟨_, rfl, (stands_block hsound hinner h.succ hk).any⟩
  · exact ⟨_, rfl, (stands_bump.any.andThen stands_expression.any).andThen stands_eat_any⟩
  · exact ⟨_, rfl, stands_bump.any⟩
  · exact ⟨_, rfl, stands_skip⟩

/-- A constructor from its name on keeps the relation if its body does. -/
lemma stands_constructorRest (h : Within (n + 1) ts) (hpeek : (peek ts).isSome = true) :
    (constructorRest inner).Stands Formed IsAny ts := by
  have hkeyword : ∀ us, (when (atAny [.baseKw, .thisKw]) bump).Stands Formed IsAny us :=
    fun _ => stands_when fun _ => stands_bump.any
  have harguments : ∀ us, (when (at_ .lParen) argumentList).Stands Formed IsAny us :=
    fun _ => stands_when fun hat => (stands_argumentList hat).any
  have hinit : (when (at_ .colon) (bump ++ when (atAny [.baseKw, .thisKw]) bump ++
      when (at_ .lParen) argumentList)).StandsTo n IsAny := .when fun _ _ _ =>
    (stands_bump.any.andThen (hkeyword _)).andThen (harguments _)
  exact (((Parser.StandsInto.bump h hpeek stands_bump.any).andThen fun _ _ =>
    stands_parameterList.any).andThen hinit).andThen (stands_memberBody hsound hinner) |>.1

/-- What follows the name of a method keeps the relation if its body does. -/
lemma stands_methodRest : (methodRest inner).StandsTo n IsAny := by
  have hparameters : (when (at_ .lt) typeParameterList).StandsTo n IsAny :=
    .when fun _ _ _ => stands_typeParameterList.any
  exact ((hparameters.andThen fun _ _ => stands_parameterList.any).andThen
    fun _ _ => stands_repeatWhile_bump).andThen (stands_memberBody hsound hinner)

/-- The kinds of members that begin with a type, and what is behind their names. -/
lemma stands_typedMember (afterName : List Token) :
    ((typedMember inner afterName).1.isMember = true ∧
      (typedMember inner afterName).1.keepsTokens = true) ∧
      (typedMember inner afterName).2.StandsTo n IsAny := by
  unfold typedMember
  split
  · exact ⟨⟨rfl, rfl⟩, stands_methodRest hsound hinner⟩
  · exact ⟨⟨rfl, rfl⟩, stands_methodRest hsound hinner⟩
  · exact ⟨⟨rfl, rfl⟩, fun _ _ => stands_accessorsRest⟩
  · exact ⟨⟨rfl, rfl⟩, stands_memberBody hsound hinner⟩
  · exact ⟨⟨rfl, rfl⟩, fun _ _ => stands_fieldRest⟩

/-- A declaration is one node of a member, unless tokens are left as they are. -/
lemma exists_declaration (h : Within (n + 1) ts) : ∃ p : Parser, declarationOver inner ts = p ts ∧
    (p = bump ∨ p = memberPrefix ∨ ∃ k q, p = wrap k q ∧ k.isMember = true ∧
      (wrap k q).Stands Formed (Makes k) ts) := by
  have hfront : memberPrefix.Stands Formed IsAny ts := stands_memberPrefix
  have hw : Within (n + 1) (memberPrefix ts).2 := h.suffix hfront.suffix
  have hdeclares : ∀ {k : Kind} {q : Parser}, k.isMember = true ∧ k.keepsTokens = true →
      q.Stands Formed IsAny (memberPrefix ts).2 → ∃ k' q', wrap k (memberPrefix ++ q) = wrap k' q' ∧
        k'.isMember = true ∧ (wrap k' q').Stands Formed (Makes k') ts :=
    fun hk hq => ⟨_, _, rfl, hk.1, stands_wrap (hfront.andThen hq) (formed_of_keepsTokens hk.2)⟩
  obtain heq | ⟨hsome, heq | heq | ⟨hat, k, q, htyped, heq⟩⟩ := declarationOver_cases inner ts
  · obtain ⟨p, hp, ⟨rfl, -⟩ | ⟨rfl, -⟩⟩ := exists_undeclared ts
    · exact ⟨_, heq.trans hp, .inl rfl⟩
    · exact ⟨_, heq.trans hp, .inr (.inl rfl)⟩
  · exact ⟨_, heq, .inr (.inr (hdeclares ⟨rfl, rfl⟩ (stands_classRest hinner hw hsome)))⟩
  · exact ⟨_, heq, .inr (.inr (hdeclares ⟨rfl, rfl⟩ (stands_constructorRest hsound hinner hw hsome)))⟩
  · obtain ⟨hkind, htail⟩ := stands_typedMember hsound hinner
      ((typeRef ++ eat .ident) (memberPrefix ts).2).2
    rw [htyped] at hkind htail
    exact ⟨_, heq, .inr (.inr (hdeclares hkind
      ((stands_typedName hat).andThen (htail _ (enters_typedName hw hsome).2))))⟩

/-- A member. -/
lemma stands_memberOver : (memberOver inner).StandsTo (n + 1) IsPart := by
  intro ts h
  have htrivia : trivia.Stands Formed IsPart ts := stands_trivia fun t _ => isPart_token t
  refine htrivia.andThen ?_
  have hw := h.suffix htrivia.suffix
  obtain ⟨p, heq, hp⟩ := exists_declaration hsound hinner hw
  refine Parser.Stands.congr ?_ heq
  rcases hp with rfl | rfl | ⟨k, q, rfl, hk, hq⟩
  · exact stands_bump_part
  · refine ⟨stands_memberPrefix.leaves, stands_memberPrefix.everywhere, fun e he => ?_⟩
    obtain ⟨-, t, rfl⟩ := (loose_memberPrefix hw.plain).holds e he
    exact isPart_token t
  · refine hq.mono fun e he => he.isPart ?_
    rintro rfl
    cases hk

omit hsound hinner in
/-- From a modifier on, a prefix consists of modifiers. -/
lemma stands_memberPrefix_modifiers (hpeek : peek ts = some κ) (hκ : κ.isModifier = true) :
    memberPrefix.Stands Formed IsItem ts := by
  have hnone : repeatWhile (at_ .lBracket) (balanced .lBracket .rBracket) ts = ([], ts) := by
    refine repeatWhile_of_false ?_
    rw [at_, hpeek]
    cases κ <;> first | rfl | cases hκ
  have hattributes : (repeatWhile (at_ .lBracket) (balanced .lBracket .rBracket)).Stands Formed IsItem ts :=
    (stands_skip (P := IsItem)).congr hnone
  refine hattributes.andThen (stands_repeatWhile fun us _ htest => ?_)
  obtain ⟨k, hk, hmodifier⟩ := (Option.any_eq_true _ _).mp htest
  exact stands_bump_stray hk (by rw [Kind.isStray, hmodifier, Bool.true_or])

omit hsound hinner in
/-- The keyword of a type begins a class, without a prefix. -/
lemma declarationOver_of_typeKeyword (hpeek : peek ts = some κ) (hκ : κ.isTypeKeyword = true) :
    memberPrefix ts = ([], ts) ∧
      declarationOver inner ts = wrap .classDeclaration (memberPrefix ++ classRest inner) ts := by
  have hbracket : at_ .lBracket ts = false := by
    rw [at_, hpeek]
    cases κ <;> first | rfl | cases hκ
  have hmodifier : (peek ts).any Kind.isModifier = false := by
    rw [hpeek]
    cases κ <;> first | rfl | cases hκ
  have hfront : memberPrefix ts = ([], ts) := by
    rw [memberPrefix, append_apply, repeatWhile_of_false hbracket, repeatWhile_of_false hmodifier]
    rfl
  exact ⟨hfront, by simp only [declarationOver, hfront, hpeek, hκ, if_true]⟩

omit hsound hinner in
/-- A node of a member that is not empty begins with the token ahead. If this is a modifier or the keyword
of a type, the node may stand in a block. -/
lemma stands_wrap_item {k : Kind} {t : Token} (hκ : (t.kind.isModifier || t.kind.isTypeKeyword) = true)
    (hk : k.isMember = true) (hstands : (wrap k q).Stands Formed (Makes k) (t :: ts))
    (hsolid : ∀ e ∈ (wrap k q (t :: ts)).1, e.IsSolid) : (wrap k q).Stands Formed IsItem (t :: ts) := by
  refine ⟨hstands.leaves, hstands.everywhere, fun e he => ?_⟩
  have hlength : 0 < e.length := hsolid e he
  obtain rfl : e = .node k (q (t :: ts)).1 := List.mem_singleton.mp he
  obtain ⟨u, us, hus⟩ := List.exists_cons_of_ne_nil (leavesList_ne_nil hlength)
  have hleaves : leavesList (q (t :: ts)).1 ++ (q (t :: ts)).2 = t :: ts := by
    simpa [wrap] using hstands.leaves
  rw [hus] at hleaves
  obtain rfl : u = t := (List.cons.inj hleaves).1
  exact .member hk (by simp [hus]) hκ

/-- Among statements, a member that begins with a modifier or with the keyword of a type may stand in a
block: as a node of its own, or as modifiers that nothing follows. -/
lemma stands_memberOver_item (h : Within (n + 1) ts) (hpeek : peek ts = some κ)
    (hκ : (κ.isModifier || κ.isTypeKeyword) = true) : (memberOver inner).Stands Formed IsItem ts := by
  obtain ⟨tr, t, vs, rfl, htr, rfl, ht⟩ := exists_of_peek_eq_some hpeek
  have hat : (trivia (tr ++ t :: vs)).2 = t :: vs := by rw [trivia_append htr ht]
  have hw : Within (n + 1) (t :: vs) := h.suffix (List.suffix_append ..)
  have htrivia : trivia.Stands Formed IsItem (tr ++ t :: vs) := stands_trivia fun _ h => .trivia h
  refine htrivia.andThen ?_
  rw [hat]
  have hpeek' : peek (t :: vs) = some t.kind := peek_cons ht vs
  have hsolid : ∀ e ∈ (declarationOver inner (t :: vs)).1, e.IsSolid := by
    have hparsed := (sound_declarationOver (P := fun _ => True) hsound hw ht (fun _ _ => trivial)
      (sound_bump hw.plain hpeek' fun _ _ _ => trivial)
      ((loose_memberPrefix hw.plain).mono fun _ _ => trivial)).1.parsed
    exact fun e he => (hparsed e he).self.1.isSolid
  rcases Bool.or_eq_true _ _ ▸ hκ with hmodifier | hkeyword
  · obtain ⟨p, heq, hp⟩ := exists_declaration hsound hinner hw
    refine Parser.Stands.congr ?_ heq
    rcases hp with rfl | rfl | ⟨k, q, rfl, hk, hq⟩
    · exact stands_bump_stray hpeek' (by rw [Kind.isStray, hmodifier, Bool.true_or])
    · exact stands_memberPrefix_modifiers hpeek' hmodifier
    · exact stands_wrap_item hκ hk hq (heq ▸ hsolid)
  · obtain ⟨hfront, heq⟩ : memberPrefix (t :: vs) = ([], t :: vs) ∧ declarationOver inner (t :: vs) = _ :=
      declarationOver_of_typeKeyword hpeek' hkeyword
    have hclass : (classRest inner).Stands Formed IsAny (memberPrefix (t :: vs)).2 := by
      rw [hfront]
      exact stands_classRest hinner hw (by simp [hpeek'])
    have hstands := stands_wrap (stands_memberPrefix.andThen hclass)
      (formed_of_keepsTokens (k := .classDeclaration) rfl)
    exact (stands_wrap_item hκ rfl hstands (heq ▸ hsolid)).congr heq

/-! ## Closing the recursion -/

/-- A statement. -/
lemma stands_statementOver : (statementOver inner).StandsTo (n + 1) IsItem := by
  intro ts h
  suffices hp : ∃ p : Parser, statementOver inner ts = p ts ∧ p.Stands Formed IsItem ts by
    obtain ⟨p, heq, hstands⟩ := hp
    exact hstands.congr heq
  unfold statementOver
  split
  · exact ⟨_, rfl, stands_skip⟩
  · rename_i hk
    exact ⟨_, rfl, (stands_block hsound hinner h hk).mono fun _ he => he.isItem rfl⟩
  · rename_i hk
    exact ⟨_, rfl, (stands_tryStatement hsound hinner h hk).mono fun _ he => he.isItem rfl⟩
  · rename_i hk
    exact ⟨_, rfl, (stands_throwStatement hk).mono fun _ he => he.isItem rfl⟩
  · rename_i hk
    exact ⟨_, rfl, (stands_returnStatement hk).mono fun _ he => he.isItem rfl⟩
  iterate 5
    rename_i hk
    exact ⟨_, rfl, stands_bump_stray hk rfl⟩
  · rename_i k _ _ _ _ _ _ _ _ _ hk
    cases hmember : k.isModifier || k.isTypeKeyword with
    | true => exact ⟨_, rfl, stands_memberOver_item hsound hinner h hk hmember⟩
    | false => exact ⟨_, rfl, stands_expressionStatement.mono fun _ he => he.isItem rfl⟩

end Productions

/-- Statements and members, nested to a depth. -/
theorem stands_innerTo (d : Nat) : (innerTo d).Stands d := by
  induction d with
  | zero => exact ⟨fun _ _ => stands_skip, fun _ _ => stands_skip⟩
  | succ d ih =>
    exact ⟨fun ts h => (stands_statementOver (sound_innerTo d) ih ts h).congr rfl,
      fun ts h => (stands_memberOver (sound_innerTo d) ih ts h).congr rfl⟩

/-! ## Units -/

/-- A using directive keeps the relation at any tokens. -/
lemma stands_usingDirective : usingDirective.Stands Formed (Makes .usingDirective) ts :=
  stands_keepingNode rfl fun _ _ _ => (stands_bump.any.andThen stands_repeatWhile_bump).andThen stands_eat_any

/-- A namespace keeps the relation if the items in it do. -/
lemma stands_namespaceOver {inner : Parser} (hinner : ∀ us, us <:+ ts → inner.Stands Formed IsAny us) :
    (namespaceOver inner).Stands Formed (Makes .namespaceDeclaration) ts := by
  refine stands_keepingNode (P := IsAny) rfl fun us hus _ => ?_
  have hname : (bump ++ repeatWhile (atAny [.ident, .dot]) bump).Stands Formed IsAny us :=
    stands_bump.any.andThen stands_repeatWhile_bump
  exact hname.andThen (stands_braced fun ws hws => hinner ws ((hws.trans hname.suffix).trans hus))

/-- Items nested to any depth keep the relation. -/
lemma stands_itemTo (d : Nat) :
    ∀ ts : List Token, (∀ t ∈ ts, t.IsPlain) → (itemTo d).Stands Formed IsPart ts := by
  induction d with
  | zero => exact fun _ _ => stands_skip
  | succ d ih =>
    intro ts hplain
    have h : Within ts.length ts := ⟨Nat.le_refl _, hplain⟩
    have hinner := stands_innerTo ts.length
    suffices hp : ∃ p : Parser, itemOver (itemTo d) ts = p ts ∧ p.Stands Formed IsPart ts by
      obtain ⟨p, heq, hstands⟩ := hp
      exact hstands.congr heq
    unfold itemOver
    split
    · exact ⟨_, rfl, stands_usingDirective.mono fun _ he => he.isPart (by decide)⟩
    · exact ⟨_, rfl, (stands_namespaceOver fun us hus =>
        (ih us fun t ht => hplain t (hus.subset ht)).any).mono fun _ he => he.isPart (by decide)⟩
    · rename_i k _ _ _
      cases hmember : k.isModifier || k.isTypeKeyword || k == .lBracket with
      | true => exact ⟨member, rfl, (hinner.member ts h).congr rfl⟩
      | false => exact ⟨statement, rfl, ((hinner.statement ts h).mono fun _ => isPart_of_isItem).congr rfl⟩
    · exact ⟨_, rfl, stands_skip⟩

/-- The items of a unit keep the relation at the tokens of a text. -/
lemma stands_items (hplain : ∀ t ∈ ts, t.IsPlain) : items.Stands Formed IsPart ts := by
  refine Parser.Stands.andThen ?_ (stands_trivia fun t _ => isPart_token t)
  refine stands_repeatWhile fun us hus _ => ?_
  exact (stands_itemTo us.length us fun t ht => hplain t (hus.subset ht)).congr rfl

end Grammar

open Grammar

variable (source : String)

/-- The relation holds everywhere in the tree of a text. -/
lemma everywhere_parse : EverywhereList Formed (parse source).children [] := by
  have hstands : items.Stands Formed IsPart (lex source) :=
    stands_items fun _ ht => isPlain_of_mem_lex ht
  have hleaves := hstands.leaves
  rw [(items_lex source).1] at hleaves
  have hrest : (items (lex source)).2 = [] := List.append_right_eq_self.mp hleaves
  have heverywhere := hstands.everywhere
  rwa [hrest] at heverywhere

/-- What stands at the top of the tree of a text is no unit. -/
lemma isPart_of_mem_parse {e : Element} (he : e ∈ (parse source).children) : IsPart e :=
  (stands_items fun _ ht => isPlain_of_mem_lex ht).holds e he

/-- **Every node of the tree of a text** is filled as the grammar fills nodes of its kind, and ends where
the grammar ends them. -/
theorem formed_parse {c : Cursor} (hc : (parse source).Has c) (hne : c ≠ (parse source).cursor) :
    Formed c.kind c.node.children c.behind := ((everywhere_parse source).node hc).2 hne

end TreeLint
