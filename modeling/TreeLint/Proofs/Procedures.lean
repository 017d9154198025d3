import TreeLint.Proofs.Execution
import TreeLint.Proofs.Extents
import TreeLint.Proofs.Unit

/-!
# The procedures build the tree

Every procedure of the recogniser performs its production. The procedures call each other without a
bound, while a production goes to a depth. The depth of a production is enough for as many tokens,
and an inner occurrence starts behind at least one token of the outer one, so the proofs go by
induction on the number of tokens.

## Main definitions

* `TreeLint.Grammar.Expresses` — a parser that the procedure for expressions performs.
* `TreeLint.Grammar.Inner.Served` — parsers for statements and members that their procedures perform.

## Main results

* `TreeLint.Grammar.serves_typeRefTo`, `TreeLint.Grammar.expresses_expressionTo`,
  `TreeLint.Grammar.served_innerTo`, `TreeLint.Grammar.serves_itemTo` — the four recursions.
* `TreeLint.exec_compilationUnit` — every text has a run, which ends with the tree of the text.
-/

namespace TreeLint

namespace Grammar

open Command (startsPrefix)

variable {ts us : List Token} {κ : Kind} {n d : Nat} {p inner : Parser} {c : Command}

/-! ## Bracketed runs and lists -/

/-- The rounds of a bracketed run. -/
lemma isRound_balanced {opening closing : Kind} (depth : Option Nat) (us : List Token) :
    IsRound us
      (match depth, peek us with
        | some d, some k =>
          if k = opening then some (some (d + 1))
          else if k = closing then some (if d - 1 = 0 then none else some (d - 1))
          else some (some d)
        | _, _ => none)
      .bump (balancedStep opening closing depth us) := by
  cases depth with
  | none => exact .stop
  | some d =>
    unfold balancedStep
    cases hk : peek us with
    | none => exact .stop
    | some k =>
      have hbump : Advances .bump bump us := advances_bump (by simp [hk])
      have hdepth : d - 1 = 0 ↔ d ≤ 1 := by omega
      simp only [hdepth]
      exact .ite (fun _ => .go hbump) fun _ => .ite (fun _ => .go hbump) fun _ => .go hbump

/-- The command for a bracketed run performs it at any tokens. -/
lemma follows_balanced {opening closing : Kind} :
    Follows n (.balanced opening closing) (balanced opening closing) :=
  fun _ _ => .loop fun depth us _ => isRound_balanced depth us

/-- A bracketed run takes a token if a real one is ahead. -/
lemma serves_balanced {opening closing : Kind} :
    Serves n (.balanced opening closing) (balanced opening closing) := by
  intro ts _ hpeek
  obtain ⟨κ, hκ⟩ := Option.isSome_iff_exists.mp hpeek
  obtain ⟨s, hs⟩ := balancedStep_eq_some opening closing 0 hκ
  refine .loop (fun depth us _ => isRound_balanced depth us) ?_
  intro hnone
  cases hs.symm.trans hnone

/-- A repetition up to a closing token. -/
lemma follows_closedBy {closing : Kind} (h : Serves n c p) :
    Follows n (.closedBy closing c) (closedBy closing p) := by
  refine fun ts hts => .loop fun isOpen us hus => ?_
  cases isOpen with
  | false => exact .stop
  | true =>
    cases hk : peek us with
    | none => exact .stop
    | some k =>
      have hsome : (peek us).isSome = true := by simp [hk]
      show IsRound us (some (k != closing)) _ (if k = closing then some (bump, false) else some (p, true))
      by_cases hclosing : k = closing
      · rw [if_pos hclosing, if_pos (by simpa [at_, hk] using hclosing), hclosing, bne_self_eq_false]
        exact .go (advances_bump hsome)
      · rw [if_neg hclosing, if_neg (by simpa [at_, hk] using hclosing), bne_iff_ne.mpr hclosing]
        exact .go (h us (Nat.le_trans hus hts) hsome)

/-- Taking the next real token is performed everywhere. -/
lemma follows_bump : Follows n .bump bump := fun _ _ => performs_bump

/-- The command for a body between braces performs it if the command for a member performs one. -/
lemma follows_braced (h : Serves n c p) : Follows n (.braced c) (braced p) := fun ts hts =>
  .branch (fun _ => follows_bump.seq (follows_closedBy h) ts hts) fun _ => follows_eat ts hts

/-- Taking tokens as long as a test passes is performed if the test asks for a real token. -/
lemma follows_repeatWhile_bump {test : List Token → Bool}
    (htest : ∀ us, test us = true → (peek us).isSome = true) :
    Follows n (.repeatWhile test .bump) (repeatWhile test bump) :=
  .repeatWhile fun us _ h => advances_bump (htest us h)

/-- An optional part that starts with a real token. -/
lemma Serves.when {test : List Token → Bool} (h : Serves n c p)
    (htest : ∀ us, test us = true → (peek us).isSome = true) :
    Follows n (.when test c) (Grammar.when test p) :=
  Follows.when fun us hus hat => (h us hus (htest us hat)).performs

/-- An optional part that starts with a token of a given kind. -/
lemma Serves.whenAt (h : Serves n c p) (κ : Kind) :
    Follows n (.when (at_ κ) c) (Grammar.when (at_ κ) p) := h.when fun _ hat => isSome_of_at_ hat

/-- A repeated part that starts with a real token. -/
lemma Serves.repeatWhile {test : List Token → Bool} (h : Serves n c p)
    (htest : ∀ us, test us = true → (peek us).isSome = true) :
    Follows n (.repeatWhile test c) (Grammar.repeatWhile test p) :=
  Follows.repeatWhile fun us hus hat => h us hus (htest us hat)

/-- A repeated part that starts with a token of a given kind. -/
lemma Serves.repeatAt (h : Serves n c p) (κ : Kind) :
    Follows n (.repeatWhile (at_ κ) c) (Grammar.repeatWhile (at_ κ) p) :=
  h.repeatWhile fun _ hat => isSome_of_at_ hat

/-- What follows a part that takes something need not take anything. -/
lemma Serves.of_follows {d : Command} {q : Parser} (hp : Serves n c p) (hq : Follows n d q) :
    Serves n (c ++ d) (p ++ q) :=
  fun ts hts hpeek => (hp ts hts hpeek).seq (hq _ (Nat.le_trans
    (hp ts hts hpeek).performs.suffix.length_le hts))

/-- Without tokens there is no real one ahead. -/
lemma serves_zero : Serves 0 c p := by
  intro ts hts hpeek
  rw [List.length_eq_zero_iff.mp (Nat.le_zero.mp hts)] at hpeek
  cases hpeek

/-! ## Types -/

/-- The arguments of a generic type are performed if the types among them are. -/
lemma follows_typeArguments (hinner : Serves n (.call .typeRef) inner) :
    Follows n .typeArguments (typeArguments inner) := by
  refine fun ts hts => .loop fun isOpen us hus => ?_
  cases isOpen with
  | false => exact .stop
  | true =>
    cases hk : peek us with
    | none => exact .stop
    | some k =>
      have hsome : (peek us).isSome = true := by simp [hk]
      have hbump := advances_bump hsome
      have htype := hinner us (Nat.le_trans hus hts) hsome
      by_cases hstart : isTypeStart k = true
      · rw [if_pos (by simpa [atTypeStart, hk] using hstart)]
        cases k <;> first | exact .go htype | cases hstart
      · rw [if_neg (by simpa [atTypeStart, hk] using hstart)]
        cases k <;> first | exact .go hbump | exact .stop | exact absurd rfl hstart

/-- The procedure for types performs a type if it does so at the arguments, which have fewer tokens. -/
lemma serves_typeRefOver (hinner : Serves n (.call .typeRef) inner) :
    Serves (n + 1) (.call .typeRef) (typeRefOver inner) := by
  have hpairs : ∀ κ κ', Follows n
      (.repeatWhile (fun ts => at_ κ ts && peekSecond ts == some κ') (.bump ++ .bump))
      (repeatWhile (fun ts => at_ κ ts && peekSecond ts == some κ') (bump ++ bump)) := by
    intro κ κ'
    refine Serves.repeatWhile (serves_bump.of_follows follows_bump) fun us h => ?_
    simp only [Bool.and_eq_true] at h
    exact isSome_of_at_ h.1
  have harguments := (serves_bump.of_follows (follows_typeArguments hinner)).whenAt .lt
  exact .call <| .node <| (((serves_bump.andThen (hpairs .dot .ident)).andThen harguments).andThen
    (hpairs .lBracket .rBracket)).andThen (serves_bump.when fun us h => isSome_of_atText h)

/-- A type, nested at most to a depth. -/
lemma serves_typeRefTo (d : Nat) : Serves d (.call .typeRef) (typeRefTo d) := by
  induction d with
  | zero => exact serves_zero
  | succ d ih => exact serves_typeRefOver ih

/-- The procedure for types performs types at any tokens. -/
lemma serves_typeRef : Serves n (.call .typeRef) typeRef :=
  fun ts _ hpeek => (serves_typeRefTo ts.length ts (Nat.le_refl _) hpeek).congr rfl

/-- A type that may be absent is performed everywhere. -/
lemma follows_typeRef : Follows n (.when atTypeStart (.call .typeRef)) (when atTypeStart typeRef) :=
  serves_typeRef.when fun _ h => isSome_of_any h

/-- The procedure for lists of parameters performs them at any tokens. -/
lemma follows_parameterList : Follows n (.call .parameterList) parameterList := fun ts hts =>
  .call <| (Serves.node serves_balanced).whenAt .lParen ts hts

/-! ## Expressions -/

/-- A parser that the procedure for expressions performs, and that takes something where no expression
ends. -/
def Expresses (n : Nat) (inner : Parser) : Prop := ∀ ts, ts.length ≤ n →
  Performs (.call .expression) inner ts ∧ (atExpressionEnd 0 ts = false → inner.Moves ts)

/-- A parser that the procedure for expressions performs is performed everywhere. -/
lemma Expresses.follows (h : Expresses n inner) : Follows n (.call .expression) inner :=
  fun ts hts => (h ts hts).1

/-- A token, or an expression if one starts at it. -/
lemma Expresses.serves (h : Expresses n inner) :
    Serves n (.branch (atExpressionEnd 0) .bump (.call .expression))
      (choose (atExpressionEnd 0) bump inner) := fun ts hts hpeek =>
  .branch (fun _ => advances_bump hpeek) fun hend => ⟨(h ts hts).1, (h ts hts).2 hend⟩

/-- The procedure for lists of arguments performs them if the expressions in them are performed. -/
lemma serves_argumentListOver (hinner : Expresses n inner) :
    Serves (n + 1) (.call .argumentList) (argumentListOver inner) := by
  refine .call <| .node <| serves_bump.andThen fun ts hts => .loop fun isOpen us hus => ?_
  cases isOpen with
  | false => exact .stop
  | true =>
    cases hk : peek us with
    | none => exact .stop
    | some k =>
      have hsome : (peek us).isSome = true := by simp [hk]
      have hbump := advances_bump hsome
      have hitem := hinner.serves us (Nat.le_trans hus hts) hsome
      by_cases htoken : (at_ .rParen us || at_ .comma us) = true
      · rw [if_pos htoken]
        obtain rfl | rfl : k = .rParen ∨ k = .comma := by simpa [at_, hk] using htoken
        · exact .go hbump
        · exact .go hbump
      · rw [if_neg htoken]
        have htoken : k ≠ .rParen ∧ k ≠ .comma := by simpa [at_, hk] using htoken
        cases k <;> first | exact .go hitem | exact .stop | exact absurd rfl htoken.1 |
          exact absurd rfl htoken.2

/-- The procedure for object creations performs them if the expressions among the arguments are
performed. -/
lemma serves_objectCreationOver (hinner : Expresses n inner) :
    Serves (n + 1) (.call .objectCreation) (objectCreationOver inner) := by
  have harguments := ((serves_argumentListOver hinner).mono (Nat.le_succ n)).whenAt .lParen
  exact .call <| .node <| ((serves_bump.andThen follows_typeRef).andThen harguments).andThen
    (serves_balanced.whenAt _)

/-- What ends an expression shows behind the trivia. -/
lemma atExpressionEnd_trivia (depth : Nat) (ts : List Token) :
    atExpressionEnd depth (trivia ts).2 = atExpressionEnd depth ts := by
  unfold atExpressionEnd
  rw [peek_trivia]

/-- The rounds of an expression. -/
lemma isRound_expression (hinner : Expresses n inner) (depth : Nat) (hus : us.length ≤ n + 1) :
    IsRound us
      (if atExpressionEnd depth us then none
        else match peek us with
          | some .lParen | some .lBracket => some (depth + 1)
          | some .rParen | some .rBracket => some (depth - 1)
          | _ => some depth)
      (if at_ .newKw us then .call .objectCreation else .bump) (expressionStep inner depth us) := by
  unfold expressionStep
  refine .ite (fun _ => .stop) fun hend => ?_
  have hsome := isSome_of_not_atExpressionEnd (Bool.eq_false_iff.mpr hend)
  have hbump := advances_bump hsome
  have hcreation := serves_objectCreationOver hinner us hus hsome
  obtain ⟨k, hk⟩ := Option.isSome_iff_exists.mp hsome
  by_cases hnew : k = .newKw
  · subst hnew
    simp only [hk, at_, beq_self_eq_true, if_true]
    exact .go hcreation
  · rw [if_neg (by simpa [at_, hk] using hnew), hk]
    cases k <;> first | exact .go hbump | exact absurd rfl hnew

/-- The procedure for expressions performs an expression if it does so at the inner ones, which have
fewer tokens. -/
lemma expresses_expressionOver (hinner : Expresses n inner) :
    Expresses (n + 1) (expressionOver inner) := by
  intro ts hts
  rw [expressionOver_eq]
  have hnode := fun hend : atExpressionEnd 0 ts = false => by
    have hfirst : expressionStep inner 0 (trivia ts).2 ≠ none :=
      expressionStep_ne_none (by rwa [atExpressionEnd_trivia])
    exact Advances.node (k := .expression) <| .loop (fun depth us hus => isRound_expression hinner depth
      (Nat.le_trans hus (Nat.le_trans performs_trivia.suffix.length_le hts))) hfirst
  refine ⟨.call (.branch (fun _ => performs_skip) fun hend => (hnode hend).performs), fun hend => ?_⟩
  unfold Parser.Moves
  rw [choose_of_false hend]
  exact (hnode hend).moves

/-- An expression, nested at most to a depth. -/
lemma expresses_expressionTo (d : Nat) : Expresses d (expressionTo d) := by
  induction d with
  | zero =>
    intro ts hts
    obtain rfl : ts = [] := List.length_eq_zero_iff.mp (Nat.le_zero.mp hts)
    refine ⟨.call ?_, fun hend => by cases hend⟩
    exact (Performs.branch (p := skip) (q := skip) (fun _ => performs_skip) fun hend => by
      cases hend).congr rfl
  | succ d ih => exact expresses_expressionOver ih

/-- The procedure for expressions performs expressions at any tokens. -/
lemma expresses_expression : Expresses n expression := fun ts _ =>
  ⟨(expresses_expressionTo ts.length ts (Nat.le_refl _)).1.congr rfl,
    (expresses_expressionTo ts.length ts (Nat.le_refl _)).2⟩

/-- An expression that may be absent is performed everywhere. -/
lemma follows_expression : Follows n (.call .expression) expression := expresses_expression.follows

/-! ## Statements -/

/-- Parsers for inner statements and members that their procedures perform. -/
structure Inner.Served (n : Nat) (inner : Inner) : Prop where
  /-- A statement. -/
  statement : Serves n (.call .statement) inner.statement
  /-- A member. -/
  member : Serves n (.call .member) inner.member

section Productions

variable {inner : Inner} (hinner : inner.Served n)

include hinner

/-- The procedure for blocks performs a block if inner statements are performed. -/
lemma serves_block : Serves (n + 1) (.call .block) (block inner) :=
  .call <| .node <| serves_bump.andThen (follows_closedBy hinner.statement)

/-- A block that may be absent is performed if inner statements are. -/
lemma follows_optionalBlock : Follows (n + 1) .optionalBlock (optionalBlock inner) :=
  (serves_block hinner).whenAt _

/-- The procedure for handlers performs a handler if inner statements are performed. -/
lemma serves_catchClause : Serves (n + 1) (.call .catchClause) (catchClause inner) := by
  have hdeclaration : Serves n .catchDeclaration catchDeclaration :=
    .node <| ((serves_bump.of_follows follows_typeRef).of_follows follows_eat).of_follows follows_eat
  have hcondition := ((serves_bump.of_follows follows_expression).of_follows
    (follows_eat (n := n) (κ := .rParen))).whenAt .lParen
  have hfilter : Serves n .catchFilter catchFilter := .node <| serves_bump.of_follows hcondition
  exact .call <| .node <| ((serves_bump.andThen
    (hdeclaration.whenAt _)).andThen
    (hfilter.whenAt _)).andThen
    ((follows_optionalBlock hinner).mono (Nat.le_succ n))

/-- The procedure for guarded blocks performs one if inner statements are performed. -/
lemma serves_tryStatement : Serves (n + 1) (.call .tryStatement) (tryStatement inner) := by
  have hblock := (follows_optionalBlock hinner).mono (Nat.le_succ n)
  have hclauses := (serves_catchClause hinner).mono (Nat.le_succ n)
  have hfinally : Serves n .finallyClause (finallyClause inner) :=
    .node <| serves_bump.of_follows hblock
  exact .call <| .node <| ((serves_bump.andThen hblock).andThen
    (hclauses.repeatAt _)).andThen
    (hfinally.whenAt _)

omit hinner in
/-- The procedure for statements that throw or return performs both, by the kind of their nodes. -/
lemma serves_keywordStatement (k : Kind) :
    Serves n (.call (.keywordStatement k)) (keywordStatement k) :=
  .call <| .node <| (serves_bump.of_follows follows_expression).of_follows follows_eat

omit hinner in
/-- An expression as a statement is performed at any tokens. -/
lemma serves_expressionStatement : Serves n .expressionStatement expressionStatement :=
  .node <| expresses_expression.serves.of_follows follows_eat

/-! ## Members -/

omit hinner in
/-- Attributes and modifiers are performed at any tokens. -/
lemma follows_memberPrefix : Follows n .memberPrefix memberPrefix :=
  (serves_balanced.repeatAt _).seq
    (follows_repeatWhile_bump fun _ h => isSome_of_any h)

omit hinner in
/-- The procedure for lists of type parameters performs them at any tokens. -/
lemma serves_typeParameterList :
    Serves n (.call .typeParameterList) typeParameterList := by
  refine .call <| .node <| serves_bump.of_follows fun ts _ => .loop fun isOpen us _ => ?_
  cases isOpen with
  | false => exact .stop
  | true =>
    cases hk : peek us with
    | none => exact .stop
    | some k =>
      have hbump : Advances .bump bump us := advances_bump (by simp [hk])
      cases k <;> first | exact .go hbump | exact .stop

omit hinner in
/-- The procedure for lists of base types performs them at any tokens. -/
lemma serves_baseList : Serves n (.call .baseList) baseList := by
  have hbase : Serves n (.branch atTypeStart (.call .typeRef) .bump) (choose atTypeStart typeRef bump) :=
    fun us hus hsome => .branch (fun _ => serves_typeRef us hus hsome) fun _ => advances_bump hsome
  refine .call <| .node <| serves_bump.of_follows <| hbase.repeatWhile fun us h => ?_
  rcases Bool.or_eq_true _ _ ▸ h with h | h
  · exact isSome_of_any h
  · exact isSome_of_at_ h

/-- A class from its keyword on is performed if inner members are. -/
lemma serves_classRest : Serves (n + 1) .classRest (classRest inner) :=
  ((((serves_bump.andThen follows_eat).andThen
    (serves_typeParameterList.whenAt _)).andThen
    (serves_baseList.whenAt _)).andThen
    (follows_repeatWhile_bump fun _ h => isSome_of_isSome_and h)).andThen
    (follows_braced hinner.member)

/-- The procedure for the body of a member performs it if inner statements are performed. -/
lemma follows_memberBody : Follows n (.call .memberBody) (memberBody inner) := by
  intro ts hts
  refine .call (.look ?_)
  split
  · rename_i hk
    exact (((serves_block hinner).mono (Nat.le_succ n)) ts hts (by simp [hk])).performs.congr
      (by simp only [memberBody, hk])
  · rename_i hk
    exact (((follows_bump.seq follows_expression).seq follows_eat) ts hts).congr
      (by simp only [memberBody, hk])
  · rename_i hk
    exact performs_bump.congr (by simp only [memberBody, hk])
  · refine performs_skip.congr ?_
    unfold memberBody
    split <;> simp_all

/-- A constructor from its name on is performed if inner statements are. -/
lemma serves_constructorRest : Serves (n + 1) .constructorRest (constructorRest inner) := by
  have harguments : Serves n (.call .argumentList) argumentList :=
    (serves_argumentListOver expresses_expression).mono (Nat.le_succ n)
  have hkeyword : Follows n (.when (atAny [.baseKw, .thisKw]) .bump)
      (when (atAny [.baseKw, .thisKw]) bump) := serves_bump.when fun _ h => isSome_of_any h
  have hinit := ((serves_bump.of_follows hkeyword).of_follows (harguments.whenAt .lParen)).whenAt .colon
  exact ((serves_bump.andThen follows_parameterList).andThen hinit).andThen
    (follows_memberBody hinner)

/-- What follows the name of a method is performed if inner statements are. -/
lemma follows_methodRest : Follows n .methodRest (methodRest inner) :=
  (((serves_typeParameterList.whenAt _).seq follows_parameterList).seq
    (follows_repeatWhile_bump fun _ h => isSome_of_isSome_and h)).seq (follows_memberBody hinner)

omit hinner in
/-- The accessors of a property are performed at any tokens. -/
lemma follows_accessorsRest : Follows n .accessorsRest accessorsRest := by
  have hinit := ((serves_bump.of_follows follows_expression).of_follows
    (follows_eat (n := n) (κ := .semicolon))).whenAt .equals
  exact follows_balanced.seq hinit

omit hinner in
/-- What follows the name of a field is performed at any tokens. -/
lemma follows_fieldRest : Follows n .fieldRest fieldRest := by
  have hinit : Follows n .initializer initializer :=
    (serves_bump.of_follows follows_expression).whenAt _
  have hnames := ((serves_bump.of_follows (follows_eat (κ := .ident))).of_follows hinit).repeatAt .comma
  exact (hinit.seq hnames).seq follows_eat

/-- Behind the name of a member with a type, the tokens ahead decide on the node and on what is in it in
the same way for the procedure as for the production. -/
lemma exists_typedRest (us : List Token) (hus : us.length ≤ n) :
    ∃ c, (∀ start, Command.typedRest start us = .nodeFrom start (typedMember inner us).1 c) ∧
      Performs c (typedMember inner us).2 us := by
  have hmethod := follows_methodRest hinner us hus
  have haccessors := follows_accessorsRest us hus
  have hbody := follows_memberBody hinner us hus
  have hfield := follows_fieldRest us hus
  unfold Command.typedRest typedMember
  cases hk : peek us with
  | none => exact ⟨_, fun _ => rfl, hfield⟩
  | some k =>
    cases k <;> first
      | exact ⟨_, fun _ => rfl, hfield⟩
      | exact ⟨_, fun _ => rfl, hmethod⟩
      | exact ⟨_, fun _ => rfl, haccessors⟩
      | exact ⟨_, fun _ => rfl, hbody⟩

omit hinner in
/-- Where no attribute and no modifier is ahead, there is none. -/
lemma memberPrefix_of_false (h : startsPrefix ts = false) : memberPrefix ts = ([], ts) := by
  obtain ⟨hbracket, hmodifier⟩ := Bool.or_eq_false_iff.mp h
  have hattributes : repeatWhile (at_ .lBracket) (balanced .lBracket .rBracket) ts = ([], ts) :=
    repeatWhile_of_false hbracket
  rw [memberPrefix, append_apply, hattributes, repeatWhile_of_false hmodifier]
  rfl

omit hinner in
/-- Where an attribute or a modifier is ahead, something is taken. -/
lemma advances_memberPrefix (h : startsPrefix ts = true) :
    Advances .memberPrefix memberPrefix ts := by
  have hmodifiers : Follows ts.length (.repeatWhile (fun ts => (peek ts).any Kind.isModifier) .bump)
      (repeatWhile (fun ts => (peek ts).any Kind.isModifier) bump) :=
    follows_repeatWhile_bump fun _ h => isSome_of_any h
  have hround : ∀ us : List Token, us.length ≤ ts.length → at_ .lBracket us = true →
      Advances (.balanced .lBracket .rBracket) (balanced .lBracket .rBracket) us :=
    fun us hus hat => serves_balanced us hus (isSome_of_at_ hat)
  cases hbracket : at_ .lBracket ts with
  | true =>
    have hattributes := Advances.repeatWhile hround hbracket
    exact hattributes.seq (hmodifiers _ hattributes.performs.suffix.length_le)
  | false =>
    have hmodifier : (peek ts).any Kind.isModifier = true := by simpa [startsPrefix, hbracket] using h
    have hattributes : repeatWhile (at_ .lBracket) (balanced .lBracket .rBracket) ts = ([], ts) :=
      repeatWhile_of_false hbracket
    have hfirst : Advances (.repeatWhile (fun ts => (peek ts).any Kind.isModifier) .bump)
        (repeatWhile (fun ts => (peek ts).any Kind.isModifier) bump) ts :=
      .repeatWhile (fun us _ h => advances_bump (isSome_of_any h)) hmodifier
    refine ⟨follows_memberPrefix ts (Nat.le_refl _), ?_⟩
    unfold Parser.Moves
    rw [memberPrefix, append_apply, hattributes]
    exact hfirst.moves

omit hinner in
/-- Where no declaration follows, attributes and modifiers stay as they are, and so does another
token. -/
lemma resumes_other (hpeek : (peek ts).isSome = true) :
    Resumes (fun _ => if startsPrefix ts then .skip else .bump) memberPrefix
        (choose (fun ts => (memberPrefix ts).1.isEmpty) bump memberPrefix) ts ∧
      (choose (fun ts => (memberPrefix ts).1.isEmpty) bump memberPrefix).Moves ts := by
  have hfront : Performs .memberPrefix memberPrefix ts := follows_memberPrefix ts (Nat.le_refl _)
  cases h : startsPrefix ts with
  | true =>
    have hmoves := advances_memberPrefix h
    have heq : choose (fun ts => (memberPrefix ts).1.isEmpty) bump memberPrefix ts = memberPrefix ts :=
      choose_of_false (by simpa using hmoves.ne_nil)
    refine ⟨⟨by rw [heq]; exact hfront.leaves, fun b hb => ?_⟩, ?_⟩
    · rw [heq]
      exact .skip _
    · unfold Parser.Moves
      rw [heq]
      exact hmoves.moves
  | false =>
    have hnone := memberPrefix_of_false h
    have heq : choose (fun ts => (memberPrefix ts).1.isEmpty) bump memberPrefix ts = bump ts :=
      choose_of_true (by simp [hnone])
    have hbump : Advances .bump bump ts := advances_bump hpeek
    refine ⟨⟨by rw [heq]; exact hbump.performs.leaves, fun b hb => ?_⟩, ?_⟩
    · rw [heq, hnone, Builder.add_nil]
      exact hbump.performs.exec b hb
    · unfold Parser.Moves
      rw [heq]
      exact hbump.moves

/-- Behind attributes and modifiers, the tokens ahead decide in the same way for the procedure as for
the production. -/
lemma resumes_memberRest (hts : ts.length ≤ n + 1) (hpeek : (peek ts).isSome = true) :
    ∃ q, declarationOver inner ts = q ts ∧ q.Moves ts ∧
      Resumes (.memberRest · (startsPrefix ts) (memberPrefix ts).2) memberPrefix q ts := by
  have hfront : Performs .memberPrefix memberPrefix ts := follows_memberPrefix ts (Nat.le_refl _)
  have hle := hfront.suffix.length_le
  obtain ⟨hothermoves, hother⟩ := (resumes_other hpeek).symm
  have hmoves : ∀ {k : Kind} {q : Parser}, (q (memberPrefix ts).2).2.length < (memberPrefix ts).2.length →
      (wrap k (memberPrefix ++ q)).Moves ts := fun h => Nat.lt_of_lt_of_le h hle
  cases hk : peek (memberPrefix ts).2 with
  | none =>
    refine ⟨_, by simp only [declarationOver, hk], hothermoves, ?_⟩
    simpa [Command.memberRest, hk, at_, atTypeStart] using hother
  | some k =>
    have hsome : (peek (memberPrefix ts).2).isSome = true := by simp [hk]
    have hcommand : ∀ start, Command.memberRest start (startsPrefix ts) (memberPrefix ts).2 =
        if k.isTypeKeyword then .call (.classRest start)
        else if k = .ident ∧ peekSecond (memberPrefix ts).2 = some .lParen then
          .call (.constructorRest start)
        else if isTypeStart k then .call (.typedMemberRest start)
        else if startsPrefix ts then .skip else .bump := by
      intro start
      simp [Command.memberRest, at_, atTypeStart, hk]
    simp only [hcommand, declarationOver, hk]
    by_cases hclass : k.isTypeKeyword = true
    · have hcontent := serves_classRest hinner _ (Nat.le_trans hle hts) hsome
      simp only [if_pos hclass]
      exact ⟨_, rfl, hmoves hcontent.moves, .call .classRest (.nodeFrom hfront hcontent.performs)⟩
    simp only [if_neg hclass]
    by_cases hconstructor : k = .ident ∧ peekSecond (memberPrefix ts).2 = some .lParen
    · have hcontent := serves_constructorRest hinner _ (Nat.le_trans hle hts) hsome
      simp only [if_pos hconstructor]
      exact ⟨_, rfl, hmoves hcontent.moves,
        .call .constructorRest (.nodeFrom hfront hcontent.performs)⟩
    simp only [if_neg hconstructor]
    by_cases htype : isTypeStart k = true
    · have hname : Advances (.call .typeRef ++ .eat .ident) (typeRef ++ eat .ident)
          (memberPrefix ts).2 := serves_typeRef.of_follows follows_eat _ (Nat.le_refl _) hsome
      have hfewer : ((typeRef ++ eat .ident) (memberPrefix ts).2).2.length < (memberPrefix ts).2.length :=
        hname.moves
      obtain ⟨c, hc, htail⟩ :=
        exists_typedRest hinner ((typeRef ++ eat .ident) (memberPrefix ts).2).2 (by omega)
      simp only [if_pos htype]
      refine ⟨_, rfl, Nat.lt_of_lt_of_le (Nat.lt_of_le_of_lt htail.suffix.length_le hfewer) hle, ?_⟩
      refine .call .typedMemberRest (.seq hname.performs (.look .typedRest ?_))
      show Resumes (.typedRest · ((typeRef ++ eat .ident) (memberPrefix ts).2).2) _ _ _
      simp only [hc]
      exact .nodeFrom (hfront.seq hname.performs) htail
    · simp only [if_neg htype]
      exact ⟨_, rfl, hothermoves, hother⟩

/-- The procedure for members performs a member if inner statements and members are performed. -/
lemma serves_memberOver : Serves (n + 1) (.call .member) (memberOver inner) := by
  refine .call fun ts hts hpeek => ?_
  have hle : (trivia ts).2.length ≤ ts.length := performs_trivia.suffix.length_le
  obtain ⟨q, heq, hmoves, hresumes⟩ := resumes_memberRest hinner (Nat.le_trans hle hts)
    (by rwa [peek_trivia])
  have hfront := follows_memberPrefix (trivia ts).2 (Nat.le_refl _)
  have hmarked := Resumes.mark hfront (.look (.memberRest · (startsPrefix _)) hresumes)
  have hdeclaration : Advances
      (.look fun ts => .mark fun start => .memberPrefix ++ .look (.memberRest start (startsPrefix ts)))
      (declarationOver inner) (trivia ts).2 := Advances.congr ⟨.look hmarked, hmoves⟩ heq
  exact ⟨performs_trivia.seq hdeclaration.performs, Nat.lt_of_lt_of_le hdeclaration.moves hle⟩

/-! ## Closing the recursion -/

/-- The procedure for statements performs a statement if inner ones are performed. -/
lemma serves_statementOver : Serves (n + 1) (.call .statement) (statementOver inner) := by
  intro ts hts hpeek
  refine .call (.look ?_)
  split
  · rename_i hk
    exact (serves_block hinner ts hts hpeek).congr (by simp only [statementOver, hk])
  · rename_i hk
    exact (serves_tryStatement hinner ts hts hpeek).congr (by simp only [statementOver, hk])
  · rename_i hk
    exact (serves_keywordStatement _ ts hts hpeek).congr (by simp only [statementOver, hk])
  · rename_i hk
    exact (serves_keywordStatement _ ts hts hpeek).congr (by simp only [statementOver, hk])
  iterate 5
    rename_i hk
    exact (advances_bump hpeek).congr (by simp only [statementOver, hk])
  · rename_i k _ _ _ _ _ _ _ _ _ hk
    have hrest : statementOver inner ts =
        if k.isModifier || k.isTypeKeyword then memberOver inner ts else expressionStatement ts := by
      simp only [statementOver, hk]
    split
    · exact (serves_memberOver hinner ts hts hpeek).congr (by rw [hrest, if_pos ‹_›])
    · exact (serves_expressionStatement ts (Nat.le_refl _) hpeek).congr (by rw [hrest, if_neg ‹_›])
  · rename_i hk
    rw [hk] at hpeek
    cases hpeek

omit hinner in
/-- Statements and members, nested at most to a depth. -/
lemma served_innerTo (d : Nat) : (innerTo d).Served d := by
  induction d with
  | zero => exact ⟨serves_zero, serves_zero⟩
  | succ d ih => exact ⟨serves_statementOver ih, serves_memberOver ih⟩

end Productions

/-- The procedure for statements performs statements at any tokens. -/
lemma serves_statement : Serves n (.call .statement) statement := fun ts _ hpeek =>
  ((served_innerTo ts.length).statement ts (Nat.le_refl _) hpeek).congr rfl

/-- The procedure for members performs members at any tokens. -/
lemma serves_member : Serves n (.call .member) member := fun ts _ hpeek =>
  ((served_innerTo ts.length).member ts (Nat.le_refl _) hpeek).congr rfl

/-! ## Items -/

/-- The procedure for using directives performs them at any tokens. -/
lemma serves_usingDirective : Serves n (.call .usingDirective) usingDirective :=
  .call <| .node <| (serves_bump.of_follows
    (follows_repeatWhile_bump fun _ h => isSome_of_isSome_and h)).of_follows follows_eat

/-- The procedure for namespaces performs one if the items in it are performed. -/
lemma serves_namespaceOver (hinner : Serves n (.call .item) inner) :
    Serves (n + 1) (.call .namespaceDeclaration) (namespaceOver inner) :=
  .call <| .node <| (serves_bump.andThen
    (follows_repeatWhile_bump fun _ h => isSome_of_any h)).andThen (follows_braced hinner)

/-- The procedure for items performs an item if inner ones are performed. -/
lemma serves_itemOver (hinner : Serves n (.call .item) inner) :
    Serves (n + 1) (.call .item) (itemOver inner) := by
  intro ts hts hpeek
  refine .call (.look ?_)
  split
  · rename_i hk
    exact (serves_usingDirective ts hts hpeek).congr (by simp only [itemOver, hk])
  · rename_i hk
    exact (serves_namespaceOver hinner ts hts hpeek).congr (by simp only [itemOver, hk])
  · rename_i k _ _ hk
    have hrest : itemOver inner ts =
        if k.isModifier || k.isTypeKeyword || k == .lBracket then member ts else statement ts := by
      simp only [itemOver, hk]
    split
    · exact (serves_member ts hts hpeek).congr (by rw [hrest, if_pos ‹_›])
    · exact (serves_statement ts hts hpeek).congr (by rw [hrest, if_neg ‹_›])
  · rename_i hk
    rw [hk] at hpeek
    cases hpeek

/-- Items, nested at most to a depth. -/
lemma serves_itemTo (d : Nat) : Serves d (.call .item) (itemTo d) := by
  induction d with
  | zero => exact serves_zero
  | succ d ih => exact serves_itemOver ih

/-- The procedure for items performs items at any tokens. -/
lemma serves_item : Serves n (.call .item) item := fun ts _ hpeek =>
  (serves_itemTo ts.length ts (Nat.le_refl _) hpeek).congr rfl

/-- The procedure for a whole unit makes one node of all items. -/
lemma performs_compilationUnit :
    Performs (.call .compilationUnit) (wrap .compilationUnit items) ts := by
  have hitems : Follows ts.length (.repeatWhile (fun ts => (peek ts).isSome) (.call .item))
      (repeatWhile (fun ts => (peek ts).isSome) item) := serves_item.repeatWhile fun _ h => h
  exact .call <| .wrap <| (hitems ts (Nat.le_refl _)).seq performs_trivia

end Grammar

open Grammar

variable (source : String)

/-- The run on the tokens of a text takes them all and finishes the tree of the text. -/
lemma exec_lex : Exec (.call .compilationUnit) ⟨lex source, {}⟩
    (some ⟨[], { elements := [.node .compilationUnit (parse source).children] }⟩) := by
  have hperforms : Performs (.call .compilationUnit) (wrap .compilationUnit items) (lex source) :=
    performs_compilationUnit
  have hleaves : Element.leavesList (items (lex source)).1 ++ (items (lex source)).2 = lex source := by
    simpa [wrap] using hperforms.leaves
  rw [(items_lex source).1] at hleaves
  have hrest : (wrap .compilationUnit items (lex source)).2 = [] := List.append_right_eq_self.mp hleaves
  have hrun := hperforms.exec {} (by simp [Builder.IsReady])
  rw [hrest] at hrun
  exact hrun

/-- **Every text is recognised without a failure and without a loss.**

Let a text be given. No token reaches past the end of the text. The procedures of the recogniser end on
the tokens of the text, with no token left, no node left open and exactly one node finished, which is
the tree of the text; this is their only outcome, so no request to the builder fails on the way. The
leaves of the tree are the tokens of the text in order, their texts concatenate to the text, and the
tree spells the text.

**Proof sketch.** Every procedure performs its production (`performs_compilationUnit`): sequences,
choices, nodes and loops of commands perform those of parsers, and a loop ends since each of its rounds
takes a token. The recursion of the procedures is unfolded by induction on the number of tokens. -/
theorem exec_compilationUnit :
    (∀ c rest, c :: rest <:+ source.toList → (Token.extent c rest).2 ≤ rest.length) ∧
    (∃ b : Builder,
      Exec (.call .compilationUnit) ⟨lex source, {}⟩ (some ⟨[], b⟩) ∧
      (∀ o, Exec (.call .compilationUnit) ⟨lex source, {}⟩ o → o = some ⟨[], b⟩) ∧
      b.pending = [] ∧ b.finish? = some (parse source)) ∧
    (parse source).leaves = lex source ∧
    String.join ((lex source).map Token.text) = source ∧
    (parse source).text = source := by
  refine ⟨fun c rest _ => Token.extent_le c rest, ?_, leaves_parse source, join_text_lex source, ?_⟩
  · exact ⟨_, exec_lex source, fun o ho => ho.unique (exec_lex source), rfl, rfl⟩
  · have hleaves : (parse source).toElement.leaves = lex source := leaves_parse source
    rw [Node.text, Element.text, hleaves, join_text_lex]

end TreeLint
