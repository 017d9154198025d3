import TreeLint.Proofs.Commuting
import TreeLint.Proofs.Procedures

/-!
# Productions see only real tokens

Every production commutes with stripping: it looks at the kinds of real tokens only, but for the
question mark behind a type, and it passes trivia on without looking at them. The productions are
written to a depth, which may be different with and without trivia, so the proofs go by induction on the
number of real tokens.

## Main definitions

* `TreeLint.Grammar.Expressing`, `TreeLint.Grammar.Inner.Taken` — parsers for inner expressions,
  statements and members that commute with stripping.

## Main results

* `TreeLint.Grammar.taking_typeRef`, `TreeLint.Grammar.commuting_expression`,
  `TreeLint.Grammar.taken_innerTo`, `TreeLint.Grammar.taking_item` — the four recursions.
* `TreeLint.parseTokens_strip` — the tree of stripped tokens is the stripped tree.
-/

namespace TreeLint

namespace Grammar

open Command (startsPrefix)

variable {ρ : String → String} {p p' : Parser} {ts us : List Token} {n d d' : Nat}

/-! ## Bracketed runs and lists -/

/-- A bracketed run counts the same brackets without trivia. -/
lemma rounds_balanced {opening closing : Kind} (depth : Option Nat) (us : List Token) :
    Rounds ρ us (balancedStep opening closing depth us)
      (balancedStep opening closing depth (Token.strip ρ us)) := by
  unfold balancedStep
  rw [peek_strip]
  cases depth with
  | none => exact .stop
  | some d =>
    cases hk : peek us with
    | none => exact .stop
    | some k =>
      have hbump : Takes ρ bump bump us := takes_bump (by simp [hk])
      exact .ite (fun _ => .go hbump) fun _ => .ite (fun _ => .go hbump) fun _ => .go hbump

/-- A bracketed run commutes with stripping. -/
lemma commuting_balanced {opening closing : Kind} :
    Commuting ρ n (balanced opening closing) (balanced opening closing) :=
  fun _ _ => .loop fun depth us _ => rounds_balanced depth us

/-- A bracketed run takes a real token if one is ahead. -/
lemma taking_balanced {opening closing : Kind} :
    Taking ρ n (balanced opening closing) (balanced opening closing) := by
  intro ts _ hpeek
  obtain ⟨κ, hκ⟩ := Option.isSome_iff_exists.mp hpeek
  obtain ⟨s, hs⟩ := balancedStep_eq_some opening closing 0 hκ
  refine .loop (fun depth us _ => rounds_balanced depth us) ?_
  intro hnone
  cases hs.symm.trans hnone

/-- A repetition up to a closing token. -/
lemma commuting_closedBy {closing : Kind} (h : Taking ρ n p p') :
    Commuting ρ n (closedBy closing p) (closedBy closing p') := by
  refine fun ts hts => .loop fun isOpen us hus => ?_
  simp only [peek_strip]
  cases isOpen with
  | false => exact .stop
  | true =>
    cases hk : peek us with
    | none => exact .stop
    | some k =>
      have hsome : (peek us).isSome = true := by simp [hk]
      exact .ite (fun _ => .go (takes_bump hsome)) fun _ => .go (h us (Nat.le_trans hus hts) hsome)

/-- A body between braces commutes with stripping if its members do. -/
lemma commuting_braced (h : Taking ρ n p p') : Commuting ρ n (braced p) (braced p') := by
  have hbody : Taking ρ n (bump ++ closedBy .rBrace p) (bump ++ closedBy .rBrace p') :=
    taking_bump.seq (commuting_closedBy h)
  exact fun ts hts => .choose (at_strip ts _)
    (fun hat => (hbody ts hts (isSome_of_at_ hat)).commutes) fun _ => commuting_eat ts hts

/-- Taking tokens as long as a test passes commutes with stripping if the test sees no trivia and no
names. -/
lemma commuting_repeatWhile_bump {test : List Token → Bool}
    (htest : ∀ us, test (Token.strip ρ us) = test us)
    (hsome : ∀ us, test us = true → (peek us).isSome = true) :
    Commuting ρ n (repeatWhile test bump) (repeatWhile test bump) :=
  taking_bump.repeatWhile htest hsome

/-! ## Types -/

/-- The arguments of a generic type commute with stripping if the types among them do. -/
lemma commuting_typeArguments {inner inner' : Parser} (hinner : Taking ρ n inner inner') :
    Commuting ρ n (typeArguments inner) (typeArguments inner') := by
  refine fun ts hts => .loop fun isOpen us hus => ?_
  simp only [peek_strip]
  cases isOpen with
  | false => exact .stop
  | true =>
    cases hk : peek us with
    | none => exact .stop
    | some k =>
      have hsome : (peek us).isSome = true := by simp [hk]
      have hbump : Takes ρ bump bump us := takes_bump hsome
      have htype := hinner us (Nat.le_trans hus hts) hsome
      cases k <;> first | exact .go hbump | exact .go htype | exact .stop

section Productions

variable (hρ : ∀ name, ρ name = "?" ↔ name = "?")

include hρ

/-- A type commutes with stripping if the types among its arguments do, which have fewer real tokens. -/
lemma taking_typeRefOver {inner inner' : Parser} (hinner : Taking ρ n inner inner') :
    Taking ρ (n + 1) (typeRefOver inner) (typeRefOver inner') := by
  have hpairs : ∀ κ κ', Commuting ρ n
      (repeatWhile (fun ts => at_ κ ts && peekSecond ts == some κ') (bump ++ bump))
      (repeatWhile (fun ts => at_ κ ts && peekSecond ts == some κ') (bump ++ bump)) := by
    intro κ κ'
    refine (taking_bump.seq commuting_bump).repeatWhile (by simp) fun us hat => ?_
    exact isSome_of_at_ (Bool.and_eq_true_iff.mp hat).1
  have harguments := (taking_bump.seq (commuting_typeArguments hinner)).whenAt .lt
  have hoptional : Commuting ρ n (when (atText "?") bump) (when (atText "?") bump) :=
    taking_bump.when (fun us => atText_strip us hρ) fun us hat => isSome_of_atText hat
  exact .node <| (((taking_bump.andThen (hpairs .dot .ident)).andThen harguments).andThen
    (hpairs .lBracket .rBracket)).andThen hoptional

/-- Types nested at most to two depths that are both enough. -/
lemma taking_typeRefTo (hd : n ≤ d) (hd' : n ≤ d') :
    Taking ρ n (typeRefTo d) (typeRefTo d') := by
  induction n generalizing d d' with
  | zero => exact taking_zero
  | succ n ih =>
    obtain ⟨d, rfl⟩ := Nat.exists_eq_add_of_le' hd
    obtain ⟨d', rfl⟩ := Nat.exists_eq_add_of_le' hd'
    exact taking_typeRefOver hρ (ih (Nat.le_add_left n d) (Nat.le_add_left n d'))

/-- **A type** commutes with stripping. -/
theorem taking_typeRef : Taking ρ n typeRef typeRef :=
  .of_depths fun hd hd' => taking_typeRefTo hρ hd hd'

/-- A type that may be absent commutes with stripping. -/
lemma commuting_optionalType :
    Commuting ρ n (when atTypeStart typeRef) (when atTypeStart typeRef) :=
  (taking_typeRef hρ).when (fun us => atTypeStart_strip us) fun _ hat => isSome_of_any hat

omit hρ in
/-- A list of parameters commutes with stripping. -/
lemma commuting_parameterList : Commuting ρ n parameterList parameterList :=
  (Taking.node taking_balanced).whenAt .lParen

/-! ## Expressions -/

/-- A parser commutes with stripping, and takes a real token where no expression ends. -/
def Expressing (ρ : String → String) (n : Nat) (p p' : Parser) : Prop := ∀ ts,
  Token.realCount ts ≤ n → Commutes ρ p p' ts ∧ (atExpressionEnd 0 ts = false → Takes ρ p p' ts)

omit hρ in
/-- What commutes with stripping as an expression does so at any tokens. -/
lemma Expressing.commuting (h : Expressing ρ n p p') : Commuting ρ n p p' := fun ts hts => (h ts hts).1

omit hρ in
/-- A token, or an expression if one starts at it. -/
lemma Expressing.taking (h : Expressing ρ n p p') :
    Taking ρ n (choose (atExpressionEnd 0) bump p) (choose (atExpressionEnd 0) bump p') :=
  fun ts hts hpeek => .choose (atExpressionEnd_strip ts 0) (fun _ => takes_bump hpeek) (h ts hts).2

omit hρ in
/-- A list of arguments commutes with stripping if the expressions in it do. -/
lemma taking_argumentListOver {inner inner' : Parser} (hinner : Expressing ρ n inner inner') :
    Taking ρ (n + 1) (argumentListOver inner) (argumentListOver inner') := by
  refine .node <| taking_bump.andThen fun ts hts => .loop fun isOpen us hus => ?_
  simp only [peek_strip]
  cases isOpen with
  | false => exact .stop
  | true =>
    cases hk : peek us with
    | none => exact .stop
    | some k =>
      have hsome : (peek us).isSome = true := by simp [hk]
      have hbump : Takes ρ bump bump us := takes_bump hsome
      have hitem := hinner.taking us (Nat.le_trans hus hts) hsome
      cases k <;> first | exact .go hbump | exact .go hitem | exact .stop

/-- An object creation commutes with stripping if the expressions among its arguments do. -/
lemma taking_objectCreationOver {inner inner' : Parser} (hinner : Expressing ρ n inner inner') :
    Taking ρ (n + 1) (objectCreationOver inner) (objectCreationOver inner') := by
  have harguments := ((taking_argumentListOver hinner).mono (Nat.le_succ n)).whenAt .lParen
  exact .node <| ((taking_bump.andThen (commuting_optionalType hρ)).andThen harguments).andThen
    (taking_balanced.whenAt .lBrace)

/-- The rounds of an expression. -/
lemma rounds_expression {inner inner' : Parser} (hinner : Expressing ρ n inner inner') (depth : Nat)
    (hus : Token.realCount us ≤ n + 1) :
    Rounds ρ us (expressionStep inner depth us) (expressionStep inner' depth (Token.strip ρ us)) := by
  unfold expressionStep
  rw [atExpressionEnd_strip, peek_strip]
  refine .ite (fun _ => .stop) fun hend => ?_
  have hsome := isSome_of_not_atExpressionEnd (Bool.eq_false_iff.mpr hend)
  have hbump : Takes ρ bump bump us := takes_bump hsome
  have hcreation := taking_objectCreationOver hρ hinner us hus hsome
  obtain ⟨k, hk⟩ := Option.isSome_iff_exists.mp hsome
  rw [hk]
  cases k <;> first | exact .go hbump | exact .go hcreation

/-- An expression commutes with stripping if those among the arguments of its object creations do, which
have fewer real tokens. -/
lemma expressing_expressionOver {inner inner' : Parser} (hinner : Expressing ρ n inner inner') :
    Expressing ρ (n + 1) (expressionOver inner) (expressionOver inner') := by
  intro ts hts
  rw [expressionOver_eq, expressionOver_eq]
  have hcount : Token.realCount (trivia ts).2 ≤ Token.realCount ts := realCount_trivia
  have hnode := fun hend : atExpressionEnd 0 ts = false => by
    have hfirst : expressionStep inner 0 (trivia ts).2 ≠ none :=
      expressionStep_ne_none (by rwa [atExpressionEnd_trivia])
    have hloop : Takes ρ (loop (expressionStep inner) 0) (loop (expressionStep inner') 0)
        (trivia ts).2 :=
      .loop (fun depth us hus => rounds_expression hρ hinner depth (by omega)) hfirst
    exact (hloop.wrap (k := .expression)).behind_trivia
  refine ⟨.choose (atExpressionEnd_strip ts 0) (fun _ => commutes_skip) fun hend =>
    (hnode hend).commutes, fun hend => ?_⟩
  exact .choose (atExpressionEnd_strip ts 0) (fun hat => by rw [hat] at hend; cases hend) hnode

omit hρ in
/-- Where an expression ends, there is none. -/
lemma expressionTo_of_end (hend : atExpressionEnd 0 ts = true) : expressionTo d ts = ([], ts) := by
  cases d with
  | zero => rfl
  | succ d => exact choose_of_true hend

/-- Expressions nested at most to two depths that are both enough. -/
lemma expressing_expressionTo (hd : n ≤ d) (hd' : n ≤ d') :
    Expressing ρ n (expressionTo d) (expressionTo d') := by
  induction n generalizing d d' with
  | zero =>
    intro ts hts
    have hnone := realCount_eq_zero_iff.mp (Nat.le_zero.mp hts)
    have hend : atExpressionEnd 0 ts = true := by simp [atExpressionEnd, hnone]
    refine ⟨commutes_skip.congr (expressionTo_of_end hend)
      (expressionTo_of_end (by rwa [atExpressionEnd_strip])), fun hnot => ?_⟩
    rw [hend] at hnot
    cases hnot
  | succ n ih =>
    obtain ⟨d, rfl⟩ := Nat.exists_eq_add_of_le' hd
    obtain ⟨d', rfl⟩ := Nat.exists_eq_add_of_le' hd'
    exact expressing_expressionOver hρ (ih (Nat.le_add_left n d) (Nat.le_add_left n d'))

/-- **An expression** commutes with stripping. -/
theorem expressing_expression : Expressing ρ n expression expression := by
  intro ts _
  have hdepth : Token.realCount ts ≤ ts.length := Token.realCount_le_length
  have hdepth' : Token.realCount ts ≤ (Token.strip ρ ts).length :=
    Nat.le_of_eq Token.length_strip.symm
  have h := expressing_expressionTo hρ hdepth hdepth' ts (Nat.le_refl _)
  exact ⟨h.1.congr rfl rfl, fun hend => (h.2 hend).congr rfl rfl⟩

/-- An expression commutes with stripping. -/
lemma commuting_expression : Commuting ρ n expression expression :=
  (expressing_expression hρ).commuting

/-- A list of arguments commutes with stripping and takes its bracket. -/
lemma taking_argumentList : Taking ρ n argumentList argumentList :=
  (taking_argumentListOver (expressing_expression hρ)).mono (Nat.le_succ n)

/-! ## Statements -/

/-- Parsers for inner statements and members that commute with stripping and take a real token. -/
structure Inner.Taken (ρ : String → String) (n : Nat) (inner inner' : Inner) : Prop where
  /-- A statement. -/
  statement : Taking ρ n inner.statement inner'.statement
  /-- A member. -/
  member : Taking ρ n inner.member inner'.member

variable {inner inner' : Inner} (hinner : inner.Taken ρ n inner')

omit hρ in
include hinner in
/-- A block commutes with stripping if inner statements and members do. -/
lemma taking_block : Taking ρ (n + 1) (block inner) (block inner') :=
  .node <| taking_bump.andThen (commuting_closedBy hinner.statement)

omit hρ in
include hinner in
/-- A block that may be absent commutes with stripping if inner statements and members do. -/
lemma commuting_optionalBlock : Commuting ρ (n + 1) (optionalBlock inner) (optionalBlock inner') :=
  (taking_block hinner).whenAt .lBrace

include hinner in
/-- A handler commutes with stripping if inner statements and members do. -/
lemma taking_catchClause : Taking ρ (n + 1) (catchClause inner) (catchClause inner') := by
  have hdeclaration : Taking ρ n catchDeclaration catchDeclaration :=
    .node <| ((taking_bump.seq (commuting_optionalType hρ)).seq commuting_eat).seq commuting_eat
  have hcondition : Taking ρ n (bump ++ expression ++ eat .rParen)
      (bump ++ expression ++ eat .rParen) :=
    (taking_bump.seq (commuting_expression hρ)).seq commuting_eat
  have hfilter : Taking ρ n catchFilter catchFilter :=
    .node <| taking_bump.seq (hcondition.whenAt .lParen)
  exact .node <| ((taking_bump.andThen (hdeclaration.whenAt .lParen)).andThen
    (hfilter.whenAt .whenKw)).andThen ((commuting_optionalBlock hinner).mono (Nat.le_succ n))

include hinner in
/-- A guarded block commutes with stripping if inner statements and members do. -/
lemma taking_tryStatement : Taking ρ (n + 1) (tryStatement inner) (tryStatement inner') := by
  have hblock := (commuting_optionalBlock hinner).mono (Nat.le_succ n)
  have hclauses := (taking_catchClause hρ hinner).mono (Nat.le_succ n)
  have hfinally : Taking ρ n (finallyClause inner) (finallyClause inner') :=
    .node <| taking_bump.seq hblock
  exact .node <| ((taking_bump.andThen hblock).andThen (hclauses.repeatAt .catchKw)).andThen
    (hfinally.whenAt .finallyKw)

/-- A statement that throws or returns commutes with stripping. -/
lemma taking_keywordStatement (k : Kind) : Taking ρ n (keywordStatement k) (keywordStatement k) :=
  .node <| (taking_bump.seq (commuting_expression hρ)).seq commuting_eat

/-- An expression as a statement commutes with stripping. -/
lemma taking_expressionStatement : Taking ρ n expressionStatement expressionStatement :=
  .node <| (expressing_expression hρ).taking.seq commuting_eat

/-! ## Members -/

omit hρ in
/-- The body of a member is chosen by the kind of the next real token. -/
lemma memberBody_eq (inner : Inner) : memberBody inner = select fun
    | some .lBrace => block inner
    | some .fatArrow => bump ++ expression ++ eat .semicolon
    | some .semicolon => bump
    | _ => skip := by
  funext ts
  unfold memberBody select
  rcases peek ts with _ | k
  · rfl
  · cases k <;> rfl

omit hρ in
/-- Attributes and modifiers commute with stripping. -/
lemma commuting_memberPrefix : Commuting ρ n memberPrefix memberPrefix :=
  (taking_balanced.repeatAt .lBracket).seq
    (commuting_repeatWhile_bump (by simp) fun _ hat => isSome_of_any hat)

omit hρ in
/-- Attributes and modifiers are seen ahead without trivia as with them. -/
lemma startsPrefix_strip : startsPrefix (Token.strip ρ ts) = startsPrefix ts := by
  rw [startsPrefix, at_strip, peek_strip, startsPrefix]

omit hρ in
/-- Attribute lists and modifiers, if there are any ahead. -/
lemma takes_memberPrefix (h : startsPrefix ts = true) : Takes ρ memberPrefix memberPrefix ts := by
  have hmodifiers : Commuting ρ (Token.realCount ts)
      (repeatWhile (fun ts => (peek ts).any Kind.isModifier) bump)
      (repeatWhile (fun ts => (peek ts).any Kind.isModifier) bump) :=
    commuting_repeatWhile_bump (by simp) fun _ hat => isSome_of_any hat
  have hattribute : Taking ρ (Token.realCount ts) (balanced .lBracket .rBracket)
      (balanced .lBracket .rBracket) := taking_balanced
  cases hbracket : at_ .lBracket ts with
  | true =>
    have hattributes := hattribute.takes_repeatWhile (fun us => at_strip us .lBracket)
      (fun _ hat => isSome_of_at_ hat) (Nat.le_refl _) hbracket
    exact hattributes.seq (hmodifiers _ hattributes.commutes.realCount_le)
  | false =>
    have hmodifier : (peek ts).any Kind.isModifier = true := by simpa [startsPrefix, hbracket] using h
    have hnone : repeatWhile (at_ .lBracket) (balanced .lBracket .rBracket) ts = ([], ts) :=
      repeatWhile_of_false hbracket
    have hfirst : Takes ρ (repeatWhile (fun ts => (peek ts).any Kind.isModifier) bump)
        (repeatWhile (fun ts => (peek ts).any Kind.isModifier) bump) ts :=
      taking_bump.takes_repeatWhile (by simp) (fun _ hat => isSome_of_any hat) (Nat.le_refl _) hmodifier
    refine ⟨commuting_memberPrefix ts (Nat.le_refl _), ?_⟩
    rw [memberPrefix, append_apply, hnone]
    exact hfirst.realCount_lt

omit hρ in
/-- A list of type parameters commutes with stripping. -/
lemma taking_typeParameterList : Taking ρ n typeParameterList typeParameterList := by
  refine .node <| taking_bump.seq fun ts _ => .loop fun isOpen us _ => ?_
  simp only [peek_strip]
  cases isOpen with
  | false => exact .stop
  | true =>
    cases hk : peek us with
    | none => exact .stop
    | some k =>
      have hbump : Takes ρ bump bump us := takes_bump (by simp [hk])
      cases k <;> first | exact .go hbump | exact .stop

/-- A list of base types commutes with stripping. -/
lemma taking_baseList : Taking ρ n baseList baseList := by
  have hbase : Taking ρ n (choose atTypeStart typeRef bump) (choose atTypeStart typeRef bump) :=
    fun us hus hsome => .choose (atTypeStart_strip us) (fun _ => taking_typeRef hρ us hus hsome)
      fun _ => takes_bump hsome
  refine .node <| taking_bump.seq <| hbase.repeatWhile (by simp) fun us hat => ?_
  rcases Bool.or_eq_true _ _ ▸ hat with hat | hat
  · exact isSome_of_any hat
  · exact isSome_of_at_ hat

include hinner in
/-- A class from its keyword on commutes with stripping if inner members do. -/
lemma taking_classRest : Taking ρ (n + 1) (classRest inner) (classRest inner') :=
  ((((taking_bump.andThen commuting_eat).andThen (taking_typeParameterList.whenAt .lt)).andThen
    ((taking_baseList hρ).whenAt .colon)).andThen
    (commuting_repeatWhile_bump (by simp) fun _ hat => isSome_of_isSome_and hat)).andThen
    (commuting_braced hinner.member)

include hinner in
/-- The body of a member commutes with stripping if inner statements and members do. -/
lemma commuting_memberBody : Commuting ρ n (memberBody inner) (memberBody inner') := by
  intro ts hts
  have hblock := (taking_block hinner).mono (Nat.le_succ n) ts hts
  have hexpression := (commuting_bump.seq (commuting_expression hρ)).seq
    (commuting_eat (κ := .semicolon)) ts hts
  rw [memberBody_eq, memberBody_eq]
  refine .select ?_
  cases hk : peek ts with
  | none => exact commutes_skip
  | some k =>
    have hblock := (hblock (by simp [hk])).commutes
    cases k <;> first
      | exact commutes_skip
      | exact commutes_bump
      | exact hexpression
      | exact hblock

include hinner in
/-- A constructor from its name on commutes with stripping if its body does. -/
lemma taking_constructorRest :
    Taking ρ (n + 1) (constructorRest inner) (constructorRest inner') := by
  have hkeyword : Commuting ρ n (when (atAny [.baseKw, .thisKw]) bump)
      (when (atAny [.baseKw, .thisKw]) bump) :=
    taking_bump.when (fun us => atAny_strip us _) fun _ hat => isSome_of_any hat
  have hinit := ((taking_bump.seq hkeyword).seq ((taking_argumentList hρ).whenAt .lParen)).whenAt .colon
  exact ((taking_bump.andThen commuting_parameterList).andThen hinit).andThen
    (commuting_memberBody hρ hinner)

include hinner in
/-- What follows the name of a method commutes with stripping if its body does. -/
lemma commuting_methodRest : Commuting ρ n (methodRest inner) (methodRest inner') :=
  (((taking_typeParameterList.whenAt .lt).seq commuting_parameterList).seq
    (commuting_repeatWhile_bump (by simp) fun _ hat => isSome_of_isSome_and hat)).seq
    (commuting_memberBody hρ hinner)

/-- The accessors of a property commute with stripping. -/
lemma commuting_accessorsRest : Commuting ρ n accessorsRest accessorsRest :=
  commuting_balanced.seq
    (((taking_bump.seq (commuting_expression hρ)).seq commuting_eat).whenAt .equals)

/-- What follows the name of a field commutes with stripping. -/
lemma commuting_fieldRest : Commuting ρ n fieldRest fieldRest := by
  have hinit : Commuting ρ n initializer initializer :=
    (taking_bump.seq (commuting_expression hρ)).whenAt .equals
  exact (hinit.seq (((taking_bump.seq commuting_eat).seq hinit).repeatAt .comma)).seq commuting_eat

include hinner in
/-- Behind the name of a member with a type, the same node is chosen. -/
lemma commutes_typedMember (us : List Token) (hus : Token.realCount us ≤ n) :
    (typedMember inner' (Token.strip ρ us)).1 = (typedMember inner us).1 ∧
      Commutes ρ (typedMember inner us).2 (typedMember inner' (Token.strip ρ us)).2 us := by
  have hmethod := commuting_methodRest hρ hinner us hus
  have haccessors := commuting_accessorsRest hρ us hus
  have hbody := commuting_memberBody hρ hinner us hus
  have hfield := commuting_fieldRest hρ us hus
  unfold typedMember
  rw [peek_strip]
  rcases peek us with _ | k
  · exact ⟨rfl, hfield⟩
  · cases k <;> first
      | exact ⟨rfl, hfield⟩
      | exact ⟨rfl, hmethod⟩
      | exact ⟨rfl, haccessors⟩
      | exact ⟨rfl, hbody⟩

omit hρ in
/-- Where no declaration follows, attributes and modifiers stay as they are, and so does another
token. -/
lemma takes_other (hpeek : (peek ts).isSome = true) :
    Takes ρ (choose (fun ts => (memberPrefix ts).1.isEmpty) bump memberPrefix)
      (choose (fun ts => (memberPrefix ts).1.isEmpty) bump memberPrefix) ts := by
  have hempty : ∀ us, (memberPrefix us).1.isEmpty = !startsPrefix us := by
    intro us
    cases h : startsPrefix us with
    | true => simpa using (advances_memberPrefix h).ne_nil
    | false => simp [memberPrefix_of_false h]
  refine .choose (by rw [hempty, hempty, startsPrefix_strip]) (fun _ => takes_bump hpeek) fun h => ?_
  refine takes_memberPrefix ?_
  simpa [hempty] using h

include hinner in
/-- A member declaration commutes with stripping if inner statements and members do. -/
lemma taking_declarationOver :
    Taking ρ (n + 1) (declarationOver inner) (declarationOver inner') := by
  intro ts hts hpeek
  have hfront : Commutes ρ memberPrefix memberPrefix ts := commuting_memberPrefix ts (Nat.le_refl _)
  have hle := Nat.le_trans hfront.realCount_le hts
  have hother : Takes ρ _ _ ts := takes_other hpeek
  have hfirst : peek (memberPrefix (Token.strip ρ ts)).2 = peek (memberPrefix ts).2 := by
    rw [← hfront.rest, peek_strip]
  have hsecond : peekSecond (memberPrefix (Token.strip ρ ts)).2 = peekSecond (memberPrefix ts).2 := by
    rw [← hfront.rest, peekSecond_strip]
  cases hk : peek (memberPrefix ts).2 with
  | none =>
    exact hother.congr (by simp only [declarationOver, hk]) (by simp only [declarationOver, hfirst, hk])
  | some k =>
    have hsome : (peek (memberPrefix ts).2).isSome = true := by simp [hk]
    by_cases hclass : k.isTypeKeyword = true
    · have hcontent := taking_classRest hρ hinner _ hle hsome
      exact ((hfront.takes_seq hcontent).wrap (k := .classDeclaration)).congr
        (by simp only [declarationOver, hk, if_pos hclass])
        (by simp only [declarationOver, hfirst, hk, if_pos hclass])
    by_cases hconstructor : k = .ident ∧ peekSecond (memberPrefix ts).2 = some .lParen
    · have hcontent := taking_constructorRest hρ hinner _ hle hsome
      exact ((hfront.takes_seq hcontent).wrap (k := .constructorDeclaration)).congr
        (by simp only [declarationOver, hk, if_neg hclass, if_pos hconstructor])
        (by simp only [declarationOver, hfirst, hsecond, hk, if_neg hclass, if_pos hconstructor])
    by_cases htype : isTypeStart k = true
    · have hname : Takes ρ (typeRef ++ eat .ident) (typeRef ++ eat .ident) (memberPrefix ts).2 :=
        (taking_typeRef hρ).seq commuting_eat _ (Nat.le_refl _) hsome
      have hlt := hname.realCount_lt
      obtain ⟨hkind, htail⟩ :=
        commutes_typedMember hρ hinner ((typeRef ++ eat .ident) (memberPrefix ts).2).2 (by omega)
      rw [hname.commutes.rest, hfront.rest] at hkind htail
      refine (((hfront.takes_seq hname).seq htail).wrap
        (k := (typedMember inner ((typeRef ++ eat .ident) (memberPrefix ts).2).2).1)).congr
        (by simp only [declarationOver, hk, if_neg hclass, if_neg hconstructor, if_pos htype]) ?_
      simp only [declarationOver, hfirst, hsecond, hk, if_neg hclass, if_neg hconstructor, if_pos htype,
        hkind]
    · exact hother.congr
        (by simp only [declarationOver, hk, if_neg hclass, if_neg hconstructor, if_neg htype])
        (by simp only [declarationOver, hfirst, hsecond, hk, if_neg hclass, if_neg hconstructor,
          if_neg htype])

include hinner in
/-- A member commutes with stripping if inner statements and members do. -/
lemma taking_memberOver : Taking ρ (n + 1) (memberOver inner) (memberOver inner') :=
  (taking_declarationOver hρ hinner).behind_trivia

/-! ## Closing the recursion -/

omit hρ in
/-- A statement is chosen by the kind of the next real token. -/
lemma statementOver_eq (inner : Inner) : statementOver inner = select fun
    | none => skip
    | some .lBrace => block inner
    | some .tryKw => tryStatement inner
    | some .throwKw => keywordStatement .throwStatement
    | some .returnKw => keywordStatement .returnStatement
    | some .semicolon | some .rParen | some .rBracket | some .rBrace | some .comma => bump
    | some k => if k.isModifier || k.isTypeKeyword then memberOver inner else expressionStatement := by
  funext ts
  unfold statementOver select
  rcases peek ts with _ | k
  · rfl
  · cases k <;> rfl

include hinner in
/-- A statement commutes with stripping if inner statements and members do. -/
lemma taking_statementOver : Taking ρ (n + 1) (statementOver inner) (statementOver inner') := by
  intro ts hts hpeek
  have hbump : Takes ρ bump bump ts := takes_bump hpeek
  have hexpression := taking_expressionStatement hρ ts hts hpeek
  have hmember := taking_memberOver hρ hinner ts hts hpeek
  have hkeyword := fun k => taking_keywordStatement hρ k ts hts hpeek
  have hblock := taking_block hinner ts hts hpeek
  have htry := taking_tryStatement hρ hinner ts hts hpeek
  rw [statementOver_eq, statementOver_eq]
  refine .select ?_
  obtain ⟨k, hk⟩ := Option.isSome_iff_exists.mp hpeek
  rw [hk]
  cases k <;> first
    | exact hexpression
    | exact hbump
    | exact hmember
    | exact hkeyword _
    | exact hblock
    | exact htry

/-- Statements and members nested at most to two depths that are both enough. -/
lemma taken_innerTo (hd : n ≤ d) (hd' : n ≤ d') : (innerTo d).Taken ρ n (innerTo d') := by
  induction n generalizing d d' with
  | zero => exact ⟨taking_zero, taking_zero⟩
  | succ n ih =>
    obtain ⟨d, rfl⟩ := Nat.exists_eq_add_of_le' hd
    obtain ⟨d', rfl⟩ := Nat.exists_eq_add_of_le' hd'
    have hinner := ih (Nat.le_add_left n d) (Nat.le_add_left n d')
    exact ⟨taking_statementOver hρ hinner, taking_memberOver hρ hinner⟩

/-- **A statement** commutes with stripping. -/
theorem taking_statement : Taking ρ n statement statement :=
  .of_depths (f := fun d => (innerTo d).statement) fun hd hd' => (taken_innerTo hρ hd hd').statement

/-- **A member** commutes with stripping. -/
theorem taking_member : Taking ρ n member member :=
  .of_depths (f := fun d => (innerTo d).member) fun hd hd' => (taken_innerTo hρ hd hd').member

/-! ## Items -/

omit hρ in
/-- A using directive commutes with stripping. -/
lemma taking_usingDirective : Taking ρ n usingDirective usingDirective :=
  .node <| (taking_bump.seq
    (commuting_repeatWhile_bump (by simp) fun _ hat => isSome_of_isSome_and hat)).seq commuting_eat

omit hρ in
/-- A namespace commutes with stripping if the items in it do. -/
lemma taking_namespaceOver {inner inner' : Parser} (hinner : Taking ρ n inner inner') :
    Taking ρ (n + 1) (namespaceOver inner) (namespaceOver inner') :=
  .node <| (taking_bump.andThen
    (commuting_repeatWhile_bump (by simp) fun _ hat => isSome_of_any hat)).andThen
    (commuting_braced hinner)

omit hρ in
/-- An item is chosen by the kind of the next real token. -/
lemma itemOver_eq (inner : Parser) : itemOver inner = select fun
    | some .usingKw => usingDirective
    | some .namespaceKw => namespaceOver inner
    | some k => if k.isModifier || k.isTypeKeyword || k == .lBracket then member else statement
    | none => skip := by
  funext ts
  unfold itemOver select
  rcases peek ts with _ | k
  · rfl
  · cases k <;> rfl

/-- An item commutes with stripping if inner ones do, which have fewer real tokens. -/
lemma taking_itemOver {inner inner' : Parser} (hinner : Taking ρ n inner inner') :
    Taking ρ (n + 1) (itemOver inner) (itemOver inner') := by
  intro ts hts hpeek
  have husing : Takes ρ usingDirective usingDirective ts := taking_usingDirective ts hts hpeek
  have hnamespace := taking_namespaceOver hinner ts hts hpeek
  have hmember := taking_member hρ ts hts hpeek
  have hstatement := taking_statement hρ ts hts hpeek
  rw [itemOver_eq, itemOver_eq]
  refine .select ?_
  obtain ⟨k, hk⟩ := Option.isSome_iff_exists.mp hpeek
  rw [hk]
  cases k <;> first
    | exact hstatement
    | exact hmember
    | exact husing
    | exact hnamespace

/-- Items nested at most to two depths that are both enough. -/
lemma taking_itemTo (hd : n ≤ d) (hd' : n ≤ d') : Taking ρ n (itemTo d) (itemTo d') := by
  induction n generalizing d d' with
  | zero => exact taking_zero
  | succ n ih =>
    obtain ⟨d, rfl⟩ := Nat.exists_eq_add_of_le' hd
    obtain ⟨d', rfl⟩ := Nat.exists_eq_add_of_le' hd'
    exact taking_itemOver hρ (ih (Nat.le_add_left n d) (Nat.le_add_left n d'))

/-- **An item** commutes with stripping. -/
theorem taking_item : Taking ρ n item item := .of_depths fun hd hd' => taking_itemTo hρ hd hd'

/-- The items of a unit commute with stripping. -/
lemma commutes_items : Commutes ρ items items ts := by
  have hitems : Commuting ρ (Token.realCount ts) (repeatWhile (fun ts => (peek ts).isSome) item)
      (repeatWhile (fun ts => (peek ts).isSome) item) :=
    (taking_item hρ).repeatWhile (by simp) fun _ hat => hat
  exact (hitems ts (Nat.le_refl _)).seq commutes_trivia

end Productions

end Grammar

/-- **The tree of stripped tokens is the stripped tree.** A renaming that neither makes a question mark
of a name nor replaces one can be applied to the tokens or to the tree, and the trivia can be left out
before the tokens are recognised or afterwards. -/
theorem parseTokens_strip {ρ : String → String} (hρ : ∀ name, ρ name = "?" ↔ name = "?")
    (ts : List Token) : parseTokens (Token.strip ρ ts) = (parseTokens ts).strip ρ := by
  have hitems : Grammar.Commutes ρ Grammar.items Grammar.items ts := Grammar.commutes_items hρ
  rw [parseTokens, ← hitems.elements .compilationUnit]
  rfl

end TreeLint
