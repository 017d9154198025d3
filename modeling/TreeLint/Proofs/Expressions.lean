import TreeLint.Grammar.Expression
import TreeLint.Proofs.Parsing

/-!
# Soundness of types and expressions

Types and expressions contain each other's parts to any depth. The depth to which a parser goes is
enough for as many tokens, and one token is taken before an inner occurrence starts, so the proofs
go by induction on the depth.

## Main results

* `TreeLint.Grammar.sound_typeRef` — a type.
* `TreeLint.Grammar.sound_expression`, `TreeLint.Grammar.moves_expression` — an expression.
* `TreeLint.Grammar.sound_argumentList`, `TreeLint.Grammar.sound_parameterList` — lists of arguments
  and parameters.
-/

namespace TreeLint.Grammar

open Element

variable {ts us : List Token} {κ : Kind} {n d : Nat}

/-! ## Looking ahead -/

/-- Where a token of a given kind is next, a real one is. -/
lemma isSome_of_at_ (h : at_ κ ts = true) : (peek ts).isSome = true := by
  rw [peek_of_at_ h]
  rfl

/-- A node that is sound where a real token is ahead, if a certain token is ahead. -/
lemma free_when_at_ {k : Kind} {p : Parser} (κ : Kind) (hk : k ≠ .catchClause ∧ k ≠ .finallyClause)
    (hp : ∀ us, Within n us → (peek us).isSome = true → p.Sound (Makes k) us) :
    (when (at_ κ) p).Free n :=
  .when fun us hus hat => (hp us hus (isSome_of_at_ hat)).mono fun _ he => he.isFree hk

/-- A token and what follows it, if the token is ahead. -/
lemma free_when_enters {p : Parser} (κ : Kind)
    (hp : ∀ us, Within (n + 1) us → (peek us).isSome = true → p.Enters n us) :
    (when (at_ κ) p).Free n :=
  .when fun us hus hat => (hp us hus.succ (isSome_of_at_ hat)).1

/-- Where the next real token passes a test, there is one. -/
lemma isSome_of_any {f : Kind → Bool} (h : (peek ts).any f = true) : (peek ts).isSome = true := by
  cases hpeek : peek ts with
  | none => simp [hpeek] at h
  | some k => rfl

/-- Where a token with a given text is next, a real one is. -/
lemma isSome_of_atText {text : String} (h : atText text ts = true) : (peek ts).isSome = true := by
  cases hpeek : peekToken? ts with
  | none => simp [atText, hpeek] at h
  | some t => simp [peek, hpeek]

/-- The second token from here is the next one behind the first. -/
lemma peek_bump (hpeek : peek ts = some κ) : peek (bump ts).2 = peekSecond ts := by
  obtain ⟨tr, t, us, rfl, htr, rfl, ht⟩ := exists_of_peek_eq_some hpeek
  have hfilter : (tr ++ t :: us).filter (fun t => !t.kind.isTrivia) =
      t :: us.filter fun t => !t.kind.isTrivia := by
    rw [List.filter_append, List.filter_eq_nil_iff.mpr (by simpa using htr)]
    simp [ht]
  rw [bump_append htr ht, peekSecond, hfilter, peek, peekToken?, List.getElem?_cons_succ,
    ← List.head?_eq_getElem?, List.head?_filter]

/-- Two real tokens ahead can be taken. -/
lemma free_bump_bump (h : Within n ts) (hpeek : (peek ts).isSome = true)
    (hsecond : (peekSecond ts).isSome = true) : (bump ++ bump).Sound IsFree ts := by
  obtain ⟨κ, hκ⟩ := Option.isSome_iff_exists.mp hpeek
  have hsound := free_bump h.plain hpeek
  exact hsound.andThen (free_bump (fun t ht => h.plain t (hsound.suffix.subset ht))
    (by rw [peek_bump hκ]; exact hsecond))

/-! ## Bracketed runs -/

/-- The step of a bracketed run. -/
def balancedStep (opening closing : Kind) (depth : Option Nat) (ts : List Token) :
    Option (Parser × Option Nat) :=
  match depth, peek ts with
  | none, _ => none
  | some _, none => none
  | some d, some k =>
    if k = opening then some (bump, some (d + 1))
    else if k = closing then some (bump, if d ≤ 1 then none else some (d - 1))
    else some (bump, some d)

/-- A bracketed run is a loop that counts the brackets that are open. -/
lemma balanced_eq (opening closing : Kind) :
    balanced opening closing = loop (balancedStep opening closing) (some 0) := rfl

/-- Before its end is reached, a bracketed run takes any token. -/
lemma balancedStep_eq_some (opening closing : Kind) (d : Nat) (hpeek : peek ts = some κ) :
    ∃ s, balancedStep opening closing (some d) ts = some (bump, s) := by
  simp only [balancedStep, hpeek]
  split_ifs <;> exact ⟨_, rfl⟩

/-- A bracketed run takes nothing but real tokens, one in each round. -/
lemma eq_bump_of_balancedStep {opening closing : Kind} {s s' : Option Nat} {p : Parser}
    (h : balancedStep opening closing s ts = some (p, s')) : p = bump ∧ ∃ k, peek ts = some k := by
  cases s with
  | none => cases h
  | some d =>
    cases hpeek : peek ts with
    | none => simp [balancedStep, hpeek] at h
    | some k =>
      obtain ⟨s'', hs⟩ := balancedStep_eq_some opening closing d hpeek
      rw [hs] at h
      exact ⟨by cases h; rfl, k, rfl⟩

/-- An element that is a token and does not belong to a handler. -/
def IsLoose (e : Element) : Prop := e.IsFree ∧ ∃ t, e = .token t

/-- Taking the next real token makes tokens that do not belong to a handler. -/
lemma loose_bump (hplain : ∀ t ∈ ts, t.IsPlain) (hpeek : peek ts = some κ) :
    bump.Sound IsLoose ts := sound_bump hplain hpeek fun t ht _ => ⟨isFree_token ht, t, rfl⟩

/-- A bracketed run is sound and consists of tokens. -/
lemma loose_balanced (hplain : ∀ t ∈ ts, t.IsPlain) (opening closing : Kind) :
    (balanced opening closing).Sound IsLoose ts := by
  rw [balanced_eq]
  refine sound_loop fun s us p s' hus hstep => ?_
  obtain ⟨rfl, k, hk⟩ := eq_bump_of_balancedStep hstep
  exact loose_bump (fun t ht => hplain t (hus.subset ht)) hk

/-- A bracketed run takes something if a real token is ahead. -/
lemma moves_balanced {opening closing : Kind} (hplain : ∀ t ∈ ts, t.IsPlain)
    (hpeek : peek ts = some κ) : (balanced opening closing).Moves ts := by
  rw [balanced_eq]
  obtain ⟨s, hs⟩ := balancedStep_eq_some opening closing 0 hpeek
  refine moves_loop (P := IsLoose) (fun s us p s' hus hstep => ?_) hs (moves_bump hpeek)
  obtain ⟨rfl, k, hk⟩ := eq_bump_of_balancedStep hstep
  exact loose_bump (fun t ht => hplain t (hus.subset ht)) hk

/-- A bracketed run begins with a token, as any node may. -/
lemma begins_balanced {opening closing k : Kind} {t : Token} {vs : List Token}
    (hplain : ∀ u ∈ t :: vs, u.IsPlain) (ht : t.kind.isTrivia = false) :
    (balanced opening closing).Begins k (t :: vs) :=
  have hsound := loose_balanced hplain opening closing
  .of_tokens hsound ht (hsound.ne_nil_of_moves (moves_balanced hplain (peek_cons ht vs)))
    fun _ h => h.2

/-- A bracketed run is sound everywhere. -/
lemma free_balanced {opening closing : Kind} : (balanced opening closing).Free n :=
  fun _ h => (loose_balanced h.plain opening closing).mono fun _ he => he.1

/-- A parenthesised list of parameters. -/
theorem sound_parameterList (hplain : ∀ t ∈ ts, t.IsPlain) :
    parameterList.Sound (Makes .parameterList) ts := by
  refine sound_when fun hat => ?_
  refine sound_freeNode_of_isSome rfl (by decide) (by decide) (.of_plain hplain) (isSome_of_at_ hat)
    fun t vs hw ht => ?_
  exact ⟨(loose_balanced hw.plain _ _).mono fun _ he => he.1, begins_balanced hw.plain ht⟩

/-! ## Types -/

/-- What takes a real token first begins as any node may. -/
lemma begins_bump_append {k : Kind} {t : Token} {vs : List Token} (ht : t.kind.isTrivia = false)
    {q : Parser} : (bump ++ q).Begins k (t :: vs) := (Parser.Begins.bump ht).andThen

/-- The arguments of a generic type are sound if the types among them are. -/
lemma free_typeArguments {inner : Parser}
    (hinner : ∀ us, Within n us → (peek us).isSome = true → inner.Sound (Makes .typeRef) us) :
    (typeArguments inner).Free n := by
  intro ts h
  refine sound_loop fun isOpen us p isOpen' hus hstep => ?_
  have hw := h.suffix hus
  split at hstep
  · cases hstep
  · rename_i hk
    obtain ⟨rfl, -⟩ := by simpa using hstep
    exact free_bump hw.plain (by simp [hk])
  · rename_i hk
    obtain ⟨rfl, -⟩ := by simpa using hstep
    exact free_bump hw.plain (by simp [hk])
  · rename_i k hk
    split at hstep
    · obtain ⟨rfl, -⟩ := by simpa using hstep
      exact (hinner us hw (by simp [hk])).mono fun e he => he.isFree (by decide)
    · cases hstep
  · cases hstep

/-- A type is sound if the types among its arguments are, which have fewer tokens. -/
lemma sound_typeRefOver {inner : Parser} (h : Within (n + 1) ts) (hpeek : (peek ts).isSome = true)
    (hinner : ∀ us, Within n us → (peek us).isSome = true → inner.Sound (Makes .typeRef) us) :
    (typeRefOver inner).Sound (Makes .typeRef) ts := by
  refine sound_freeNode_of_isSome rfl (by decide) (by decide) h hpeek fun t vs hw ht => ?_
  have hdots : ∀ κ κ', (repeatWhile (fun ts => at_ κ ts && peekSecond ts == some κ')
      (bump ++ bump)).Free n := by
    intro κ κ'
    refine .repeatWhile fun us hus htest => ?_
    simp only [Bool.and_eq_true, beq_iff_eq] at htest
    exact free_bump_bump hus (isSome_of_at_ htest.1) (by simp [htest.2])
  have harguments : (when (at_ .lt) (bump ++ typeArguments inner)).Free n := by
    refine .when fun us hus hat => ?_
    have hbump := free_bump hus.plain (isSome_of_at_ hat)
    exact hbump.andThen (free_typeArguments hinner _ (hus.suffix hbump.suffix))
  have hoptional : (when (atText "?") bump).Free n :=
    .when fun us hus hat => free_bump hus.plain (isSome_of_atText hat)
  have henters := ((((Parser.Enters.bump hw (by simp [peek_cons ht])).andThen
    (hdots .dot .ident)).andThen harguments).andThen (hdots .lBracket .rBracket)).andThen hoptional
  exact ⟨henters.1, (begins_bump_append ht).andThen.andThen.andThen⟩

/-- Types nested to a given depth are sound at no more tokens than the depth. -/
lemma sound_typeRefTo (h : Within d ts) (hpeek : (peek ts).isSome = true) :
    (typeRefTo d).Sound (Makes .typeRef) ts := by
  induction d generalizing ts with
  | zero =>
    obtain rfl : ts = [] := List.length_eq_zero_iff.mp (Nat.le_zero.mp h.length_le)
    cases hpeek
  | succ d ih => exact (sound_typeRefOver h hpeek fun us hus => ih hus).congr rfl

/-- A type, where a real token is ahead. -/
theorem sound_typeRef (hplain : ∀ t ∈ ts, t.IsPlain) (hpeek : (peek ts).isSome = true) :
    typeRef.Sound (Makes .typeRef) ts :=
  (sound_typeRefTo ⟨Nat.le_refl _, hplain⟩ hpeek).congr rfl

/-- A type takes something, where a real token is ahead. -/
theorem moves_typeRef (hplain : ∀ t ∈ ts, t.IsPlain) (hpeek : (peek ts).isSome = true) :
    typeRef.Moves ts := by
  obtain ⟨κ, hκ⟩ := Option.isSome_iff_exists.mp hpeek
  obtain ⟨d, hd⟩ : ∃ d, ts.length = d + 1 := by
    cases ts with
    | nil => cases hκ
    | cons t ts => exact ⟨ts.length, rfl⟩
  have heq : typeRef ts = typeRefOver (typeRefTo d) ts := by rw [typeRef, hd]; rfl
  have hmoves := moves_of_makes ((sound_typeRef hplain hpeek).congr heq.symm) hκ
  unfold Parser.Moves at hmoves ⊢
  rwa [heq]

/-- A type that may be absent is sound everywhere. -/
lemma free_optionalType : (when atTypeStart typeRef).Free n := .when fun _ hus hat =>
  (sound_typeRef hus.plain (isSome_of_any hat)).mono fun _ he => he.isFree (by decide)

/-! ## Expressions -/

/-- Where an expression goes on, a real token is ahead. -/
lemma isSome_of_not_atExpressionEnd (h : atExpressionEnd d ts = false) :
    (peek ts).isSome = true := by
  cases hpeek : peek ts with
  | none => simp [atExpressionEnd, hpeek] at h
  | some k => rfl

/-- A list of arguments is sound if the expressions in it are. -/
lemma free_argumentListOver {inner : Parser} (hinner : inner.Free n) (h : Within (n + 1) ts)
    (hpeek : (peek ts).isSome = true) : (argumentListOver inner).Sound (Makes .argumentList) ts := by
  refine sound_freeNode_of_isSome rfl (by decide) (by decide) h hpeek fun t vs hw ht => ?_
  refine ⟨((Parser.Enters.bump hw (by simp [peek_cons ht])).andThen fun us hus => ?_).1,
    begins_bump_append ht⟩
  refine sound_loop fun isOpen us' p isOpen' hus' hstep => ?_
  have hw' := hus.suffix hus'
  split at hstep <;> try cases hstep
  · rename_i hk
    exact free_bump hw'.plain (by simp [hk])
  · rename_i hk
    exact free_bump hw'.plain (by simp [hk])
  · rename_i hk
    exact sound_choose (fun _ => free_bump hw'.plain (by simp [hk])) fun _ => hinner _ hw'

/-- An object creation is sound if the expressions among its arguments are. -/
lemma sound_objectCreationOver {inner : Parser} (hinner : inner.Free n) (h : Within (n + 1) ts)
    (hpeek : (peek ts).isSome = true) :
    (objectCreationOver inner).Sound (Makes .objectCreationExpression) ts := by
  refine sound_freeNode_of_isSome rfl (by decide) (by decide) h hpeek fun t vs hw ht => ?_
  have harguments : (when (at_ .lParen) (argumentListOver inner)).Free n :=
    free_when_at_ _ (by decide) fun us hus => free_argumentListOver hinner hus.succ
  have hinit : (when (at_ .lBrace) (balanced .lBrace .rBrace)).Free n :=
    .when fun us hus _ => free_balanced us hus
  exact ⟨((((Parser.Enters.bump hw (by simp [peek_cons ht])).andThen free_optionalType).andThen
    harguments).andThen hinit).1, (begins_bump_append ht).andThen.andThen⟩

/-- The step of an expression. -/
def expressionStep (inner : Parser) (depth : Nat) (ts : List Token) : Option (Parser × Nat) :=
  if atExpressionEnd depth ts then none
  else match peek ts with
    | some .newKw => some (objectCreationOver inner, depth)
    | some .lParen | some .lBracket => some (bump, depth + 1)
    | some .rParen | some .rBracket => some (bump, depth - 1)
    | _ => some (bump, depth)

/-- An expression is a loop over its tokens and object creations, unless it is absent. -/
lemma expressionOver_eq (inner : Parser) : expressionOver inner =
    choose (atExpressionEnd 0) skip (node .expression (loop (expressionStep inner) 0)) := rfl

/-- An expression goes on as long as it is not at its end. -/
lemma expressionStep_ne_none {inner : Parser} (hend : atExpressionEnd d ts = false) :
    expressionStep inner d ts ≠ none := by
  unfold expressionStep
  rw [if_neg (Bool.eq_false_iff.mp hend)]
  split <;> exact Option.some_ne_none _

/-- A round of an expression takes an object creation or a token. -/
lemma expressionStep_spec {inner p : Parser} {s s' : Nat}
    (h : expressionStep inner s ts = some (p, s')) :
    (p = objectCreationOver inner ∨ p = bump) ∧ (peek ts).isSome = true := by
  unfold expressionStep at h
  split at h
  · cases h
  · rename_i hend
    refine ⟨?_, isSome_of_not_atExpressionEnd (by simpa using hend)⟩
    split at h <;> cases h <;> simp

/-- An expression is sound if those among the arguments of its object creations are, which have fewer
tokens. -/
lemma sound_expressionOver {inner : Parser} (hinner : inner.Free n) (h : Within (n + 1) ts) :
    (expressionOver inner).Sound (Makes .expression) ts := by
  rw [expressionOver_eq]
  refine sound_choose (fun _ => sound_skip) fun hend => ?_
  have hround : ∀ s us p s', us <:+ ts → expressionStep inner s us = some (p, s') →
      p.Sound IsFree us := by
    intro s us p s' hus hstep
    have hw := h.suffix hus
    obtain ⟨rfl | rfl, hpeek⟩ := expressionStep_spec hstep
    · exact (sound_objectCreationOver hinner hw hpeek).mono fun e he => he.isFree (by decide)
    · exact free_bump hw.plain hpeek
  obtain ⟨κ, hκ⟩ := Option.isSome_iff_exists.mp (isSome_of_not_atExpressionEnd hend)
  refine sound_freeNode rfl (by decide) (by decide) h.plain hκ fun t vs hvs htk ht => ?_
  have hend' : atExpressionEnd 0 (t :: vs) = false := by
    unfold atExpressionEnd at hend ⊢
    rwa [peek_cons ht, htk, ← hκ]
  obtain ⟨⟨p, s'⟩, hp⟩ := Option.ne_none_iff_exists'.mp (expressionStep_ne_none hend')
  refine ⟨sound_loop fun s us p s' hus => hround s us p s' (hus.trans hvs), .loop hp ?_⟩
  obtain ⟨rfl | rfl, -⟩ := expressionStep_spec hp
  · exact .node ht rfl
  · exact .bump ht

/-- Expressions nested to a given depth are sound at no more tokens than the depth. -/
lemma sound_expressionTo (d : Nat) : ∀ ts, Within d ts →
    (expressionTo d).Sound (Makes .expression) ts := by
  induction d with
  | zero => exact fun ts _ => sound_skip
  | succ d ih =>
    exact fun ts h => (sound_expressionOver
      (fun us hus => (ih us hus).mono fun e he => he.isFree (by decide)) h).congr rfl

/-- An expression, or nothing. -/
theorem sound_expression (hplain : ∀ t ∈ ts, t.IsPlain) :
    expression.Sound (Makes .expression) ts :=
  (sound_expressionTo ts.length ts ⟨Nat.le_refl _, hplain⟩).congr rfl

/-- An expression is sound everywhere. -/
lemma free_expression : expression.Free n :=
  fun _ h => (sound_expression h.plain).mono fun _ he => he.isFree (by decide)

/-- Where an expression is not at its end, it takes something. -/
theorem moves_expression (hplain : ∀ t ∈ ts, t.IsPlain) (hend : atExpressionEnd 0 ts = false) :
    expression.Moves ts := by
  obtain ⟨κ, hκ⟩ := Option.isSome_iff_exists.mp (isSome_of_not_atExpressionEnd hend)
  obtain ⟨d, hd⟩ : ∃ d, ts.length = d + 1 := by
    cases ts with
    | nil => cases hκ
    | cons t ts => exact ⟨ts.length, rfl⟩
  have heq : expression ts = node .expression (loop (expressionStep (expressionTo d)) 0) ts := by
    rw [expression, hd]
    exact choose_of_false hend
  have hsound := (sound_expression hplain).congr heq.symm
  have hmoves := moves_of_makes hsound hκ
  unfold Parser.Moves at hmoves ⊢
  rwa [heq]

/-- A parenthesised list of expressions, where a real token is ahead. -/
theorem sound_argumentList (hplain : ∀ t ∈ ts, t.IsPlain) (hpeek : (peek ts).isSome = true) :
    argumentList.Sound (Makes .argumentList) ts :=
  free_argumentListOver (n := ts.length) free_expression ⟨Nat.le_succ _, hplain⟩ hpeek

end TreeLint.Grammar
