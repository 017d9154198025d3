import TreeLint.Grammar.Statement
import TreeLint.Proofs.Expressions

/-!
# Soundness of statements and members

Statements and members contain each other. Each production is sound over sound parsers for the inner
occurrences, and is left with fewer tokens than it began with before it calls them, so soundness
holds to any depth by induction on it.

The productions around exception handling put their children in order, and a block in front of more
tokens is complete.

## Main definitions

* `TreeLint.Grammar.IsInner` — what may stand between the braces of a block.
* `TreeLint.Grammar.Inner.Sound` — sound parsers for inner statements and members.

## Main results

* `TreeLint.Grammar.sound_tryStatement` — a guarded block with its handlers.
* `TreeLint.Grammar.sound_innerTo` — statements and members nested to a depth.
-/

namespace TreeLint.Grammar

open Element

variable {ts us : List Token} {κ : Kind} {n d : Nat} {inner : Inner} {p q : Parser}

/-- What may stand between the braces of a block: neither a brace nor a handler. -/
def IsInner (e : Element) : Prop := e.IsFree ∧ e.kind ≠ .lBrace ∧ e.kind ≠ .rBrace

/-- What makes nodes of a kind other than handlers and last clauses makes what may stand in a block. -/
lemma Makes.isInner {k : Kind} (hk : k ≠ .catchClause ∧ k ≠ .finallyClause ∧ k ≠ .lBrace ∧
    k ≠ .rBrace) {e : Element} (h : Makes k e) : IsInner e :=
  ⟨h.isFree ⟨hk.1, hk.2.1⟩, h.kind_ne hk.2.2.1 rfl, h.kind_ne hk.2.2.2 rfl⟩

/-- A token that is no brace may stand in a block. -/
lemma isInner_token {t : Token} (ht : t.IsPlain) (hk : t.kind ≠ .lBrace ∧ t.kind ≠ .rBrace) :
    IsInner (.token t) := ⟨isFree_token ht, hk⟩

/-- Trivia may stand in a block. -/
lemma isInner_trivia {t : Token} (ht : t.IsPlain) (h : t.kind.isTrivia = true) :
    IsInner (.token t) := by
  refine isInner_token ht ⟨?_, ?_⟩ <;> (intro hk; rw [hk] at h; revert h; decide)

/-- Sound parsers for statements and members at all lists of at most `n` plain tokens. They take
something if a real token is ahead. -/
structure Inner.Sound (n : Nat) (inner : Inner) : Prop where
  /-- A statement that does not start with a closing brace may stand in a block. -/
  statement : ∀ ts κ, Within n ts → peek ts = some κ → κ ≠ .rBrace →
    inner.statement.Sound IsInner ts ∧ inner.statement.Moves ts
  /-- A closing brace ahead is taken for a statement of its own. -/
  brace : ∀ ts, Within n ts → peek ts = some .rBrace →
    inner.statement.Sound IsFree ts ∧ inner.statement.Moves ts
  /-- A member is sound and moves. -/
  member : ∀ ts, Within n ts → (peek ts).isSome = true →
    inner.member.Sound IsFree ts ∧ inner.member.Moves ts

/-! ## The order of children -/

/-- A parser makes elements in the order of some slots. -/
def Parser.Arranges (p : Parser) (slots : List (Kind × Occurs)) (ts : List Token) : Prop :=
  Arranged slots (kinds (p ts).1)

/-- A sequence makes what its parts make, in the order of the slots of both. -/
lemma Parser.Arranges.andThen {slots slots' : List (Kind × Occurs)} (hp : p.Arranges slots ts)
    (hq : ∀ us, q.Arranges slots' us) : (p ++ q).Arranges (slots ++ slots') ts := by
  unfold Parser.Arranges at hp hq ⊢
  rw [append_apply, kinds_append]
  exact hp.append (hq _)

/-- Trivia have no slot. -/
lemma kinds_map_token {tr : List Token} (htr : ∀ u ∈ tr, u.kind.isTrivia = true) :
    kinds (tr.map .token) = [] := by
  simp only [kinds, List.map_eq_nil_iff, List.filter_eq_nil_iff, List.mem_map]
  rintro e ⟨u, hu, rfl⟩
  simp [isTrivia, htr u hu]

/-- The next real token fills a slot of its kind once. -/
lemma arranges_bump (hpeek : peek ts = some κ) : bump.Arranges [(κ, .once)] ts := by
  obtain ⟨tr, t, us, rfl, htr, rfl, ht⟩ := exists_of_peek_eq_some hpeek
  have hkinds : kinds (bump (tr ++ t :: us)).1 = [t.kind] := by
    rw [bump_append htr ht, kinds_append, kinds_map_token htr]
    simp [kinds, isTrivia, ht, kind]
  rw [Parser.Arranges, hkinds]
  exact arranged_replicate (m := 1) rfl

/-- A node is of one kind, and the trivia in front of it do not count. -/
lemma kinds_nodeParser {k : Kind} (hpeek : peek ts = some κ) :
    kinds (node k p ts).1 = [k] := by
  obtain ⟨tr, t, us, rfl, htr, rfl, ht⟩ := exists_of_peek_eq_some hpeek
  rw [node_append htr ht, kinds_append, kinds_map_token htr]
  rfl

/-- An optional node occurs at most once. -/
lemma arranges_when {k : Kind} (κ : Kind) (p : Parser) (ts : List Token) :
    (when (at_ κ) (node k p)).Arranges [(k, .atMostOnce)] ts := by
  rw [Parser.Arranges, when]
  cases hat : at_ κ ts with
  | true =>
    have hpeek : peek ts = some κ := peek_of_at_ hat
    rw [choose_of_true hat, kinds_nodeParser hpeek]
    exact arranged_replicate (m := 1) (Nat.le_refl 1)
  | false =>
    rw [choose_of_false hat]
    exact arranged_replicate (m := 0) (Nat.zero_le 1)

/-- A repeated node occurs any number of times. -/
lemma arranges_repeatWhile {k : Kind} (κ : Kind) (p : Parser) (ts : List Token) :
    (repeatWhile (at_ κ) (node k p)).Arranges [(k, .anyTimes)] ts := by
  have hall : ∀ rounds ts, ∃ m, kinds (loopFor (fun (_ : Unit) ts =>
      if at_ κ ts then some (node k p, ()) else none) rounds () ts).1 = List.replicate m k := by
    intro rounds
    induction rounds with
    | zero => exact fun ts => ⟨0, rfl⟩
    | succ rounds ih =>
      intro ts
      cases hat : at_ κ ts with
      | false => exact ⟨0, by rw [loopFor_of_none (by simp [hat])]; rfl⟩
      | true =>
        obtain ⟨m, hm⟩ := ih (node k p ts).2
        have hpeek : peek ts = some κ := peek_of_at_ hat
        refine ⟨m + 1, ?_⟩
        have hstep : (fun (_ : Unit) ts => if at_ κ ts then some (node k p, ()) else none) () ts =
            some (node k p, ()) := by simp [hat]
        rw [loopFor_of_some hstep, append_apply, kinds_append, kinds_nodeParser hpeek, hm]
        rfl
  obtain ⟨m, hm⟩ := hall ts.length ts
  have hm : kinds (repeatWhile (at_ κ) (node k p) ts).1 = List.replicate m k := hm
  rw [Parser.Arranges, hm]
  exact arranged_replicate trivial

/-! ## Blocks -/

/-- What a block makes of its tokens: the opening brace, statements, and the closing brace unless the
text ends. -/
lemma block_children (hinner : inner.Sound n) {t : Token} {vs : List Token}
    (h : Within (n + 1) (t :: vs)) (ht : t.kind.isTrivia = false) :
    (bump ++ closedBy .rBrace inner.statement).Sound (fun _ => True) (t :: vs) ∧
      ∃ es tail, (bump ++ closedBy .rBrace inner.statement) (t :: vs) =
          (.token t :: (es ++ tail), (closedBy .rBrace inner.statement vs).2) ∧
        (∀ e ∈ es, IsInner e) ∧
        (tail = [] ∧ peek (closedBy .rBrace inner.statement vs).2 = none ∨
          ∃ r, r.kind = .rBrace ∧ tail = [.token r]) := by
  have hbump := bump_cons ht vs
  have hw : Within n vs := (h.suffix (List.suffix_cons t vs)).mono (by
    have := h.length_le
    simp only [List.length_cons] at this
    omega)
  obtain ⟨hsound, es, tail, hes, hall, htail⟩ := closedBy_spec (p := inner.statement) (P := IsInner)
    hw.plain (fun us k hus hk hne => hinner.statement us k (hw.suffix hus) hk hne)
    fun u hu htr => isInner_trivia hu htr
  have hfirst : bump.Sound (fun _ => True) (t :: vs) :=
    sound_bump h.plain (peek_cons ht vs) fun _ _ _ => trivial
  refine ⟨hfirst.andThen (by rw [hbump]; exact hsound), es, tail, ?_, hall, htail⟩
  rw [append_apply, hbump, ← hes]
  rfl

/-- **A block** is sound where an opening brace is ahead, and complete if more tokens are behind
it. -/
theorem sound_block (hinner : inner.Sound n) (h : Within (n + 1) ts) (hpeek : peek ts = some .lBrace) :
    (block inner).Sound (Makes .block) ts ∧
      (peek (block inner ts).2 ≠ none → ∀ e ∈ (block inner ts).1, e.kind = .block → e.IsClosed) := by
  constructor
  · refine sound_node (Q := fun _ => True) h.plain hpeek fun t vs hvs htk ht => ?_
    obtain ⟨hsound, es, tail, heq, hall, htail⟩ := block_children hinner (h.suffix hvs) ht
    have htplain : t.IsPlain := h.plain t (hvs.subset List.mem_cons_self)
    refine ⟨hsound, ?_⟩
    rw [heq]
    constructor
    · decide
    · have := htplain.length_pos
      simp only [lengthList_cons, length_token]
      omega
    · rintro e es h
      obtain ⟨rfl, -⟩ := List.cons.inj h
      exact ⟨ht, fun l ds he => by cases he⟩
    · intro slots h
      cases h
    · intro _ e he
      rcases List.mem_cons.mp he with rfl | he
      · exact isFree_token htplain
      rcases List.mem_append.mp he with he | he
      · exact (hall e he).1
      rcases htail with ⟨rfl, -⟩ | ⟨r, hr, rfl⟩
      · cases he
      · rw [List.mem_singleton.mp he]
        constructor <;> (simp only [kind, hr]; decide)
    · refine fun _ => ⟨t, es, tail, rfl, htk, fun e he => (hall e he).2, ?_⟩
      rcases htail with ⟨rfl, -⟩ | htail
      · exact .inl rfl
      · exact .inr htail
    · intro h
      cases h
  · obtain ⟨tr, t, us, rfl, htr, htk, ht⟩ := exists_of_peek_eq_some hpeek
    obtain ⟨-, es, tail, heq, -, htail⟩ :=
      block_children hinner (h.suffix (List.suffix_append tr (t :: us))) ht
    have hblock : block inner (tr ++ t :: us) = _ := node_append htr ht us _ _
    rw [hblock, heq]
    intro hne e he hk
    rcases List.mem_append.mp he with he | he
    · obtain ⟨u, hu, rfl⟩ := List.mem_map.mp he
      have htriv := htr u hu
      simp only [kind] at hk
      rw [hk] at htriv
      cases htriv
    · rw [List.mem_singleton.mp he]
      rcases htail with ⟨-, hnone⟩ | ⟨r, hr, rfl⟩
      · exact absurd hnone hne
      · exact ⟨.block, .token t :: es, r, rfl, hr⟩

/-- A block, if one is ahead. -/
lemma sound_optionalBlock (hinner : inner.Sound n) (h : Within (n + 1) ts) :
    (optionalBlock inner).Sound (Makes .block) ts ∧
      (peek (optionalBlock inner ts).2 ≠ none →
        ∀ e ∈ (optionalBlock inner ts).1, e.kind = .block → e.IsClosed) := by
  cases hat : at_ .lBrace ts with
  | true =>
    have heq : optionalBlock inner ts = block inner ts := choose_of_true hat
    obtain ⟨hsound, hclosed⟩ := sound_block hinner h (peek_of_at_ hat)
    exact ⟨hsound.congr heq, by rwa [heq]⟩
  | false =>
    have heq : optionalBlock inner ts = ([], ts) := choose_of_false hat
    exact ⟨(sound_skip (P := Makes .block)).congr heq, by simp [heq]⟩

/-- A block that may be absent is sound if inner statements and members are. -/
lemma free_optionalBlock (hinner : inner.Sound n) : (optionalBlock inner).Free n := fun _ h =>
  (sound_optionalBlock hinner h.succ).1.mono fun _ he => he.isFree (by decide)

/-! ## Exception handling -/

/-- Nodes that begin with a token and have their children in a fixed order. -/
lemma shaped_of_slots {k : Kind} {slots : List (Kind × Occurs)} (hk : k.slots? = some slots)
    (ht : k ≠ .tryStatement) (hb : k ≠ .block) (hkind : ¬Token.IsTokenKind k)
    (hp : p.Sound IsFree ts) (hbegins : p.Begins k ts)
    (hslots : Arranged slots (kinds (p ts).1)) : Shaped k (p ts).1 where
  kind := hkind
  length_pos := hbegins.length_pos hp
  begins := hbegins.first
  slots slots' h := by
    rw [hk] at h
    obtain rfl := Option.some.inj h
    exact hslots
  free _ e he := hp.holds e he
  braced h := absurd h hb
  closed h := absurd h ht

/-- The declaration of a handler is sound where a real token is ahead. -/
lemma sound_catchDeclaration (hplain : ∀ t ∈ ts, t.IsPlain) (hpeek : (peek ts).isSome = true) :
    catchDeclaration.Sound (Makes .catchDeclaration) ts := by
  refine sound_freeNode_of_isSome rfl (by decide) (by decide) (.of_plain hplain) hpeek fun t vs hw ht => ?_
  exact ⟨((((Parser.Enters.bump hw (by simp [peek_cons ht])).andThen free_optionalType).andThen
    .eat).andThen .eat).1, (begins_bump_append ht).andThen.andThen⟩

/-- The filter of a handler is sound where a real token is ahead. -/
lemma sound_catchFilter (hplain : ∀ t ∈ ts, t.IsPlain) (hpeek : (peek ts).isSome = true) :
    catchFilter.Sound (Makes .catchFilter) ts := by
  refine sound_freeNode_of_isSome rfl (by decide) (by decide) (.of_plain hplain) hpeek fun t vs hw ht => ?_
  have hcondition : (when (at_ .lParen) (bump ++ expression ++ eat .rParen)).Free ts.length :=
    free_when_enters _ fun us hus hsome =>
      ((Parser.Enters.bump hus hsome).andThen free_expression).andThen .eat
  exact ⟨((Parser.Enters.bump hw (by simp [peek_cons ht])).andThen hcondition).1,
    begins_bump_append ht⟩

/-- A handler. -/
theorem sound_catchClause (hinner : inner.Sound n) (h : Within (n + 1) ts)
    (hpeek : peek ts = some .catchKw) : (catchClause inner).Sound (Makes .catchClause) ts := by
  refine sound_node (Q := IsFree) h.plain hpeek fun t vs hvs htk ht => ?_
  have hw : Within (n + 1) (t :: vs) := h.suffix hvs
  have hpeek' : peek (t :: vs) = some .catchKw := by rw [peek_cons ht, htk]
  have hdeclaration : (when (at_ .lParen) catchDeclaration).Free n :=
    free_when_at_ _ (by decide) fun us hus => sound_catchDeclaration hus.plain
  have hfilter : (when (at_ .whenKw) catchFilter).Free n :=
    free_when_at_ _ (by decide) fun us hus => sound_catchFilter hus.plain
  have henters := (((Parser.Enters.bump hw (by simp [hpeek'])).andThen hdeclaration).andThen
    hfilter).andThen (free_optionalBlock hinner)
  have hslots : Parser.Arranges (bump ++ when (at_ .lParen) catchDeclaration ++
      when (at_ .whenKw) catchFilter ++ optionalBlock inner)
      ([(.catchKw, .once)] ++ [(.catchDeclaration, .atMostOnce)] ++ [(.catchFilter, .atMostOnce)] ++
        [(.block, .atMostOnce)]) (t :: vs) :=
    (((arranges_bump hpeek').andThen (arranges_when .lParen _)).andThen
      (arranges_when .whenKw _)).andThen (arranges_when .lBrace _)
  exact ⟨henters.1, shaped_of_slots rfl (by decide) (by decide) (by decide) henters.1
    (begins_bump_append ht).andThen.andThen hslots⟩

/-- A clause that runs in any case. -/
theorem sound_finallyClause (hinner : inner.Sound n) (h : Within (n + 1) ts)
    (hpeek : peek ts = some .finallyKw) : (finallyClause inner).Sound (Makes .finallyClause) ts := by
  refine sound_node (Q := IsFree) h.plain hpeek fun t vs hvs htk ht => ?_
  have hw : Within (n + 1) (t :: vs) := h.suffix hvs
  have hpeek' : peek (t :: vs) = some .finallyKw := by rw [peek_cons ht, htk]
  have henters := (Parser.Enters.bump hw (by simp [hpeek'])).andThen (free_optionalBlock hinner)
  have hslots : Parser.Arranges (bump ++ optionalBlock inner)
      ([(.finallyKw, .once)] ++ [(.block, .atMostOnce)]) (t :: vs) :=
    (arranges_bump hpeek').andThen (arranges_when .lBrace _)
  exact ⟨henters.1, shaped_of_slots rfl (by decide) (by decide) (by decide) henters.1
    (begins_bump_append ht) hslots⟩

/-- **A guarded block with its handlers.**

**Proof sketch.** The order of the children is the order of the parsers. A handler is read only where
its keyword is ahead, so there are tokens behind the body, which is complete then. -/
theorem sound_tryStatement (hinner : inner.Sound n) (h : Within (n + 1) ts)
    (hpeek : peek ts = some .tryKw) : (tryStatement inner).Sound (Makes .tryStatement) ts := by
  refine sound_node (Q := fun _ => True) h.plain hpeek fun t vs hvs htk ht => ?_
  have hw : Within (n + 1) (t :: vs) := h.suffix hvs
  have hpeek' : peek (t :: vs) = some .tryKw := by rw [peek_cons ht, htk]
  obtain ⟨hbump, hwithin⟩ := Parser.Enters.bump hw (by simp [hpeek'])
  obtain ⟨hblock, hclosed⟩ := sound_optionalBlock hinner hwithin.succ
  have hblockWithin := hwithin.suffix hblock.suffix
  have hclauses : (repeatWhile (at_ .catchKw) (catchClause inner)).Sound (Makes .catchClause)
      (optionalBlock inner (bump (t :: vs)).2).2 := by
    refine sound_repeatWhile fun us hus hat => ?_
    exact sound_catchClause hinner (hblockWithin.suffix hus).succ (peek_of_at_ hat)
  have hlast : (when (at_ .finallyKw) (finallyClause inner)).Sound (Makes .finallyClause)
      (repeatWhile (at_ .catchKw) (catchClause inner) (optionalBlock inner (bump (t :: vs)).2).2).2 := by
    refine sound_when fun hat => ?_
    exact sound_finallyClause hinner (hblockWithin.suffix hclauses.suffix).succ (peek_of_at_ hat)
  have hsound := (((hbump.mono fun _ _ => trivial).andThen
    (hblock.mono fun _ _ => trivial)).andThen (hclauses.mono fun _ _ => trivial)).andThen
    (hlast.mono (Q := fun _ => True) fun _ _ => trivial)
  have hslots : Parser.Arranges (bump ++ optionalBlock inner ++
      repeatWhile (at_ .catchKw) (catchClause inner) ++ when (at_ .finallyKw) (finallyClause inner))
      ([(.tryKw, .once)] ++ [(.block, .atMostOnce)] ++ [(.catchClause, .anyTimes)] ++
        [(.finallyClause, .atMostOnce)]) (t :: vs) :=
    (((arranges_bump hpeek').andThen (arranges_when .lBrace _)).andThen
      (arranges_repeatWhile .catchKw _)).andThen (arranges_when .finallyKw _)
  refine ⟨hsound, ?_⟩
  have hbegins : Parser.Begins (bump ++ optionalBlock inner ++
      repeatWhile (at_ .catchKw) (catchClause inner) ++ when (at_ .finallyKw) (finallyClause inner))
      .tryStatement (t :: vs) :=
    (begins_bump_append ht).andThen.andThen
  constructor
  · decide
  · exact hbegins.length_pos hsound
  · exact hbegins.first
  · intro slots hs
    obtain rfl := Option.some.inj hs
    exact hslots
  · exact fun hne => absurd rfl hne
  · intro hne
    cases hne
  · rintro - ⟨c, hc, hck⟩ b hb hbk
    have hkeyword : ∀ e ∈ (bump (t :: vs)).1, e.kind ≠ .catchClause ∧ e.kind ≠ .block := by
      rw [bump_cons ht]
      intro e he
      rw [List.mem_singleton.mp he]
      simp [kind, htk]
    simp only [append_apply, List.mem_append] at hc hb
    -- only the repetition makes handlers, and it makes none unless their keyword follows the body
    have hahead : at_ .catchKw (optionalBlock inner (bump (t :: vs)).2).2 = true := by
      rcases hc with ((hc | hc) | hc) | hc
      · exact absurd hck (hkeyword c hc).1
      · exact absurd hck ((hblock.holds c hc).kind_ne (by decide) rfl)
      · exact test_of_mem_repeatWhile hc
      · exact absurd hck ((hlast.holds c hc).kind_ne (by decide) rfl)
    rcases hb with ((hb | hb) | hb) | hb
    · exact absurd hbk (hkeyword b hb).2
    · exact hclosed (by rw [peek_of_at_ hahead]; exact Option.some_ne_none _) b hb hbk
    · exact absurd hbk ((hclauses.holds b hb).kind_ne (by decide) rfl)
    · exact absurd hbk ((hlast.holds b hb).kind_ne (by decide) rfl)

/-! ## Other statements -/

/-- A statement that begins with a keyword of its own. -/
lemma sound_keywordStatement {k : Kind} (hk : k.slots? = none) (hb : k ≠ .block)
    (hkind : ¬Token.IsTokenKind k) (hplain : ∀ t ∈ ts, t.IsPlain) (hpeek : (peek ts).isSome = true) :
    (keywordStatement k).Sound (Makes k) ts := by
  refine sound_freeNode_of_isSome hk hb hkind (.of_plain hplain) hpeek fun t vs hw ht => ?_
  exact ⟨(((Parser.Enters.bump hw (by simp [peek_cons ht])).andThen free_expression).andThen
    .eat).1, (begins_bump_append ht).andThen⟩

/-- An expression as a statement is sound where a real token is ahead. -/
lemma sound_expressionStatement (hplain : ∀ t ∈ ts, t.IsPlain) (hpeek : (peek ts).isSome = true) :
    expressionStatement.Sound (Makes .expressionStatement) ts := by
  refine sound_freeNode_of_isSome rfl (by decide) (by decide) (.of_plain hplain) hpeek
    fun t vs hw ht => ?_
  have hfirst : (choose (atExpressionEnd 0) bump expression).Sound IsFree (t :: vs) ∧
      (choose (atExpressionEnd 0) bump expression).Begins .expressionStatement (t :: vs) := by
    cases hend : atExpressionEnd 0 (t :: vs) with
    | true =>
      have heq := choose_of_true (p := bump) (q := expression) hend
      exact ⟨(free_bump hw.plain (by simp [peek_cons ht])).congr heq, (Parser.Begins.bump ht).congr heq⟩
    | false =>
      have heq := choose_of_false (p := bump) (q := expression) hend
      have hsound := sound_expression hw.plain
      exact ⟨(free_expression _ hw).congr heq,
        (Parser.Begins.of_makes hsound ht (hsound.ne_nil_of_moves (moves_expression hw.plain hend))
          rfl).congr heq⟩
  exact ⟨hfirst.1.andThen (free_eat fun u hu => hw.plain u (hfirst.1.suffix.subset hu)),
    hfirst.2.andThen⟩

/-! ## Members -/

/-- Parsers that take a token in each round of a repetition. -/
lemma loose_repeatWhile_bump {test : List Token → Bool} (hplain : ∀ t ∈ ts, t.IsPlain)
    (htest : ∀ us, test us = true → (peek us).isSome = true) :
    (repeatWhile test bump).Sound IsLoose ts := by
  refine sound_repeatWhile fun us hus h => ?_
  obtain ⟨κ, hκ⟩ := Option.isSome_iff_exists.mp (htest us h)
  exact loose_bump (fun t ht => hplain t (hus.subset ht)) hκ

/-- Taking tokens as long as a test passes is sound if the test asks for a real token. -/
lemma free_repeatWhile_bump {test : List Token → Bool}
    (htest : ∀ us, test us = true → (peek us).isSome = true) : (repeatWhile test bump).Free n :=
  fun _ h => (loose_repeatWhile_bump h.plain htest).mono fun _ he => he.1

/-- A test that also asks for a real token passes only where there is one. -/
lemma isSome_of_isSome_and {test : Bool} (h : ((peek ts).isSome && test) = true) :
    (peek ts).isSome = true := by
  simp only [Bool.and_eq_true] at h
  exact h.1

/-- Attributes and modifiers are kept as plain tokens. -/
lemma loose_memberPrefix (hplain : ∀ t ∈ ts, t.IsPlain) : memberPrefix.Sound IsLoose ts := by
  have hattributes : (repeatWhile (at_ .lBracket) (balanced .lBracket .rBracket)).Sound IsLoose ts :=
    sound_repeatWhile fun us hus _ => loose_balanced (fun t ht => hplain t (hus.subset ht)) _ _
  exact hattributes.andThen (loose_repeatWhile_bump
    (fun t ht => hplain t (hattributes.suffix.subset ht)) fun us h => isSome_of_any h)

/-- A list of type parameters is sound where a real token is ahead. -/
lemma sound_typeParameterList (hplain : ∀ t ∈ ts, t.IsPlain) (hpeek : (peek ts).isSome = true) :
    typeParameterList.Sound (Makes .typeParameterList) ts := by
  refine sound_freeNode_of_isSome rfl (by decide) (by decide) (.of_plain hplain) hpeek fun t vs hw ht => ?_
  refine ⟨((Parser.Enters.bump hw (by simp [peek_cons ht])).andThen fun us hus => ?_).1,
    begins_bump_append ht⟩
  refine sound_loop fun isOpen us' p isOpen' hus' hstep => ?_
  have hplain' := (hus.suffix hus').plain
  split at hstep <;> try cases hstep
  · rename_i hk
    exact free_bump hplain' (by simp [hk])
  · rename_i hk
    exact free_bump hplain' (by simp [hk])

/-- A list of base types is sound where a real token is ahead. -/
lemma sound_baseList (hplain : ∀ t ∈ ts, t.IsPlain) (hpeek : (peek ts).isSome = true) :
    baseList.Sound (Makes .baseList) ts := by
  refine sound_freeNode_of_isSome rfl (by decide) (by decide) (.of_plain hplain) hpeek fun t vs hw ht => ?_
  refine ⟨((Parser.Enters.bump hw (by simp [peek_cons ht])).andThen
    (.repeatWhile fun us hus htest => ?_)).1, begins_bump_append ht⟩
  have hsome : (peek us).isSome = true := by
    rcases Bool.or_eq_true _ _ ▸ htest with h | h
    · exact isSome_of_any h
    · exact isSome_of_at_ h
  exact sound_choose (fun _ => (sound_typeRef hus.plain hsome).mono fun e he =>
    he.isFree (by decide)) fun _ => free_bump hus.plain hsome

/-- A body between braces, over a parser that is sound where a real token is ahead. -/
lemma free_braced (hp : ∀ us, Within n us → (peek us).isSome = true → p.Sound IsFree us) :
    (braced p).Free n := by
  intro ts h
  refine sound_choose (fun hat => ?_) fun _ => free_eat h.plain
  have hbump := free_bump h.plain (isSome_of_at_ hat)
  refine hbump.andThen ?_
  refine sound_loop fun isOpen us p isOpen' hus hstep => ?_
  have hw := (h.suffix hbump.suffix).suffix hus
  split at hstep <;> try cases hstep
  rename_i k hk
  split at hstep <;> cases hstep
  · exact free_bump hw.plain (by simp [hk])
  · exact hp us hw (by simp [hk])

/-- A class from its keyword on is sound and takes the keyword, if its members are sound. -/
lemma enters_classRest (hinner : inner.Sound n) (h : Within (n + 1) ts)
    (hpeek : (peek ts).isSome = true) : (classRest inner).Enters n ts := by
  have hparameters : (when (at_ .lt) typeParameterList).Free n :=
    free_when_at_ _ (by decide) fun us hus => sound_typeParameterList hus.plain
  have hbases : (when (at_ .colon) baseList).Free n :=
    free_when_at_ _ (by decide) fun us hus => sound_baseList hus.plain
  exact (((((Parser.Enters.bump h hpeek).andThen .eat).andThen hparameters).andThen hbases).andThen
    (free_repeatWhile_bump fun us hus => isSome_of_isSome_and hus)).andThen
    (free_braced fun us hus hsome => (hinner.member us hus hsome).1)

/-- The body of a member is sound if inner statements and members are. -/
lemma free_memberBody (hinner : inner.Sound n) : (memberBody inner).Free n := by
  intro ts h
  cases hpeek : peek ts with
  | none => exact sound_skip.congr (by simp [memberBody, hpeek])
  | some k =>
    by_cases hblock : k = .lBrace
    · subst hblock
      exact ((sound_block hinner h.succ hpeek).1.mono fun e he =>
        he.isFree (by decide)).congr (by simp [memberBody, hpeek])
    by_cases harrow : k = .fatArrow
    · subst harrow
      have hbody : Parser.Enters n (bump ++ expression ++ eat .semicolon) ts :=
        ((Parser.Enters.bump h.succ (by simp [hpeek])).andThen free_expression).andThen .eat
      exact hbody.1.congr (by simp [memberBody, hpeek])
    by_cases hsemicolon : k = .semicolon
    · subst hsemicolon
      exact (free_bump h.plain (by simp [hpeek])).congr (by simp [memberBody, hpeek])
    · refine sound_skip.congr ?_
      simp only [memberBody, hpeek]
      split <;> simp_all

/-- A list of parameters is sound everywhere, and holds no handler. -/
lemma free_parameterList : parameterList.Free n := fun _ h =>
  (sound_parameterList h.plain).mono fun _ he => he.isFree (by decide)

/-- A constructor from its name on is sound and takes the name, if its body is sound. -/
lemma enters_constructorRest (hinner : inner.Sound n) (h : Within (n + 1) ts)
    (hpeek : (peek ts).isSome = true) : (constructorRest inner).Enters n ts := by
  have hkeyword : (when (atAny [.baseKw, .thisKw]) bump).Free n := .when fun us hus hat =>
    free_bump hus.plain (isSome_of_any hat)
  have harguments : (when (at_ .lParen) argumentList).Free n :=
    free_when_at_ _ (by decide) fun us hus => sound_argumentList hus.plain
  have hinit : (when (at_ .colon) (bump ++ when (atAny [.baseKw, .thisKw]) bump ++
      when (at_ .lParen) argumentList)).Free n :=
    free_when_enters _ fun us hus hsome =>
      ((Parser.Enters.bump hus hsome).andThen hkeyword).andThen harguments
  exact (((Parser.Enters.bump h hpeek).andThen free_parameterList).andThen hinit).andThen
    (free_memberBody hinner)

/-- What follows the name of a method is sound if its body is. -/
lemma free_methodRest (hinner : inner.Sound n) : (methodRest inner).Free n := by
  have hparameters : (when (at_ .lt) typeParameterList).Free n :=
    free_when_at_ _ (by decide) fun us hus => sound_typeParameterList hus.plain
  exact ((hparameters.andThen free_parameterList).andThen
    (free_repeatWhile_bump fun us hus => isSome_of_isSome_and hus)).andThen (free_memberBody hinner)

/-- The accessors of a property are sound everywhere. -/
lemma free_accessorsRest : accessorsRest.Free n := by
  refine Parser.Free.andThen free_balanced (free_when_enters _ fun us hus hsome => ?_)
  exact ((Parser.Enters.bump hus hsome).andThen free_expression).andThen .eat

/-- What follows the name of a field is sound everywhere. -/
lemma free_fieldRest : fieldRest.Free n := by
  have hinit : initializer.Free n := free_when_enters _ fun us hus hsome =>
    (Parser.Enters.bump hus hsome).andThen free_expression
  refine (hinit.andThen (.repeatWhile fun us hus hat => ?_)).andThen .eat
  exact (((Parser.Enters.bump hus.succ (isSome_of_at_ hat)).andThen (.eat (n := n))).andThen hinit).1

/-- The kinds of members that begin with a type. -/
lemma typedMember_spec (hinner : inner.Sound n) (afterName : List Token) :
    ((typedMember inner afterName).1 = .methodDeclaration ∨
      (typedMember inner afterName).1 = .propertyDeclaration ∨
      (typedMember inner afterName).1 = .fieldDeclaration) ∧
      (typedMember inner afterName).2.Free n := by
  unfold typedMember
  split
  · exact ⟨.inl rfl, free_methodRest hinner⟩
  · exact ⟨.inl rfl, free_methodRest hinner⟩
  · exact ⟨.inr (.inl rfl), free_accessorsRest⟩
  · exact ⟨.inr (.inl rfl), free_memberBody hinner⟩
  · exact ⟨.inr (.inr rfl), free_fieldRest⟩

/-- What begins with attributes and modifiers begins with a token, if there are any, and as what
follows them otherwise. -/
lemma begins_memberPrefix {k : Kind} {t : Token} {vs : List Token}
    (hplain : ∀ u ∈ t :: vs, u.IsPlain) (ht : t.kind.isTrivia = false)
    (hq : (memberPrefix (t :: vs)).1 = [] → q.Begins k (t :: vs)) :
    (memberPrefix ++ q).Begins k (t :: vs) := by
  have hsound := loose_memberPrefix hplain
  by_cases hnil : (memberPrefix (t :: vs)).1 = []
  · obtain ⟨e, es, hes, he⟩ := hq hnil
    have hrest : (memberPrefix (t :: vs)).2 = t :: vs := by
      have := hsound.leaves
      rwa [hnil, leavesList_nil, List.nil_append] at this
    exact ⟨e, es, by rw [append_apply, hnil, hrest, hes]; rfl, he⟩
  · exact (Parser.Begins.of_tokens hsound ht hnil fun e he => he.2).andThen

/-- The kinds of the nodes that stand for members. -/
def IsMemberKind (k : Kind) : Prop := k.slots? = none ∧ k ≠ .block ∧ ¬Token.IsTokenKind k ∧
  ∀ e, Makes k e → IsInner e

/-- The nodes of the five kinds of member declarations have no order of their own and may stand in a
block. -/
lemma isMemberKind {k : Kind} (hk : k = .classDeclaration ∨ k = .constructorDeclaration ∨
    k = .methodDeclaration ∨ k = .propertyDeclaration ∨ k = .fieldDeclaration) : IsMemberKind k := by
  rcases hk with rfl | rfl | rfl | rfl | rfl <;>
    exact ⟨rfl, by decide, by decide, fun e he => he.isInner (by decide)⟩

/-- What is no declaration is left as tokens: the prefix, or the token ahead without one. -/
lemma exists_undeclared (ts : List Token) : ∃ p : Parser,
    choose (fun ts => (memberPrefix ts).1.isEmpty) bump memberPrefix ts = p ts ∧
      (p = bump ∧ (memberPrefix ts).1 = [] ∨ p = memberPrefix ∧ (memberPrefix ts).1 ≠ []) := by
  cases hempty : (memberPrefix ts).1.isEmpty with
  | true => exact ⟨bump, choose_of_true hempty, .inl ⟨rfl, List.isEmpty_iff.mp hempty⟩⟩
  | false => exact ⟨memberPrefix, choose_of_false hempty, .inr ⟨rfl, by simpa using hempty⟩⟩

/-- The ways on behind attributes and modifiers: no declaration, a class, a constructor, or a member
with a type and a name. -/
lemma declarationOver_cases (inner : Inner) (ts : List Token) :
    declarationOver inner ts =
        choose (fun ts => (memberPrefix ts).1.isEmpty) bump memberPrefix ts ∨
      (peek (memberPrefix ts).2).isSome = true ∧
        (declarationOver inner ts = wrap .classDeclaration (memberPrefix ++ classRest inner) ts ∨
          declarationOver inner ts =
            wrap .constructorDeclaration (memberPrefix ++ constructorRest inner) ts ∨
          atTypeStart (memberPrefix ts).2 = true ∧ ∃ k q,
            typedMember inner ((typeRef ++ eat .ident) (memberPrefix ts).2).2 = (k, q) ∧
            declarationOver inner ts =
              wrap k (memberPrefix ++ ((typeRef ++ eat .ident) ++ q)) ts) := by
  cases hpeek : peek (memberPrefix ts).2 with
  | none => exact .inl (by simp only [declarationOver, hpeek])
  | some k =>
    by_cases hclass : k.isTypeKeyword = true
    · exact .inr ⟨rfl, .inl (by simp only [declarationOver, hpeek, if_pos hclass])⟩
    by_cases hconstructor : k = .ident ∧ peekSecond (memberPrefix ts).2 = some .lParen
    · exact .inr ⟨rfl, .inr (.inl (by
        simp only [declarationOver, hpeek, if_neg hclass, if_pos hconstructor]))⟩
    by_cases htype : isTypeStart k = true
    · refine .inr ⟨rfl, .inr (.inr ⟨by simp [atTypeStart, hpeek, htype],
        (typedMember inner _).1, (typedMember inner _).2, rfl, ?_⟩)⟩
      simp only [declarationOver, hpeek, if_neg hclass, if_neg hconstructor, if_pos htype, wrap,
        append_apply, List.append_assoc]
    · exact .inl (by
        simp only [declarationOver, hpeek, if_neg hclass, if_neg hconstructor, if_neg htype])

/-- A declaration is sound: the prefix, and behind it a parser that takes a token and begins as the node
may begin. -/
lemma sound_wrap_memberPrefix {k : Kind} {t : Token} {vs : List Token} (hk : IsMemberKind k)
    (hplain : ∀ u ∈ t :: vs, u.IsPlain) (ht : t.kind.isTrivia = false)
    (hq : q.Enters n (memberPrefix (t :: vs)).2)
    (hbegins : (memberPrefix (t :: vs)).1 = [] → q.Begins k (t :: vs)) :
    (wrap k (memberPrefix ++ q)).Sound IsInner (t :: vs) := by
  have hsound := ((loose_memberPrefix hplain).mono fun _ he => he.1).andThen hq.1
  have hshape := shaped_of_free hk.1 hk.2.1 hk.2.2.1 hsound (begins_memberPrefix hplain ht hbegins)
  exact (sound_wrap hsound ht hshape).mono hk.2.2.2

/-- A type and a name take a token. -/
lemma enters_typedName (h : Within (n + 1) ts) (hsome : (peek ts).isSome = true) :
    (typeRef ++ eat .ident).Enters n ts := by
  have htype := sound_typeRef h.plain hsome
  have hmoves := moves_typeRef h.plain hsome
  have henters : typeRef.Enters n ts := by
    refine ⟨htype.mono fun e he => he.isFree (by decide), (h.suffix htype.suffix).mono ?_⟩
    have := h.length_le
    unfold Parser.Moves at hmoves
    omega
  exact henters.andThen .eat

/-- A member at a real token, which is a node of its own or, where no declaration starts, plain
tokens. -/
lemma sound_declarationOver {P : Element → Prop} {t : Token} {vs : List Token}
    (hinner : inner.Sound n) (h : Within (n + 1) (t :: vs)) (ht : t.kind.isTrivia = false)
    (hP : ∀ e, IsInner e → P e) (hbump : bump.Sound P (t :: vs))
    (hfront : memberPrefix.Sound P (t :: vs)) :
    (declarationOver inner).Sound P (t :: vs) ∧ (declarationOver inner (t :: vs)).1 ≠ [] := by
  have hloose := loose_memberPrefix h.plain
  have hrest : Within (n + 1) (memberPrefix (t :: vs)).2 := h.suffix hloose.suffix
  have hsame : (memberPrefix (t :: vs)).1 = [] → (memberPrefix (t :: vs)).2 = t :: vs := by
    intro hnil
    have := hloose.leaves
    rwa [hnil, leavesList_nil, List.nil_append] at this
  have hnode : ∀ {k : Kind} {q : Parser}, declarationOver inner (t :: vs) = wrap k q (t :: vs) →
      (wrap k q).Sound IsInner (t :: vs) →
      (declarationOver inner).Sound P (t :: vs) ∧ (declarationOver inner (t :: vs)).1 ≠ [] :=
    fun heq hq => ⟨(hq.mono hP).congr heq, by rw [heq]; exact List.cons_ne_nil _ _⟩
  obtain heq | ⟨hsome, heq | heq | ⟨-, k, q, htyped, heq⟩⟩ := declarationOver_cases inner (t :: vs)
  · obtain ⟨p, hp, ⟨rfl, -⟩ | ⟨rfl, hne⟩⟩ := exists_undeclared (t :: vs)
    · have hmoves := hbump.ne_nil_of_moves (moves_bump (peek_cons ht vs))
      exact ⟨hbump.congr (heq.trans hp), by rwa [heq, hp]⟩
    · exact ⟨hfront.congr (heq.trans hp), by rwa [heq, hp]⟩
  · refine hnode heq (sound_wrap_memberPrefix (isMemberKind (.inl rfl)) h.plain ht
      (enters_classRest hinner hrest hsome) fun _ => ?_)
    exact (begins_bump_append ht).andThen.andThen.andThen.andThen
  · refine hnode heq (sound_wrap_memberPrefix (isMemberKind (.inr (.inl rfl))) h.plain ht
      (enters_constructorRest hinner hrest hsome) fun _ => ?_)
    exact (begins_bump_append ht).andThen.andThen
  · obtain ⟨hkind, htail⟩ := typedMember_spec hinner
      ((typeRef ++ eat .ident) (memberPrefix (t :: vs)).2).2
    rw [htyped] at hkind htail
    refine hnode heq (sound_wrap_memberPrefix (isMemberKind (.inr (.inr hkind))) h.plain ht
      ((enters_typedName hrest hsome).andThen htail) fun hnil => ?_)
    -- without a prefix the node begins with its type
    rw [hsame hnil] at hrest hsome
    have htype := sound_typeRef hrest.plain hsome
    have hbegins : typeRef.Begins k (t :: vs) := .of_makes htype ht
      (htype.ne_nil_of_moves (moves_typeRef hrest.plain hsome))
      (by rcases hkind with rfl | rfl | rfl <;> rfl)
    exact hbegins.andThen.andThen

/-- A member with the trivia in front of it. -/
lemma sound_memberOver {P : Element → Prop} (hinner : inner.Sound n) (h : Within (n + 1) ts)
    (hpeek : peek ts = some κ) (hP : ∀ e, IsInner e → P e)
    (hat : ∀ t vs, t :: vs <:+ ts → t.kind = κ → t.kind.isTrivia = false →
      bump.Sound P (t :: vs) ∧ memberPrefix.Sound P (t :: vs)) :
    (memberOver inner).Sound P ts ∧ (memberOver inner).Moves ts := by
  have hdeclaration : ∀ t vs, t :: vs <:+ ts → t.kind = κ → t.kind.isTrivia = false →
      (declarationOver inner).Sound P (t :: vs) ∧ (declarationOver inner (t :: vs)).1 ≠ [] :=
    fun t vs hvs htk ht => sound_declarationOver hinner (h.suffix hvs) ht hP
      (hat t vs hvs htk ht).1 (hat t vs hvs htk ht).2
  have hsound : (memberOver inner).Sound P ts :=
    sound_trivia h.plain hpeek hdeclaration fun t ht htr => hP _ (isInner_trivia ht htr)
  exact ⟨hsound, hsound.moves_of_ne_nil (trivia_ne_nil hpeek
    fun t vs hvs htk ht => (hdeclaration t vs hvs htk ht).2)⟩

/-- A member, as far as handlers are concerned. -/
lemma free_memberOver (hinner : inner.Sound n) (h : Within (n + 1) ts)
    (hpeek : (peek ts).isSome = true) :
    (memberOver inner).Sound IsFree ts ∧ (memberOver inner).Moves ts := by
  obtain ⟨κ, hκ⟩ := Option.isSome_iff_exists.mp hpeek
  refine sound_memberOver hinner h hκ (fun e he => he.1) fun t vs hvs _ ht => ?_
  have hplain : ∀ u ∈ t :: vs, u.IsPlain := fun u hu => h.plain u (hvs.subset hu)
  exact ⟨free_bump hplain (by simp [peek_cons ht]),
    (loose_memberPrefix hplain).mono fun e he => he.1⟩

/-- A token that is no brace may stand in a block. -/
lemma inner_bump (hplain : ∀ t ∈ ts, t.IsPlain) (hpeek : peek ts = some κ)
    (hκ : κ ≠ .lBrace ∧ κ ≠ .rBrace) : bump.Sound IsInner ts := by
  refine sound_bump hplain hpeek fun t ht hk => ?_
  rcases hk with htr | rfl
  · exact isInner_trivia ht htr
  · exact isInner_token ht hκ

/-- Among statements, where it begins with a modifier or with the keyword of a type, a member may
stand in a block: what is kept of it as plain tokens are modifiers. -/
lemma inner_memberOver (hinner : inner.Sound n) (h : Within (n + 1) ts) (hpeek : peek ts = some κ)
    (hκ : (κ.isModifier || κ.isTypeKeyword) = true) :
    (memberOver inner).Sound IsInner ts ∧ (memberOver inner).Moves ts := by
  have hmodifier : ∀ k : Kind, (k.isModifier || k.isTypeKeyword) = true →
      k ≠ .lBrace ∧ k ≠ .rBrace ∧ k ≠ .lBracket := by
    intro k hk
    refine ⟨?_, ?_, ?_⟩ <;> (rintro rfl; revert hk; decide)
  refine sound_memberOver hinner h hpeek (fun e he => he) fun t vs hvs htk ht => ?_
  have hplain : ∀ u ∈ t :: vs, u.IsPlain := fun u hu => h.plain u (hvs.subset hu)
  have hpeek' : peek (t :: vs) = some κ := by rw [peek_cons ht, htk]
  obtain ⟨hl, hr, hb⟩ := hmodifier κ hκ
  refine ⟨inner_bump hplain hpeek' ⟨hl, hr⟩, ?_⟩
  have hnone : repeatWhile (at_ .lBracket) (balanced .lBracket .rBracket) (t :: vs) =
      ([], t :: vs) := repeatWhile_of_false (by simp [at_, hpeek', hb])
  have hattributes : (repeatWhile (at_ .lBracket) (balanced .lBracket .rBracket)).Sound IsInner
      (t :: vs) := (sound_skip (P := IsInner)).congr hnone
  refine hattributes.andThen ?_
  rw [hnone]
  refine sound_repeatWhile fun us hus htest => ?_
  obtain ⟨k, hk⟩ := Option.isSome_iff_exists.mp (isSome_of_any htest)
  have hkm : k.isModifier = true := by simpa [hk] using htest
  obtain ⟨hl, hr, -⟩ := hmodifier k (by simp [hkm])
  exact inner_bump (fun u hu => hplain u (hus.subset hu)) hk ⟨hl, hr⟩

/-! ## Closing the recursion -/

/-- A statement that does not start with a closing brace. -/
lemma inner_statementOver (hinner : inner.Sound n) (h : Within (n + 1) ts)
    (hpeek : peek ts = some κ) (hκ : κ ≠ .rBrace) :
    (statementOver inner).Sound IsInner ts ∧ (statementOver inner).Moves ts := by
  suffices hp : ∃ p : Parser, statementOver inner ts = p ts ∧ p.Sound IsInner ts ∧ p.Moves ts by
    obtain ⟨p, heq, hs, hm⟩ := hp
    refine ⟨hs.congr heq, ?_⟩
    unfold Parser.Moves at hm ⊢
    rwa [heq]
  have hsome : (peek ts).isSome = true := by simp [hpeek]
  have hinnerOf : ∀ {k : Kind} {q : Parser}, (node k q).Sound (Makes k) ts →
      (k ≠ .catchClause ∧ k ≠ .finallyClause ∧ k ≠ .lBrace ∧ k ≠ .rBrace) →
      (node k q).Sound IsInner ts ∧ (node k q).Moves ts :=
    fun hs hk => ⟨hs.mono fun e he => he.isInner hk, moves_of_makes hs hpeek⟩
  by_cases hblock : κ = .lBrace
  · subst hblock
    exact ⟨block inner, by simp [statementOver, hpeek],
      hinnerOf (sound_block hinner h hpeek).1 (by decide)⟩
  by_cases htry : κ = .tryKw
  · subst htry
    exact ⟨tryStatement inner, by simp [statementOver, hpeek],
      hinnerOf (sound_tryStatement hinner h hpeek) (by decide)⟩
  by_cases hthrow : κ = .throwKw
  · subst hthrow
    exact ⟨keywordStatement .throwStatement, by simp [statementOver, hpeek],
      hinnerOf (sound_keywordStatement rfl (by decide) (by decide) h.plain hsome) (by decide)⟩
  by_cases hreturn : κ = .returnKw
  · subst hreturn
    exact ⟨keywordStatement .returnStatement, by simp [statementOver, hpeek],
      hinnerOf (sound_keywordStatement rfl (by decide) (by decide) h.plain hsome) (by decide)⟩
  by_cases hstray : κ = .semicolon ∨ κ = .rParen ∨ κ = .rBracket ∨ κ = .comma
  · refine ⟨bump, ?_, inner_bump h.plain hpeek ⟨hblock, hκ⟩, moves_bump hpeek⟩
    rcases hstray with rfl | rfl | rfl | rfl <;> simp [statementOver, hpeek]
  have hrest : statementOver inner ts = if κ.isModifier || κ.isTypeKeyword then memberOver inner ts
      else expressionStatement ts := by
    simp only [statementOver, hpeek]
    split <;> simp_all
  cases hmember : κ.isModifier || κ.isTypeKeyword with
  | true => exact ⟨memberOver inner, by simp [hrest, hmember], inner_memberOver hinner h hpeek hmember⟩
  | false =>
    exact ⟨expressionStatement, by simp [hrest, hmember],
      hinnerOf (sound_expressionStatement h.plain hsome) (by decide)⟩

/-- Sound parsers for inner occurrences make sound parsers one level up. -/
lemma Inner.Sound.step (hinner : inner.Sound n) :
    Inner.Sound (n + 1) ⟨statementOver inner, memberOver inner⟩ where
  statement _ _ h hpeek hκ := inner_statementOver hinner h hpeek hκ
  brace ts h hpeek := by
    have heq : statementOver inner ts = bump ts := by simp [statementOver, hpeek]
    refine ⟨(free_bump h.plain (by simp [hpeek])).congr heq, ?_⟩
    have hmoves := moves_bump hpeek
    show (statementOver inner ts).2.length < ts.length
    rw [heq]
    exact hmoves
  member _ h hpeek := free_memberOver hinner h hpeek

/-- **Statements and members** nested to a depth are sound for as many tokens. -/
theorem sound_innerTo (d : Nat) : (innerTo d).Sound d := by
  induction d with
  | zero =>
    have hnil : ∀ ts, Within 0 ts → ts = [] := fun ts h =>
      List.length_eq_zero_iff.mp (Nat.le_zero.mp h.length_le)
    refine ⟨fun ts κ h hpeek => ?_, fun ts h hpeek => ?_, fun ts h hpeek => ?_⟩ <;>
      (rw [hnil ts h] at hpeek; cases hpeek)
  | succ d ih => exact ih.step

/-- A statement, as far as handlers are concerned. -/
theorem sound_statement (hplain : ∀ t ∈ ts, t.IsPlain) (hpeek : (peek ts).isSome = true) :
    statement.Sound IsFree ts ∧ statement.Moves ts := by
  obtain ⟨κ, hκ⟩ := Option.isSome_iff_exists.mp hpeek
  have h : Within ts.length ts := ⟨Nat.le_refl _, hplain⟩
  by_cases hk : κ = .rBrace
  · subst hk
    obtain ⟨hs, hm⟩ := (sound_innerTo ts.length).brace ts h hκ
    exact ⟨hs.congr rfl, hm⟩
  · obtain ⟨hs, hm⟩ := (sound_innerTo ts.length).statement ts κ h hκ hk
    exact ⟨(hs.mono fun e he => he.1).congr rfl, hm⟩

/-- A member, as far as handlers are concerned. -/
theorem sound_member (hplain : ∀ t ∈ ts, t.IsPlain) (hpeek : (peek ts).isSome = true) :
    member.Sound IsFree ts ∧ member.Moves ts := by
  obtain ⟨hs, hm⟩ := (sound_innerTo ts.length).member ts ⟨Nat.le_refl _, hplain⟩ hpeek
  exact ⟨hs.congr rfl, hm⟩

end TreeLint.Grammar
