import TreeLint.Proofs.Execution
import TreeLint.Proofs.Expressions
import TreeLint.Proofs.Renaming

/-!
# Parsers that see only real tokens

A parser commutes with stripping if it makes no difference whether the tokens are stripped of their
trivia and renamed before it runs, or the elements that it makes afterwards. Productions that contain
themselves are written to a depth, and this depends on the number of all tokens; so the parser that
runs on stripped tokens may be another one, of another depth.

Loops run as often as there are tokens, so they too are given more rounds with trivia than without.
The additional rounds are never used, because every round takes a real token. So most statements come in
a second form, in which the parser takes one.

## Main definitions

* `TreeLint.Grammar.Commutes`, `TreeLint.Grammar.Takes` — a parser commutes with stripping at some
  tokens, and takes a real one.
* `TreeLint.Grammar.Commuting`, `TreeLint.Grammar.Taking` — the same at all lists with at most so many
  real tokens.

## Main results

* `TreeLint.Grammar.Commutes.seq`, `TreeLint.Grammar.Commutes.node`,
  `TreeLint.Grammar.Commutes.loop` — sequences, nodes and loops.
-/

namespace TreeLint.Grammar

variable {ρ : String → String} {p p' q q' : Parser} {ts : List Token} {κ : Kind} {n m : Nat}

/-! ## Commuting with stripping -/

/-- What a parser makes of some tokens is, stripped and renamed, what a second parser makes of the
stripped and renamed tokens. -/
structure Commutes (ρ : String → String) (p p' : Parser) (ts : List Token) : Prop where
  /-- The elements are the same in any node. -/
  elements : ∀ k, Element.strip ρ k (p ts).1 = (p' (Token.strip ρ ts)).1
  /-- The tokens that are left are the same. -/
  rest : Token.strip ρ (p ts).2 = (p' (Token.strip ρ ts)).2
  /-- There are not more real tokens than before. -/
  realCount_le : Token.realCount (p ts).2 ≤ Token.realCount ts

/-- The same, and the parser takes a real token. -/
structure Takes (ρ : String → String) (p p' : Parser) (ts : List Token) : Prop where
  /-- It commutes with stripping. -/
  commutes : Commutes ρ p p' ts
  /-- There are fewer real tokens than before. -/
  realCount_lt : Token.realCount (p ts).2 < Token.realCount ts

/-- A parser commutes with stripping at all lists with at most `n` real tokens. -/
def Commuting (ρ : String → String) (n : Nat) (p p' : Parser) : Prop :=
  ∀ ts, Token.realCount ts ≤ n → Commutes ρ p p' ts

/-- A parser commutes with stripping and takes a real token, at all lists with at least one and at most
`n` of them. -/
def Taking (ρ : String → String) (n : Nat) (p p' : Parser) : Prop :=
  ∀ ts, Token.realCount ts ≤ n → (peek ts).isSome = true → Takes ρ p p' ts

/-- What is said of two parsers at some tokens holds of any two that do the same there. -/
lemma Commutes.congr (h : Commutes ρ p p' ts) (hp : q ts = p ts)
    (hp' : q' (Token.strip ρ ts) = p' (Token.strip ρ ts)) : Commutes ρ q q' ts := by
  refine ⟨fun k => ?_, ?_, ?_⟩
  · rw [hp, hp', h.elements k]
  · rw [hp, hp', h.rest]
  · rw [hp]
    exact h.realCount_le

/-- Parsers that do the same at some tokens also take a real one if the others do. -/
lemma Takes.congr (h : Takes ρ p p' ts) (hp : q ts = p ts)
    (hp' : q' (Token.strip ρ ts) = p' (Token.strip ρ ts)) : Takes ρ q q' ts := by
  refine ⟨h.commutes.congr hp hp', ?_⟩
  rw [hp]
  exact h.realCount_lt

/-- What commutes at long lists commutes at shorter ones. -/
lemma Commuting.mono (h : Commuting ρ n p p') (hle : m ≤ n) : Commuting ρ m p p' :=
  fun ts hts => h ts (Nat.le_trans hts hle)

/-- What takes a real token at long lists does so at shorter ones. -/
lemma Taking.mono (h : Taking ρ n p p') (hle : m ≤ n) : Taking ρ m p p' :=
  fun ts hts => h ts (Nat.le_trans hts hle)

/-- Without real tokens there is none ahead. -/
lemma taking_zero : Taking ρ 0 p p' := by
  intro ts hts hpeek
  rw [realCount_eq_zero_iff.mp (Nat.le_zero.mp hts)] at hpeek
  cases hpeek

/-- A production that is written to a depth, and runs at the depth given by the number of tokens. A
depth is enough if it is not below the number of real tokens. -/
lemma Taking.of_depths {f : Nat → Parser}
    (h : ∀ {n d d' : Nat}, n ≤ d → n ≤ d' → Taking ρ n (f d) (f d')) :
    Taking ρ n (fun ts => f ts.length ts) (fun ts => f ts.length ts) := by
  intro ts _ hpeek
  have hdepth : Token.realCount ts ≤ ts.length := Token.realCount_le_length
  have hdepth' : Token.realCount ts ≤ (Token.strip ρ ts).length := Nat.le_of_eq Token.length_strip.symm
  exact (h hdepth hdepth' ts (Nat.le_refl _) hpeek).congr rfl rfl

/-! ## Sequences and choices -/

/-- Doing nothing commutes with stripping. -/
lemma commutes_skip : Commutes ρ skip skip ts := ⟨fun _ => rfl, rfl, Nat.le_refl _⟩

/-- **A sequence** commutes if its parts do. -/
theorem Commutes.seq (hp : Commutes ρ p p' ts) (hq : Commutes ρ q q' (p ts).2) :
    Commutes ρ (p ++ q) (p' ++ q') ts := by
  refine ⟨fun k => ?_, ?_, Nat.le_trans hq.realCount_le hp.realCount_le⟩
  · rw [append_apply, append_apply, Element.strip_append, hp.elements k, hq.elements k, hp.rest]
  · rw [append_apply, append_apply, hq.rest, hp.rest]

/-- A sequence takes a real token if its first part does. -/
lemma Takes.seq (hp : Takes ρ p p' ts) (hq : Commutes ρ q q' (p ts).2) :
    Takes ρ (p ++ q) (p' ++ q') ts :=
  ⟨hp.commutes.seq hq, Nat.lt_of_le_of_lt hq.realCount_le hp.realCount_lt⟩

/-- A sequence takes a real token if its second part does. -/
lemma Commutes.takes_seq (hp : Commutes ρ p p' ts) (hq : Takes ρ q q' (p ts).2) :
    Takes ρ (p ++ q) (p' ++ q') ts :=
  ⟨hp.seq hq.commutes, Nat.lt_of_lt_of_le hq.realCount_lt hp.realCount_le⟩

/-- A sequence commutes at all lists with at most so many real tokens, since its second part has no more
of them than its first. -/
lemma Commuting.seq (hp : Commuting ρ n p p') (hq : Commuting ρ n q q') :
    Commuting ρ n (p ++ q) (p' ++ q') :=
  fun ts hts => (hp ts hts).seq (hq _ (Nat.le_trans (hp ts hts).realCount_le hts))

/-- What follows a part that takes a real token need not take one itself. -/
lemma Taking.seq (hp : Taking ρ n p p') (hq : Commuting ρ n q q') :
    Taking ρ n (p ++ q) (p' ++ q') := fun ts hts hpeek =>
  (hp ts hts hpeek).seq (hq _ (Nat.le_trans (hp ts hts hpeek).commutes.realCount_le hts))

/-- Behind a real token there are fewer of them for the rest. -/
lemma Taking.andThen (hp : Taking ρ (n + 1) p p') (hq : Commuting ρ n q q') :
    Taking ρ (n + 1) (p ++ q) (p' ++ q') := fun ts hts hpeek =>
  (hp ts hts hpeek).seq (hq _ (Nat.le_of_lt_succ
    (Nat.lt_of_lt_of_le (hp ts hts hpeek).realCount_lt hts)))

section Choices

variable {test : List Token → Bool} (htest : test (Token.strip ρ ts) = test ts)

include htest

/-- **A choice** commutes if the test does not see trivia and names. -/
theorem Commutes.choose (hp : test ts = true → Commutes ρ p p' ts)
    (hq : test ts = false → Commutes ρ q q' ts) :
    Commutes ρ (choose test p q) (choose test p' q') ts := by
  cases h : test ts with
  | true => exact (hp h).congr (choose_of_true h) (choose_of_true (htest.trans h))
  | false => exact (hq h).congr (choose_of_false h) (choose_of_false (htest.trans h))

/-- A choice takes a real token if both sides do. -/
lemma Takes.choose (hp : test ts = true → Takes ρ p p' ts) (hq : test ts = false → Takes ρ q q' ts) :
    Takes ρ (choose test p q) (choose test p' q') ts := by
  cases h : test ts with
  | true => exact (hp h).congr (choose_of_true h) (choose_of_true (htest.trans h))
  | false => exact (hq h).congr (choose_of_false h) (choose_of_false (htest.trans h))

end Choices

/-- A parser that is chosen by the kind of the next real token. -/
def select (f : Option Kind → Parser) : Parser := fun ts => f (peek ts) ts

/-- The kind of the next real token is not changed by stripping, so the same parser is chosen. -/
lemma Commutes.select {f f' : Option Kind → Parser} (h : Commutes ρ (f (peek ts)) (f' (peek ts)) ts) :
    Commutes ρ (select f) (Grammar.select f') ts :=
  h.congr rfl (by rw [Grammar.select, peek_strip])

/-- A parser that is chosen by the next real token takes one if the chosen parser does. -/
lemma Takes.select {f f' : Option Kind → Parser} (h : Takes ρ (f (peek ts)) (f' (peek ts)) ts) :
    Takes ρ (select f) (Grammar.select f') ts :=
  h.congr rfl (by rw [Grammar.select, peek_strip])

/-- An optional part that starts with a real token. -/
lemma Taking.when {test : List Token → Bool} (h : Taking ρ n p p')
    (htest : ∀ us, test (Token.strip ρ us) = test us)
    (hsome : ∀ us, test us = true → (peek us).isSome = true) :
    Commuting ρ n (when test p) (when test p') := fun ts hts =>
  .choose (htest ts) (fun hat => (h ts hts (hsome ts hat)).commutes) fun _ => commutes_skip

/-- An optional part that starts with a token of a given kind. -/
lemma Taking.whenAt (h : Taking ρ n p p') (κ : Kind) :
    Commuting ρ n (Grammar.when (at_ κ) p) (Grammar.when (at_ κ) p') :=
  h.when (fun us => at_strip us κ) fun _ hat => isSome_of_at_ hat

/-! ## Loops -/

section Loops

variable {σ : Type} {step step' : σ → List Token → Option (Parser × σ)} {x : σ} {us : List Token}

/-- The rounds of two loops agree: both stop, or both go on with the same state, and the parser of the
round commutes and takes a real token. -/
inductive Rounds (ρ : String → String) (us : List Token) :
    Option (Parser × σ) → Option (Parser × σ) → Prop where
  /-- Both loops stop. -/
  | stop : Rounds ρ us none none
  /-- Both loops go on. -/
  | go {p p' : Parser} {y : σ} (h : Takes ρ p p' us) : Rounds ρ us (some (p, y)) (some (p', y))

/-- Two rounds that agree both stop, or both go on with the same state. -/
lemma Rounds.cases_eq {o o' : Option (Parser × σ)} (h : Rounds ρ us o o') :
    (o = none ∧ o' = none) ∨
      ∃ p p' y, o = some (p, y) ∧ o' = some (p', y) ∧ Takes ρ p p' us := by
  cases h with
  | stop => exact .inl ⟨rfl, rfl⟩
  | go h => exact .inr ⟨_, _, _, rfl, rfl, h⟩

/-- Rounds that are chosen on the same condition agree if both choices do. -/
lemma Rounds.ite {a : Prop} [Decidable a] {o r o' r' : Option (Parser × σ)}
    (ho : a → Rounds ρ us o o') (hr : ¬a → Rounds ρ us r r') :
    Rounds ρ us (if a then o else r) (if a then o' else r') := by
  split
  · exact ho ‹_›
  · exact hr ‹_›

/-- Every round takes a real token, so as many rounds are enough as there are real tokens. -/
lemma commutes_loopFor {rounds rounds' : Nat}
    (hround : ∀ x us, Token.realCount us ≤ Token.realCount ts →
      Rounds ρ us (step x us) (step' x (Token.strip ρ us)))
    (hrounds : Token.realCount ts ≤ rounds) (hrounds' : Token.realCount ts ≤ rounds') :
    Commutes ρ (loopFor step rounds x) (loopFor step' rounds' x) ts := by
  -- induction on the rounds that are left with trivia, those left without them are fewer or more
  induction rounds generalizing ts x rounds' with
  | zero =>
    obtain ⟨hstep, hstep'⟩ | ⟨p, p', y, -, -, hp⟩ := (hround x ts (Nat.le_refl _)).cases_eq
    · exact commutes_skip.congr (loopFor_of_none hstep) (loopFor_of_none hstep')
    · have := hp.realCount_lt
      omega
  | succ rounds ih =>
    obtain ⟨hstep, hstep'⟩ | ⟨p, p', y, hstep, hstep', hp⟩ := (hround x ts (Nat.le_refl _)).cases_eq
    · exact commutes_skip.congr (loopFor_of_none hstep) (loopFor_of_none hstep')
    · have hlt := hp.realCount_lt
      obtain ⟨rounds', rfl⟩ : ∃ m, rounds' = m + 1 := Nat.exists_eq_add_one_of_ne_zero (by omega)
      have hrest : Commutes ρ (loopFor step rounds y) (loopFor step' rounds' y) (p ts).2 :=
        ih (fun x us hus => hround x us (by omega)) (by omega) (by omega)
      exact (hp.commutes.seq hrest).congr (loopFor_of_some hstep) (loopFor_of_some hstep')

/-- **A loop** commutes if its rounds do. -/
theorem Commutes.loop
    (hround : ∀ x us, Token.realCount us ≤ Token.realCount ts →
      Rounds ρ us (step x us) (step' x (Token.strip ρ us))) :
    Commutes ρ (loop step x) (loop step' x) ts :=
  (commutes_loopFor hround Token.realCount_le_length
    (Nat.le_of_eq Token.length_strip.symm)).congr rfl rfl

/-- A loop takes a real token if it goes on for a first round. -/
lemma Takes.loop
    (hround : ∀ x us, Token.realCount us ≤ Token.realCount ts →
      Rounds ρ us (step x us) (step' x (Token.strip ρ us)))
    (hgo : step x ts ≠ none) : Takes ρ (loop step x) (loop step' x) ts := by
  refine ⟨.loop hround, ?_⟩
  obtain ⟨hstop, -⟩ | ⟨p, p', y, hstep, -, hp⟩ := (hround x ts (Nat.le_refl _)).cases_eq
  · exact absurd hstop hgo
  have hlt := hp.realCount_lt
  have hlength : Token.realCount ts ≤ ts.length := Token.realCount_le_length
  obtain ⟨rounds, hrounds⟩ : ∃ m, ts.length = m + 1 := Nat.exists_eq_add_one_of_ne_zero (by omega)
  have hrest : Commutes ρ (loopFor step rounds y) (loopFor step' rounds y) (p ts).2 :=
    commutes_loopFor (fun x us hus => hround x us (by omega)) (by omega) (by omega)
  show Token.realCount (loopFor step ts.length x ts).2 < _
  rw [hrounds, loopFor_of_some hstep]
  exact Nat.lt_of_le_of_lt hrest.realCount_le hlt

end Loops

/-- A repeated part that starts with a real token. -/
lemma Taking.repeatWhile {test : List Token → Bool} (h : Taking ρ n p p')
    (htest : ∀ us, test (Token.strip ρ us) = test us)
    (hsome : ∀ us, test us = true → (peek us).isSome = true) :
    Commuting ρ n (repeatWhile test p) (Grammar.repeatWhile test p') := by
  refine fun ts hts => .loop fun _ us hus => ?_
  simp only [htest]
  exact .ite (fun hat => .go (h us (Nat.le_trans hus hts) (hsome us hat))) fun _ => .stop

/-- A part that is repeated at least once. -/
lemma Taking.takes_repeatWhile {test : List Token → Bool} (h : Taking ρ n p p')
    (htest : ∀ us, test (Token.strip ρ us) = test us)
    (hsome : ∀ us, test us = true → (peek us).isSome = true) (hts : Token.realCount ts ≤ n)
    (hat : test ts = true) : Takes ρ (Grammar.repeatWhile test p) (Grammar.repeatWhile test p') ts := by
  refine .loop (fun _ us hus => ?_) (by simp [hat])
  simp only [htest]
  exact .ite (fun hat => .go (h us (Nat.le_trans hus hts) (hsome us hat))) fun _ => .stop

/-- A part that is repeated as long as a token of a given kind is next. -/
lemma Taking.repeatAt (h : Taking ρ n p p') (κ : Kind) :
    Commuting ρ n (Grammar.repeatWhile (at_ κ) p) (Grammar.repeatWhile (at_ κ) p') :=
  h.repeatWhile (fun us => at_strip us κ) fun _ hat => isSome_of_at_ hat

/-! ## Tokens and nodes -/

/-- Of the trivia ahead nothing is left. -/
lemma commutes_trivia : Commutes ρ trivia trivia ts := by
  have hstripped : trivia (Token.strip ρ ts) = ([], Token.strip ρ ts) := by
    cases hts : Token.strip ρ ts with
    | nil => rfl
    | cons t us =>
      have ht : t.kind.isTrivia = false := Token.isTrivia_of_mem_strip (by rw [hts]; simp)
      simp [trivia, ht]
  have hrest : Token.strip ρ (trivia ts).2 = Token.strip ρ ts := Token.strip_dropWhile
  refine ⟨fun k => ?_, ?_, ?_⟩
  · rw [hstripped]
    exact Element.strip_map_token fun t ht => by simpa using List.mem_takeWhile_imp ht
  · rw [hstripped, hrest]
  · rw [← Token.length_strip (ρ := ρ), hrest, Token.length_strip]

/-- There are no more real tokens behind the trivia ahead. -/
lemma realCount_trivia : Token.realCount (trivia ts).2 ≤ Token.realCount ts :=
  (commutes_trivia (ρ := id)).realCount_le

/-- A real token is taken with another name. -/
lemma commutes_one (hts : ∀ t ∈ ts.head?, t.kind.isTrivia = false) : Commutes ρ one one ts := by
  cases ts with
  | nil => exact ⟨fun _ => rfl, rfl, Nat.le_refl _⟩
  | cons t us =>
    have ht : t.kind.isTrivia = false := hts t rfl
    have hone : one (Token.strip ρ (t :: us)) = ([.token (t.rename ρ)], Token.strip ρ us) := by
      rw [Token.strip_cons_of_real ht]
      rfl
    refine ⟨fun k => ?_, ?_, ?_⟩
    · rw [hone]
      exact Element.strip_cons_of_real ht
    · rw [hone]
      rfl
    · rw [Token.realCount_cons_of_real ht]
      exact Nat.le_succ _

/-- **The next real token**, if there is one, is taken with another name. -/
theorem commutes_bump : Commutes ρ bump bump ts := by
  refine commutes_trivia.seq (commutes_one fun t ht => ?_)
  have hhead := List.head?_dropWhile_not (fun t : Token => t.kind.isTrivia) ts
  have hfirst : (ts.dropWhile fun t => t.kind.isTrivia).head? = some t := ht
  rw [hfirst] at hhead
  simpa using hhead

/-- The next real token is taken if there is one. -/
lemma takes_bump (hpeek : (peek ts).isSome = true) : Takes ρ bump bump ts := by
  refine ⟨commutes_bump, ?_⟩
  obtain ⟨κ, hκ⟩ := Option.isSome_iff_exists.mp hpeek
  obtain ⟨tr, t, us, rfl, htr, -, ht⟩ := exists_of_peek_eq_some hκ
  have hcount : Token.realCount (tr ++ t :: us) = Token.realCount us + 1 := by
    rw [← Token.realCount_cons_of_real ht]
    exact Token.realCount_append_of_trivia htr
  rw [bump_append htr ht, hcount]
  exact Nat.lt_succ_self _

/-- Taking the next real token commutes with stripping at any tokens. -/
lemma commuting_bump : Commuting ρ n bump bump := fun _ _ => commutes_bump

/-- Taking the next real token takes one at any tokens with a real one among them. -/
lemma taking_bump : Taking ρ n bump bump := fun _ _ hpeek => takes_bump hpeek

/-- Taking the next token if it has a given kind commutes with stripping. -/
lemma commuting_eat : Commuting ρ n (eat κ) (eat κ) := taking_bump.whenAt κ

/-- A node commutes with stripping if what it is made of does. -/
lemma Commutes.wrap {k : Kind} (h : Commutes ρ p p' ts) :
    Commutes ρ (wrap k p) (Grammar.wrap k p') ts := by
  refine ⟨fun l => ?_, h.rest, h.realCount_le⟩
  show Element.strip ρ l [.node k (p ts).1] = [.node k (p' (Token.strip ρ ts)).1]
  rw [Element.strip_cons_node, Element.strip_nil, h.elements k]

/-- A node takes a real token if what it is made of does. -/
lemma Takes.wrap {k : Kind} (h : Takes ρ p p' ts) : Takes ρ (wrap k p) (Grammar.wrap k p') ts :=
  ⟨h.commutes.wrap, h.realCount_lt⟩

/-- What follows the trivia ahead takes a real token. -/
lemma Takes.behind_trivia (h : Takes ρ p p' (trivia ts).2) :
    Takes ρ (trivia ++ p) (trivia ++ p') ts :=
  ⟨commutes_trivia.seq h.commutes, Nat.lt_of_lt_of_le h.realCount_lt realCount_trivia⟩

/-- What follows the trivia ahead takes a real token at any tokens with one among them. -/
lemma Taking.behind_trivia (h : Taking ρ n p p') : Taking ρ n (trivia ++ p) (trivia ++ p') :=
  fun _ hts hpeek => (h _ (Nat.le_trans realCount_trivia hts) (by rwa [peek_trivia])).behind_trivia

/-- **A node** is made of the same. -/
theorem Taking.node {k : Kind} (h : Taking ρ n p p') : Taking ρ n (node k p) (Grammar.node k p') :=
  Taking.behind_trivia fun ts hts hpeek => (h ts hts hpeek).wrap

end TreeLint.Grammar
