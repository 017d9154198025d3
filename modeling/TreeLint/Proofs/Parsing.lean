import Mathlib.Data.List.TakeWhile
import TreeLint.Grammar.Parser
import TreeLint.Proofs.Shape

/-!
# What parsers preserve

A sound parser neither loses nor invents tokens, does not end what it takes with trivia, and builds
elements that are as they should be. This file shows for each way of putting parsers together that
it keeps soundness, so that a production is sound by the way it is written.

Soundness is stated at one list of tokens: what a production does depends on the tokens ahead, and
the parser of a branch need be sound only where the branch is taken.

## Main definitions

* `TreeLint.Grammar.Within` — tokens of a text, at most so many.
* `TreeLint.Grammar.Parser.Sound` — soundness at a list of tokens.
* `TreeLint.Grammar.Parser.Moves` — a parser takes something.

## Main results

* `TreeLint.Grammar.Parser.Sound.andThen`, `TreeLint.Grammar.sound_bump`,
  `TreeLint.Grammar.sound_node`, `TreeLint.Grammar.sound_loopFor` — soundness of sequences, tokens,
  nodes and loops.
* `TreeLint.Grammar.closedBy_spec` — a bracketed repetition ends with its bracket or with the text.
-/

namespace TreeLint.Grammar

open Element

/-- Plain tokens, at most so many. -/
structure Within (n : Nat) (ts : List Token) : Prop where
  /-- There are no more tokens than allowed. -/
  length_le : ts.length ≤ n
  /-- The tokens are plain. -/
  plain : ∀ t ∈ ts, t.IsPlain

/-- A rest of tokens of a text is one with no more of them. -/
lemma Within.suffix {n : Nat} {ts us : List Token} (h : Within n ts) (hs : us <:+ ts) :
    Within n us :=
  ⟨Nat.le_trans hs.length_le h.length_le, fun t ht => h.plain t (hs.subset ht)⟩

/-- The bound on the tokens can be chosen anew. -/
lemma Within.mono {m n : Nat} {ts : List Token} (h : Within m ts) (hle : ts.length ≤ n) :
    Within n ts := ⟨hle, h.plain⟩

/-- Where so many tokens are allowed, one more is. -/
lemma Within.succ {n : Nat} {ts : List Token} (h : Within n ts) : Within (n + 1) ts :=
  h.mono (Nat.le_succ_of_le h.length_le)

/-- Plain tokens are within a bound that leaves room for one more. -/
lemma Within.of_plain {ts : List Token} (h : ∀ t ∈ ts, t.IsPlain) : Within (ts.length + 1) ts :=
  ⟨Nat.le_succ _, h⟩

/-- Both properties that the grammar gives to every element. -/
def IsParsed (e : Element) : Prop := e.IsShaped ∧ e.IsTrimmed

/-- Trivia, or a node of a kind. -/
def Makes (k : Kind) (e : Element) : Prop := e.isTrivia = true ∨ e.kind = k

/-- The kind of an element that is trivia is one of trivia. -/
lemma kind_of_isTrivia {e : Element} (h : e.isTrivia = true) : e.kind.isTrivia = true := by
  cases e with
  | token t => exact h
  | node k cs => cases h

/-- What makes nodes of one kind makes none of another that is not trivia. -/
lemma Makes.kind_ne {k l : Kind} {e : Element} (h : Makes k e) (hne : k ≠ l)
    (hl : l.isTrivia = false) : e.kind ≠ l := by
  rintro rfl
  rcases h with h | h
  · rw [kind_of_isTrivia h] at hl
    cases hl
  · exact hne h.symm

/-- Elements that have a length have tokens. -/
lemma leavesList_ne_nil {es : List Element} (h : 0 < lengthList es) : leavesList es ≠ [] := by
  intro hnil
  rw [lengthList_eq, hnil] at h
  simp at h

namespace Parser

/-- A parser is sound at some tokens if it takes a front part of them that does not end with trivia,
and makes of it elements that are as they should be and have a given property. -/
structure Sound (p : Parser) (P : Element → Prop) (ts : List Token) : Prop where
  /-- No token is lost and none is invented. -/
  leaves : leavesList (p ts).1 ++ (p ts).2 = ts
  /-- What is taken does not end with trivia. -/
  tail : ∀ t ∈ (leavesList (p ts).1).getLast?, t.kind.isTrivia = false
  /-- The elements are as they should be. -/
  parsed : ∀ e ∈ (p ts).1, e.All IsParsed
  /-- The elements have the property. -/
  holds : ∀ e ∈ (p ts).1, P e

/-- A parser takes at least one of some tokens. -/
def Moves (p : Parser) (ts : List Token) : Prop := (p ts).2.length < ts.length

namespace Sound

variable {p q : Parser} {P Q : Element → Prop} {ts : List Token}

/-- What a sound parser leaves are the last of its tokens. -/
lemma suffix (h : p.Sound P ts) : (p ts).2 <:+ ts := ⟨_, h.leaves⟩

/-- A sound parser leaves no more tokens than it finds. -/
lemma length_le (h : p.Sound P ts) : (p ts).2.length ≤ ts.length := h.suffix.length_le

/-- The elements of a sound parser have every property that follows from theirs. -/
lemma mono (h : p.Sound P ts) (hPQ : ∀ e, P e → Q e) : p.Sound Q ts :=
  ⟨h.leaves, h.tail, h.parsed, fun e he => hPQ e (h.holds e he)⟩

/-- A sound parser that makes an element takes a token, since no element is empty. -/
lemma leaves_ne_nil (h : p.Sound P ts) (hne : (p ts).1 ≠ []) : leavesList (p ts).1 ≠ [] := by
  obtain ⟨e, es, hes⟩ := List.exists_cons_of_ne_nil hne
  have hsolid : 0 < e.length := (h.parsed e (by simp [hes])).self.1.isSolid
  exact leavesList_ne_nil (by rw [hes, lengthList_cons]; omega)

/-- A parser that makes an element takes something. -/
lemma moves_of_ne_nil (h : p.Sound P ts) (hne : (p ts).1 ≠ []) : p.Moves ts := by
  have hleaves := h.leaves_ne_nil hne
  have hlen := congrArg List.length h.leaves
  rw [List.length_append] at hlen
  have hpos := List.length_pos_iff.mpr hleaves
  rw [Moves]
  omega

/-- A sound parser that takes something makes an element. -/
lemma ne_nil_of_moves (h : p.Sound P ts) (hmoves : p.Moves ts) : (p ts).1 ≠ [] := by
  intro hnil
  have hleaves := h.leaves
  rw [hnil, leavesList_nil, List.nil_append] at hleaves
  rw [Moves, hleaves] at hmoves
  omega

end Sound

end Parser

variable {p q : Parser} {P Q : Element → Prop} {ts us : List Token} {κ : Kind}

/-! ## Sequences and choices -/

/-- Doing nothing is sound. -/
lemma sound_skip : skip.Sound P ts := ⟨rfl, by simp [skip], by simp [skip], by simp [skip]⟩

/-- A sequence gives what the first parser leaves to the second one and puts their elements together. -/
lemma append_apply (p q : Parser) (ts : List Token) :
    (p ++ q) ts = ((p ts).1 ++ (q (p ts).2).1, (q (p ts).2).2) := rfl

/-- **A sequence is sound** if both parts are, the second one at the tokens that the first one leaves. -/
theorem Parser.Sound.andThen (hp : p.Sound P ts) (hq : q.Sound P (p ts).2) :
    (p ++ q).Sound P ts := by
  constructor
  · rw [append_apply, leavesList_append, List.append_assoc, hq.leaves, hp.leaves]
  · intro t ht
    rw [append_apply, leavesList_append, List.getLast?_append] at ht
    cases hlast : (leavesList (q (p ts).2).1).getLast? with
    | none => exact hp.tail t (by simpa [hlast] using ht)
    | some u => exact hq.tail t (by simpa [hlast] using ht)
  · intro e he
    exact (List.mem_append.mp he).elim (hp.parsed e) (hq.parsed e)
  · intro e he
    exact (List.mem_append.mp he).elim (hp.holds e) (hq.holds e)

/-- A sequence takes something if its first part does. -/
lemma Parser.Moves.andThen_left (hp : p.Moves ts) (hq : q.Sound P (p ts).2) : (p ++ q).Moves ts :=
  Nat.lt_of_le_of_lt hq.length_le hp

/-- Soundness is about what a parser does with the tokens. -/
lemma Parser.Sound.congr (hp : p.Sound P ts) (heq : q ts = p ts) : q.Sound P ts := by
  constructor
  · rw [heq]; exact hp.leaves
  · rw [heq]; exact hp.tail
  · rw [heq]; exact hp.parsed
  · rw [heq]; exact hp.holds

/-- A choice is its first parser where the test passes. -/
lemma choose_of_true {test : List Token → Bool} (h : test ts = true) :
    choose test p q ts = p ts := by simp [choose, h]

/-- A choice is its second parser where the test fails. -/
lemma choose_of_false {test : List Token → Bool} (h : test ts = false) :
    choose test p q ts = q ts := by simp [choose, h]

/-- A choice is sound if each parser is where it is chosen. -/
lemma sound_choose {test : List Token → Bool} (hp : test ts = true → p.Sound P ts)
    (hq : test ts = false → q.Sound P ts) : (choose test p q).Sound P ts := by
  cases h : test ts with
  | true => exact (hp h).congr (choose_of_true h)
  | false => exact (hq h).congr (choose_of_false h)

/-- An optional part is sound if it is where it is taken. -/
lemma sound_when {test : List Token → Bool} (hp : test ts = true → p.Sound P ts) :
    (when test p).Sound P ts := sound_choose hp fun _ => sound_skip

/-! ## Looking ahead -/

/-- No real token is ahead if all tokens are trivia. -/
lemma peek_eq_none_iff : peek ts = none ↔ ∀ t ∈ ts, t.kind.isTrivia = true := by
  simp [peek, peekToken?]

/-- A token of a given kind is the next real one. -/
lemma peek_of_at_ (h : at_ κ ts = true) : peek ts = some κ := beq_iff_eq.mp h

/-- A real token is ahead: it is the first behind some trivia. -/
lemma exists_of_peek_eq_some (h : peek ts = some κ) :
    ∃ tr t us, ts = tr ++ t :: us ∧ (∀ u ∈ tr, u.kind.isTrivia = true) ∧ t.kind = κ ∧
      t.kind.isTrivia = false := by
  simp only [peek, peekToken?, Option.map_eq_some_iff, List.find?_eq_some_iff_append] at h
  obtain ⟨t, ⟨ht, tr, us, rfl, htr⟩, rfl⟩ := h
  exact ⟨tr, t, us, rfl, by simpa using htr, rfl, by simpa using ht⟩

/-- A real token that stands first is ahead. -/
lemma peek_cons {t : Token} (ht : t.kind.isTrivia = false) (us : List Token) :
    peek (t :: us) = some t.kind := by simp [peek, peekToken?, ht]

/-! ## Tokens and nodes -/

/-- The trivia ahead are those in front of the first real token. -/
lemma trivia_append {tr : List Token} {t : Token} (htr : ∀ u ∈ tr, u.kind.isTrivia = true)
    (ht : t.kind.isTrivia = false) (us : List Token) :
    trivia (tr ++ t :: us) = (tr.map .token, t :: us) := by
  rw [trivia, List.takeWhile_append_of_pos htr, List.dropWhile_append_of_pos htr]
  simp [ht]

/-- The next real token is taken with the trivia in front of it. -/
lemma bump_append {tr : List Token} {t : Token} (htr : ∀ u ∈ tr, u.kind.isTrivia = true)
    (ht : t.kind.isTrivia = false) (us : List Token) :
    bump (tr ++ t :: us) = (tr.map .token ++ [.token t], us) := by
  rw [bump, append_apply, trivia_append htr ht]
  rfl

/-- A real token that stands first is taken alone. -/
lemma bump_cons {t : Token} (ht : t.kind.isTrivia = false) (us : List Token) :
    bump (t :: us) = ([.token t], us) := bump_append (List.forall_mem_nil _) ht us

/-- The tokens of elements that are tokens are these. -/
lemma leavesList_map_token (ts : List Token) : leavesList (ts.map .token) = ts := by
  induction ts with
  | nil => rfl
  | cons t ts ih => simp [ih]

/-- A plain token is as an element should be. -/
lemma all_token {t : Token} (ht : t.IsPlain) : (Element.token t).All IsParsed :=
  .token ⟨ht, trivial⟩

/-- Taking the next real token is sound if there is one. -/
theorem sound_bump (hplain : ∀ t ∈ ts, t.IsPlain) (hpeek : peek ts = some κ)
    (hP : ∀ t : Token, t.IsPlain → t.kind.isTrivia = true ∨ t.kind = κ → P (.token t)) :
    bump.Sound P ts := by
  obtain ⟨tr, t, us, rfl, htr, rfl, ht⟩ := exists_of_peek_eq_some hpeek
  have hmem : ∀ e ∈ (bump (tr ++ t :: us)).1,
      ∃ u, u.IsPlain ∧ (u.kind.isTrivia = true ∨ u.kind = t.kind) ∧ e = .token u := by
    intro e he
    rw [bump_append htr ht] at he
    rcases List.mem_append.mp he with he | he
    · obtain ⟨u, hu, rfl⟩ := List.mem_map.mp he
      exact ⟨u, hplain u (by simp [hu]), .inl (htr u hu), rfl⟩
    · exact ⟨t, hplain t (by simp), .inr rfl, List.mem_singleton.mp he⟩
  refine ⟨?_, ?_, fun e he => ?_, fun e he => ?_⟩
  · simp [bump_append htr ht, leavesList_map_token]
  · simpa [bump_append htr ht, leavesList_map_token] using ht
  · obtain ⟨u, hu, -, rfl⟩ := hmem e he
    exact all_token hu
  · obtain ⟨u, hu, hk, rfl⟩ := hmem e he
    exact hP u hu hk

/-- Taking the next real token takes something if there is one. -/
lemma moves_bump (hpeek : peek ts = some κ) : bump.Moves ts := by
  obtain ⟨tr, t, us, rfl, htr, rfl, ht⟩ := exists_of_peek_eq_some hpeek
  rw [Parser.Moves, bump_append htr ht]
  simp only [List.length_append, List.length_cons]
  omega

/-- The trivia in front of a node stay outside it. -/
lemma node_append {tr : List Token} {t : Token} (htr : ∀ u ∈ tr, u.kind.isTrivia = true)
    (ht : t.kind.isTrivia = false) (us : List Token) (k : Kind) (p : Parser) :
    node k p (tr ++ t :: us) =
      (tr.map .token ++ [.node k (p (t :: us)).1], (p (t :: us)).2) := by
  rw [node, append_apply, trivia_append htr ht]
  rfl

/-- The trivia ahead and what stands behind them are taken soundly if the latter is, and is something. -/
theorem sound_trivia (hplain : ∀ t ∈ ts, t.IsPlain) (hpeek : peek ts = some κ)
    (hq : ∀ t vs, t :: vs <:+ ts → t.kind = κ → t.kind.isTrivia = false →
      q.Sound P (t :: vs) ∧ (q (t :: vs)).1 ≠ [])
    (htrivia : ∀ t : Token, t.IsPlain → t.kind.isTrivia = true → P (.token t)) :
    (trivia ++ q).Sound P ts := by
  obtain ⟨tr, t, us, rfl, htr, rfl, ht⟩ := exists_of_peek_eq_some hpeek
  obtain ⟨hsound, hne⟩ := hq t us (List.suffix_append ..) rfl ht
  have heq : (trivia ++ q) (tr ++ t :: us) =
      (tr.map .token ++ (q (t :: us)).1, (q (t :: us)).2) := by
    rw [append_apply, trivia_append htr ht]
  have hleaves : leavesList (q (t :: us)).1 ≠ [] := hsound.leaves_ne_nil hne
  constructor
  · simp [heq, leavesList_map_token, hsound.leaves]
  · rw [heq]
    simp only [leavesList_append]
    rw [List.getLast?_append, List.getLast?_eq_some_getLast hleaves, Option.some_or,
      ← List.getLast?_eq_some_getLast hleaves]
    exact hsound.tail
  · intro e he
    rw [heq] at he
    rcases List.mem_append.mp he with he | he
    · obtain ⟨u, hu, rfl⟩ := List.mem_map.mp he
      exact all_token (hplain u (by simp [hu]))
    · exact hsound.parsed e he
  · intro e he
    rw [heq] at he
    rcases List.mem_append.mp he with he | he
    · obtain ⟨u, hu, rfl⟩ := List.mem_map.mp he
      exact htrivia u (hplain u (by simp [hu])) (htr u hu)
    · exact hsound.holds e he

/-- Behind the trivia ahead something is made if it is from the real token on. -/
lemma trivia_ne_nil (hpeek : peek ts = some κ)
    (hq : ∀ t vs, t :: vs <:+ ts → t.kind = κ → t.kind.isTrivia = false → (q (t :: vs)).1 ≠ []) :
    ((trivia ++ q) ts).1 ≠ [] := by
  obtain ⟨tr, t, us, rfl, htr, rfl, ht⟩ := exists_of_peek_eq_some hpeek
  rw [append_apply, trivia_append htr ht]
  simp [hq t us (List.suffix_append ..) rfl ht]

/-- A node around what a parser takes from a real token on is sound if this is in order. It begins
with the real token, and ends as what the parser takes. -/
theorem sound_wrap {k : Kind} {t : Token} (hp : p.Sound Q (t :: us)) (ht : t.kind.isTrivia = false)
    (hshape : Shaped k (p (t :: us)).1) : (wrap k p).Sound (Makes k) (t :: us) := by
  have hne : leavesList (p (t :: us)).1 ≠ [] := leavesList_ne_nil hshape.length_pos
  have hhead : (leavesList (p (t :: us)).1).head? = some t := by
    obtain ⟨u, vs, hus⟩ := List.exists_cons_of_ne_nil hne
    have hleaves := hp.leaves
    rw [hus] at hleaves ⊢
    rw [(List.cons.inj hleaves).1, List.head?_cons]
  have htight : IsTight (leavesList (p (t :: us)).1) := ⟨by simpa [hhead] using ht, hp.tail⟩
  have heq : wrap k p (t :: us) = ([.node k (p (t :: us)).1], (p (t :: us)).2) := rfl
  constructor
  · simpa [heq] using hp.leaves
  · simpa [heq] using hp.tail
  · intro e he
    rw [List.mem_singleton.mp he]
    exact .node ⟨hshape, htight⟩ hp.parsed
  · intro e he
    rw [List.mem_singleton.mp he]
    exact .inr rfl

/-- **A node is sound** if a real token is ahead and what the parser of its children does behind the
trivia is sound and in order. -/
theorem sound_node {k : Kind} (hplain : ∀ t ∈ ts, t.IsPlain) (hpeek : peek ts = some κ)
    (hp : ∀ t vs, t :: vs <:+ ts → t.kind = κ → t.kind.isTrivia = false →
      p.Sound Q (t :: vs) ∧ Shaped k (p (t :: vs)).1) : (node k p).Sound (Makes k) ts :=
  sound_trivia hplain hpeek (fun t vs hvs htk ht =>
    ⟨sound_wrap (hp t vs hvs htk ht).1 ht (hp t vs hvs htk ht).2, List.cons_ne_nil _ _⟩)
    fun _ _ h => .inl h

/-- A node takes something if a real token is ahead and what is in it is not empty. -/
lemma moves_of_makes {k : Kind} (hsound : (node k p).Sound (Makes k) ts) (hpeek : peek ts = some κ) :
    (node k p).Moves ts := by
  refine hsound.moves_of_ne_nil ?_
  obtain ⟨tr, t, us, rfl, htr, rfl, ht⟩ := exists_of_peek_eq_some hpeek
  simp [node_append htr ht]

/-! ## Loops -/

section Loops

variable {σ : Type} {step : σ → List Token → Option (Parser × σ)}

/-- A loop whose step stops makes nothing. -/
lemma loopFor_of_none {rounds : Nat} {s : σ} (h : step s ts = none) :
    loopFor step rounds s ts = ([], ts) := by
  cases rounds with
  | zero => rfl
  | succ rounds => simp [loopFor, h]

/-- A loop whose step goes on runs the parser of the step and then the other rounds. -/
lemma loopFor_of_some {rounds : Nat} {s s' : σ} (h : step s ts = some (p, s')) :
    loopFor step (rounds + 1) s ts = (p ++ loopFor step rounds s') ts := by simp [loopFor, h]

/-- A loop is sound if each of its rounds is: what one round leaves is what the next one finds. -/
theorem sound_loopFor {rounds : Nat} {s : σ}
    (hstep : ∀ s us p s', us <:+ ts → step s us = some (p, s') → p.Sound P us) :
    (loopFor step rounds s).Sound P ts := by
  induction rounds generalizing s ts with
  | zero => exact sound_skip
  | succ rounds ih =>
    cases h : step s ts with
    | none => exact (sound_skip (P := P)).congr (loopFor_of_none h)
    | some ps =>
      obtain ⟨p, s'⟩ := ps
      have hp := hstep s ts p s' (List.suffix_refl _) h
      have hrest : (loopFor step rounds s').Sound P (p ts).2 := ih fun s us q s'' hus hq =>
        hstep s us q s'' (hus.trans hp.suffix) hq
      exact (hp.andThen hrest).congr (loopFor_of_some h)

/-- A loop with as many rounds as there are tokens is sound if its steps are. -/
lemma sound_loop {s : σ}
    (hstep : ∀ s us p s', us <:+ ts → step s us = some (p, s') → p.Sound P us) :
    (loop step s).Sound P ts := by
  have hsound : (loopFor step ts.length s).Sound P ts := sound_loopFor hstep
  exact hsound.congr rfl

/-- A loop whose first round takes something takes something. -/
lemma moves_loop {s s' : σ}
    (hstep : ∀ s us p s', us <:+ ts → step s us = some (p, s') → p.Sound P us)
    (h : step s ts = some (p, s')) (hmoves : p.Moves ts) : (loop step s).Moves ts := by
  have hp := hstep s ts p s' (List.suffix_refl _) h
  obtain ⟨n, hn⟩ : ∃ n, ts.length = n + 1 :=
    Nat.exists_eq_add_one_of_ne_zero (by unfold Parser.Moves at hmoves; omega)
  have hrest : (loopFor step n s').Sound P (p ts).2 := sound_loopFor
    fun s us q s'' hus hq => hstep s us q s'' (hus.trans hp.suffix) hq
  have := hmoves.andThen_left hrest
  unfold Parser.Moves at this ⊢
  rw [loop]
  rwa [hn, loopFor_of_some h, ← hn]

end Loops

/-- A repetition whose test fails at once makes nothing. -/
lemma repeatWhile_of_false {test : List Token → Bool} (h : test ts = false) :
    repeatWhile test p ts = ([], ts) := loopFor_of_none (by simp [h])

/-- A repetition that makes something passes its test at the beginning. -/
lemma test_of_mem_repeatWhile {test : List Token → Bool} {e : Element}
    (he : e ∈ (repeatWhile test p ts).1) : test ts = true := by
  by_contra h
  rw [repeatWhile_of_false (Bool.eq_false_iff.mpr h)] at he
  cases he

/-- A repetition is sound if its parser is wherever the test passes. -/
lemma sound_repeatWhile {test : List Token → Bool}
    (hp : ∀ us, us <:+ ts → test us = true → p.Sound P us) :
    (repeatWhile test p).Sound P ts := by
  refine sound_loop fun s us q s' hus hq => ?_
  split at hq
  · rename_i htest
    obtain ⟨rfl, -⟩ := by simpa using hq
    exact hp us hus htest
  · cases hq

/-- A repetition does not stop before its test fails, if each round takes something. -/
theorem repeatWhile_done {test : List Token → Bool}
    (hp : ∀ us, us <:+ ts → test us = true → p.Sound P us ∧ p.Moves us) (hnil : test [] = false) :
    test (repeatWhile test p ts).2 = false := by
  have hall : ∀ rounds us, us <:+ ts → us.length ≤ rounds →
      test (loopFor (fun (_ : Unit) ts => if test ts then some (p, ()) else none) rounds () us).2 =
        false := by
    intro rounds
    induction rounds with
    | zero =>
      intro us _ hlen
      obtain rfl : us = [] := List.length_eq_zero_iff.mp (by omega)
      exact hnil
    | succ rounds ih =>
      intro us hus hlen
      cases h : test us with
      | false => rw [loopFor_of_none (by simp [h])]; exact h
      | true =>
        obtain ⟨hsound, hmoves⟩ := hp us hus h
        have hstep : (fun (_ : Unit) ts => if test ts then some (p, ()) else none) () us =
            some (p, ()) := by simp [h]
        rw [loopFor_of_some hstep]
        unfold Parser.Moves at hmoves
        exact ih _ (hsound.suffix.trans hus) (by omega)
  exact hall ts.length ts (List.suffix_refl _) (Nat.le_refl _)

/-! ## Repetition up to a bracket -/

/-- The step of a repetition up to a closing token. -/
def closedByStep (closing : Kind) (p : Parser) (isOpen : Bool) (ts : List Token) :
    Option (Parser × Bool) :=
  match isOpen, peek ts with
  | false, _ => none
  | true, none => none
  | true, some k => if k = closing then some (bump, false) else some (p, true)

/-- A repetition up to a closing token is a loop that remembers whether it goes on. -/
lemma closedBy_apply (closing : Kind) (p : Parser) (ts : List Token) :
    closedBy closing p ts = loopFor (closedByStep closing p) ts.length true ts := rfl

/-- What a repetition up to a closing token makes: elements with the property of its parser, and
behind them the closing token, unless the text ends. -/
def IsClosedRun (closing : Kind) (P : Element → Prop) (es : List Element) (rest : List Token) :
    Prop :=
  ∃ inner tail, es = inner ++ tail ∧ (∀ e ∈ inner, P e) ∧
    (tail = [] ∧ peek rest = none ∨ ∃ t, t.kind = closing ∧ tail = [.token t])

/-- The loop behind a repetition up to a closing token, with as many rounds as there are tokens. -/
lemma closedBy_loop {closing : Kind} {rounds : Nat} (hlen : ts.length ≤ rounds)
    (hplain : ∀ t ∈ ts, t.IsPlain)
    (hp : ∀ us k, us <:+ ts → peek us = some k → k ≠ closing → p.Sound P us ∧ p.Moves us)
    (htrivia : ∀ t : Token, t.IsPlain → t.kind.isTrivia = true → P (.token t)) :
    (loopFor (closedByStep closing p) rounds true).Sound (fun _ => True) ts ∧
      IsClosedRun closing P (loopFor (closedByStep closing p) rounds true ts).1
        (loopFor (closedByStep closing p) rounds true ts).2 := by
  induction rounds generalizing ts with
  | zero =>
    obtain rfl : ts = [] := List.length_eq_zero_iff.mp (by omega)
    exact ⟨sound_skip, [], [], rfl, by simp, .inl ⟨rfl, rfl⟩⟩
  | succ rounds ih =>
    cases hpeek : peek ts with
    | none =>
      have hstop : loopFor (closedByStep closing p) (rounds + 1) true ts = ([], ts) :=
        loopFor_of_none (by simp [closedByStep, hpeek])
      exact ⟨sound_skip.congr hstop, by rw [hstop]; exact ⟨[], [], rfl, by simp, .inl ⟨rfl, hpeek⟩⟩⟩
    | some k =>
      by_cases hk : k = closing
      · subst hk
        have hbump : bump.Sound (fun _ => True) ts := sound_bump hplain hpeek fun _ _ _ => trivial
        have hlast : ∀ us, loopFor (closedByStep k p) rounds false us = ([], us) :=
          fun us => loopFor_of_none rfl
        have heq : loopFor (closedByStep k p) (rounds + 1) true ts = bump ts := by
          rw [loopFor_of_some (show closedByStep k p true ts = some (bump, false) by
            simp [closedByStep, hpeek]), append_apply, hlast]
          simp
        refine ⟨hbump.congr heq, ?_⟩
        rw [heq]
        obtain ⟨tr, t, us, rfl, htr, rfl, ht⟩ := exists_of_peek_eq_some hpeek
        refine ⟨tr.map .token, [.token t], by rw [bump_append htr ht], fun e he => ?_,
          .inr ⟨t, rfl, rfl⟩⟩
        obtain ⟨u, hu, rfl⟩ := List.mem_map.mp he
        exact htrivia u (hplain u (by simp [hu])) (htr u hu)
      · obtain ⟨hsound, hmoves⟩ := hp ts k (List.suffix_refl _) hpeek hk
        unfold Parser.Moves at hmoves
        have heq : loopFor (closedByStep closing p) (rounds + 1) true ts =
            (p ++ loopFor (closedByStep closing p) rounds true) ts :=
          loopFor_of_some (by simp [closedByStep, hpeek, hk])
        have hfew : (p ts).2.length ≤ rounds := by omega
        obtain ⟨hrest, inner, tail, hinner, hall, htail⟩ := ih hfew
          (fun t ht => hplain t (hsound.suffix.subset ht))
          fun us l hus => hp us l (hus.trans hsound.suffix)
        refine ⟨((hsound.mono fun _ _ => trivial).andThen hrest).congr heq, ?_⟩
        rw [heq, append_apply]
        refine ⟨(p ts).1 ++ inner, tail, by rw [hinner, List.append_assoc], fun e he => ?_, htail⟩
        exact (List.mem_append.mp he).elim (hsound.holds e) (hall e)

/-- **A repetition up to a closing token** is sound and does not stop before the closing token or the
end of the text, if its parser is sound and moves wherever neither is reached. -/
theorem closedBy_spec {closing : Kind} (hplain : ∀ t ∈ ts, t.IsPlain)
    (hp : ∀ us k, us <:+ ts → peek us = some k → k ≠ closing → p.Sound P us ∧ p.Moves us)
    (htrivia : ∀ t : Token, t.IsPlain → t.kind.isTrivia = true → P (.token t)) :
    (closedBy closing p).Sound (fun _ => True) ts ∧
      IsClosedRun closing P (closedBy closing p ts).1 (closedBy closing p ts).2 := by
  obtain ⟨hsound, hrun⟩ := closedBy_loop (Nat.le_refl _) hplain hp htrivia
  rw [closedBy_apply]
  exact ⟨hsound.congr (closedBy_apply closing p ts), hrun⟩

/-! ## Nodes without an order of their own -/

/-- What a parser makes begins as a node of kind `k` may begin. -/
def Parser.Begins (p : Parser) (k : Kind) (ts : List Token) : Prop :=
  ∃ e es, (p ts).1 = e :: es ∧ e.MayStart k

/-- What is made of tokens that begin with a real one does not begin with trivia. -/
lemma Parser.Sound.isTrivia_first {t : Token} {vs : List Token} {e : Element} {es : List Element}
    (hp : p.Sound P (t :: vs)) (ht : t.kind.isTrivia = false) (hes : (p (t :: vs)).1 = e :: es) :
    e.isTrivia = false := by
  cases e with
  | token u =>
    have hleaves := hp.leaves
    rw [hes] at hleaves
    rw [isTrivia, (List.cons.inj hleaves).1, ht]
  | node k cs => rfl

namespace Parser.Begins

variable {k : Kind} {t : Token} {vs : List Token}

/-- The first element that is made may begin the node. -/
lemma first (hp : p.Begins k ts) : ∀ e es, (p ts).1 = e :: es → e.MayStart k := by
  obtain ⟨e, es, hes, he⟩ := hp
  intro e' es' hes'
  rw [hes] at hes'
  exact (List.cons.inj hes').1 ▸ he

/-- What begins a node is not empty. -/
lemma length_pos (hbegins : p.Begins k ts) (hp : p.Sound P ts) : 0 < lengthList (p ts).1 := by
  obtain ⟨e, es, hes, -⟩ := hbegins
  have hsolid : 0 < e.length := (hp.parsed e (by simp [hes])).self.1.isSolid
  rw [hes, lengthList_cons]
  omega

/-- A sequence begins as its first part does. -/
lemma andThen (hp : p.Begins k ts) : (p ++ q).Begins k ts := by
  obtain ⟨e, es, hes, he⟩ := hp
  exact ⟨e, es ++ (q (p ts).2).1, by simp [append_apply, hes], he⟩

/-- How a parser begins depends on what it does with the tokens. -/
lemma congr (hp : p.Begins k ts) (heq : q ts = p ts) : q.Begins k ts := by
  obtain ⟨e, es, hes, he⟩ := hp
  exact ⟨e, es, by rw [heq, hes], he⟩

/-- A parser that takes no nodes begins like any node. -/
lemma of_tokens (hp : p.Sound P (t :: vs)) (ht : t.kind.isTrivia = false)
    (hne : (p (t :: vs)).1 ≠ []) (htoken : ∀ e, P e → ∃ t, e = .token t) :
    p.Begins k (t :: vs) := by
  obtain ⟨e, es, hes⟩ := List.exists_cons_of_ne_nil hne
  refine ⟨e, es, hes, hp.isTrivia_first ht hes, fun l ds he => ?_⟩
  obtain ⟨u, rfl⟩ := htoken e (hp.holds e (by simp [hes]))
  cases he

/-- A parser that makes nodes of one kind begins with such a node, or with a token. -/
lemma of_makes {l : Kind} (hp : p.Sound (Makes l) (t :: vs)) (ht : t.kind.isTrivia = false)
    (hne : (p (t :: vs)).1 ≠ []) (hl : k.mayBegin l = true) : p.Begins k (t :: vs) := by
  obtain ⟨e, es, hes⟩ := List.exists_cons_of_ne_nil hne
  refine ⟨e, es, hes, hp.isTrivia_first ht hes, fun l' ds he => ?_⟩
  subst he
  rcases hp.holds _ (by rw [hes]; exact List.mem_cons_self) with htriv | hk
  · cases htriv
  · simp only [kind] at hk
    rwa [hk]

/-- A real token may begin any node. -/
lemma bump (ht : t.kind.isTrivia = false) : Grammar.bump.Begins k (t :: vs) :=
  ⟨.token t, [], by rw [bump_cons ht], ht, fun l ds h => by cases h⟩

/-- A node may begin another one if its kind may. -/
lemma node {l : Kind} (ht : t.kind.isTrivia = false) (hl : k.mayBegin l = true) :
    (Grammar.node l p).Begins k (t :: vs) := by
  have h := node_append (List.forall_mem_nil _) ht vs l p
  rw [List.nil_append] at h
  exact ⟨.node l (p (t :: vs)).1, [], by rw [h]; rfl, rfl, fun l' ds h => by cases h; exact hl⟩

/-- A loop begins as the parser of its first round does. -/
lemma loop {σ : Type} {step : σ → List Token → Option (Parser × σ)} {s s' : σ}
    (h : step s (t :: vs) = some (p, s')) (hp : p.Begins k (t :: vs)) :
    (Grammar.loop step s).Begins k (t :: vs) := by
  have heq : loopFor step (vs.length + 1) s (t :: vs) =
      (p ++ loopFor step vs.length s') (t :: vs) := loopFor_of_some h
  exact hp.andThen.congr heq

end Parser.Begins

/-- A token is neither a handler nor a clause that runs in any case. -/
lemma isFree_token {t : Token} (ht : t.IsPlain) : (Element.token t).IsFree := by
  have hkind := ht.kind
  constructor <;> (intro h; simp only [Element.kind] at h; rw [h] at hkind; revert hkind; decide)

/-- What makes nodes of a kind other than handlers and last clauses makes none of these. -/
lemma Makes.isFree {k : Kind} (hk : k ≠ .catchClause ∧ k ≠ .finallyClause) {e : Element}
    (h : Makes k e) : e.IsFree := ⟨h.kind_ne hk.1 rfl, h.kind_ne hk.2 rfl⟩

/-- Taking the next real token is sound as far as handlers are concerned. -/
lemma free_bump (hplain : ∀ t ∈ ts, t.IsPlain) (hpeek : (peek ts).isSome = true) :
    bump.Sound IsFree ts := by
  obtain ⟨κ, hκ⟩ := Option.isSome_iff_exists.mp hpeek
  exact sound_bump hplain hκ fun t ht _ => isFree_token ht

/-- Taking the next token if it has a given kind is sound, and makes no handler. -/
lemma free_eat (hplain : ∀ t ∈ ts, t.IsPlain) : (eat κ).Sound IsFree ts :=
  sound_when fun h => free_bump hplain (by rw [peek_of_at_ h]; rfl)

/-- The children of a node without an order of its own are in order if there is no handler among them and
they begin as they may. -/
lemma shaped_of_free {k : Kind} (hk : k.slots? = none) (hb : k ≠ .block)
    (hkind : ¬Token.IsTokenKind k) (hp : p.Sound IsFree ts) (hbegins : p.Begins k ts) :
    Shaped k (p ts).1 where
  kind := hkind
  length_pos := hbegins.length_pos hp
  begins := hbegins.first
  slots slots h := by rw [hk] at h; cases h
  free _ e he := hp.holds e he
  braced h := absurd h hb
  closed h := by rw [h] at hk; cases hk

/-- A node without an order of its own is sound if what is in it is. -/
theorem sound_freeNode {k : Kind} (hk : k.slots? = none) (hb : k ≠ .block)
    (hkind : ¬Token.IsTokenKind k) (hplain : ∀ t ∈ ts, t.IsPlain) (hpeek : peek ts = some κ)
    (hp : ∀ t vs, t :: vs <:+ ts → t.kind = κ → t.kind.isTrivia = false →
      p.Sound IsFree (t :: vs) ∧ p.Begins k (t :: vs)) : (node k p).Sound (Makes k) ts :=
  sound_node hplain hpeek fun t vs hvs htk ht =>
    ⟨(hp t vs hvs htk ht).1, shaped_of_free hk hb hkind (hp t vs hvs htk ht).1 (hp t vs hvs htk ht).2⟩

/-- Such a node is sound wherever a real token is ahead if what is in it is sound from a real token on. -/
lemma sound_freeNode_of_isSome {k : Kind} (hk : k.slots? = none) (hb : k ≠ .block)
    (hkind : ¬Token.IsTokenKind k) (h : Within n ts) (hpeek : (peek ts).isSome = true)
    (hp : ∀ t vs, Within n (t :: vs) → t.kind.isTrivia = false →
      p.Sound IsFree (t :: vs) ∧ p.Begins k (t :: vs)) : (node k p).Sound (Makes k) ts := by
  obtain ⟨κ, hκ⟩ := Option.isSome_iff_exists.mp hpeek
  exact sound_freeNode hk hb hkind h.plain hκ fun t vs hvs _ ht => hp t vs (h.suffix hvs) ht

/-! ## Parsers that are sound everywhere -/

/-- A parser is sound, as far as handlers are concerned, at all lists of at most `n` plain tokens. -/
def Parser.Free (n : Nat) (p : Parser) : Prop := ∀ ts, Within n ts → p.Sound IsFree ts

/-- A parser is sound at some tokens and leaves at most `n` of them. -/
def Parser.Enters (n : Nat) (p : Parser) (ts : List Token) : Prop :=
  p.Sound IsFree ts ∧ Within n (p ts).2

section Free

variable {n : Nat}

/-- A sequence is sound everywhere if its parts are. -/
lemma Parser.Free.andThen (hp : p.Free n) (hq : q.Free n) : (p ++ q).Free n :=
  fun ts h => (hp ts h).andThen (hq _ (h.suffix (hp ts h).suffix))

/-- An optional part is sound everywhere if it is where it is taken. -/
lemma Parser.Free.when {test : List Token → Bool}
    (hp : ∀ ts, Within n ts → test ts = true → p.Sound IsFree ts) : (when test p).Free n :=
  fun ts h => sound_when (hp ts h)

/-- A repetition is sound everywhere if its parser is where the test passes. -/
lemma Parser.Free.repeatWhile {test : List Token → Bool}
    (hp : ∀ ts, Within n ts → test ts = true → p.Sound IsFree ts) : (repeatWhile test p).Free n :=
  fun _ h => sound_repeatWhile fun us hus htest => hp us (h.suffix hus) htest

/-- Taking the next token if it has a given kind is sound everywhere. -/
lemma Parser.Free.eat : (eat κ).Free n := fun _ h => free_eat h.plain

/-- Taking a real token leaves fewer tokens. -/
lemma Parser.Enters.bump (h : Within (n + 1) ts) (hpeek : (peek ts).isSome = true) :
    Grammar.bump.Enters n ts := by
  obtain ⟨κ, hκ⟩ := Option.isSome_iff_exists.mp hpeek
  have hsound := free_bump h.plain hpeek
  have hmoves := moves_bump hκ
  unfold Parser.Moves at hmoves
  exact ⟨hsound, (h.suffix hsound.suffix).mono (by have := h.length_le; omega)⟩

/-- What follows a part that leaves fewer tokens leaves no more. -/
lemma Parser.Enters.andThen (hp : p.Enters n ts) (hq : q.Free n) : (p ++ q).Enters n ts :=
  ⟨hp.1.andThen (hq _ hp.2), hp.2.suffix (hq _ hp.2).suffix⟩

end Free

end TreeLint.Grammar
