import TreeLint.Grammar.Procedure
import TreeLint.Proofs.Parsing

/-!
# Commands that perform parsers

A command performs a parser at a list of tokens if, with any builder, it ends without a failed
request, leaves the tokens that the parser leaves, and adds the elements that the parser makes. The
open nodes of the builder are the same afterwards. This file shows for each way of putting commands
together that it performs the parser put together in the same way.

A loop ends because each of its rounds takes a token, so most statements come in a second form, in
which the parser moves.

## Main definitions

* `TreeLint.Builder.IsReady` — a node can be opened at the position of the builder.
* `TreeLint.Grammar.Performs`, `TreeLint.Grammar.Advances` — a command performs a parser, and takes
  something.
* `TreeLint.Grammar.Follows`, `TreeLint.Grammar.Serves` — the same at all lists of at most so many
  tokens.

## Main results

* `TreeLint.Grammar.Exec.unique` — a run has one outcome.
* `TreeLint.Grammar.Performs.seq`, `TreeLint.Grammar.Performs.node`,
  `TreeLint.Grammar.Performs.loop` — sequences, nodes and loops.
-/

namespace TreeLint

/-! ## Builders -/

namespace Builder

/-- Adds finished elements. -/
def add (b : Builder) (es : List Element) : Builder := { b with elements := b.elements ++ es }

/-- The innermost open node does not begin behind the last element, so that a node can be opened at the
current position, now and when more elements have been added. -/
def IsReady (b : Builder) : Prop := ∀ f ∈ b.pending.head?, f.2 ≤ b.elements.length

variable {b : Builder} {es fs : List Element} {k : Kind}

@[simp] lemma add_nil (b : Builder) : b.add [] = b := by simp [add]

@[simp] lemma add_add (b : Builder) (es fs : List Element) :
    (b.add es).add fs = b.add (es ++ fs) := by simp [add]

/-- A node can still be opened when elements have been added. -/
lemma IsReady.add (h : b.IsReady) (es : List Element) : (b.add es).IsReady := by
  intro f hf
  have := h f hf
  simp only [Builder.add, List.length_append]
  omega

/-- A node can be opened in one that has just been opened. -/
lemma isReady_open (b : Builder) (k : Kind) : (b.open_ k).IsReady := by
  intro f hf
  obtain rfl : (k, b.elements.length) = f := by simpa [open_] using hf
  exact Nat.le_refl _

/-- A node holds what has been added since it was opened. -/
lemma close?_add (b : Builder) (k : Kind) (es : List Element) :
    ((b.open_ k).add es).close? = some (b.add [.node k es]) := by
  simp [open_, add, close?]

/-- A node can be opened around what has been added since its position was remembered. -/
lemma openAt?_add (h : b.IsReady) (k : Kind) (es : List Element) :
    (b.add es).openAt? b.position k = some ((b.open_ k).add es) := by
  have hfirst : (b.pending.head?.map Prod.snd).getD 0 ≤ b.elements.length := by
    cases hf : b.pending.head? with
    | none => exact Nat.zero_le _
    | some f => exact h f hf
  simp [openAt?, add, position, open_, hfirst]

end Builder

namespace Grammar

/-! ## Runs have one outcome -/

/-- **A run has one outcome**: a state and a command determine where the run ends, and whether it
fails. -/
theorem Exec.unique {c : Command} {s : State} {o o' : Option State} (h : Exec c s o)
    (h' : Exec c s o') : o = o' := by
  induction h generalizing o' with
  | skip | request => cases h'; rfl
  | look _ ih | mark _ ih | call _ ih => cases h' with | _ h' => exact ih h'
  | seq _ _ ihc ihd =>
    cases h' with
    | seq hc' hd' =>
      obtain rfl := Option.some.inj (ihc hc')
      exact ihd hd'
    | seqFail hc' => cases ihc hc'
  | seqFail _ ihc =>
    cases h' with
    | seq hc' => cases ihc hc'
    | seqFail => rfl
  | loopStop hstop =>
    cases h' with
    | loopStop => rfl
    | loopRound hgo => rw [hstop] at hgo; cases hgo
  | loopRound hgo _ ih =>
    cases h' with
    | loopStop hstop => rw [hstop] at hgo; cases hgo
    | loopRound hgo' hround =>
      obtain rfl := Option.some.inj (hgo.symm.trans hgo')
      exact ih hround

/-! ## Performing a parser -/

/-- A command performs a parser at some tokens. -/
structure Performs (c : Command) (p : Parser) (ts : List Token) : Prop where
  /-- The parser neither loses nor invents a token. -/
  leaves : Element.leavesList (p ts).1 ++ (p ts).2 = ts
  /-- The command ends, leaves the same tokens and adds the same elements. -/
  exec : ∀ b : Builder, b.IsReady → Exec c ⟨ts, b⟩ (some ⟨(p ts).2, b.add (p ts).1⟩)

/-- A command performs a parser at some tokens, and takes something. -/
structure Advances (c : Command) (p : Parser) (ts : List Token) : Prop where
  /-- The command performs the parser. -/
  performs : Performs c p ts
  /-- The parser takes something. -/
  moves : p.Moves ts

/-- A command performs a parser at all lists of at most `n` tokens. -/
def Follows (n : Nat) (c : Command) (p : Parser) : Prop := ∀ ts, ts.length ≤ n → Performs c p ts

/-- A command performs a parser and takes something, at all lists of at most `n` tokens with a real
one among them. -/
def Serves (n : Nat) (c : Command) (p : Parser) : Prop :=
  ∀ ts, ts.length ≤ n → (peek ts).isSome = true → Advances c p ts

variable {c d : Command} {p q : Parser} {ts : List Token} {κ : Kind} {n m : Nat}

/-- What a parser leaves that a command performs are the last of its tokens. -/
lemma Performs.suffix (h : Performs c p ts) : (p ts).2 <:+ ts := ⟨_, h.leaves⟩

/-- A parser that takes something makes something. -/
lemma Advances.ne_nil (h : Advances c p ts) : (p ts).1 ≠ [] := by
  intro hnil
  have hleaves := h.performs.leaves
  rw [hnil, Element.leavesList_nil, List.nil_append] at hleaves
  exact absurd h.moves (by rw [Parser.Moves, hleaves]; exact Nat.lt_irrefl _)

/-- A command performs every parser that does the same at the tokens. -/
lemma Performs.congr (h : Performs c p ts) (heq : q ts = p ts) : Performs c q ts := by
  refine ⟨by rw [heq]; exact h.leaves, fun b hb => ?_⟩
  rw [heq]
  exact h.exec b hb

/-- What is taken is taken by every parser that does the same at the tokens. -/
lemma Advances.congr (h : Advances c p ts) (heq : q ts = p ts) : Advances c q ts :=
  ⟨h.performs.congr heq, by unfold Parser.Moves; rw [heq]; exact h.moves⟩

/-- A parser that is performed at long lists of tokens is so at shorter ones. -/
lemma Follows.mono (h : Follows n c p) (hle : m ≤ n) : Follows m c p :=
  fun ts hts => h ts (Nat.le_trans hts hle)

/-- What advances at long lists of tokens advances at shorter ones. -/
lemma Serves.mono (h : Serves n c p) (hle : m ≤ n) : Serves m c p :=
  fun ts hts => h ts (Nat.le_trans hts hle)

/-! ## Sequences and choices -/

/-- A command that ends where it begins performs the parser that takes nothing. -/
lemma performs_of_exec (h : ∀ s : State, s.tokens = ts → Exec c s (some s)) : Performs c skip ts :=
  ⟨rfl, fun b _ => by simpa [skip] using h ⟨ts, b⟩ rfl⟩

/-- The empty command performs the parser that does nothing. -/
lemma performs_skip : Performs .skip skip ts := performs_of_exec fun s _ => .skip s

/-- A sequence neither loses nor invents tokens if its parts do not. -/
lemma leaves_append (hp : Element.leavesList (p ts).1 ++ (p ts).2 = ts)
    (hq : Performs d q (p ts).2) :
    Element.leavesList ((p ++ q) ts).1 ++ ((p ++ q) ts).2 = ts := by
  rw [append_apply, Element.leavesList_append, List.append_assoc, hq.leaves, hp]

/-- **A sequence** performs the parsers in sequence. -/
theorem Performs.seq (hp : Performs c p ts) (hq : Performs d q (p ts).2) :
    Performs (c ++ d) (p ++ q) ts := by
  refine ⟨leaves_append hp.leaves hq, fun b hb => ?_⟩
  have hrest := hq.exec (b.add (p ts).1) (hb.add _)
  rw [Builder.add_add] at hrest
  exact .seq (hp.exec b hb) hrest

/-- A sequence takes something if its first part does. -/
lemma Advances.seq (hp : Advances c p ts) (hq : Performs d q (p ts).2) :
    Advances (c ++ d) (p ++ q) ts :=
  ⟨hp.performs.seq hq, Nat.lt_of_le_of_lt hq.suffix.length_le hp.moves⟩

/-- What follows a command that takes something has fewer tokens to work on. -/
lemma Advances.andThen (hp : Advances c p ts) (hts : ts.length ≤ n + 1) (hq : Follows n d q) :
    Advances (c ++ d) (p ++ q) ts :=
  hp.seq (hq _ (Nat.le_of_lt_succ (Nat.lt_of_lt_of_le hp.moves hts)))

/-- A sequence is performed at all lists of so many tokens, since its second part finds no more of them
than its first. -/
lemma Follows.seq (hp : Follows n c p) (hq : Follows n d q) : Follows n (c ++ d) (p ++ q) :=
  fun ts hts => (hp ts hts).seq (hq _ (Nat.le_trans (hp ts hts).suffix.length_le hts))

/-- A command that looks ahead performs what the command chosen at the tokens performs. -/
lemma Performs.look {next : List Token → Command} (h : Performs (next ts) p ts) :
    Performs (.look next) p ts := ⟨h.leaves, fun b hb => .look (h.exec b hb)⟩

/-- A command that looks ahead takes what the chosen command takes. -/
lemma Advances.look {next : List Token → Command} (h : Advances (next ts) p ts) :
    Advances (.look next) p ts := ⟨h.performs.look, h.moves⟩

/-- A call performs what the body of the procedure performs. -/
lemma Performs.call {r : Procedure} (h : Performs (.body r) p ts) : Performs (.call r) p ts :=
  ⟨h.leaves, fun b hb => .call (h.exec b hb)⟩

/-- A call takes what the body of the procedure takes. -/
lemma Advances.call {r : Procedure} (h : Advances (.body r) p ts) : Advances (.call r) p ts :=
  ⟨h.performs.call, h.moves⟩

/-- A branch performs a choice if each side performs its parser where it is taken. -/
lemma Performs.branch {test : List Token → Bool} (hp : test ts = true → Performs c p ts)
    (hq : test ts = false → Performs d q ts) :
    Performs (.branch test c d) (choose test p q) ts := by
  refine Performs.look ?_
  cases h : test ts with
  | true => exact (hp h).congr (choose_of_true h)
  | false => exact (hq h).congr (choose_of_false h)

/-- A branch takes something if each side does where it is taken. -/
lemma Advances.branch {test : List Token → Bool} (hp : test ts = true → Advances c p ts)
    (hq : test ts = false → Advances d q ts) :
    Advances (.branch test c d) (choose test p q) ts := by
  refine Advances.look ?_
  cases h : test ts with
  | true => exact (hp h).congr (choose_of_true h)
  | false => exact (hq h).congr (choose_of_false h)

/-- An optional command performs an optional part. -/
lemma Follows.when {test : List Token → Bool}
    (hp : ∀ ts, ts.length ≤ n → test ts = true → Performs c p ts) :
    Follows n (.when test c) (Grammar.when test p) :=
  fun ts hts => .branch (hp ts hts) fun _ => performs_skip

/-! ## Loops -/

section Loops

variable {σ : Type} {us : List Token}

/-- A round of a loop agrees with a round of the loop of parsers at some tokens: both stop, or both go
on with the same state, and the command of the round performs its parser and takes something. -/
inductive IsRound (us : List Token) : Option σ → Command → Option (Parser × σ) → Prop where
  /-- Both loops stop. -/
  | stop {c : Command} : IsRound us none c none
  /-- Both loops go on. -/
  | go {c : Command} {p : Parser} {y : σ} (h : Advances c p us) : IsRound us (some y) c (some (p, y))

/-- Two rounds that agree both stop, or both go on with the same state. -/
lemma IsRound.cases_eq {o : Option σ} {o' : Option (Parser × σ)} (h : IsRound us o c o') :
    (o = none ∧ o' = none) ∨ ∃ y p, o = some y ∧ o' = some (p, y) ∧ Advances c p us := by
  cases h with
  | stop => exact .inl ⟨rfl, rfl⟩
  | go h => exact .inr ⟨_, _, rfl, rfl, h⟩

/-- Rounds that are chosen on the same condition agree if both choices do. -/
lemma IsRound.ite {a : Prop} [Decidable a] {x y : Option σ} {x' y' : Option (Parser × σ)}
    (hx : a → IsRound us x c x') (hy : ¬a → IsRound us y c y') :
    IsRound us (if a then x else y) c (if a then x' else y') := by
  split
  · exact hx ‹_›
  · exact hy ‹_›

variable {next : σ → List Token → Option σ} {round : σ → List Token → Command}
  {step : σ → List Token → Option (Parser × σ)} {x : σ}

/-- Every round takes something, so as many rounds are enough as there are tokens. -/
lemma performs_loopFor {rounds : Nat}
    (hround : ∀ x us, us.length ≤ ts.length → IsRound us (next x us) (round x us) (step x us))
    (hrounds : ts.length ≤ rounds) : Performs (.loop next round x) (loopFor step rounds x) ts := by
  induction rounds generalizing ts x with
  | zero =>
    obtain rfl : ts = [] := List.length_eq_zero_iff.mp (Nat.le_zero.mp hrounds)
    obtain ⟨hnext, -⟩ | ⟨y, p, -, -, hp⟩ := (hround x [] (Nat.le_refl _)).cases_eq
    · exact performs_of_exec fun s hs => .loopStop (hs ▸ hnext)
    · exact absurd hp.moves (Nat.not_lt_zero _)
  | succ rounds ih =>
    obtain ⟨hnext, hstep⟩ | ⟨y, p, hnext, hstep, hp⟩ := (hround x ts (Nat.le_refl _)).cases_eq
    · exact (performs_of_exec fun s hs => .loopStop (hs ▸ hnext)).congr (loopFor_of_none hstep)
    · have hmoves : (p ts).2.length < ts.length := hp.moves
      have hrest : Performs (.loop next round y) (loopFor step rounds y) (p ts).2 :=
        ih (fun x us hus => hround x us (by omega)) (by omega)
      have hboth := hp.performs.seq hrest
      exact Performs.congr ⟨hboth.leaves, fun b hb => .loopRound hnext (hboth.exec b hb)⟩
        (loopFor_of_some hstep)

/-- **A loop** performs the loop of parsers, if its rounds agree with those of the parsers. -/
theorem Performs.loop
    (hround : ∀ x us, us.length ≤ ts.length → IsRound us (next x us) (round x us) (step x us)) :
    Performs (.loop next round x) (loop step x) ts :=
  (performs_loopFor hround (Nat.le_refl _)).congr rfl

/-- A loop takes something if it goes on for a first round. -/
lemma Advances.loop
    (hround : ∀ x us, us.length ≤ ts.length → IsRound us (next x us) (round x us) (step x us))
    (hgo : step x ts ≠ none) : Advances (.loop next round x) (loop step x) ts := by
  refine ⟨.loop hround, ?_⟩
  obtain ⟨-, hstop⟩ | ⟨y, p, -, hstep, hp⟩ := (hround x ts (Nat.le_refl _)).cases_eq
  · exact absurd hstop hgo
  have hmoves : (p ts).2.length < ts.length := hp.moves
  obtain ⟨m, hm⟩ : ∃ m, ts.length = m + 1 := Nat.exists_eq_add_one_of_ne_zero (by omega)
  have hrest : Performs (.loop next round y) (loopFor step m y) (p ts).2 :=
    performs_loopFor (fun x us hus => hround x us (by omega)) (by omega)
  unfold Parser.Moves Grammar.loop
  rw [hm, loopFor_of_some hstep, ← hm]
  exact Nat.lt_of_le_of_lt hrest.suffix.length_le hmoves

end Loops

/-- A repeated command performs a repetition if each round takes something. -/
lemma Performs.repeatWhile {test : List Token → Bool}
    (hp : ∀ us, us.length ≤ ts.length → test us = true → Advances c p us) :
    Performs (.repeatWhile test c) (Grammar.repeatWhile test p) ts :=
  .loop fun _ us hus => .ite (fun h => .go (hp us hus h)) fun _ => .stop

/-- A repetition takes something if its test passes at the beginning. -/
lemma Advances.repeatWhile {test : List Token → Bool}
    (hp : ∀ us, us.length ≤ ts.length → test us = true → Advances c p us) (h : test ts = true) :
    Advances (.repeatWhile test c) (Grammar.repeatWhile test p) ts :=
  .loop (fun _ us hus => .ite (fun h => .go (hp us hus h)) fun _ => .stop) (by simp [h])

/-- A repetition is performed at all lists of so many tokens if its rounds are. -/
lemma Follows.repeatWhile {test : List Token → Bool}
    (hp : ∀ us, us.length ≤ n → test us = true → Advances c p us) :
    Follows n (.repeatWhile test c) (Grammar.repeatWhile test p) :=
  fun _ hts => .repeatWhile fun us hus => hp us (Nat.le_trans hus hts)

/-! ## Tokens -/

/-- The request for one token performs the parser that takes it, real or not. -/
lemma performs_take : Performs (.request .take) one ts := by
  cases ts with
  | nil => exact ⟨rfl, fun b _ => by simpa [one, Request.run] using Exec.request .take ⟨[], b⟩⟩
  | cons t ts => exact ⟨rfl, fun b _ => .request .take ⟨t :: ts, b⟩⟩

/-- Taking trivia one by one takes the run of trivia ahead. -/
lemma performs_trivia : Performs .trivia trivia ts := by
  have hround : Performs .trivia
      (Grammar.repeatWhile (fun ts => ts.head?.any (·.kind.isTrivia)) one) ts := by
    refine .repeatWhile fun us _ h => ⟨performs_take, ?_⟩
    cases us with
    | nil => cases h
    | cons t us => exact Nat.lt_succ_self _
  refine hround.congr ?_
  have hrounds : ∀ rounds (us : List Token), us.length ≤ rounds → trivia us =
      loopFor (fun (_ : Unit) ts => if ts.head?.any (·.kind.isTrivia) then some (one, ()) else none)
        rounds () us := by
    intro rounds
    induction rounds with
    | zero =>
      intro us hus
      obtain rfl : us = [] := List.length_eq_zero_iff.mp (Nat.le_zero.mp hus)
      rfl
    | succ rounds ih =>
      intro us hus
      cases us with
      | nil => rfl
      | cons t us =>
        cases ht : t.kind.isTrivia with
        | false => simp [trivia, loopFor, ht]
        | true =>
          have hrest := ih us (by simpa using hus)
          simp only [loopFor, List.head?_cons, Option.any_some, ht, if_true]
          show _ = ([Element.token t] ++ (loopFor _ rounds () us).1, (loopFor _ rounds () us).2)
          rw [← hrest]
          simp [trivia, ht]
  exact hrounds ts.length ts (Nat.le_refl _)

/-- The next real token is requested with the trivia in front of it. -/
lemma performs_bump : Performs .bump bump ts := performs_trivia.seq performs_take

/-- A real token ahead is taken. -/
lemma advances_bump (hpeek : (peek ts).isSome = true) : Advances .bump bump ts := by
  obtain ⟨κ, hκ⟩ := Option.isSome_iff_exists.mp hpeek
  exact ⟨performs_bump, moves_bump hκ⟩

/-- Taking the next real token advances wherever there is one. -/
lemma serves_bump : Serves n .bump bump := fun _ _ => advances_bump

/-- Taking the next token if it has a given kind is performed everywhere. -/
lemma follows_eat : Follows n (.eat κ) (eat κ) := .when fun _ _ _ => performs_bump

/-! ## Nodes -/

/-- The first real token is the same behind the trivia in front of it. -/
lemma peek_trivia (ts : List Token) : peek (trivia ts).2 = peek ts := by
  show peek (ts.dropWhile _) = _
  induction ts with
  | nil => rfl
  | cons t ts ih =>
    cases ht : t.kind.isTrivia with
    | false => simp [ht]
    | true => simpa [ht, peek, peekToken?] using ih

/-- A node is made of what a command adds between opening and closing it. -/
lemma Performs.wrap {k : Kind} (h : Performs c p ts) :
    Performs (.request (.open_ k) ++ c ++ .request .close) (wrap k p) ts := by
  refine ⟨by simpa [Grammar.wrap] using h.leaves, fun b hb => ?_⟩
  have hclose := Exec.request .close ⟨(p ts).2, (b.open_ k).add (p ts).1⟩
  simp only [Request.run, Builder.close?_add, Option.map_some] at hclose
  exact .seq (.seq (.request (.open_ k) ⟨ts, b⟩) (h.exec _ (b.isReady_open k))) hclose

/-- **A node** performs the parser of a node. -/
theorem Performs.node {k : Kind} (h : Performs c p (trivia ts).2) :
    Performs (.node k c) (node k p) ts := performs_trivia.seq h.wrap

/-- A node takes something if what is in it does. -/
lemma Advances.node {k : Kind} (h : Advances c p (trivia ts).2) : Advances (.node k c) (node k p) ts :=
  ⟨h.performs.node, Nat.lt_of_lt_of_le h.moves performs_trivia.suffix.length_le⟩

/-- A call advances where the body of the procedure does. -/
lemma Serves.call {r : Procedure} (h : Serves n (.body r) p) : Serves n (.call r) p :=
  fun ts hts hpeek => (h ts hts hpeek).call

/-- A node advances where what is in it does. -/
lemma Serves.node {k : Kind} (h : Serves n c p) : Serves n (.node k c) (Grammar.node k p) :=
  fun _ hts hpeek => .node (h _ (Nat.le_trans performs_trivia.suffix.length_le hts)
    (by rwa [peek_trivia]))

/-- Nodes begin with a token, behind which there are fewer tokens for the rest. -/
lemma Serves.andThen (hp : Serves (n + 1) c p) (hq : Follows n d q) :
    Serves (n + 1) (c ++ d) (p ++ q) := fun ts hts hpeek => (hp ts hts hpeek).andThen hts hq

/-! ## Nodes from a remembered position on -/

/-- A command that is told a position goes on where the position was remembered and then a parser was
performed; both together perform a second parser. -/
structure Resumes (next : Nat → Command) (p q : Parser) (ts : List Token) : Prop where
  /-- The second parser neither loses nor invents a token. -/
  leaves : Element.leavesList (q ts).1 ++ (q ts).2 = ts
  /-- The command ends, leaves the tokens of the second parser and adds what is missing of its
  elements. -/
  exec : ∀ b : Builder, b.IsReady →
    Exec (next b.position) ⟨(p ts).2, b.add (p ts).1⟩ (some ⟨(q ts).2, b.add (q ts).1⟩)

namespace Resumes

variable {next : Nat → Command} {r : Parser}

/-- **A node from the position on** holds what the first parser made and what is made behind it. -/
theorem nodeFrom {k : Kind} (hp : Performs d p ts) (h : Performs c q (p ts).2) :
    Resumes (.nodeFrom · k c) p (wrap k (p ++ q)) ts := by
  refine ⟨by simpa [wrap] using leaves_append hp.leaves h, fun b hb => ?_⟩
  have hopen := Exec.request (.openAt b.position k) ⟨(p ts).2, b.add (p ts).1⟩
  simp only [Request.run, Builder.openAt?_add hb, Option.map_some] at hopen
  have hrun := h.exec _ ((b.isReady_open k).add (p ts).1)
  have hclose := Exec.request .close ⟨(q (p ts).2).2, (b.open_ k).add ((p ts).1 ++ (q (p ts).2).1)⟩
  simp only [Request.run, Builder.close?_add, Option.map_some] at hclose
  rw [Builder.add_add] at hrun
  exact .seq (.seq hopen hrun) hclose

/-- Before it uses the position, a command can perform a further part. -/
lemma seq (hc : Performs c q (p ts).2) (h : Resumes next (p ++ q) r ts) :
    Resumes (fun start => c ++ next start) p r ts := by
  refine ⟨h.leaves, fun b hb => .seq (hc.exec _ (hb.add _)) ?_⟩
  have hrun := h.exec b hb
  rwa [append_apply, ← Builder.add_add] at hrun

/-- With the position remembered, a command may look ahead. -/
lemma look (next : Nat → List Token → Command) (h : Resumes (next · (p ts).2) p q ts) :
    Resumes (fun start => .look (next start)) p q ts :=
  ⟨h.leaves, fun b hb => .look (h.exec b hb)⟩

/-- With the position remembered, a procedure may be called that is told the position. -/
lemma call (proc : Nat → Procedure) (h : Resumes (fun start => .body (proc start)) p q ts) :
    Resumes (fun start => .call (proc start)) p q ts :=
  ⟨h.leaves, fun b hb => .call (h.exec b hb)⟩

/-- Remembering the position first gives a command of its own. -/
lemma mark (hc : Performs c p ts) (h : Resumes next p q ts) :
    Performs (.mark fun start => c ++ next start) q ts :=
  ⟨h.leaves, fun b hb => .mark (.seq (hc.exec b hb) (h.exec b hb))⟩

end Resumes

end Grammar

end TreeLint
