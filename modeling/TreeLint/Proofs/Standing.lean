import Mathlib.Data.List.DropRight
import TreeLint.Proofs.Parsing

/-!
# Nodes and what stands behind them

A parser stops where it does because of the tokens that it finds there. So whether a node is complete is
not a matter of its children alone: a block without its closing brace is as it should be at the end of the
text only. This file says what it means that every node of a tree is in a relation to its children and to
the tokens behind it, and shows for each way of putting parsers together that it keeps such a relation.

Nothing is assumed about the tokens ahead. A production that is read only where a certain token is ahead
makes this assumption by itself.

## Main definitions

* `TreeLint.Element.Everywhere` — every node of an element is in a relation to the tokens behind it.
* `TreeLint.Cursor.ahead`, `TreeLint.Cursor.behind` — the tokens of a tree in front of a node and behind
  it.
* `TreeLint.Grammar.Parser.Stands` — a parser makes nodes that are in a relation to what it leaves.

## Main results

* `TreeLint.Element.EverywhereList.node` — in a tree, the relation holds at every cursor.
* `TreeLint.Grammar.Parser.Stands.andThen`, `TreeLint.Grammar.stands_node`, `TreeLint.Grammar.stands_loop`
  — sequences, nodes and loops.
-/

namespace TreeLint

variable {R : Kind → List Element → List Token → Prop}

/-! ## Relations to the tokens behind -/

namespace Element

mutual
/-- Every node of an element in front of some tokens is in a relation to its children and to the tokens
behind it. -/
def Everywhere (R : Kind → List Element → List Token → Prop) : Element → List Token → Prop
  | token _, _ => True
  | node k cs, behind => R k cs behind ∧ EverywhereList R cs behind
/-- The same for consecutive elements: behind each of them stand the tokens of the later ones. -/
def EverywhereList (R : Kind → List Element → List Token → Prop) : List Element → List Token → Prop
  | [], _ => True
  | e :: es, behind => e.Everywhere R (leavesList es ++ behind) ∧ EverywhereList R es behind
end

/-- Behind the first of two lists of elements stand the tokens of the second. -/
lemma everywhereList_append {es ds : List Element} {behind : List Token} :
    EverywhereList R (es ++ ds) behind ↔
      EverywhereList R es (leavesList ds ++ behind) ∧ EverywhereList R ds behind := by
  induction es with
  | nil => simp [EverywhereList]
  | cons e es ih => simp [EverywhereList, ih, and_assoc]

/-- Tokens keep every relation, since nothing is asked of them. -/
lemma everywhereList_map_token (ts behind : List Token) :
    EverywhereList R (ts.map .token) behind := by
  induction ts with
  | nil => trivial
  | cons t ts ih => exact ⟨trivial, ih⟩

end Element

open Element

/-! ## In front of a node and behind it -/

namespace Cursor

/-- The tokens in front of the node, from the beginning of the tree on. -/
def ahead (c : Cursor) : List Token := c.path.reverse.flatMap fun f => leavesList f.before.reverse

/-- The tokens behind the node, up to the end of the tree. -/
def behind (c : Cursor) : List Token := c.path.flatMap fun f => leavesList f.after

variable {p c : Cursor}

/-- In front of a child stand the tokens in front of its parent and those of the children before it. -/
lemma IsChild.ahead_eq (h : p.IsChild c) : c.ahead = p.ahead ++ leavesList c.before.reverse := by
  simp [ahead, h.path_eq]

/-- Behind a child stand the tokens of the children after it and those behind its parent. -/
lemma IsChild.behind_eq (h : p.IsChild c) : c.behind = leavesList c.after ++ p.behind := by
  simp [behind, h.path_eq]

/-- The tokens of a node stand among those of each node above it. -/
lemma Below.exists_leaves (h : p.Below c) : ∃ front back,
    p.node.leaves = front ++ c.node.leaves ++ back ∧ c.ahead = p.ahead ++ front ∧
      c.behind = back ++ p.behind := by
  induction h with
  | refl => exact ⟨[], [], by simp, by simp, rfl⟩
  | tail _ hstep ih =>
    rename_i m c _
    obtain ⟨front, back, hleaves, hahead, hbehind⟩ := ih
    refine ⟨front ++ leavesList c.before.reverse, leavesList c.after ++ back, ?_, ?_, ?_⟩
    · rw [hleaves, Node.leaves, hstep.children_eq, leavesList_append, leavesList_cons]
      simp only [List.append_assoc]
      rfl
    · rw [hstep.ahead_eq, hahead, List.append_assoc]
    · rw [hstep.behind_eq, hbehind, List.append_assoc]

end Cursor

variable {root : Node} {c : Cursor}

/-- The tokens of a tree are those in front of a node, those of the node and those behind it. -/
theorem Node.Has.leaves_eq (h : root.Has c) : root.leaves = c.ahead ++ c.node.leaves ++ c.behind := by
  obtain ⟨front, back, hleaves, hahead, hbehind⟩ := Cursor.Below.exists_leaves h
  rw [hahead, hbehind]
  simpa [Node.cursor, Cursor.ahead, Cursor.behind] using hleaves

/-- A node begins behind the tokens in front of it. -/
theorem Node.Has.total_ahead (h : root.Has c) : total (c.ahead.map Token.length) = c.start := by
  induction h with
  | refl => rfl
  | tail _ hstep ih =>
    rw [hstep.ahead_eq, List.map_append, total_append, ih, ← lengthList_eq, hstep.start_eq,
      lengthList_reverse]

/-- **A relation to the tokens behind** that holds everywhere in a tree holds at each of its cursors. -/
theorem Element.EverywhereList.node (h : EverywhereList R root.children []) (hc : root.Has c) :
    EverywhereList R c.node.children c.behind ∧
      (c ≠ root.cursor → R c.kind c.node.children c.behind) := by
  induction hc with
  | refl => exact ⟨h, fun hne => absurd rfl hne⟩
  | tail _ hstep ih =>
    have hsplit := ih.1
    rw [hstep.children_eq, everywhereList_append] at hsplit
    rw [hstep.behind_eq]
    obtain ⟨hnode, hbelow⟩ := hsplit.2.1
    exact ⟨hbelow, fun _ => hnode⟩

/-! ## Parsers -/

namespace Grammar

variable {ts us : List Token} {p q : Parser} {P Q : Element → Prop} {κ : Kind}

/-- A parser takes a front part of some tokens and makes of it elements with a given property, in which
every node is in a relation to the tokens behind it. -/
structure Parser.Stands (R : Kind → List Element → List Token → Prop) (P : Element → Prop) (p : Parser)
    (ts : List Token) : Prop where
  /-- No token is lost and none is invented. -/
  leaves : leavesList (p ts).1 ++ (p ts).2 = ts
  /-- The nodes are in the relation. -/
  everywhere : EverywhereList R (p ts).1 (p ts).2
  /-- The elements have the property. -/
  holds : ∀ e ∈ (p ts).1, P e

namespace Parser.Stands

/-- What a parser leaves are the last of its tokens. -/
lemma suffix (h : p.Stands R P ts) : (p ts).2 <:+ ts := ⟨_, h.leaves⟩

/-- The elements have every property that follows from theirs. -/
lemma mono (h : p.Stands R P ts) (hPQ : ∀ e, P e → Q e) : p.Stands R Q ts :=
  ⟨h.leaves, h.everywhere, fun e he => hPQ e (h.holds e he)⟩

/-- The relation is about what a parser does with the tokens. -/
lemma congr (h : p.Stands R P ts) (heq : q ts = p ts) : q.Stands R P ts := by
  constructor
  · rw [heq]; exact h.leaves
  · rw [heq]; exact h.everywhere
  · rw [heq]; exact h.holds

/-- **A sequence** keeps a relation to the tokens behind if both parts do: what the first part leaves are
the tokens that stand behind its elements. -/
theorem andThen (hp : p.Stands R P ts) (hq : q.Stands R P (p ts).2) : (p ++ q).Stands R P ts := by
  constructor
  · rw [append_apply, leavesList_append, List.append_assoc, hq.leaves, hp.leaves]
  · refine everywhereList_append.mpr ⟨?_, hq.everywhere⟩
    rw [show ((p ++ q) ts).2 = (q (p ts).2).2 from rfl, hq.leaves]
    exact hp.everywhere
  · exact fun e he => (List.mem_append.mp he).elim (hp.holds e) (hq.holds e)

end Parser.Stands

/-- Doing nothing keeps every relation. -/
lemma stands_skip : skip.Stands R P ts := ⟨rfl, trivial, by simp [skip]⟩

/-- A choice keeps the relation if each parser does where it is chosen. -/
lemma stands_choose {test : List Token → Bool} (hp : test ts = true → p.Stands R P ts)
    (hq : test ts = false → q.Stands R P ts) : (choose test p q).Stands R P ts := by
  cases h : test ts with
  | true => exact (hp h).congr (choose_of_true h)
  | false => exact (hq h).congr (choose_of_false h)

/-- An optional part keeps the relation if it does where it is taken. -/
lemma stands_when {test : List Token → Bool} (hp : test ts = true → p.Stands R P ts) :
    (when test p).Stands R P ts := stands_choose hp fun _ => stands_skip

/-! ### Tokens -/

/-- A token that is trivia or the next real one of some tokens. -/
def IsAhead (ts : List Token) (e : Element) : Prop :=
  ∃ t, e = .token t ∧ (t.kind.isTrivia = true ∨ peekToken? ts = some t)

/-- Taking the trivia ahead keeps every relation. -/
lemma stands_trivia (htrivia : ∀ t : Token, t.kind.isTrivia = true → P (.token t)) :
    trivia.Stands R P ts where
  leaves := by simp [trivia, leavesList_map_token]
  everywhere := everywhereList_map_token _ _
  holds e he := by
    obtain ⟨t, ht, rfl⟩ := List.mem_map.mp he
    exact htrivia t (List.mem_takeWhile_imp (p := fun t : Token => t.kind.isTrivia) ht)

/-- The next real token is the first one behind the trivia ahead. -/
lemma peekToken?_eq (ts : List Token) : peekToken? ts = (trivia ts).2.head? :=
  List.find?_not_eq_head?_dropWhile ..

/-- The next real token is the same behind the trivia ahead. -/
lemma peekToken?_trivia (ts : List Token) : peekToken? (trivia ts).2 = peekToken? ts := by
  rw [peekToken?_eq, peekToken?_eq]
  exact congrArg List.head? (List.dropWhile_idempotent _ ts)

/-- Taking the next real token, wherever this is. -/
theorem stands_bump : bump.Stands R (IsAhead ts) ts := by
  refine (stands_trivia fun t ht => ⟨t, rfl, .inl ht⟩).andThen ?_
  have hnext := peekToken?_eq ts
  cases hrest : (trivia ts).2 with
  | nil => exact stands_skip.congr rfl
  | cons t us =>
    rw [hrest] at hnext
    refine ⟨rfl, ⟨trivial, trivial⟩, fun e he => ⟨t, List.mem_singleton.mp he, .inr hnext⟩⟩

/-! ### Nodes -/

/-- A node around what a parser takes. -/
lemma stands_wrap {k : Kind} (hp : p.Stands R Q ts) (hk : R k (p ts).1 (p ts).2) :
    (wrap k p).Stands R (Makes k) ts where
  leaves := by simpa [wrap] using hp.leaves
  everywhere := ⟨⟨hk, hp.everywhere⟩, trivial⟩
  holds e he := .inr (by rw [List.mem_singleton.mp he]; rfl)

/-- **A node** behind the trivia ahead: it is in the relation if what the parser of its children takes
there is. -/
theorem stands_node {k : Kind} (hp : ∀ us, us <:+ ts → peekToken? us = peekToken? ts →
      p.Stands R Q us ∧ R k (p us).1 (p us).2) : (node k p).Stands R (Makes k) ts := by
  have htrivia : trivia.Stands R (Makes k) ts := stands_trivia fun _ ht => .inl ht
  obtain ⟨hstands, hk⟩ := hp _ htrivia.suffix (peekToken?_trivia ts)
  exact htrivia.andThen (stands_wrap hstands hk)

/-! ### Loops -/

section Loops

variable {σ : Type} {step : σ → List Token → Option (Parser × σ)}

/-- A loop keeps the relation in any number of rounds. -/
lemma stands_loopFor {rounds : Nat} {s : σ}
    (hstep : ∀ s us p s', us <:+ ts → step s us = some (p, s') → p.Stands R P us) :
    (loopFor step rounds s).Stands R P ts := by
  induction rounds generalizing s ts with
  | zero => exact stands_skip
  | succ rounds ih =>
    cases h : step s ts with
    | none => exact (stands_skip (P := P)).congr (loopFor_of_none h)
    | some ps =>
      obtain ⟨p, s'⟩ := ps
      have hp := hstep s ts p s' (List.suffix_refl _) h
      have hrest : (loopFor step rounds s').Stands R P (p ts).2 := ih fun s us q s'' hus =>
        hstep s us q s'' (hus.trans hp.suffix)
      exact (hp.andThen hrest).congr (loopFor_of_some h)

/-- **A loop** keeps the relation if each of its rounds does. -/
theorem stands_loop {s : σ}
    (hstep : ∀ s us p s', us <:+ ts → step s us = some (p, s') → p.Stands R P us) :
    (loop step s).Stands R P ts := (stands_loopFor hstep).congr rfl

end Loops

/-- A repetition keeps the relation if its parser does wherever the test passes. -/
lemma stands_repeatWhile {test : List Token → Bool}
    (hp : ∀ us, us <:+ ts → test us = true → p.Stands R P us) :
    (repeatWhile test p).Stands R P ts := by
  refine stands_loop fun s us q s' hus hq => ?_
  split at hq
  · rename_i htest
    obtain ⟨rfl, -⟩ := by simpa using hq
    exact hp us hus htest
  · cases hq

end Grammar

end TreeLint
