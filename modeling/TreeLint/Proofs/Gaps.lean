import TreeLint.Proofs.Edges

/-!
# Trivia stand between siblings

The recogniser leaves trivia to the enclosing node until it knows that the next real token belongs to
the node that is open. So in the tree of a text, a node below the root begins and ends with a real
token, and trivia are never at the edge of such a node: they have siblings on both sides that are no
trivia. Only the trivia in front of the first and behind the last real token of the text have such
siblings on one side at most, and these stand directly below the root.

## Main definitions

* `TreeLint.Element.StandsBetween` — a place between two siblings that are no trivia.

## Main results

* `TreeLint.Element.IsTrimmed.standsBetween` — trivia among the children of a trimmed node.
* `TreeLint.parse_standsBetween` — trivia in the tree of a text.
-/

namespace TreeLint

namespace Element

variable {k : Kind} {cs before after : List Element} {t : Token}

/-- A place with some siblings before it and some behind it, on both sides of which there is a sibling
that is no trivia. -/
structure StandsBetween (before after : List Element) : Prop where
  /-- There is one before it. -/
  before : ∃ e ∈ before, e.isTrivia = false
  /-- There is one behind it. -/
  after : ∃ e ∈ after, e.isTrivia = false

/-- The first child of a trimmed node is no trivia. -/
lemma IsTrimmed.head? (h : (node k cs).IsTrimmed) : ∀ e ∈ cs.head?, e.isTrivia = false := by
  intro e he
  obtain ⟨rest, rfl⟩ := List.head?_eq_some_iff.mp he
  cases e with
  | token u => exact h.1 u (by simp)
  | node l ds => rfl

/-- **Trivia among the children of a trimmed node** are neither the first nor the last of them, and
these two are no trivia. -/
theorem IsTrimmed.standsBetween (h : (node k cs).IsTrimmed) (hcs : cs = before ++ token t :: after)
    (ht : t.kind.isTrivia = true) : StandsBetween before after := by
  subst hcs
  constructor
  · cases before with
    | nil => exact absurd (h.head? (token t) (by simp)) (by simp [isTrivia, ht])
    | cons e es => exact ⟨e, List.mem_cons_self, h.head? e (by simp)⟩
  · cases hlast : after.getLast? with
    | none =>
      obtain rfl := List.getLast?_eq_none_iff.mp hlast
      exact absurd (h.getLast? (token t) (by simp)) (by simp [isTrivia, ht])
    | some e =>
      have hend : (before ++ token t :: after).getLast? = some e := by
        rw [List.getLast?_append, List.getLast?_cons, hlast]
        rfl
      exact ⟨e, List.mem_of_getLast? hlast, h.getLast? e hend⟩

/-- A node with a leaf that neither begins nor ends with trivia begins and ends with real tokens. -/
lemma IsTight.exists_ends {ts : List Token} (h : IsTight ts) (hne : ts ≠ []) :
    ∃ t u, ts.head? = some t ∧ t.kind.isTrivia = false ∧ ts.getLast? = some u ∧
      u.kind.isTrivia = false := by
  have hhead := List.head?_eq_some_head hne
  have hlast := List.getLast?_eq_some_getLast hne
  exact ⟨_, _, hhead, h.1 _ hhead, hlast, h.2 _ hlast⟩

/-- Elements among which only trivia are found have only trivia for leaves. -/
lemma isTrivia_of_mem_leavesList {es : List Element} (h : ¬∃ e ∈ es, e.isTrivia = false) :
    ∀ u ∈ leavesList es, u.kind.isTrivia = true := by
  induction es with
  | nil => simp
  | cons e es ih =>
    have hrest := ih fun ⟨d, hd, hdt⟩ => h ⟨d, List.mem_cons_of_mem _ hd, hdt⟩
    have hfirst : e.isTrivia = true := by
      by_contra hnot
      exact h ⟨e, List.mem_cons_self, by simpa using hnot⟩
    cases e with
    | token t =>
      intro u hu
      rcases List.mem_cons.mp hu with rfl | hu
      · exact hfirst
      · exact hrest u hu
    | node l ds => cases hfirst

end Element

variable (source : String)

/-- The nodes below the root of the tree of a text are shaped and trimmed. -/
lemma parsed_of_mem_tail_cursors {c : Cursor} (hc : c ∈ (parse source).cursors.tail) :
    Shaped c.kind c.node.children ∧ (Element.node c.kind c.node.children).IsTrimmed := by
  have hnode : c.node ∈ Element.nodesList (parse source).children := by
    rw [← Node.map_node_tail_cursors]
    exact List.mem_map_of_mem hc
  obtain ⟨e, he, hce⟩ := Element.mem_nodesList.mp hnode
  exact ⟨((isShaped_parse source).all e he).of_mem_nodes c.node hce,
    (isTrimmed_parse source e he).of_mem_nodes c.node hce⟩

/-- **Trivia in the tree of a text stand between siblings.**

Every node below the root is not empty, and neither its first nor its last leaf is trivia. So trivia
among the children of a node have siblings on both sides that are no trivia; the only ones that have
not stand directly below the root, in front of all real tokens of the text or behind them. In
particular the check that the nodes of a tree are trimmed has nothing to complain about.

**Proof sketch.** Every production takes a real token first and last (`isTrimmed_parse`), and nothing
that it makes is empty (`isShaped_parse`). The first and the last child of a node with such leaves are
no trivia. -/
theorem parse_standsBetween :
    (∀ c ∈ (parse source).cursors.tail, 0 < c.node.length ∧
      ∃ t u, c.node.leaves.head? = some t ∧ t.kind.isTrivia = false ∧
        c.node.leaves.getLast? = some u ∧ u.kind.isTrivia = false) ∧
    (∀ c ∈ (parse source).cursors, ∀ before t after,
      c.node.children = before ++ .token t :: after → t.kind.isTrivia = true →
        Element.StandsBetween before after ∨
        c = (parse source).cursor ∧
          ((∀ u ∈ Element.leavesList before, u.kind.isTrivia = true) ∨
            ∀ u ∈ Element.leavesList after, u.kind.isTrivia = true)) ∧
    (parse source).untrimmed? = none := by
  refine ⟨fun c hc => ?_, fun c hc before t after hchildren ht => ?_, ?_⟩
  · obtain ⟨hshaped, htrimmed⟩ := parsed_of_mem_tail_cursors source hc
    exact ⟨hshaped.length_pos,
      htrimmed.exists_ends (Grammar.leavesList_ne_nil hshaped.length_pos)⟩
  · have hcursors : (parse source).cursors = (parse source).cursor :: (parse source).cursors.tail := rfl
    rw [hcursors, List.mem_cons] at hc
    rcases hc with rfl | hc
    · by_cases hbefore : ∃ e ∈ before, e.isTrivia = false
      · by_cases hafter : ∃ e ∈ after, e.isTrivia = false
        · exact .inl ⟨hbefore, hafter⟩
        · exact .inr ⟨rfl, .inr (Element.isTrivia_of_mem_leavesList hafter)⟩
      · exact .inr ⟨rfl, .inl (Element.isTrivia_of_mem_leavesList hbefore)⟩
    · exact .inl ((parsed_of_mem_tail_cursors source hc).2.standsBetween hchildren ht)
  · refine Node.untrimmed?_eq_none_iff.mpr fun n hn => ?_
    rw [← Node.map_node_tail_cursors] at hn
    obtain ⟨c, hc, rfl⟩ := List.mem_map.mp hn
    have htrimmed := (parsed_of_mem_tail_cursors source hc).2
    exact Node.boundaryTrivia?_eq_none_iff.mpr ⟨htrimmed.head?, htrimmed.getLast?⟩

/-- In front of the first real token trivia do not stand between siblings: a comment that begins a text
is the first child of the root. -/
theorem parse_not_standsBetween :
    ¬∀ c ∈ (parse "/* a */ A();").cursors, ∀ before t after,
      c.node.children = before ++ .token t :: after → t.kind.isTrivia = true →
        Element.StandsBetween before after := by
  intro h
  have hhead : (parse "/* a */ A();").children.head? = some (.token ⟨.blockComment, "/* a */"⟩) := by
    decide +kernel
  obtain ⟨rest, hrest⟩ := List.head?_eq_some_iff.mp hhead
  obtain ⟨e, he, -⟩ := (h (parse "/* a */ A();").cursor List.mem_cons_self [] _ rest hrest rfl).before
  cases he

end TreeLint
