import TreeLint.Grammar.Unit
import TreeLint.Proofs.Neighbours

/-!
# The owners of trivia

A run of trivia between two child nodes of a node is divided twice: the node in front of the run owns
what comes first, up to the first line end, and the node behind it owns what is left when the same part is
taken away from the other side. Both divisions are made at the same place, so no token of the run has two
owners and none has no owner.

If a token that is no trivia stands between the nodes, neither of them owns anything beyond it. So in any
case the ranges of child nodes together with their trivia are apart.

## Main definitions

* `TreeLint.Cursor.SharesTrivia` — how the child nodes of a node share the trivia between them.

## Main results

* `TreeLint.Cursor.rangeWithTrivia_le` — child nodes with their trivia stand one behind the other.
* `TreeLint.Cursor.sharesTrivia` — all nodes share the trivia of their parents in this way.
-/

namespace TreeLint

namespace Cursor

/-- How the child nodes of a node share the trivia between them. -/
structure SharesTrivia (p : Cursor) : Prop where
  /-- A run of trivia between two child nodes belongs to the two: the first owns the front part of the
  run and the second the rest. -/
  between {a b : Cursor} {run : List Token} (ha : p.IsChild a) (hb : p.IsChild b)
    (hrun : ∀ t ∈ run, t.kind.isTrivia = true)
    (h : a.after = run.map .token ++ b.node.toElement :: b.after) :
    a.trailingTrivia ++ b.leadingTrivia = run
  /-- A run of trivia with no sibling before it belongs to the child node behind it. -/
  first {b : Cursor} {run : List Token} (hb : p.IsChild b) (hrun : ∀ t ∈ run, t.kind.isTrivia = true)
    (h : p.node.children = run.map .token ++ b.node.toElement :: b.after) : b.leadingTrivia = run
  /-- The ranges of different child nodes with their trivia do not overlap. -/
  apart {a b : Cursor} (ha : p.IsChild a) (hb : p.IsChild b) (hne : a ≠ b) :
    a.rangeWithTrivia.overlaps b.rangeWithTrivia = false

variable {p a b : Cursor} {run : List Token}

/-! ## Runs of trivia -/

/-- Two child nodes with only trivia between them, seen from the first, are neighbours. -/
lemma IsChild.isNext (ha : p.IsChild a) (hb : p.IsChild b) (hrun : ∀ t ∈ run, t.kind.isTrivia = true)
    (h : a.after = run.map .token ++ b.node.toElement :: b.after) : a.IsNext b run := by
  refine ⟨hrun, h, ?_⟩
  have hcs := ha.children_eq.symm.trans hb.children_eq
  rw [h] at hcs
  have hfront : a.before.reverse ++ a.node.toElement :: run.map .token = b.before.reverse :=
    List.append_cancel_right (by simpa using hcs)
  rw [← List.reverse_reverse b.before, ← hfront]
  simp

/-- The trivia in front of the first child node all belong to it. -/
lemma leadingTrivia_eq_of_first (hrun : ∀ t ∈ run, t.kind.isTrivia = true)
    (h : b.before = (run.map .token).reverse) : b.leadingTrivia = run := by
  have hall : ∀ e ∈ b.before, e.isTrivia = true := by
    intro e he
    rw [h] at he
    obtain ⟨t, ht, rfl⟩ := List.mem_map.mp (List.mem_reverse.mp he)
    exact hrun t ht
  have htokens : Element.triviaRun b.before = run.reverse := by
    refine List.map_injective_iff.mpr (fun _ _ => Element.token.inj) ?_
    rw [← Element.takeWhile_isTrivia, List.takeWhile_eq_self_iff.mpr hall, h, List.map_reverse]
  rw [leadingTrivia, htokens, if_pos (List.all_eq_true.mpr hall), List.reverse_reverse]

/-- The trivia behind a node that belong to it end in front of a sibling that is none. -/
lemma lengthList_trailingTrivia_le {front back : List Element} {x : Element}
    (h : a.after = front ++ x :: back) (hx : x.isTrivia = false) :
    Element.lengthList (a.trailingTrivia.map .token) ≤ Element.lengthList front := by
  obtain ⟨rest, hrest⟩ := a.exists_after_eq
  exact Element.lengthList_le_of_append_eq (hrest.symm.trans h)
    (fun _ => isTrivia_of_mem_trailing) hx

/-- The trivia before a node that belong to it begin behind a sibling that is none. -/
lemma lengthList_leadingTrivia_le {front back : List Element} {x : Element}
    (h : b.before = front ++ x :: back) (hx : x.isTrivia = false) :
    Element.lengthList (b.leadingTrivia.map .token).reverse ≤ Element.lengthList front := by
  obtain ⟨rest, hrest⟩ := b.exists_before_eq
  exact Element.lengthList_le_of_append_eq (hrest.symm.trans h)
    (fun _ => isTrivia_of_mem_leading) hx

/-! ## Child nodes with their trivia -/

/-- **Of two child nodes** with their trivia, the second begins where the first ends, or behind it.

**Proof sketch.** If only trivia stand between them, the two ranges touch. Otherwise the trivia of both end
at the element between them that is none. -/
theorem rangeWithTrivia_le (ha : p.IsChild a) (hb : p.IsChild b)
    (hlt : a.before.length < b.before.length) : a.rangeWithTrivia.stop ≤ b.rangeWithTrivia.start := by
  obtain ⟨between, hafter, hbefore⟩ := ha.exists_between hb hlt
  by_cases hall : ∀ e ∈ between, e.isTrivia = true
  · have hrun : between = (Element.triviaRun between).map .token := by
      rw [← Element.takeWhile_isTrivia, List.takeWhile_eq_self_iff.mpr hall]
    rw [hrun] at hafter
    have hnext := ha.isNext hb (fun _ => Element.isTrivia_of_mem_triviaRun) hafter
    exact Nat.le_of_eq (hnext.touch ha hb)
  · obtain ⟨x, hx, hnot⟩ : ∃ x ∈ between, x.isTrivia = false := by simpa using hall
    obtain ⟨front, back, rfl⟩ := List.append_of_mem hx
    rw [List.append_assoc, List.cons_append] at hafter
    rw [List.reverse_append, List.reverse_cons, List.append_assoc, List.append_assoc,
      List.singleton_append] at hbefore
    have htrailing := lengthList_trailingTrivia_le hafter hnot
    have hleading := lengthList_leadingTrivia_le hbefore hnot
    have hstart_a := ha.start_eq
    have hstart_b := hb.start_eq
    simp only [hbefore, Element.lengthList_append, Element.lengthList_reverse, Element.lengthList_cons,
      Node.toElement, Element.length_node] at hstart_b hleading
    rw [rangeWithTrivia_stop, rangeWithTrivia_start, Element.lengthList_reverse, stop,
      Node.length]
    omega

/-- **The child nodes of every node** share the trivia between them.

**Proof sketch.** A run between two child nodes is divided behind its first line end, seen from either
side. Different child nodes have a different number of siblings before them, so `rangeWithTrivia_le` applies to
them in one of the two orders. -/
theorem sharesTrivia (p : Cursor) : p.SharesTrivia where
  between ha hb hrun h := by
    have hnext := ha.isNext hb hrun h
    rw [hnext.trailingTrivia_eq, hnext.leadingTrivia_eq, throughNewline_append_behindNewline]
  first hb hrun h := by
    refine leadingTrivia_eq_of_first hrun ?_
    rw [← List.append_cancel_right (hb.children_eq.symm.trans h), List.reverse_reverse]
  apart {a b} ha hb hne := by
    rw [Bool.eq_false_iff, ne_eq, Range.overlaps_iff]
    rcases Nat.lt_trichotomy a.before.length b.before.length with hlt | heq | hlt
    · have := rangeWithTrivia_le ha hb hlt
      omega
    · exact absurd (ha.eq_of_before hb heq) hne
    · have := rangeWithTrivia_le hb ha hlt
      omega

/-- A line with a comment of its own and the next line with a comment above it: each statement owns its
comment, and the blank at the beginning belongs to the first statement. -/
theorem sharesTrivia_statements : ∃ source a b run, source = " A(); // a\n// b\nB();" ∧
    a ∈ (parse source).cursor.children ∧ b ∈ (parse source).cursor.children ∧
    a.after = run.map .token ++ b.node.toElement :: b.after ∧
    run.map Token.text = [" ", "// a", "\n", "// b", "\n"] ∧
    a.trailingTrivia ++ b.leadingTrivia = run ∧ a.leadingTrivia.map Token.text = [" "] ∧
    a.rangeWithTrivia.overlaps b.rangeWithTrivia = false := by
  obtain ⟨source, hsource⟩ : ∃ source, source = " A(); // a\n// b\nB();" := ⟨_, rfl⟩
  obtain ⟨a, ha, b, hb, hafter, hrun, htexts, hne, hfront⟩ : ∃ a ∈ (parse source).cursor.children,
      ∃ b ∈ (parse source).cursor.children,
        a.after = (Element.triviaRun a.after).map .token ++ b.node.toElement :: b.after ∧
        (∀ t ∈ Element.triviaRun a.after, t.kind.isTrivia = true) ∧
        (Element.triviaRun a.after).map Token.text = [" ", "// a", "\n", "// b", "\n"] ∧ a ≠ b ∧
        (parse source).cursor.node.children =
          [⟨.whitespace, " "⟩].map .token ++ a.node.toElement :: a.after := by
    rw [hsource]
    decide +kernel
  have hshares := sharesTrivia (parse source).cursor
  refine ⟨source, a, b, _, hsource, ha, hb, hafter, htexts, ?_, ?_, ?_⟩
  · exact hshares.between (mem_children.mp ha) (mem_children.mp hb) hrun hafter
  · rw [hshares.first (mem_children.mp ha) (by decide) hfront]
    rfl
  · exact hshares.apart (mem_children.mp ha) (mem_children.mp hb) hne

end Cursor

end TreeLint
