import TreeLint.Proofs.Extents
import TreeLint.Proofs.Leftover
import TreeLint.Proofs.Reported

/-!
# The text of a fixed tree

The tokens of a fixed tree are tokens of the text that was fixed, in order. Where a handler was
removed or a body took the place of the whole, tokens have become neighbours that were none before,
and the text of the fixed tree is cut into other tokens if two of these fuse: blanks with blanks, or a
line comment, whose line end went with the end of a body, with the code behind it.

Which tokens become neighbours can be read off the source: two tokens that stay, with nothing between
them that does. So the fix is harmless to the sources on which no two such tokens fuse, and in particular
to those with a line end beside each stretch of tokens that goes.

## Main definitions

* `TreeLint.Rethrow.IsSeam` — two tokens of a source become neighbours.

## Main results

* `TreeLint.Rethrow.lex_text_iff` — the text of a fixed tree has its tokens unless new neighbours
  fuse.
* `TreeLint.Rethrow.lex_text_ne` — a line comment that fuses with code.
* `TreeLint.Rethrow.lex_fixed_iff` — the same condition, on the tokens of the source.
* `TreeLint.Rethrow.lex_fixed_of_layout` — line ends around what goes keep its neighbours apart.
-/

namespace TreeLint

/-- Tokens that are tokens on their own are those of the text that they spell unless two neighbours
fuse. -/
lemma lex_join_iff {ts : List Token} (hts : ∀ t ∈ ts, t.IsFirst []) :
    lex (String.join (ts.map Token.text)) = ts ↔
      ∀ t u, [t, u] <:+: ts → lex (t.text ++ u.text) = [t, u] := by
  have hpair : ∀ t u : Token, lex (t.text ++ u.text) = [t, u] ↔
      Token.scan (t.text.toList ++ u.text.toList) = [t, u] := by
    intro t u
    rw [lex, String.toList_append]
  rw [lex, String.toList_join, List.flatMap_map, Token.scan_flatMap_iff hts]
  simp only [hpair]
  constructor
  · intro h t u htu
    have hchain := h.infix htu
    rwa [List.isChain_pair] at hchain
  · intro h
    exact (List.isChain_isInfix ts).imp fun t u htu => h t u htu

namespace Rethrow

variable {a : Analyzer} {source : String} {ds : List Diagnostic} {tree : Node}
  {ranges : List Range}

/-- Neighbours among the tokens of a text do not fuse. -/
lemma lex_neighbours {t u : Token} (h : [t, u] <:+: lex source) : lex (t.text ++ u.text) = [t, u] := by
  have hsource : String.join ((lex source).map Token.text) = source := by
    rw [← String.toList_inj, String.toList_join, List.flatMap_map, join_lex]
  have hlex : lex (String.join ((lex source).map Token.text)) = lex source := by rw [hsource]
  have hfirst : ∀ t ∈ lex source, t.IsFirst [] := fun t ht => Token.isFirst_of_mem_scan ht
  exact (lex_join_iff hfirst).mp hlex t u h

/-- The text of a fixed tree is cut into the tokens of the tree if no two neighbours fuse. -/
lemma lex_text_iff_neighbours (ha : Analyzer.builtin = .ok a) (hds : ∀ d ∈ ds, d.ruleId = ruleId)
    (hfix : a.engine.fixAll? (parse source) ds = some (.applied tree ranges)) :
    lex tree.text = tree.leaves ↔
      ∀ t u, [t, u] <:+: tree.leaves → lex (t.text ++ u.text) = [t, u] := by
  have h := isShaped_parse source
  have horder : tree.leaves.Sublist (lex source) := leaves_parse source ▸
    (isOutcome_of_fixAll? h (Analyzer.provider?_builtin ha) hds hfix).1.sublist_leaves h
  have htext : tree.text = String.join (tree.leaves.map Token.text) := rfl
  rw [htext, lex_join_iff fun t ht => Token.isFirst_of_mem_scan (horder.subset ht)]

/-- **The text of a fixed tree** is cut into the tokens of the tree if, and only if, no two of them
fuse that have become neighbours.

**Proof sketch.** The tokens of the fixed tree are tokens of the text that was fixed, so each is a
token on its own, and those that have been neighbours before do not fuse. -/
theorem lex_text_iff (ha : Analyzer.builtin = .ok a) (hds : ∀ d ∈ ds, d.ruleId = ruleId)
    (hfix : a.engine.fixAll? (parse source) ds = some (.applied tree ranges)) :
    lex tree.text = tree.leaves ↔ ∀ t u, [t, u] <:+: tree.leaves → ¬[t, u] <:+: lex source →
      lex (t.text ++ u.text) = [t, u] := by
  rw [lex_text_iff_neighbours ha hds hfix]
  constructor
  · exact fun h t u htu _ => h t u htu
  · intro h t u htu
    by_cases hold : [t, u] <:+: lex source
    · exact lex_neighbours hold
    · exact h t u htu hold

/-- Behind a removed handler on a line of its own, no tokens fuse. -/
theorem lex_text_own_line : ∃ source a tree ranges,
    source = "try \x7b A(); \x7d\ncatch (E e) \x7b Log(e); \x7d\ncatch \x7b throw; \x7d\nB();" ∧
    Analyzer.builtin = .ok a ∧
    a.engine.fixAll? (parse source) (check (parse source) rule) = some (.applied tree ranges) ∧
    lex tree.text = tree.leaves := by
  obtain ⟨source, hsource⟩ : ∃ source,
    source = "try \x7b A(); \x7d\ncatch (E e) \x7b Log(e); \x7d\ncatch \x7b throw; \x7d\nB();" := ⟨_, rfl⟩
  obtain ⟨a, ha⟩ := Analyzer.exists_builtin
  have hleaves : ((a.engine.fixAll? (parse source) (check (parse source) rule)).bind
      FixOutcome.tree?).map Node.leaves =
        some (lex "try \x7b A(); \x7d\ncatch (E e) \x7b Log(e); \x7d\nB();") := by
    rw [(Analyzer.builtin_spec ha).2.2, hsource]
    decide +kernel
  obtain ⟨tree, ranges, hfix, htree⟩ := exists_applied hleaves
  have hchain : tree.leaves.IsChain fun t u => lex (t.text ++ u.text) = [t, u] := by
    rw [htree]
    decide +kernel
  refine ⟨source, a, tree, ranges, hsource, ha, hfix,
    (lex_text_iff ha (fun d hd => (reported_of_mem_check ha hd).2) hfix).mpr fun t u htu _ => ?_⟩
  have hpair := hchain.infix htu
  rwa [List.isChain_pair] at hpair

/-- A line comment at the end of a body that takes the place of the whole: the code behind the
guarded block is part of it after the fix. -/
theorem lex_text_ne : ∃ source a tree ranges,
    source = "try \x7b A(); // note\n\x7d catch \x7b throw; \x7d B();" ∧
    Analyzer.builtin = .ok a ∧
    (∀ d ∈ check (parse source) rule, d ∈ a.analyze (parse source) ∧ d.ruleId = ruleId) ∧
    a.engine.fixAll? (parse source) (check (parse source) rule) = some (.applied tree ranges) ∧
    tree.text = "A(); // note B();" ∧ lex tree.text ≠ tree.leaves := by
  obtain ⟨source, hsource⟩ : ∃ source,
    source = "try \x7b A(); // note\n\x7d catch \x7b throw; \x7d B();" := ⟨_, rfl⟩
  obtain ⟨a, ha⟩ := Analyzer.exists_builtin
  have htext : ((a.engine.fixAll? (parse source) (check (parse source) rule)).bind
      FixOutcome.tree?).map (fun tree => (tree.text, decide (lex tree.text ≠ tree.leaves))) =
        some ("A(); // note B();", true) := by
    rw [(Analyzer.builtin_spec ha).2.2, hsource]
    decide +kernel
  obtain ⟨tree, ranges, hfix, htree⟩ := exists_applied htext
  simp only [Prod.mk.injEq, decide_eq_true_eq] at htree
  exact ⟨source, a, tree, ranges, hsource, ha, fun d hd => reported_of_mem_check ha hd, hfix,
    htree.1, htree.2⟩

/-! ## The sources on which nothing fuses -/

/-- Neighbours among the members of a list that pass a test have nothing between them that does. -/
lemma pair_infix_filter_iff {α : Type} {p : α → Bool} {as : List α} {x y : α} :
    [x, y] <:+: as.filter p ↔
      ∃ mid, x :: (mid ++ [y]) <:+: as ∧ p x = true ∧ p y = true ∧ ∀ z ∈ mid, p z = false := by
  constructor
  · rintro ⟨front, back, heq⟩
    rw [List.append_assoc, eq_comm, List.filter_eq_append_iff] at heq
    obtain ⟨bs, cs, rfl, -, hcs⟩ := heq
    obtain ⟨ds, es, rfl, -, hx, hes⟩ := List.filter_eq_cons_iff.mp hcs
    obtain ⟨mid, gs, rfl, hmid, hy, -⟩ := List.filter_eq_cons_iff.mp hes
    exact ⟨mid, ⟨bs ++ ds, gs, by simp⟩, hx, hy, fun z hz => by simpa using hmid z hz⟩
  · rintro ⟨mid, ⟨front, back, rfl⟩, hx, hy, hmid⟩
    have hnone : mid.filter p = [] := List.filter_eq_nil_iff.mpr fun z hz => by simp [hmid z hz]
    exact ⟨front.filter p, back.filter p, by simp [hx, hy, hnone]⟩

/-- Two tokens of a text become neighbours when some handlers are chosen: they stay, and of what stands
between them, something and nothing that stays, all goes. -/
def IsSeam (source : String) (cs : List Cursor) (x y : Placed Token) : Prop :=
  ∃ mid ≠ [], x :: (mid ++ [y]) <:+: Token.place 0 (lex source) ∧
    ¬Goes (parse source) cs x.range ∧ ¬Goes (parse source) cs y.range ∧
    ∀ z ∈ mid, Goes (parse source) cs z.range

/-- **Which texts are fixed without harm to their tokens**: those in which no two tokens fuse that become
neighbours when the chosen handlers go.

**Proof sketch.** The tokens of the fixed tree are those that stay (`leaves_fixed`), and neighbours among
these have been neighbours before or have something between them that goes. -/
theorem lex_fixed_iff (ha : Analyzer.builtin = .ok a) (hds : ∀ d ∈ ds, d.ruleId = ruleId)
    (hfix : a.engine.fixAll? (parse source) ds = some (.applied tree ranges)) :
    lex tree.text = tree.leaves ↔ ∀ x y, IsSeam source (chosen (parse source) ds) x y →
      lex (x.item.text ++ y.item.text) = [x.item, y.item] := by
  classical
  let stays : Placed Token → Bool :=
    fun y => decide ¬Goes (parse source) (chosen (parse source) ds) y.range
  have hstays : ∀ y, stays y = true ↔ ¬Goes (parse source) (chosen (parse source) ds) y.range :=
    fun y => decide_eq_true_iff
  have hgoes : ∀ y, stays y = false ↔ Goes (parse source) (chosen (parse source) ds) y.range := by
    intro y
    rw [← Bool.not_eq_true, hstays, not_not]
  rw [lex_text_iff_neighbours ha hds hfix, leaves_fixed ha hds hfix hstays]
  constructor
  · rintro h x y ⟨mid, -, hinfix, hx, hy, hmid⟩
    have hpair : [x, y] <:+: (Token.place 0 (lex source)).filter stays := pair_infix_filter_iff.mpr
      ⟨mid, hinfix, (hstays x).mpr hx, (hstays y).mpr hy, fun z hz => (hgoes z).mpr (hmid z hz)⟩
    exact h _ _ (hpair.map Placed.item)
  · intro h t u htu
    obtain ⟨l, hl, heq⟩ := List.infix_map_iff.mp htu
    obtain ⟨x, y, rfl⟩ : ∃ x y, l = [x, y] := List.length_eq_two.mp (by simpa using
      (congrArg List.length heq).symm)
    simp only [List.map_cons, List.map_nil, List.cons.injEq, and_true] at heq
    obtain ⟨rfl, rfl⟩ := heq
    obtain ⟨mid, hinfix, hx, hy, hmid⟩ := pair_infix_filter_iff.mp hl
    by_cases hnil : mid = []
    · subst hnil
      have hold := hinfix.map Placed.item
      rw [Token.map_item_place] at hold
      exact lex_neighbours hold
    · exact h x y ⟨mid, hnil, hinfix, (hstays x).mp hx, (hstays y).mp hy,
        fun z hz => (hgoes z).mp (hmid z hz)⟩

/-- **Texts with line ends around what goes** are fixed without harm to their tokens: each stretch of
tokens that goes has a line end in front of it or behind it, or blanks in front of it and none behind it.

So a guarded block that gives way to its body is harmless if it stands behind blanks or begins a line, and
ends its line, and so is a removed handler that stands on lines of its own. No line ends with a carriage
return alone there, since one in front of what goes could fuse with a line feed behind it. -/
theorem lex_fixed_of_layout (ha : Analyzer.builtin = .ok a) (hds : ∀ d ∈ ds, d.ruleId = ruleId)
    (hfix : a.engine.fixAll? (parse source) ds = some (.applied tree ranges))
    (hseams : ∀ x y, IsSeam source (chosen (parse source) ds) x y → x.item.text ≠ "\r" ∧
      (x.item.kind = .newline ∨ y.item.kind = .newline ∨
        (x.item.kind = .whitespace ∧ y.item.kind ≠ .whitespace))) : lex tree.text = tree.leaves := by
  refine (lex_fixed_iff ha hds hfix).mpr fun x y hseam => ?_
  obtain ⟨hreturn, hlayout⟩ := hseams x y hseam
  obtain ⟨mid, hne, ⟨front, back, hinfix⟩, -⟩ := hseam
  have hlex := congrArg (List.map Placed.item) hinfix
  simp only [List.map_append, List.map_cons, List.append_assoc, List.cons_append, List.nil_append,
    Token.map_item_place] at hlex
  have hscan : Token.scan source.toList = front.map Placed.item ++ x.item ::
      (mid.map Placed.item ++ y.item :: back.map Placed.item) := hlex.symm
  obtain ⟨r, hfirst, hr⟩ := Token.exists_isFirst_of_scan hscan
  have hmem : y.item ∈ lex source := by rw [← hlex]; simp
  have hy : y.item.IsFirst [] := Token.isFirst_of_mem_scan hmem
  have hbehind : r ≠ [] := by
    rintro rfl
    rw [Token.scan, eq_comm, List.append_eq_nil_iff, List.map_eq_nil_iff] at hr
    exact hne hr.1
  rw [lex, String.toList_append, Token.scan_pair_iff hy]
  exact hfirst.before_of_layout hbehind hy hreturn hlayout

end Rethrow

end TreeLint
