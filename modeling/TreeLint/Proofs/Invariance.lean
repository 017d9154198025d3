import Mathlib.Logic.Equiv.Fintype
import TreeLint.Proofs.Stripping
import TreeLint.Proofs.Unit
import TreeLint.Proofs.Views

/-!
# Layout and names

Two texts may have the same real tokens except for their names, and be laid out and commented
differently. If different names of one text are different in the other, then both have the same tree
without its trivia, up to the renaming, and the structural checks report the same nodes in both.

A renaming of the names of a text can be extended to all strings without making two of them equal, and
without touching the question mark, the only token that the recogniser tells by its text.

## Main definitions

* `TreeLint.names` — the names in a text.
* `TreeLint.IsRenaming` — texts that differ in layout and names only.
* `TreeLint.Rethrow.flagged`, `TreeLint.Instantiation.flagged` — what is reported, as places in
  preorder.

## Main results

* `TreeLint.parse_isRenaming` — neither layout nor names make a difference.
-/

namespace TreeLint

variable {ρ : String → String} {source source' : String}

/-! ## Texts that differ in layout and names -/

/-- The names in a text, in order. -/
def names (source : String) : List String :=
  ((lex source).filter fun t => t.kind = .ident).map Token.text

/-- The second text has the same real tokens as the first, with other names. Different names stay
different. -/
structure IsRenaming (ρ : String → String) (source source' : String) : Prop where
  /-- Different names stay different. -/
  injOn : Set.InjOn ρ {name | name ∈ names source}
  /-- The real tokens are the same, in the same order. -/
  tokens : ((lex source).filter fun t => !t.kind.isTrivia).map (Token.rename ρ) =
    (lex source').filter fun t => !t.kind.isTrivia

/-- The names of a text are those of its tokens that are identifiers. -/
lemma mem_names {name : String} : name ∈ names source ↔ ⟨.ident, name⟩ ∈ lex source := by
  constructor
  · intro h
    obtain ⟨t, ht, rfl⟩ := List.mem_map.mp h
    obtain ⟨ht, hk⟩ := List.mem_filter.mp ht
    rwa [← of_decide_eq_true hk]
  · exact fun h => List.mem_map.mpr ⟨_, List.mem_filter.mpr ⟨h, rfl⟩, rfl⟩

/-- A question mark is not a name. -/
lemma ne_of_mem_names {name : String} (h : name ∈ names source) : name ≠ "?" := by
  rintro rfl
  obtain ⟨c, rest, hstart, htext⟩ := exists_of_ident_mem_lex (mem_names.mp h) rfl
  have hchar : '?' = c := by
    have hlist : ['?'] = c :: rest := by
      rw [← String.toList_ofList (l := c :: rest), ← htext]
      rfl
    exact (List.cons.inj hlist).1
  rw [← hchar] at hstart
  exact absurd hstart (by decide +kernel)

/-- A renaming that keeps the question mark. -/
def keepMark (ρ : String → String) (text : String) : String := if text = "?" then "?" else ρ text

namespace IsRenaming

/-- The other names are names in the second text. -/
lemma mem_names (h : IsRenaming ρ source source') {name : String} (hname : name ∈ names source) :
    ρ name ∈ names source' := by
  have hreal : (⟨.ident, name⟩ : Token) ∈ (lex source).filter fun t => !t.kind.isTrivia :=
    List.mem_filter.mpr ⟨TreeLint.mem_names.mp hname, rfl⟩
  have hmem := List.mem_map_of_mem (f := Token.rename ρ) hreal
  rw [h.tokens] at hmem
  exact TreeLint.mem_names.mpr (List.mem_filter.mp hmem).1

/-- The other names and the question mark are different from each other. -/
lemma injOn_keepMark (h : IsRenaming ρ source source') :
    Set.InjOn (keepMark ρ) {text | text ∈ "?" :: names source} := by
  have hname : ∀ name ∈ names source, keepMark ρ name = ρ name ∧ ρ name ≠ "?" := fun name hname =>
    ⟨if_neg (ne_of_mem_names hname), ne_of_mem_names (h.mem_names hname)⟩
  have hmark : keepMark ρ "?" = "?" := rfl
  intro a ha b hb hab
  rcases List.mem_cons.mp ha with rfl | ha <;> rcases List.mem_cons.mp hb with rfl | hb
  · rfl
  · rw [hmark, (hname b hb).1] at hab
    exact absurd hab.symm (hname b hb).2
  · rw [hmark, (hname a ha).1] at hab
    exact absurd hab (hname a ha).2
  · rw [(hname a ha).1, (hname b hb).1] at hab
    exact h.injOn ha hb hab

/-- A renaming of the names extends to a permutation of all strings that keeps the question mark. -/
theorem exists_perm (h : IsRenaming ρ source source') :
    ∃ σ : Equiv.Perm String, σ "?" = "?" ∧ ∀ name ∈ names source, σ name = ρ name := by
  obtain ⟨σ, hσ⟩ := Equiv.Perm.exists_extending_pair
    (fun text : {text // text ∈ "?" :: names source} => text.1) (fun text => keepMark ρ text.1)
    Subtype.val_injective h.injOn_keepMark.injective
  refine ⟨σ, hσ ⟨"?", List.mem_cons_self⟩, fun name hname => ?_⟩
  exact (hσ ⟨name, List.mem_cons_of_mem _ hname⟩).trans (if_neg (ne_of_mem_names hname))

/-- Two renamings that agree on the names of a text do the same to its tokens. -/
lemma strip_lex (h : IsRenaming ρ source source') {σ : String → String}
    (hσ : ∀ name ∈ names source, σ name = ρ name) :
    Token.strip σ (lex source) = Token.strip id (lex source') := by
  have hid : Token.strip id (lex source') = (lex source').filter fun t => !t.kind.isTrivia := by
    rw [Token.strip, List.map_congr_left fun _ _ => Token.rename_id]
    exact List.map_id _
  rw [hid, ← h.tokens, Token.strip]
  refine List.map_congr_left fun t ht => ?_
  unfold Token.rename
  split
  · rw [hσ t.text (List.mem_map_of_mem (List.mem_filter.mpr ⟨(List.mem_filter.mp ht).1, by simpa⟩))]
  · rfl

/-- Two renamings that agree on the names of a text do the same to its tree. -/
lemma strip_parse {σ : String → String} (hσ : ∀ name ∈ names source, σ name = ρ name) :
    (parse source).strip σ = (parse source).strip ρ := by
  refine congrArg (Node.mk _) (Element.renameList_congr _ fun t ht hk => hσ t.text ?_)
  have hleaf : t ∈ (parse source).leaves :=
    (Element.leavesList_eraseList_sublist (parse source).children _).subset ht
  rw [leaves_parse] at hleaf
  exact List.mem_map_of_mem (List.mem_filter.mpr ⟨hleaf, by simpa using hk⟩)

end IsRenaming

/-! ## Places in preorder -/

/-- The nodes of a tree at some places in preorder. -/
def Node.cursorsAt (root : Node) (places : List Nat) : List Cursor :=
  places.filterMap (root.cursors[·]?)

/-- The places in preorder of the handlers that are reported. -/
def Rethrow.flagged (root : Node) : List Nat := root.cursors.findIdxs isSuperfluous

/-- The places in preorder of the classes that are reported. -/
def Instantiation.flagged (root : Node) : List Nat := root.cursors.findIdxs isReported

/-- The members of a list at the places where a condition holds are those for which it holds. -/
lemma filterMap_findIdxs {α : Type} (p : α → Bool) (xs : List α) :
    (xs.findIdxs p).filterMap (xs[·]?) = xs.filter p := by
  have hdrop : ∀ (ys : List α) (s : Nat), xs.drop s = ys →
      (ys.findIdxs p s).filterMap (xs[·]?) = ys.filter p := by
    intro ys
    induction ys with
    | nil => exact fun _ _ => rfl
    | cons y ys ih =>
      intro s hs
      have hget : xs[s]? = some y := by
        rw [← List.head?_drop, hs]
        rfl
      have htail : xs.drop (s + 1) = ys := by
        rw [← List.tail_drop, hs]
        rfl
      rw [List.findIdxs_cons, List.filter_cons, ← ih (s + 1) htail]
      split
      · rw [List.filterMap_cons, hget]
      · rfl
  exact hdrop xs 0 rfl

/-- The findings about handlers are about the handlers at the flagged places. -/
lemma Rethrow.check_eq (root : Node) (rule : Descriptor) :
    check root rule = (root.cursorsAt (flagged root)).map fun c => rule.finding [] c.range := by
  rw [check, Node.cursorsAt, flagged, filterMap_findIdxs]

/-- The findings about classes are about the classes at the flagged places. -/
lemma Instantiation.check_eq (root : Node) (rule : Descriptor) :
    (check root rule).map some = (root.cursorsAt (flagged root)).map (finding? rule) := by
  have hreported : isReported =
      fun c => (finding? rule c).isSome && decide (c.kind = .classDeclaration) := by
    funext c
    rw [isReported, isSome_finding?, Bool.and_comm]
  rw [Node.cursorsAt, flagged, filterMap_findIdxs, check, List.map_filterMap_some_eq_filter_map_isSome,
    List.filter_map, List.filter_filter, hreported]
  rfl

/-- The places at which a condition holds depend on its values only. -/
lemma findIdxs_congr {xs ys : List Cursor} {p : Cursor → Bool} (h : xs.map p = ys.map p) :
    xs.findIdxs p = ys.findIdxs p := by
  have hid : ∀ zs : List Cursor, zs.findIdxs p = (zs.map p).findIdxs id :=
    fun _ => (List.findIdxs_map (p := id) (f := p)).symm
  rw [hid, h, ← hid]

/-- The handlers that are reported are the same in a stripped tree. -/
lemma Rethrow.flagged_strip (root : Node) : flagged (root.strip ρ) = flagged root :=
  findIdxs_congr (map_isSuperfluous_strip root)

/-- The classes that are reported are the same in a stripped tree. -/
lemma Instantiation.flagged_strip (hρ : Function.Injective ρ) (root : Node) :
    flagged (root.strip ρ) = flagged root :=
  findIdxs_congr (map_isReported_strip hρ root)

/-! ## The same tree, the same findings -/

/-- **Neither layout nor names make a difference.** If two texts differ in layout, comments and names
only, and different names stay different, then their trees without trivia are the same, up to the
names, and the structural checks report the nodes at the same places.

**Proof sketch.** The renaming is the restriction of a permutation `σ` that keeps the question mark
(`IsRenaming.exists_perm`), so the tree of the second text without its trivia is that of the first
under `σ` (`parseTokens_strip` for both texts), and what is reported does not change when a tree is
stripped (`Rethrow.flagged_strip`, `Instantiation.flagged_strip`). The findings themselves are read
off the flagged places. -/
theorem parse_isRenaming (h : IsRenaming ρ source source') :
    ((parse source).erase isAnyTrivia).rename ρ = (parse source').erase isAnyTrivia ∧
    Rethrow.flagged (parse source) = Rethrow.flagged (parse source') ∧
    Instantiation.flagged (parse source) = Instantiation.flagged (parse source') ∧
    ∀ (root : Node) (rule : Descriptor),
      Rethrow.check root rule =
        (root.cursorsAt (Rethrow.flagged root)).map (fun c => rule.finding [] c.range) ∧
      (Instantiation.check root rule).map some =
        (root.cursorsAt (Instantiation.flagged root)).map (Instantiation.finding? rule) := by
  obtain ⟨σ, hmark, hσ⟩ := h.exists_perm
  have hkeeps : ∀ name, σ name = "?" ↔ name = "?" :=
    fun _ => ⟨fun h => σ.injective (h.trans hmark.symm), fun h => h ▸ hmark⟩
  have hfirst : parseTokens (Token.strip σ (lex source)) = (parse source).strip σ :=
    parseTokens_strip hkeeps (lex source)
  have hsecond : parseTokens (Token.strip id (lex source')) = (parse source').strip id :=
    parseTokens_strip (fun _ => Iff.rfl) (lex source')
  have hsame : (parse source).strip σ = (parse source').strip id := by
    rw [← hfirst, ← hsecond, h.strip_lex hσ]
  refine ⟨?_, ?_, ?_, fun root rule => ⟨Rethrow.check_eq root rule, Instantiation.check_eq root rule⟩⟩
  · calc ((parse source).erase isAnyTrivia).rename ρ
        = (parse source).strip σ := (IsRenaming.strip_parse hσ).symm
      _ = (parse source').erase isAnyTrivia := by rw [hsame, Node.strip_id]
  · calc Rethrow.flagged (parse source)
        = Rethrow.flagged ((parse source).strip σ) := (Rethrow.flagged_strip _).symm
      _ = Rethrow.flagged (parse source') := by rw [hsame, Rethrow.flagged_strip]
  · calc Instantiation.flagged (parse source)
        = Instantiation.flagged ((parse source).strip σ) :=
          (Instantiation.flagged_strip σ.injective _).symm
      _ = Instantiation.flagged (parse source') := by
          rw [hsame, Instantiation.flagged_strip Function.injective_id]

/-- A class under another name, with comments: both checks report one node, at the same place. -/
theorem parse_isRenaming_commented : ∃ ρ source source',
    ρ = (fun name => if name = "A" then "C" else name) ∧
    source = "class A \x7b private A() \x7b\x7d void F() \x7b try \x7b B(); \x7d " ++
      "catch \x7b throw; \x7d \x7d \x7d" ∧
    source' = "class C\x7bprivate C()\x7b\x7d// F\nvoid F()\x7btry\x7bB();\x7d" ++
      "catch\x7b/* again */throw;\x7d\x7d\x7d" ∧
    IsRenaming ρ source source' ∧
    ((parse source).erase isAnyTrivia).rename ρ = (parse source').erase isAnyTrivia ∧
    (Rethrow.flagged (parse source)).length = 1 ∧
    Rethrow.flagged (parse source) = Rethrow.flagged (parse source') ∧
    (Instantiation.flagged (parse source)).length = 1 ∧
    Instantiation.flagged (parse source) = Instantiation.flagged (parse source') := by
  obtain ⟨ρ, hρ⟩ : ∃ ρ : String → String, ρ = fun name => if name = "A" then "C" else name :=
    ⟨_, rfl⟩
  obtain ⟨source, hsource⟩ : ∃ source, source =
    "class A \x7b private A() \x7b\x7d void F() \x7b try \x7b B(); \x7d " ++
      "catch \x7b throw; \x7d \x7d \x7d" := ⟨_, rfl⟩
  obtain ⟨source', hsource'⟩ : ∃ source', source' =
    "class C\x7bprivate C()\x7b\x7d// F\nvoid F()\x7btry\x7bB();\x7d" ++
      "catch\x7b/* again */throw;\x7d\x7d\x7d" := ⟨_, rfl⟩
  have hdistinct : ∀ a ∈ names source, ∀ b ∈ names source, ρ a = ρ b → a = b := by
    rw [hρ, hsource]
    decide +kernel
  have htokens : ((lex source).filter fun t => !t.kind.isTrivia).map (Token.rename ρ) =
      (lex source').filter fun t => !t.kind.isTrivia := by
    rw [hρ, hsource, hsource']
    decide +kernel
  have hcounts : (Rethrow.flagged (parse source)).length = 1 ∧
      (Instantiation.flagged (parse source)).length = 1 := by
    rw [hsource]
    decide +kernel
  have h : IsRenaming ρ source source' :=
    ⟨fun a ha b hb hab => hdistinct a ha b hb hab, htokens⟩
  obtain ⟨htree, hrethrow, hinstantiation, -⟩ := parse_isRenaming h
  exact ⟨ρ, source, source', hρ, hsource, hsource', h, htree, hcounts.1, hrethrow, hcounts.2,
    hinstantiation⟩

end TreeLint
