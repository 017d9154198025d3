import Mathlib.Data.List.Infix
import TreeLint.Proofs.Progress
import TreeLint.Proofs.Rethrowing

/-!
# Object creations inside a reported class

A class is reported if it is never instantiated. Whether it is instantiated inside is read off the object
creations below its declaration. But the grammar does not read expressions everywhere: the bodies of
properties, the lists of parameters, the initializers of objects and other bracketed runs are kept as plain
tokens. So the tokens of a reported class may spell an object creation of the class, and this file says
where: exactly in the nodes that keep such runs.

## Main definitions

* `TreeLint.Cursor.HasDirect` — a direct token of a node from another node down.
* `TreeLint.IsCreation` — the keyword of an object creation in front of a name.
* `TreeLint.Cursor.HoldsCreation` — such a keyword among the tokens of a node.
* `TreeLint.Cursor.KeepsCreation` — such a keyword in a run of plain tokens.

## Main results

* `TreeLint.Cursor.leaves_eq_iff` — the tokens of a node are the direct tokens of the nodes from there down.
* `TreeLint.keeps_or_creates` — in which nodes the keyword of an object creation can stand.
* `TreeLint.Instantiation.reported_iff` — the findings about classes without instances.
* `TreeLint.Instantiation.holdsCreation_reported_iff` — where the tokens of a reported class spell an
  object creation of the class.
-/

namespace TreeLint

open Element

/-! ## Tokens of a node -/

namespace Cursor

variable {c m : Cursor} {u : Token}

/-- From a node `c` down, the node `m` has a direct token behind its children `front`; the tokens `behind`
stand between the token and the end of `c`. -/
def HasDirect (c m : Cursor) (front : List Element) (u : Token) (behind : List Token) : Prop :=
  ∃ es inside, c.Below m ∧ m.node.children = front ++ .token u :: es ∧ m.behind = inside ++ c.behind ∧
    behind = leavesList es ++ inside

mutual
/-- Every token of an element that is a node is a direct token of some node from there down. -/
lemma exists_hasDirect_element : ∀ (e : Element) {c : Cursor} {ahead behind : List Token},
    c.node.toElement = e → e.leaves = ahead ++ u :: behind → ∃ m front, c.HasDirect m front u behind
  | .token t, c, _, _, he, _ => by cases he
  | .node k cs, c, ahead, behind, he, hleaves =>
    exists_hasDirect_list cs c [] (by cases he; rfl) hleaves
/-- The same for the tokens of some of the children of a node, up to the last one. -/
lemma exists_hasDirect_list : ∀ (es : List Element) (c : Cursor) (front : List Element)
    {ahead behind : List Token}, c.node.children = front ++ es → leavesList es = ahead ++ u :: behind →
      ∃ m front, c.HasDirect m front u behind
  | [], _, _, ahead, behind, _, hleaves => by cases ahead <;> cases hleaves
  | e :: es, c, front, ahead, behind, hcs, hleaves => by
    have hlater : c.node.children = (front ++ [e]) ++ es := by simpa using hcs
    rcases List.append_eq_append_iff.mp hleaves with ⟨ahead', rfl, hes⟩ | ⟨rest, he, hes⟩
    · exact exists_hasDirect_list es c (front ++ [e]) hlater hes
    · cases rest with
      | nil =>
        -- the token is the first one of the later children
        have hfirst : leavesList es = [] ++ u :: behind := hes.symm
        exact exists_hasDirect_list es c (front ++ [e]) hlater hfirst
      | cons v rest =>
        obtain ⟨rfl, rfl⟩ := List.cons.inj hes
        cases e with
        | token t =>
          obtain ⟨rfl, rfl⟩ : u = t ∧ rest = [] := by
            cases ahead with
            | nil => cases he; exact ⟨rfl, rfl⟩
            | cons w ahead => cases ahead <;> cases he
          exact ⟨c, front, es, [], .refl, hcs, rfl, by simp⟩
        | node k ds =>
          have hchild := IsChild.mk hcs
          obtain ⟨m, front', es', inside, hm, hchildren, hbehind, rfl⟩ :=
            exists_hasDirect_element (.node k ds) (c := ⟨⟨k, ds⟩, _, _⟩) rfl he
          refine ⟨m, front', es', inside ++ leavesList es, .head hchild hm, hchildren, ?_, by simp⟩
          rw [hbehind, hchild.behind_eq, List.append_assoc]
          rfl
end

/-- **The tokens of a node** are the direct tokens of the nodes from there down. -/
theorem leaves_eq_iff {behind : List Token} :
    (∃ ahead, c.node.leaves = ahead ++ u :: behind) ↔ ∃ m front, c.HasDirect m front u behind := by
  constructor
  · rintro ⟨ahead, hleaves⟩
    exact exists_hasDirect_element c.node.toElement rfl hleaves
  · rintro ⟨m, front, es, inside, hm, hcs, hbehind, rfl⟩
    obtain ⟨ahead, inside', hleaves, -, hbehind'⟩ := hm.exists_leaves
    obtain rfl : inside' = inside := List.append_cancel_right (hbehind'.symm.trans hbehind)
    refine ⟨ahead ++ leavesList front, ?_⟩
    rw [hleaves, Node.leaves, hcs, leavesList_append]
    simp

/-- The nodes of a node are those at the places from there down. -/
lemma mem_nodes {n : Node} : n ∈ c.node.nodes ↔ ∃ m, c.Below m ∧ m.node = n := by
  rw [Node.nodes, ← Element.map_node_cursors c.path c.start, List.mem_map]
  exact exists_congr fun m => and_congr_left fun _ => mem_cursors

/-! ## Names of classes -/

/-- The tokens of a node are among its elements. -/
lemma token_mem_of_mem_tokens {t : Placed Token} (h : t ∈ c.tokens) :
    (⟨.token t.item, t.start⟩ : Placed Element) ∈ c.elements := by
  obtain ⟨x, hx, ht⟩ := List.mem_filterMap.mp h
  obtain ⟨u, hu, rfl⟩ := Option.map_eq_some_iff.mp ht
  obtain ⟨e, start⟩ := x
  cases e with
  | token v =>
    obtain rfl := Option.some.inj hu
    exact hx
  | node k cs => cases hu

/-- The name of a declaration is one of its tokens. -/
lemma mem_tokens_of_nameToken? {t : Placed Token} (h : c.nameToken? = some t) : t ∈ c.tokens :=
  (List.dropWhile_suffix _).subset (List.mem_of_find?_eq_some h)

/-- A direct token of a node does not stand where a direct token of another node below it stands. -/
lemma Below.eq_of_tokens (h : c.Below m) {s t : Placed Token} (ht : t ∈ c.tokens) (hs : s ∈ m.tokens)
    (hpos : 0 < t.item.length) (hrange : t.range = s.range) : c = m := by
  by_contra hne
  obtain ⟨x, hx, hxm⟩ := h.exists_child hne
  have hstart : t.start = s.start := congrArg Range.start hrange
  have hstop : t.start + t.item.length = s.start + s.item.length := congrArg Range.stop hrange
  have hin : m.start ≤ s.start ∧ s.start + s.item.length ≤ m.stop :=
    mem_elements_bounds (token_mem_of_mem_tokens hs)
  have hbounds := hxm.bounds
  have hxstop : x.stop = x.start + x.node.toElement.length := rfl
  rcases Element.eq_or_apart (token_mem_of_mem_tokens ht) hx.mem_elements with heq | hle | hle
  · cases heq
  · rw [Placed.span_stop, Placed.span_start] at hle
    simp only [Element.length_token] at hle
    omega
  · rw [Placed.span_stop, Placed.span_start] at hle
    simp only at hle
    omega

end Cursor

/-- In a tree, no two nodes have direct tokens in the same place. -/
lemma Node.Has.eq_of_tokens {root : Node} {c d : Cursor} {s t : Placed Token} (hc : root.Has c)
    (hd : root.Has d) (ht : t ∈ c.tokens) (hs : s ∈ d.tokens) (hpos : 0 < t.item.length)
    (hrange : t.range = s.range) : c = d := by
  have hstart : t.start = s.start := congrArg Range.start hrange
  have hstop : t.start + t.item.length = s.start + s.item.length := congrArg Range.stop hrange
  rcases hc.comparable hd with h | h | hle
  · exact h.eq_of_tokens ht hs hpos hrange
  · exact (h.eq_of_tokens hs ht (by omega) hrange.symm).symm
  · have hct : c.start ≤ t.start ∧ t.start + t.item.length ≤ c.stop :=
      Cursor.mem_elements_bounds (Cursor.token_mem_of_mem_tokens ht)
    have hds : d.start ≤ s.start ∧ s.start + s.item.length ≤ d.stop :=
      Cursor.mem_elements_bounds (Cursor.token_mem_of_mem_tokens hs)
    omega

/-! ## Creations -/

/-- The keyword of an object creation in front of some tokens of which the next real one is a given name. -/
def IsCreation (name : String) (u : Token) (behind : List Token) : Prop :=
  u.kind = .newKw ∧ ∃ v, Grammar.peekToken? behind = some v ∧ v.kind = .ident ∧ v.text = name

instance (name : String) (u : Token) (behind : List Token) : Decidable (IsCreation name u behind) :=
  decidable_of_iff (u.kind = .newKw ∧ (Grammar.peekToken? behind).any
      fun v => v.kind == .ident && v.text == name) <| by
    simp only [IsCreation, Option.any_eq_true, Bool.and_eq_true, beq_iff_eq]

/-- What spells an object creation does so in front of more tokens. -/
lemma IsCreation.append {name : String} {u : Token} {behind : List Token} (h : IsCreation name u behind)
    (more : List Token) : IsCreation name u (behind ++ more) := by
  obtain ⟨hu, v, hv, hname⟩ := h
  refine ⟨hu, v, ?_, hname⟩
  rw [Grammar.peekToken?, List.find?_append, show behind.find? _ = some v from hv]
  rfl

namespace Cursor

/-- Among the tokens of a node, the keyword of an object creation stands in front of a name; only trivia
are between them. -/
def HoldsCreation (c : Cursor) (name : String) : Prop :=
  ∃ ahead u behind, c.node.leaves = ahead ++ u :: behind ∧ IsCreation name u behind

/-- The keyword of such a creation is a direct token of a node that keeps runs of plain tokens: a
declaration, a list of parameters, or an object creation, of which it is not the first token. -/
def KeepsCreation (c : Cursor) (name : String) : Prop :=
  ∃ m front u behind, c.HasDirect m front u behind ∧ IsCreation name u behind ∧
    (m.kind.keepsTokens = true ∨ m.kind = .objectCreationExpression ∧ front ≠ [])

variable {c m : Cursor} {name : String}

/-- What is kept is held. -/
lemma KeepsCreation.holds (h : c.KeepsCreation name) : c.HoldsCreation name := by
  obtain ⟨m, front, u, behind, hdirect, hcreation, -⟩ := h
  obtain ⟨ahead, hleaves⟩ := leaves_eq_iff.mpr ⟨m, front, hdirect⟩
  exact ⟨ahead, u, behind, hleaves, hcreation⟩

/-- An object creation is found below a node if one names the type. -/
lemma creates_iff : Instantiation.creates c.node name = true ↔
    ∃ m, c.Below m ∧ m.kind = .objectCreationExpression ∧ m.node.createdType? = some name := by
  simp only [Instantiation.creates, List.any_eq_true, mem_nodes, Bool.and_eq_true, decide_eq_true_eq,
    beq_iff_eq]
  constructor
  · rintro ⟨_, ⟨m, hm, rfl⟩, hk, hname⟩
    exact ⟨m, hm, hk, hname⟩
  · rintro ⟨m, hm, hk, hname⟩
    exact ⟨m.node, ⟨m, hm, rfl⟩, hk, hname⟩

end Cursor

variable {source : String} {c m : Cursor} {name : String}

/-- **The keyword of an object creation** in front of a name, among the direct tokens of a node: the node
keeps runs of plain tokens, or it is an object creation, which begins with the keyword and names the type or
keeps the keyword in a run behind. -/
theorem keeps_or_creates (hm : (parse source).Has m) (hne : m ≠ (parse source).cursor)
    {front behind : List Element} {u : Token} (hcs : m.node.children = front ++ .token u :: behind)
    (hcreation : IsCreation name u (leavesList behind ++ m.behind)) :
    (m.kind.keepsTokens = true ∨ m.kind = .objectCreationExpression ∧ front ≠ []) ∨
      m.kind = .objectCreationExpression ∧ m.node.createdType? = some name := by
  obtain ⟨hkind, v, hv, hident, rfl⟩ := hcreation
  have hformed := formed_parse source hm hne
  by_cases hobject : m.kind = .objectCreationExpression
  · cases front with
    | cons e front => exact .inl (.inr ⟨hobject, by simp⟩)
    | nil =>
      obtain ⟨t, rest, ht, -, hcreated⟩ := hformed.created hobject
      obtain rfl : behind = rest := (List.cons.inj (hcs.symm.trans ht)).2
      exact .inr ⟨hobject, hcreated v hv hident⟩
  · cases hkeeps : m.kind.keepsTokens with
    | true => exact .inl (.inl rfl)
    | false =>
      -- the text of the keyword tells it from other tokens of its kind
      have hmem : u ∈ lex source := by
        rw [← leaves_parse source, hm.leaves_eq, Node.leaves, hcs]
        simp
      have htext := keywordText?_of_mem_lex hmem (by rw [hkind]; rfl)
      rw [hkind] at htext
      exact absurd ⟨hkind, (Option.some.inj htext).symm⟩
        (hformed.plain hobject hkeeps (.token u) (by simp [hcs]))

/-- In a node without object creations of a type, what is held is kept. -/
theorem Cursor.HoldsCreation.keeps (h : c.HoldsCreation name) (hc : (parse source).Has c)
    (hne : c ≠ (parse source).cursor) (hnone : Instantiation.creates c.node name = false) :
    c.KeepsCreation name := by
  obtain ⟨ahead, u, behind, hleaves, hcreation⟩ := h
  obtain ⟨m, front, hdirect⟩ := leaves_eq_iff.mp ⟨ahead, hleaves⟩
  refine ⟨m, front, u, behind, hdirect, hcreation, ?_⟩
  obtain ⟨es, inside, hm, hcs, hbehind, rfl⟩ := hdirect
  have hroot : m ≠ (parse source).cursor := by
    rcases eq_or_ne c m with rfl | hcm
    · exact hne
    · obtain ⟨p, -, hp⟩ := hm.exists_parent hcm
      rintro rfl
      cases hp.parent?_eq
  have hfull := hcreation.append c.behind
  rw [List.append_assoc, ← hbehind] at hfull
  refine (keeps_or_creates (hc.trans hm) hroot hcs hfull).resolve_right fun hcreates => ?_
  have hfound := creates_iff.mpr ⟨m, hm, hcreates⟩
  rw [hnone] at hfound
  cases hfound

/-! ## Reported classes -/

namespace Instantiation

variable {a : Analyzer} {d : Diagnostic} {root : Node}

/-- A class is reported at its name if it is never instantiated. -/
lemma finding?_eq_some_iff {r : Descriptor} : finding? r c = some d ↔ ∃ t, c.nameToken? = some t ∧
    isNeverInstantiated c.node t.item.text = true ∧ d = r.finding [t.item.text] t.range := by
  unfold finding?
  cases c.nameToken? with
  | none => simp
  | some t =>
    cases hnever : isNeverInstantiated c.node t.item.text with
    | true => simp only [if_true, Option.some.injEq, exists_eq_left', hnever, true_and, @eq_comm _ d]
    | false => simp [hnever]

/-- **The findings about classes without instances** are about the names of classes that are never
instantiated. -/
theorem reported_iff (ha : Analyzer.builtin = .ok a) : d ∈ a.analyze root ∧ d.ruleId = ruleId ↔
    ∃ c t, root.Has c ∧ c.kind = .classDeclaration ∧ c.nameToken? = some t ∧
      isNeverInstantiated c.node t.item.text = true ∧ d = rule.finding [t.item.text] t.range := by
  have hother : d ∈ Rethrow.check root Rethrow.rule → d.ruleId ≠ ruleId := by
    intro hd
    obtain ⟨c, -, rfl⟩ := List.mem_map.mp hd
    show Rethrow.ruleId ≠ ruleId
    decide
  have hcheck : d ∈ check root rule ↔ ∃ c t, root.Has c ∧ c.kind = .classDeclaration ∧
      c.nameToken? = some t ∧ isNeverInstantiated c.node t.item.text = true ∧
        d = rule.finding [t.item.text] t.range := by
    simp only [check, List.mem_filterMap, List.mem_filter, Node.mem_cursors, decide_eq_true_eq,
      finding?_eq_some_iff, and_assoc]
    simp only [exists_and_left]
  rw [Analyzer.mem_analyze_checks ha, hcheck]
  constructor
  · rintro ⟨hd | hd, hid⟩
    · exact absurd hid (hother hd)
    · exact hd
  · intro hd
    refine ⟨.inr hd, ?_⟩
    obtain ⟨c, t, -, -, -, -, rfl⟩ := hd
    rfl

/-- A class with the span of a reported finding at its name is never instantiated. -/
lemma isNeverInstantiated_of_reported (ha : Analyzer.builtin = .ok a)
    (hd : d ∈ a.analyze (parse source) ∧ d.ruleId = ruleId) (hc : (parse source).Has c) {t : Placed Token}
    (ht : c.nameToken? = some t) (hspan : d.span = .ofRange t.range) :
    isNeverInstantiated c.node t.item.text = true := by
  obtain ⟨c', t', hc', -, ht', hnever, rfl⟩ := (reported_iff ha).mp hd
  have hrange : t'.range = t.range := Span.ofRange_inj hspan
  have hmem := Cursor.mem_tokens_of_nameToken? ht'
  have hsolid := ((isShaped_parse source).solid.children hc' _
    (Element.item_mem (Cursor.token_mem_of_mem_tokens hmem))).self
  obtain rfl := hc'.eq_of_tokens hc hmem (Cursor.mem_tokens_of_nameToken? ht) hsolid hrange
  obtain rfl := Option.some.inj (ht'.symm.trans ht)
  exact hnever

/-- **A reported class** spells a creation of itself exactly in runs that are kept as plain tokens.

Let a class of the tree of a text be reported. Then among the tokens of its declaration, the keyword of an
object creation stands in front of the name of the class exactly if such a keyword is a direct token of a
declaration, a list of parameters, or an object creation that begins before.

**Proof sketch.** The keyword is a direct token of some node (`Cursor.leaves_eq_iff`). If this node keeps no
runs, it is an object creation that begins with the keyword and names the class (`keeps_or_creates`). The
check finds it, wherever in the declaration it is, and does not report the class. -/
theorem holdsCreation_reported_iff (ha : Analyzer.builtin = .ok a)
    (hd : d ∈ a.analyze (parse source) ∧ d.ruleId = ruleId) (hc : (parse source).Has c)
    (hk : c.kind = .classDeclaration) {t : Placed Token} (ht : c.nameToken? = some t)
    (hspan : d.span = .ofRange t.range) :
    c.HoldsCreation t.item.text ↔ c.KeepsCreation t.item.text := by
  have hnever := isNeverInstantiated_of_reported ha hd hc ht hspan
  have hne := (isShaped_parse source).ne_cursor (c := c) (by rw [hk]; decide)
  simp only [isNeverInstantiated, Bool.and_eq_true, Bool.not_eq_true'] at hnever
  exact ⟨fun h => h.keeps hc hne hnever.2, Cursor.KeepsCreation.holds⟩

/-- A class whose method creates objects of other types only, one of them with the class as its argument,
keeps no creation and holds none. -/
theorem holdsCreation_reported_none : ∃ source a d c t,
    source = "class A \x7b private A() \x7b \x7d B M(A a) \x7b return new B<A>(new C(a)); \x7d \x7d" ∧
    Analyzer.builtin = .ok a ∧ (d ∈ a.analyze (parse source) ∧ d.ruleId = ruleId) ∧
    (parse source).Has c ∧ c.kind = .classDeclaration ∧ c.nameToken? = some t ∧
    d.span = .ofRange t.range ∧ ¬c.HoldsCreation t.item.text := by
  obtain ⟨source, hsource⟩ : ∃ source, source =
    "class A \x7b private A() \x7b \x7d B M(A a) \x7b return new B<A>(new C(a)); \x7d \x7d" := ⟨_, rfl⟩
  obtain ⟨a, ha⟩ := Analyzer.exists_builtin
  have hfind : ((parse source).cursors.find? fun c => c.kind == .classDeclaration &&
      (c.cursors.all fun m => m.node.children.tail.all (·.kind != .newKw) &&
        (m.kind == .objectCreationExpression || m.node.children.all (·.kind != .newKw))) &&
      c.nameToken?.any fun t => isNeverInstantiated c.node t.item.text).isSome = true := by
    rw [hsource]
    decide +kernel
  obtain ⟨c, hcfind⟩ := Option.isSome_iff_exists.mp hfind
  have hc := Node.mem_cursors.mp (List.mem_of_find?_eq_some hcfind)
  have hcheck := List.find?_some hcfind
  simp only [Bool.and_eq_true, beq_iff_eq, Option.any_eq_true] at hcheck
  obtain ⟨⟨hk, hplain⟩, t, ht, hnever⟩ := hcheck
  have hd : rule.finding [t.item.text] t.range ∈ a.analyze (parse source) ∧
      (rule.finding [t.item.text] t.range).ruleId = ruleId :=
    (reported_iff ha).mpr ⟨c, t, hc, hk, ht, hnever, rfl⟩
  refine ⟨source, a, _, c, t, hsource, ha, hd, hc, hk, ht, rfl, ?_⟩
  rw [holdsCreation_reported_iff ha hd hc hk ht rfl]
  rintro ⟨m, front, u, _, ⟨es, inside, hm, hcs, -, -⟩, ⟨hu, -⟩, hkeeps⟩
  have hmem := List.all_eq_true.mp hplain m (Cursor.mem_cursors.mpr hm)
  simp only [hcs, Bool.and_eq_true, Bool.or_eq_true, beq_iff_eq, List.all_eq_true, bne_iff_ne] at hmem
  rcases hkeeps with hkeeps | ⟨-, hfront⟩
  · rcases hmem.2 with hobject | hnone
    · rw [hobject] at hkeeps
      cases hkeeps
    · exact hnone (.token u) (by simp) hu
  · obtain ⟨e, front, rfl⟩ := List.exists_cons_of_ne_nil hfront
    exact hmem.1 (.token u) (by simp) hu

/-- The body of a property is a run of plain tokens. A class that creates itself there is reported. -/
theorem holdsCreation_reported_property : ∃ source a d c t,
    source = "class A \x7b private A() \x7b \x7d int P \x7b get \x7b return new A(); \x7d \x7d \x7d" ∧
    Analyzer.builtin = .ok a ∧ (d ∈ a.analyze (parse source) ∧ d.ruleId = ruleId) ∧
    (parse source).Has c ∧ c.kind = .classDeclaration ∧ c.nameToken? = some t ∧
    d.span = .ofRange t.range ∧ t.item.text = "A" ∧ c.HoldsCreation t.item.text := by
  obtain ⟨source, hsource⟩ : ∃ source, source =
    "class A \x7b private A() \x7b \x7d int P \x7b get \x7b return new A(); \x7d \x7d \x7d" := ⟨_, rfl⟩
  obtain ⟨a, ha⟩ := Analyzer.exists_builtin
  have hfind : ((parse source).cursors.find? fun c => c.kind == .classDeclaration &&
      c.nameToken?.any fun t => isNeverInstantiated c.node t.item.text && t.item.text == "A" &&
        c.node.leaves.tails.any fun ts =>
          ts.head?.any fun u => decide (IsCreation t.item.text u ts.tail)).isSome = true := by
    rw [hsource]
    decide +kernel
  obtain ⟨c, hcfind⟩ := Option.isSome_iff_exists.mp hfind
  have hc := Node.mem_cursors.mp (List.mem_of_find?_eq_some hcfind)
  have hcheck := List.find?_some hcfind
  simp only [Bool.and_eq_true, beq_iff_eq, Option.any_eq_true, List.any_eq_true, List.mem_tails,
    decide_eq_true_eq] at hcheck
  obtain ⟨hk, t, ht, ⟨hnever, hname⟩, ts, ⟨front, hleaves⟩, u, hu, hcreation⟩ := hcheck
  obtain ⟨behind, rfl⟩ := List.head?_eq_some_iff.mp hu
  have hd : rule.finding [t.item.text] t.range ∈ a.analyze (parse source) ∧
      (rule.finding [t.item.text] t.range).ruleId = ruleId :=
    (reported_iff ha).mpr ⟨c, t, hc, hk, ht, hnever, rfl⟩
  exact ⟨source, a, _, c, t, hsource, ha, hd, hc, hk, ht, rfl, hname, front, u, behind, hleaves.symm,
    hcreation⟩

end Instantiation

end TreeLint
