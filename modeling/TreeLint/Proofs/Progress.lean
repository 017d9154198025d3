import TreeLint.Proofs.Dispatch
import TreeLint.Proofs.Reshape
import TreeLint.Proofs.Siblings

/-!
# Fixing one finding after the other

Findings about handlers that only rethrow can be fixed one at a time, with a new analysis after each
fix: to remove a handler can make another one superfluous that was not so before. The trees on the
way are no longer trees of texts, but they are as shaped, so that every finding with a body to keep
can be fixed, and every fix leaves fewer handlers.

## Main definitions

* `TreeLint.Node.handlerCount` — the number of handlers in a tree.
* `TreeLint.Rethrow.IsAbout` — a finding about a handler of a guarded block.
* `TreeLint.Rethrow.Reaches` — the trees that fixes of single findings lead to.

## Main results

* `TreeLint.Node.IsShaped.handlerCount_eq` — handlers are counted by the guarded blocks.
* `TreeLint.Rethrow.IsOutcome.handlerCount_lt` — a fix leaves fewer handlers.
* `TreeLint.Rethrow.fix?_of_reaches` — findings can be fixed one after the other, until no handler is
  left at the latest.
-/

namespace TreeLint

/-! ## Counting handlers -/

/-- The number of handlers in a tree. -/
def Node.handlerCount (n : Node) : Nat := (n.nodes.filter fun m => m.kind = .catchClause).length

namespace Element

mutual
/-- The handlers from an element down are the element itself, if it is one, and the handlers of the
nodes from there down. -/
theorem length_filter_nodes : ∀ e : Element,
    (e.nodes.filter fun m => m.kind = .catchClause).length =
      (e.node?.toList.filter fun m => m.kind = .catchClause).length +
        total (e.nodes.map fun m => m.handlers.length)
  | .token t => rfl
  | .node k cs => by
    have hrest := length_filter_nodesList cs
    have hhandlers : ((cs.filterMap node?).filter fun m => m.kind = .catchClause).length =
        (⟨k, cs⟩ : Node).handlers.length := rfl
    simp only [nodes, node?, Option.toList_some, List.map_cons, total_cons]
    rw [← List.singleton_append, List.filter_append, List.length_append, hrest, hhandlers]
/-- The handlers from some elements down are those among the elements and the handlers of the nodes
from there down. -/
theorem length_filter_nodesList : ∀ es : List Element,
    ((nodesList es).filter fun m => m.kind = .catchClause).length =
      ((es.filterMap node?).filter fun m => m.kind = .catchClause).length +
        total ((nodesList es).map fun m => m.handlers.length)
  | [] => rfl
  | e :: es => by
    have hnode : (e :: es).filterMap node? = e.node?.toList ++ es.filterMap node? := by
      cases e <;> rfl
    rw [nodesList, hnode, List.filter_append, List.filter_append, List.length_append,
      List.length_append, List.map_append, total_append, length_filter_nodes e,
      length_filter_nodesList es]
    omega
end

mutual
/-- The cursors from an element down are at the nodes from there down. -/
theorem map_node_cursors (path : List Frame) (start : Nat) : ∀ e : Element,
    (e.cursors path start).map Cursor.node = e.nodes
  | .token t => rfl
  | .node k cs => by
    rw [cursors, List.map_cons, map_node_cursorsList path k start [] start cs]
    rfl
/-- The cursors from some children down are at the nodes from there down. -/
theorem map_node_cursorsList (path : List Frame) (k : Kind) (start : Nat) (before : List Element)
    (offset : Nat) : ∀ es : List Element,
    (cursorsList path k start before offset es).map Cursor.node = nodesList es
  | [] => rfl
  | e :: es => by
    rw [cursorsList, List.map_append, map_node_cursors _ _ e, map_node_cursorsList _ _ _ _ _ es]
    rfl
end

end Element

/-- The cursors of a tree are at its nodes. -/
lemma Node.map_node_cursors (root : Node) : root.cursors.map Cursor.node = root.nodes :=
  Element.map_node_cursors ..

/-- The nodes among some children and their cursors. -/
lemma Cursor.map_node_childrenFrom (path : List Frame) (k : Kind) (start : Nat)
    (before : List Element) (offset : Nat) (es : List Element) :
    (childrenFrom path k start before offset es).map Cursor.node = es.filterMap Element.node? := by
  induction es generalizing before offset with
  | nil => rfl
  | cons e es ih =>
    cases e with
    | token u => exact ih _ _
    | node l ds => exact congrArg (Node.mk l ds :: ·) (ih _ _)

/-- The child nodes of a node and their cursors. -/
lemma Cursor.map_node_children (c : Cursor) : c.children.map Cursor.node = c.node.childNodes :=
  map_node_childrenFrom ..

/-- The handlers of a guarded block and their cursors. -/
lemma Cursor.map_node_handlers (t : Cursor) : t.handlers.map Cursor.node = t.node.handlers := by
  rw [Node.handlers, ← t.map_node_children, List.filter_map]
  rfl

/-- A guarded block has as many cursors at handlers as it has handlers. -/
lemma Cursor.length_handlers (t : Cursor) : t.handlers.length = t.node.handlers.length := by
  rw [← t.map_node_handlers, List.length_map]

/-- Numbers that are zero do not count. -/
lemma total_filter {α : Type} {f : α → Nat} {q : α → Bool} {as : List α}
    (h : ∀ a ∈ as, q a = false → f a = 0) : total ((as.filter q).map f) = total (as.map f) := by
  induction as with
  | nil => rfl
  | cons a as ih =>
    have ih := ih fun b hb => h b (List.mem_cons_of_mem _ hb)
    cases hq : q a with
    | true => simp [hq, ih]
    | false => simp [hq, ih, h a List.mem_cons_self hq]

/-- A sum of fewer numbers, none of them greater, is not greater. -/
lemma total_filter_le {α : Type} {f g : α → Nat} {q r : α → Bool} {as : List α}
    (hqr : ∀ a ∈ as, q a = true → r a = true) (hle : ∀ a ∈ as, f a ≤ g a) :
    total ((as.filter q).map f) ≤ total ((as.filter r).map g) := by
  induction as with
  | nil => exact Nat.le_refl _
  | cons a as ih =>
    have ih := ih (fun b hb => hqr b (List.mem_cons_of_mem _ hb))
      fun b hb => hle b (List.mem_cons_of_mem _ hb)
    have ha := hle a List.mem_cons_self
    cases hq : q a with
    | true =>
      have hr := hqr a List.mem_cons_self hq
      simp only [List.filter_cons_of_pos hq, List.filter_cons_of_pos hr, List.map_cons, total_cons]
      omega
    | false => cases hr : r a <;> simp [hq, hr] <;> omega

/-- It is smaller if one of the numbers is missing or smaller. -/
lemma total_filter_lt {α : Type} {f g : α → Nat} {q r : α → Bool} {as : List α}
    (hqr : ∀ a ∈ as, q a = true → r a = true) (hle : ∀ a ∈ as, f a ≤ g a) {a : α} (ha : a ∈ as)
    (hr : r a = true) (hpos : 0 < g a) (hlt : q a = true → f a < g a) :
    total ((as.filter q).map f) < total ((as.filter r).map g) := by
  obtain ⟨xs, ys, rfl⟩ := List.append_of_mem ha
  have hxs : total ((xs.filter q).map f) ≤ total ((xs.filter r).map g) :=
    total_filter_le (fun b hb => hqr b (by simp [hb])) fun b hb => hle b (by simp [hb])
  have hys : total ((ys.filter q).map f) ≤ total ((ys.filter r).map g) :=
    total_filter_le (fun b hb => hqr b (by simp [hb])) fun b hb => hle b (by simp [hb])
  rw [List.filter_append, List.filter_append, List.filter_cons_of_pos hr]
  cases hq : q a with
  | true =>
    have := hlt hq
    simp only [List.filter_cons_of_pos hq, List.map_append, List.map_cons, total_append, total_cons]
    omega
  | false =>
    rw [List.filter_cons_of_neg (by simp [hq])]
    simp only [List.map_append, List.map_cons, total_append, total_cons]
    omega

/-- A sum does not grow when numbers are left out. -/
lemma total_le_of_sublist {ms ns : List Nat} (h : ms.Sublist ns) : total ms ≤ total ns := by
  induction h with
  | slnil => exact Nat.le_refl _
  | cons n _ ih => exact ih.trans (Nat.le_add_left ..)
  | cons_cons n _ ih => exact Nat.add_le_add_left ih n

/-- **Handlers are counted by the guarded blocks** of a shaped tree. -/
theorem Node.IsShaped.handlerCount_eq {root : Node} (h : root.IsShaped) : root.handlerCount =
    total ((root.nodes.filter fun n => n.kind = .tryStatement).map fun n => n.handlers.length) := by
  have hroot : (root.toElement.node?.toList.filter fun m => m.kind = .catchClause) = [] := by
    have hkind : root.kind ≠ .catchClause := by simp [h.kind]
    simpa [Node.toElement, Element.node?] using hkind
  have hcount := Element.length_filter_nodes root.toElement
  rw [hroot, List.length_nil, Nat.zero_add] at hcount
  refine hcount.trans (total_filter fun n hn hk => ?_).symm
  have hk : n.kind ≠ .tryStatement := by simpa using hk
  rw [show root.toElement.nodes = root.cursors.map Cursor.node from
    (Node.map_node_cursors root).symm] at hn
  obtain ⟨c, hc, rfl⟩ := List.mem_map.mp hn
  rw [List.length_eq_zero_iff, Cursor.handlers_eq_nil_iff, List.eq_nil_iff_forall_not_mem]
  intro d hd
  obtain ⟨hcd, hdk⟩ := Cursor.mem_handlers.mp hd
  have hc := Node.mem_cursors.mp hc
  obtain ⟨t, -, htd, htk⟩ := h.exists_try (hc.child hcd) hdk
  obtain rfl : t = c := by simpa [htd.parent?_eq] using hcd.parent?_eq
  exact hk htk

namespace Rethrow

variable {root tree : Node} {removed : List Cursor}

/-! ## One fix -/

/-- **A fix leaves fewer handlers.**

**Proof sketch.** The guarded blocks of the fixed tree are guarded blocks of the tree before with
some of their handlers (`IsOutcome.handlers_eq`), and a removed handler is not among them. -/
theorem IsOutcome.handlerCount_lt (h : root.IsShaped)
    (hout : IsOutcome root (· ∈ removed) tree) (hne : removed ≠ []) :
    tree.handlerCount < root.handlerCount := by
  have hafter : tree.handlerCount = total ((root.cursors.filter (stands removed)).map fun t =>
      (remaining removed t).length) := by
    have hlayout : ∀ k u, u.kind.isLayout = true → isAnyTrivia k u = true :=
      fun _ _ hu => isTrivia_of_isLayout hu
    have hlengths := congrArg (fun hss => total (hss.map List.length))
      (hout.handlers_eq h hlayout fun _ hu => hu)
    simpa [(hout.isShaped h).handlerCount_eq, Function.comp_def] using hlengths
  have hbefore : root.handlerCount = total ((root.cursors.filter fun t =>
      t.kind = .tryStatement).map fun t => t.handlers.length) := by
    rw [h.handlerCount_eq, ← Node.map_node_cursors, List.filter_map, List.map_map]
    congr 1
    refine List.map_congr_left fun t _ => ?_
    rw [Function.comp, t.length_handlers]
  obtain ⟨c, hc⟩ := List.exists_mem_of_ne_nil _ hne
  obtain ⟨hes, -, -⟩ := hout
  obtain ⟨t, ht, hk, htc, hck, -⟩ := hes.covers c hc
  have hmem : c ∈ t.handlers := Cursor.mem_handlers.mpr ⟨htc, hck⟩
  rw [hafter, hbefore]
  refine total_filter_lt (fun t _ hstands => ?_) (fun t _ => List.length_filter_le ..)
    (Node.mem_cursors.mpr ht) (by simpa using hk) (List.length_pos_of_mem hmem) fun _ => ?_
  · simp only [stands, Bool.and_eq_true] at hstands
    exact hstands.1.1
  · refine List.length_filter_lt_length_iff_exists.mpr ⟨c, hmem, ?_⟩
    simp [isKept_eq_false hc .refl]

/-- A fix leaves no more bytes than there were. -/
lemma IsOutcome.length_le (h : root.IsShaped) (hout : IsOutcome root (· ∈ removed) tree) :
    tree.length ≤ root.length := by
  rw [Node.length, Node.length, Element.lengthList_eq, Element.lengthList_eq]
  exact total_le_of_sublist ((hout.sublist_leaves h).map _)

/-! ## Findings on the way -/

/-- A finding about a handler of a guarded block. -/
def IsAbout (d : Diagnostic) (t : Cursor) : Prop := ∃ c ∈ t.handlers, d.span = .ofRange c.range

variable {a : Analyzer} {source : String} {d : Diagnostic} {t : Cursor} {n : Nat}

/-- Every reported finding is about a handler of a guarded block. -/
lemma exists_isAbout (h : root.IsShaped) (ha : Analyzer.builtin = .ok a)
    (hd : d ∈ a.analyze root ∧ d.ruleId = ruleId) :
    ∃ t, root.Has t ∧ t.kind = .tryStatement ∧ IsAbout d t := by
  obtain ⟨c, hc, hsuper, rfl, -⟩ := exists_of_reported h ha hd
  obtain ⟨t, ht, htc, hk⟩ := h.exists_try hc (isRedundantHandler_of_isSuperfluous hsuper).1
  exact ⟨t, ht, hk, c,
    Cursor.mem_handlers.mpr ⟨htc, (isRedundantHandler_of_isSuperfluous hsuper).1⟩, rfl⟩

/-- One handler does not crowd a block. -/
lemma not_isCrowded_singleton : ¬IsCrowded (· ∈ chosen root [d]) t := by
  rintro ⟨-, -, front, x, y, z, hhs, -, hy, hz, -⟩
  have hsame : y = z := by
    obtain ⟨d₁, hd₁, r₁, hr₁, hy⟩ := mem_chosen.mp hy
    obtain ⟨d₂, hd₂, r₂, hr₂, hz⟩ := mem_chosen.mp hz
    rw [List.mem_singleton.mp hd₁] at hr₁
    rw [List.mem_singleton.mp hd₂] at hr₂
    obtain rfl := Option.some.inj (hr₁.symm.trans hr₂)
    exact Option.some.inj (hy.symm.trans hz)
  have hnodup := t.nodup_handlers
  rw [hhs] at hnodup
  have hthree := hnodup.of_append_right
  simp [hsame] at hthree

/-- **A reported finding can be fixed** if the guarded block has a body and the tree is not too long
for its offsets. -/
theorem fix?_of_isAbout (h : root.IsShaped) (ha : Analyzer.builtin = .ok a)
    (hsize : root.length ≤ maxOffset) (hd : d ∈ a.analyze root ∧ d.ruleId = ruleId)
    (ht : root.Has t) (hk : t.kind = .tryStatement)
    (hblock : (t.node.child? .block).isSome = true) (habout : IsAbout d t) :
    ∃ tree ranges, a.engine.fix? root d = some (.applied tree ranges) := by
  obtain ⟨c, hc, hspan⟩ := habout
  obtain ⟨htc, hck⟩ := Cursor.mem_handlers.mp hc
  have hstop : c.range.stop ≤ maxOffset := by
    have hbounds := Cursor.Below.bounds (ht.child htc)
    have hroot : root.cursor.stop = root.length := Nat.zero_add _
    simp only [Cursor.range_stop]
    omega
  have hsome : d.range?.isSome = true := by
    rw [Diagnostic.range?, hspan, Span.range?_ofRange hstop]
    rfl
  obtain ⟨hsuper, hrange⟩ := isSuperfluous_of_span h ha hd (ht.child htc) hck hspan hsome
  have hds : ∀ f ∈ [d], f.ruleId = ruleId ∧
      ∃ c ∈ t.handlers, c.node.isFiltered = false ∧ f.range? = some c.range := by
    intro f hf
    obtain rfl := List.mem_singleton.mp hf
    exact ⟨hd.2, c, hc, isFiltered_of_isSuperfluous hsuper, hrange⟩
  have hfix := fixAll?_of_handlers h (Analyzer.provider?_builtin ha) ht hk hblock (by simp) hds
  rcases hfix with ⟨hcrowded, -⟩ | ⟨-, happlied⟩
  · exact absurd hcrowded not_isCrowded_singleton
  · exact happlied

/-- What a fix of one finding does to the number of handlers, to the length and to the shape. -/
lemma step_spec (h : root.IsShaped) (ha : Analyzer.builtin = .ok a) (hid : d.ruleId = ruleId)
    {ranges : List Range} (hfix : a.engine.fix? root d = some (.applied tree ranges)) :
    tree.IsShaped ∧ tree.length ≤ root.length ∧ tree.handlerCount < root.handlerCount := by
  obtain ⟨hout, hleads, -⟩ := isOutcome_of_fixAll? h (Analyzer.provider?_builtin ha)
    (by simpa using hid) hfix
  obtain ⟨c, hc⟩ := hleads d List.mem_cons_self
  have hne : chosen root [d] ≠ [] := by simp [chosen, hc]
  exact ⟨hout.isShaped h, hout.length_le h, hout.handlerCount_lt h hne⟩

/-! ## One fix after the other -/

/-- The trees that some number of fixes leads to, each of one finding that is reported on the tree
before it. -/
inductive Reaches (a : Analyzer) (root : Node) : Nat → Node → Prop where
  /-- No fix leaves the tree as it is. -/
  | refl : Reaches a root 0 root
  /-- A reported finding is fixed. -/
  | step {n : Nat} {tree tree' : Node} {d : Diagnostic} {ranges : List Range} :
    Reaches a root n tree → d ∈ a.analyze tree → d.ruleId = ruleId →
    a.engine.fix? tree d = some (.applied tree' ranges) → Reaches a root (n + 1) tree'

/-- What holds on the way: the trees are shaped, they do not grow, and each fix costs a handler. -/
theorem Reaches.spec (h : root.IsShaped) (ha : Analyzer.builtin = .ok a)
    (hreach : Reaches a root n tree) :
    tree.IsShaped ∧ tree.length ≤ root.length ∧ n + tree.handlerCount ≤ root.handlerCount := by
  induction hreach with
  | refl => exact ⟨h, Nat.le_refl _, by omega⟩
  | step _ _ hid hfix ih =>
    obtain ⟨hshaped, hlength, hcount⟩ := ih
    obtain ⟨hshaped', hlength', hcount'⟩ := step_spec hshaped ha hid hfix
    exact ⟨hshaped', by omega, by omega⟩

/-- **Findings can be fixed one after the other.** On every tree that fixes of single findings lead to
from the tree of a text, each finding is about a handler of a guarded block, and if this has a body,
the finding can be fixed, and fewer handlers are left. So there are at most as many fixes as the text
has handlers.

Offsets are 32 bits wide, and longer texts have no tree.

**Proof sketch.** The trees on the way are shaped (`Reaches.spec`). There a reported finding leads to
its handler, which has no filter, and one handler does not crowd a block. -/
theorem fix?_of_reaches (ha : Analyzer.builtin = .ok a) (hsize : source.utf8ByteSize ≤ maxOffset)
    (hreach : Reaches a (parse source) n tree) :
    n + tree.handlerCount ≤ (parse source).handlerCount ∧
    ∀ d ∈ a.analyze tree, d.ruleId = ruleId →
      (∃ t, tree.Has t ∧ t.kind = .tryStatement ∧ IsAbout d t) ∧
      ∀ t, tree.Has t → t.kind = .tryStatement → IsAbout d t →
        (t.node.child? .block).isSome = true →
          ∃ tree' ranges, a.engine.fix? tree d = some (.applied tree' ranges) ∧
            tree'.handlerCount < tree.handlerCount := by
  obtain ⟨h, hlength, hcount⟩ := hreach.spec (isShaped_parse source) ha
  rw [length_parse] at hlength
  refine ⟨hcount, fun d hd hid => ⟨exists_isAbout h ha ⟨hd, hid⟩, fun t ht hk habout hblock => ?_⟩⟩
  obtain ⟨tree', ranges, hfix⟩ :=
    fix?_of_isAbout h ha (hlength.trans hsize) ⟨hd, hid⟩ ht hk hblock habout
  exact ⟨tree', ranges, hfix, (step_spec h ha hid hfix).2.2⟩

/-- A handler that becomes superfluous when another one is removed from its block: it is reported on
the fixed tree, and removed as well. -/
theorem fix?_of_reaches_nested : ∃ source a tree d tree' ranges,
    source = "try \x7b A(); \x7d catch \x7b try \x7b throw; \x7d catch \x7b throw; \x7d \x7d" ∧
    Analyzer.builtin = .ok a ∧ source.utf8ByteSize ≤ maxOffset ∧ Reaches a (parse source) 1 tree ∧
    d ∉ a.analyze (parse source) ∧ d ∈ a.analyze tree ∧ d.ruleId = ruleId ∧
    a.engine.fix? tree d = some (.applied tree' ranges) ∧
    tree'.handlerCount < tree.handlerCount ∧
    1 + tree.handlerCount ≤ (parse source).handlerCount := by
  obtain ⟨source, hsource⟩ : ∃ source, source =
    "try \x7b A(); \x7d catch \x7b try \x7b throw; \x7d catch \x7b throw; \x7d \x7d" := ⟨_, rfl⟩
  obtain ⟨a, ha⟩ := Analyzer.exists_builtin
  have hsize : source.utf8ByteSize ≤ maxOffset := by
    rw [hsource]
    decide +kernel
  have hinner : check (parse source) rule = [rule.finding [] (.ofLength 36 16)] := by
    rw [hsource]
    decide +kernel
  have hstep : ((a.engine.fix? (parse source) (rule.finding [] (.ofLength 36 16))).bind
      FixOutcome.tree?).map (fun tree => decide (
        check tree rule = [rule.finding [] (.ofLength 13 16)] ∧
        ∃ t ∈ tree.cursors, t.kind = .tryStatement ∧ (t.node.child? .block).isSome = true ∧
          ∃ c ∈ t.handlers, (rule.finding [] (.ofLength 13 16)).span = .ofRange c.range)) =
        some true := by
    rw [(Analyzer.builtin_spec ha).2.2, hsource]
    decide +kernel
  obtain ⟨tree, ranges, hfix, htree⟩ := exists_applied hstep
  obtain ⟨houter, t, ht, hk, hblock, habout⟩ := of_decide_eq_true htree
  have hreported := reported_of_mem_check ha (hinner ▸ List.mem_singleton.mpr rfl)
  have hcheck : rule.finding [] (.ofLength 13 16) ∈ check tree rule :=
    houter ▸ List.mem_singleton.mpr rfl
  have hd := reported_of_mem_check ha hcheck
  have hreach : Reaches a (parse source) 1 tree := .step .refl hreported.1 hreported.2 hfix
  have hnew : rule.finding [] (.ofLength 13 16) ∉ a.analyze (parse source) := by
    intro hmem
    have hcheck := (mem_check_iff ha).mpr ⟨hmem, rfl⟩
    rw [hinner, List.mem_singleton] at hcheck
    have hstart : 13 = 36 := congrArg (fun d => d.span.start) hcheck
    omega
  obtain ⟨hcount, hall⟩ := fix?_of_reaches ha hsize hreach
  obtain ⟨tree', ranges', hfix', hlt⟩ :=
    (hall _ hd.1 hd.2).2 t (Node.mem_cursors.mp ht) hk habout hblock
  exact ⟨source, a, tree, _, tree', ranges', hsource, ha, hsize, hreach, hnew, hd.1, hd.2, hfix',
    hlt, hcount⟩

end Rethrow

end TreeLint
