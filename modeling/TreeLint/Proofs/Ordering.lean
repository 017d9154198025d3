import TreeLint.Proofs.Comments
import TreeLint.Proofs.Creations
import TreeLint.Proofs.Independence
import TreeLint.Proofs.Simultaneous

/-!
# The list of findings

The findings in a tree come from three sides: the rules about comments go through the tokens of the tree,
and two checks go through its nodes. What they find is put in one list, which is sorted by start. This file
says what a host can rely on in this list. Every finding spans something that is in the tree, so none leaves
the text; and of the findings that start at one offset, those about comments come first, comment by comment,
and the rules speak in the order of the registry.

## Main definitions

* `TreeLint.Node.HasSite` — the ranges in a tree that findings can be about.
* `TreeLint.Analyzer.Lists` — the findings of the rules that a configuration enables, as a host gets them.

## Main results

* `TreeLint.Node.Has.mem_place` — a direct token of a node is a token of the tree.
* `TreeLint.Node.HasSite.stop_le` — what findings can be about lies in the text.
* `TreeLint.sortFindings_at` — sorting does not change the order of findings with one start.
* `TreeLint.Analyzer.lists_iff` — any registry, any configuration and any tree.
-/

namespace TreeLint

/-! ## What findings are about -/

/-- The ranges in a tree that findings can be about. -/
inductive Node.HasSite (root : Node) : Range → Prop where
  /-- A comment of the tree. -/
  | comment {p : Placed Token} : p ∈ Token.place 0 root.leaves → p.item.kind.isComment = true →
      root.HasSite p.range
  /-- A handler of the tree. -/
  | handler {c : Cursor} : root.Has c → c.kind = .catchClause → root.HasSite c.range
  /-- A name of the tree. -/
  | name {p : Placed Token} : p ∈ Token.place 0 root.leaves → p.item.kind = .ident →
      root.HasSite p.range

variable {root : Node} {c : Cursor} {p : Placed Token} {x : Diagnostic}

/-- A token stands behind those before it. -/
lemma Token.mem_place_append (start : Nat) (ts us : List Token) (t : Token) :
    ⟨t, start + total (ts.map length)⟩ ∈ place start (ts ++ t :: us) := by
  rw [place_append]
  exact List.mem_append_right _ List.mem_cons_self

/-- **A direct token of a node** is a token of the tree, and stands at the same place. -/
theorem Node.Has.mem_place (hc : root.Has c) (hp : p ∈ c.tokens) : p ∈ Token.place 0 root.leaves := by
  obtain ⟨front, back, hchildren, hstart⟩ := Element.mem_place.mp (Cursor.token_mem_of_mem_tokens hp)
  have hnode : c.node.leaves = Element.leavesList front ++ p.item :: Element.leavesList back := by
    rw [Node.leaves, hchildren]
    simp
  have hleaves : root.leaves = (c.ahead ++ Element.leavesList front) ++
      p.item :: (Element.leavesList back ++ c.behind) := by
    rw [hc.leaves_eq, hnode]
    simp only [List.append_assoc, List.cons_append]
  have htotal : total ((c.ahead ++ Element.leavesList front).map Token.length) = p.start := by
    rw [List.map_append, total_append, hc.total_ahead, ← Element.lengthList_eq, hstart]
  have hmem := Token.mem_place_append 0 (c.ahead ++ Element.leavesList front)
    (Element.leavesList back ++ c.behind) p.item
  rwa [htotal, Nat.zero_add, ← hleaves] at hmem

/-- A token of a tree ends in the text. -/
lemma Node.stop_le_of_mem_place (hp : p ∈ Token.place 0 root.leaves) :
    p.range.stop ≤ root.text.utf8ByteSize := by
  obtain ⟨us, vs, hleaves, hstart⟩ := Token.exists_split_of_mem_place hp
  have hlength : root.length = total (root.leaves.map Token.length) := Element.lengthList_eq root.children
  have hstop : p.range.stop = p.start + p.item.length := rfl
  rw [root.utf8ByteSize_text, hlength, hstop, hleaves, hstart]
  simp only [List.map_append, List.map_cons, total_append, total_cons]
  omega

/-- **What findings can be about** lies in the text of the tree. -/
theorem Node.HasSite.stop_le {r : Range} (h : root.HasSite r) : r.stop ≤ root.text.utf8ByteSize := by
  cases h with
  | comment hp => exact stop_le_of_mem_place hp
  | name hp => exact stop_le_of_mem_place hp
  | handler hc =>
    have hbounds := hc.bounds.2
    have hstop : root.cursor.stop = root.length := Nat.zero_add _
    rw [Node.utf8ByteSize_text, Cursor.range_stop]
    omega

/-- The span of a range stops where the range does. -/
lemma Span.stop_ofRange (r : Range) : (ofRange r).stop = r.stop :=
  Nat.add_sub_cancel' r.start_le_stop

/-! ## What is found -/

/-- The finding of a rule about a comment spans the comment. -/
lemma Descriptor.span_onToken (d : Descriptor) (p : Placed Token) :
    (d.onToken p).span = .ofRange p.range := by
  rw [← d.finding_eq_onToken p]
  rfl

/-- The findings about the comments of a tree, rule by rule for each comment. -/
lemma commentFindings_eq (rules : List Descriptor) (root : Node) : commentFindings rules root =
    ((Token.place 0 root.leaves).filter (·.item.kind.isComment)).flatMap fun p =>
      (rules.filter fun d => d.pattern?.any (·.occursIn p.item.text)).map fun d => d.onToken p :=
  commentFindingsBy_eq CommentPattern.occursIn rules root

/-- A class is named by a name. -/
lemma Cursor.kind_of_nameToken? (h : c.nameToken? = some p) : p.item.kind = .ident := by
  unfold nameToken? at h
  simpa using List.find?_some h

/-- What a structural rule finds spans a handler or a name of the tree. -/
lemma hasSite_of_mem_inspect {d : Descriptor} (hx : x ∈ d.inspect root) :
    ∃ r, root.HasSite r ∧ x.span = .ofRange r := by
  unfold Descriptor.inspect at hx
  split at hx
  case isFalse => cases hx
  case isTrue =>
    unfold check? at hx
    split at hx
    · -- the check of handlers
      obtain ⟨c, hc, rfl⟩ := List.mem_map.mp hx
      obtain ⟨hc, hsuper⟩ := List.mem_filter.mp hc
      have hkind := (Rethrow.isRedundantHandler_of_isSuperfluous hsuper).1
      exact ⟨c.range, .handler (Node.mem_cursors.mp hc) hkind, rfl⟩
    · split at hx
      · -- the check of classes
        obtain ⟨c, hc, hfound⟩ := List.mem_filterMap.mp hx
        obtain ⟨p, hp, -, rfl⟩ := Instantiation.finding?_eq_some_iff.mp hfound
        have hroot := Node.mem_cursors.mp (List.mem_of_mem_filter hc)
        have hplace := hroot.mem_place (Cursor.mem_tokens_of_nameToken? hp)
        exact ⟨p.range, .name hplace (Cursor.kind_of_nameToken? hp), rfl⟩
      · cases hx

/-! ## Findings with one start -/

/-- Sorting does not change the order of findings with one start. -/
lemma sortFindings_at (xs : List Diagnostic) (k : Nat) :
    (sortFindings xs).filter (·.span.start = k) = xs.filter (·.span.start = k) := by
  have hsame : (xs.filter (·.span.start = k)).Pairwise fun x y =>
      decide (x.span.start ≤ y.span.start) = true := by
    refine List.pairwise_of_forall_mem_list fun x hx y hy => decide_eq_true (Nat.le_of_eq ?_)
    rw [of_decide_eq_true (List.mem_filter.mp hx).2, of_decide_eq_true (List.mem_filter.mp hy).2]
  have hcommute := sortFindings_map_filter (f := id) (fun _ => rfl) (·.span.start = k) xs
  rw [List.map_id, List.map_id] at hcommute
  rw [← hcommute, sortFindings, List.mergeSort_of_pairwise hsame]

/-- The findings in a list are known if those with each start are known. -/
lemma mem_iff_of_filter_start {xs ys : List Diagnostic}
    (h : ∀ k, xs.filter (·.span.start = k) = ys.filter (·.span.start = k)) (z : Diagnostic) :
    z ∈ xs ↔ z ∈ ys := by
  have hz := congrArg (z ∈ ·) (h z.span.start)
  simpa using hz

/-- A sorted list of findings is known if those with each start are known. -/
lemma eq_of_filter_start {xs ys : List Diagnostic}
    (hxs : xs.Pairwise fun x y => x.span.start ≤ y.span.start)
    (hys : ys.Pairwise fun x y => x.span.start ≤ y.span.start)
    (h : ∀ k, xs.filter (·.span.start = k) = ys.filter (·.span.start = k)) : xs = ys := by
  induction xs generalizing ys with
  | nil =>
    exact (List.eq_nil_iff_forall_not_mem.mpr fun z hz =>
      List.not_mem_nil ((mem_iff_of_filter_start h z).mpr hz)).symm
  | cons x xs ih =>
    have hmem := mem_iff_of_filter_start h
    cases ys with
    | nil => exact absurd ((hmem x).mp List.mem_cons_self) List.not_mem_nil
    | cons y ys =>
      -- the first findings have the smallest start of all
      have hfirst : x.span.start = y.span.start := by
        refine Nat.le_antisymm ?_ ?_
        · rcases List.mem_cons.mp ((hmem y).mpr List.mem_cons_self) with rfl | hy
          · exact Nat.le_refl _
          · exact (List.pairwise_cons.mp hxs).1 y hy
        · rcases List.mem_cons.mp ((hmem x).mp List.mem_cons_self) with rfl | hx
          · exact Nat.le_refl _
          · exact (List.pairwise_cons.mp hys).1 x hx
      have hsame := h x.span.start
      rw [List.filter_cons_of_pos (by simp), List.filter_cons_of_pos (by simp [hfirst])] at hsame
      obtain ⟨rfl, -⟩ := List.cons.inj hsame
      have hrest : ∀ k, xs.filter (·.span.start = k) = ys.filter (·.span.start = k) := fun k => by
        have hk := h k
        rw [List.filter_cons, List.filter_cons] at hk
        split at hk
        · exact (List.cons.inj hk).2
        · exact hk
      rw [ih (List.pairwise_cons.mp hxs).2 (List.pairwise_cons.mp hys).2 hrest]

/-- If all findings about an item have its start, then those with one start are the findings about the items
with this start. -/
lemma filter_flatMap_at {α : Type} {find : α → List Diagnostic} {start : α → Nat}
    (h : ∀ a, ∀ x ∈ find a, x.span.start = start a) (as : List α) (k : Nat) :
    (as.flatMap find).filter (·.span.start = k) = (as.filter (start · = k)).flatMap find := by
  rw [List.filter_flatMap]
  induction as with
  | nil => rfl
  | cons a as ih =>
    rw [List.flatMap_cons, List.filter_cons, ih]
    split
    case isTrue hk =>
      have hall : (find a).filter (·.span.start = k) = find a :=
        List.filter_eq_self.mpr fun x hx => by rw [h a x hx]; exact hk
      rw [hall, List.flatMap_cons]
    case isFalse hk =>
      have hnone : (find a).filter (·.span.start = k) = [] :=
        List.filter_eq_nil_iff.mpr fun x hx => by rw [h a x hx]; exact hk
      rw [hnone, List.nil_append]

namespace Analyzer

/-- The findings of the rules that a configuration enables in a tree, as a host gets them. -/
structure Lists (registry : Registry) (config : LinterConfig) (root : Node) (findings : List Diagnostic) :
    Prop where
  /-- Every finding spans exactly a comment, a handler or a name of the tree. -/
  site : ∀ x ∈ findings, ∃ r, root.HasSite r ∧ x.span = .ofRange r
  /-- No finding ends behind the text. -/
  stop_le : ∀ x ∈ findings, x.span.start + x.span.length ≤ root.text.utf8ByteSize
  /-- No finding starts before one in front of it. -/
  sorted : findings.Pairwise fun x y => x.span.start ≤ y.span.start
  /-- The rules run in the order of the registry. -/
  rules : ((enabledRules registry config).map Descriptor.id).Sublist (registry.rules.map Descriptor.id)
  /-- The findings that start at an offset are these, in this order: for each comment there, the findings
  of the rules whose patterns occur in it, in the order of the rules; then for each structural rule, in the
  order of the rules, what it finds there. -/
  ties : ∀ k, findings.filter (·.span.start = k) =
    (((Token.place 0 root.leaves).filter fun p => p.item.kind.isComment && p.start = k).flatMap fun p =>
      ((enabledRules registry config).filter fun d => d.pattern?.any (·.occursIn p.item.text)).map
        fun d => d.onToken p) ++
    (enabledRules registry config).flatMap fun d => (d.inspect root).filter (·.span.start = k)

variable (registry : Registry) (config : LinterConfig)

/-- The findings about comments are those of all rules that a configuration enables; only rules with a
pattern have any. -/
lemma commentFindings_enabledRules (root : Node) :
    commentFindings (ofConfig registry config).comments root =
      ((Token.place 0 root.leaves).filter (·.item.kind.isComment)).flatMap fun p =>
        ((enabledRules registry config).filter fun d => d.pattern?.any (·.occursIn p.item.text)).map
          fun d => d.onToken p := by
  have hpattern : ∀ (d : Descriptor) (text : String),
      (d.pattern?.any (·.occursIn text) && d.isPattern) = d.pattern?.any (·.occursIn text) := by
    intro d text
    unfold Descriptor.isPattern
    cases d.pattern? <;> simp
  rw [commentFindings_eq, ofConfig]
  simp only [List.filter_filter, hpattern]

/-- The rules that a configuration enables are rules of the registry, in their order. -/
lemma sublist_enabledRules :
    ((enabledRules registry config).map Descriptor.id).Sublist (registry.rules.map Descriptor.id) := by
  have heffective : Descriptor.id ∘ (·.effective config) = Descriptor.id := rfl
  rw [enabledRules, List.map_map, heffective]
  exact List.filter_sublist.map _

/-- What an analyzer finds is listed so.

**Proof sketch.** What is found is found about a token of the tree or a node of it, and these lie in the text
since the lengths before them add up to where they stand. The list is sorted, and sorting is stable, so the
findings with one start are those that were found with this start, in the order in which they were found
(`sortFindings_at`). A comment starts where all findings about it start, so for the rules about comments
these are the findings about the comments with this start (`filter_flatMap_at`). -/
theorem lists_analyze (root : Node) :
    Lists registry config root ((ofConfig registry config).analyze root) := by
  have hsite : ∀ x ∈ (ofConfig registry config).analyze root,
      ∃ r, root.HasSite r ∧ x.span = .ofRange r := by
    intro x hx
    rw [analyze, sortFindings, List.mem_mergeSort, List.mem_append, commentFindings_enabledRules,
      structuralFindings_ofConfig] at hx
    rcases hx with hx | hx
    · obtain ⟨p, hp, hx⟩ := List.mem_flatMap.mp hx
      obtain ⟨d, -, rfl⟩ := List.mem_map.mp hx
      obtain ⟨hp, hkind⟩ := List.mem_filter.mp hp
      exact ⟨p.range, .comment hp hkind, d.span_onToken p⟩
    · obtain ⟨d, -, hx⟩ := List.mem_flatMap.mp hx
      exact hasSite_of_mem_inspect hx
  constructor
  case site => exact hsite
  case stop_le =>
    intro x hx
    obtain ⟨r, hr, hspan⟩ := hsite x hx
    have hstop := Span.stop_ofRange r
    rw [← hspan] at hstop
    exact hstop.trans_le hr.stop_le
  case sorted => exact pairwise_sortFindings _
  case rules => exact sublist_enabledRules registry config
  case ties =>
    intro k
    have hstart : ∀ (p : Placed Token), ∀ x ∈ ((enabledRules registry config).filter fun d =>
        d.pattern?.any (·.occursIn p.item.text)).map (fun d => d.onToken p), x.span.start = p.start := by
      intro p x hx
      obtain ⟨d, -, rfl⟩ := List.mem_map.mp hx
      rfl
    rw [analyze, sortFindings_at, List.filter_append, commentFindings_enabledRules,
      structuralFindings_ofConfig, filter_flatMap_at hstart, List.filter_filter, List.filter_flatMap]
    simp only [Bool.and_comm]

/-- **The list of findings**, for any registry, any configuration and any tree: what the analyzer of the
registry and the configuration finds in the tree is listed so, and there is no other such list. -/
theorem lists_iff (root : Node) (findings : List Diagnostic) :
    Lists registry config root findings ↔ findings = (ofConfig registry config).analyze root := by
  have hlists := lists_analyze registry config root
  constructor
  · intro h
    exact eq_of_filter_start h.sorted hlists.sorted fun k => (h.ties k).trans (hlists.ties k).symm
  · rintro rfl
    exact hlists

end Analyzer

end TreeLint
