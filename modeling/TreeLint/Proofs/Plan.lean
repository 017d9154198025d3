import TreeLint.Proofs.Outcome

/-!
# What a plan replaces

The edits of a plan for chosen handlers, taken as one rule, replace three kinds of things in the
nodes that they keep: trivia directly in a guarded block and chosen handlers give way to nothing, and
a guarded block of which nothing but the body is left gives way to this body. No handler inside such a
body is chosen, or the edits of the plan would overlap.

## Main results

* `TreeLint.Rethrow.IsPlan.replaced` — what a plan replaces, and by what.
* `TreeLint.Rethrow.IsPlan.rule_handler`, `TreeLint.Rethrow.IsPlan.rule_pointless` — what a plan does
  not keep.
* `TreeLint.Rethrow.IsPlan.not_chosen` — no handler inside a body that is put in the place of the
  whole is chosen.
* `TreeLint.Node.IsShaped.exists_braces` — the body of a guarded block with handlers.
-/

namespace TreeLint

/-! ## Bodies between braces -/

/-- The body of a guarded block with handlers stands between two braces. -/
theorem Node.IsShaped.exists_braces {root b : Node} {t : Cursor} (h : root.IsShaped)
    (ht : root.Has t) (hk : t.kind = .tryStatement) (hne : t.handlers ≠ [])
    (hb : t.node.child? .block = some b) :
    ∃ l inner r, b.children = .token l :: (inner ++ [.token r]) ∧ l.kind = .lBrace ∧
      r.kind = .rBrace ∧ ∀ e ∈ inner, e.kind ≠ .lBrace ∧ e.kind ≠ .rBrace := by
  obtain ⟨d, hd, rfl, hdk⟩ := Cursor.exists_of_child? hb
  obtain ⟨c, hc⟩ := List.exists_mem_of_ne_nil _ hne
  obtain ⟨hc, hck⟩ := Cursor.mem_handlers.mp hc
  have hdne : d ≠ root.cursor := h.ne_cursor (by rw [Cursor.kind, hdk]; decide)
  obtain ⟨l, inner, tail, hcs, hl, hinner, htail⟩ := (h.shaped (ht.child hd) hdne).braced hdk
  obtain ⟨k, cs, u, heq, hu⟩ := (h.shaped ht (h.ne_cursor (by simp [hk]))).closed hk
    ⟨c.node.toElement, hc.mem_children, hck⟩ d.node.toElement hd.mem_children hdk
  have hlast : d.node.children = cs ++ [.token u] := (Element.node.inj heq).2
  rw [hcs] at hlast
  rcases htail with rfl | ⟨r, hr, rfl⟩
  · -- then the last element would be both the closing brace and one before it
    have hmem : Element.token u ∈ Element.token l :: (inner ++ []) := by rw [hlast]; simp
    rw [List.append_nil, List.mem_cons] at hmem
    rcases hmem with heq | hmem
    · obtain rfl := Element.token.inj heq
      rw [hl] at hu
      cases hu
    · exact absurd hu (hinner _ hmem).2
  · exact ⟨l, inner, r, hcs, hl, hr, hinner⟩

namespace Rethrow

/-- What stands between two braces. -/
lemma body_eq {b : Node} {l r : Token} {inner : List Element}
    (hcs : b.children = .token l :: (inner ++ [.token r])) (hl : l.kind = .lBrace)
    (hr : r.kind = .rBrace) (hinner : ∀ e ∈ inner, e.kind ≠ .lBrace ∧ e.kind ≠ .rBrace) :
    body b = inner := by
  have hl' : (Element.token l).kind = .lBrace := hl
  have hr' : (Element.token r).kind = .rBrace := hr
  have hinner' : ∀ e ∈ inner, decide (e.kind ≠ .rBrace) = true :=
    fun e he => by simpa using (hinner e he).2
  simp only [body, hcs, List.dropWhile_cons, hl', ne_eq, not_true_eq_false, decide_false,
    Bool.false_eq_true, if_false, List.drop_succ_cons, List.drop_zero]
  rw [List.takeWhile_append_of_pos hinner']
  simp [hr']

variable {root : Node} {P : Cursor → Prop} {es : List Edit} {t c d p : Cursor} {b : Node}

/-! ## What is replaced -/

/-- What fixes of guarded blocks replace in the nodes that they keep. -/
theorem replaced_of_fixes (h : root.IsShaped)
    (hes : ∀ e ∈ es, ∃ t, root.Has t ∧ t.kind = .tryStatement ∧ IsFix P t e) {x : Placed Element}
    {ds : List Element} (hp : (batchRule es).IsLive root p) (hx : x ∈ p.elements)
    (hr : batchRule es x = some ds) :
    (p.kind = .tryStatement ∧ ¬IsPointless P p ∧ (∃ c ∈ p.handlers, P c) ∧ ds = [] ∧
        (x.item.isTrivia = true ∨ ∃ c ∈ p.handlers, P c ∧ x = ⟨c.node.toElement, c.start⟩)) ∨
      ∃ t b, p.IsChild t ∧ t.kind = .tryStatement ∧ IsPointless P t ∧
        t.node.child? .block = some b ∧ x = ⟨t.node.toElement, t.start⟩ ∧
        ds = trimLayout (body b) := by
  obtain ⟨e, he, hcon, hds⟩ := exists_of_batchRule_eq_some hr
  obtain ⟨t, ht, hk, hfix⟩ := hes e he
  have hsolid : x.item.IsSolid := (h.solid.children hp.1 x.item (Element.item_mem hx)).self
  have hlive := hp.2.imp_right fun hnone => batchRule_eq_none_iff.mp hnone e he
  cases hfix with
  | @flat b hpoint hb heq =>
    subst heq
    have hne : t ≠ root.cursor := h.ne_cursor (by simp [hk])
    obtain ⟨q, hq, hqt⟩ := Cursor.Below.exists_parent ht hne.symm
    obtain rfl := (replacement_fitsAt h hq hqt hk _).owner hp.1 hx hsolid hcon hlive
    refine .inr ⟨t, b, hqt, hk, hpoint, hb, ?_⟩
    have hbounds := Range.contains_iff.mp hcon
    simp only [Edit.replacement, Cursor.target, Cursor.range_start, Cursor.range_stop,
      Placed.span_start, Placed.span_stop] at hbounds
    rcases Element.eq_or_apart hx hqt.mem_elements with rfl | hap
    · refine ⟨rfl, ?_⟩
      rw [hds, if_pos (by rfl)]
      rfl
    · have hpos : 0 < x.item.length := hsolid
      simp only [Placed.span_start, Placed.span_stop, Node.toElement, Element.length_node] at hap
      simp only [Cursor.stop, Node.length] at hbounds
      omega
  | run hleft hsweeps hop htarget =>
    obtain ⟨c, hc, hck, htarget, hccon⟩ := htarget
    obtain rfl := (hsweeps.fitsAt h ht hk (fun d hd => hd.1) hc hck htarget hccon).owner hp.1 hx
      hsolid hcon hlive
    have hchosen : ∃ c ∈ p.handlers, P c := by
      rcases hsweeps.swept _ hc.mem_elements hccon with htriv | ⟨d, hd, ⟨hdk, hPd⟩, -⟩
      · cases htriv
      · exact ⟨d, Cursor.mem_handlers.mpr ⟨hd, hdk⟩, hPd⟩
    refine .inl ⟨hk, hleft, hchosen, by simp [hds, hop, Operation.elements], ?_⟩
    rcases hsweeps.swept x hx hcon with htriv | ⟨d, hd, ⟨hdk, hPd⟩, rfl⟩
    · exact .inl htriv
    · exact .inr ⟨d, Cursor.mem_handlers.mpr ⟨hd, hdk⟩, hPd, rfl⟩

/-- **What a plan replaces** in the nodes that it keeps: trivia and chosen handlers of a guarded
block, by nothing, and a guarded block that is nothing but its body, by the body. -/
theorem IsPlan.replaced (h : root.IsShaped) (hes : IsPlan root P es) {x : Placed Element}
    {ds : List Element} (hp : (batchRule es).IsLive root p) (hx : x ∈ p.elements)
    (hr : batchRule es x = some ds) :
    (p.kind = .tryStatement ∧ ¬IsPointless P p ∧ (∃ c ∈ p.handlers, P c) ∧ ds = [] ∧
        (x.item.isTrivia = true ∨ ∃ c ∈ p.handlers, P c ∧ x = ⟨c.node.toElement, c.start⟩)) ∨
      ∃ t b, p.IsChild t ∧ t.kind = .tryStatement ∧ IsPointless P t ∧
        t.node.child? .block = some b ∧ x = ⟨t.node.toElement, t.start⟩ ∧
        ds = trimLayout (body b) :=
  replaced_of_fixes h hes.fixes hp hx hr

/-- A chosen handler is not kept. -/
theorem IsPlan.rule_handler (hes : IsPlan root P es) (hc : P c) :
    batchRule es ⟨c.node.toElement, c.start⟩ ≠ none := by
  obtain ⟨t, -, -, -, -, e, he, -, hcon⟩ := hes.covers c hc
  rw [ne_eq, batchRule_eq_none_iff]
  intro hnone
  have hnot : e.removed.contains c.range = false := hnone e he
  rw [hcon] at hnot
  cases hnot

/-- A plan has an edit that puts the body of a guarded block in the place of the whole if nothing
but the body is left. -/
lemma IsPlan.exists_flat (hes : IsPlan root P es) (hpoint : IsPointless P t) :
    ∃ b, t.node.child? .block = some b ∧
      .replacement t.target (trimLayout (body b)) ∈ es := by
  obtain ⟨c, hc⟩ := List.exists_mem_of_ne_nil _ hpoint.handlers
  obtain ⟨u, -, -, huc, -, e, he, hfix, -⟩ := hes.covers c (hpoint.chosen c hc)
  have hparent := (Cursor.mem_handlers.mp hc).1.parent?_eq
  obtain rfl : u = t := by simpa [huc.parent?_eq] using hparent
  cases hfix with
  | flat _ hb heq => exact ⟨_, hb, heq ▸ he⟩
  | run hleft => exact absurd hpoint hleft

/-- A guarded block that is nothing but its body is not kept. -/
theorem IsPlan.rule_pointless (hes : IsPlan root P es) (hpoint : IsPointless P t) :
    batchRule es ⟨t.node.toElement, t.start⟩ ≠ none := by
  obtain ⟨b, -, he⟩ := hes.exists_flat hpoint
  rw [ne_eq, batchRule_eq_none_iff]
  intro hnone
  have hnot : t.range.contains t.range = false := hnone _ he
  simp [Range.contains] at hnot

/-! ## Bodies in the place of the whole -/

/-- **No handler inside a body** that is put in the place of the whole is chosen: the edit that
removes it would overlap. -/
theorem IsPlan.not_chosen (h : root.IsShaped) (hes : IsPlan root P es)
    (hapart : ∀ e ∈ es, ∀ f ∈ es, e.overlaps f = true → e = f) (ht : root.Has t)
    (hk : t.kind = .tryStatement) (hpoint : IsPointless P t) (hd : t.IsChild d)
    (hdk : d.kind ≠ .catchClause) (hdc : d.Below c) : ¬P c := by
  intro hc
  obtain ⟨b, hb, he⟩ := hes.exists_flat hpoint
  obtain ⟨u, hu, huk, huc, hck, f, hf, hfix, hcon⟩ := hes.covers c hc
  have hne : c ≠ root.cursor := h.ne_cursor (by simp [hck])
  have hpos := h.length_pos (hu.child huc) hne
  have hin := Cursor.Below.bounds (.head hd hdc)
  have hcon := Range.contains_iff.mp hcon
  simp only [Cursor.range_start, Cursor.range_stop] at hcon
  have hover : (Edit.replacement t.target (trimLayout (body b))).overlaps f = true := by
    rw [Edit.overlaps_iff]
    simp only [Edit.replacement, Cursor.target, Cursor.range_start, Cursor.range_stop]
    omega
  obtain rfl := hapart _ he f hf hover
  have hut : u = t := by
    cases hfix with
    | flat _ _ heq => exact h.eq_of_target_eq hu ht (.inl huk) (congrArg Edit.target heq).symm
    | run _ _ hop => cases hop
  subst hut
  rcases Relation.ReflTransGen.cases_tail hdc with rfl | ⟨q, hdq, hqc⟩
  · exact hdk hck
  · obtain rfl : q = u := by simpa [hqc.parent?_eq] using huc.parent?_eq
    have := Cursor.Below.length_path_le hdq
    rw [hd.path_eq, List.length_cons] at this
    omega

end Rethrow

end TreeLint
