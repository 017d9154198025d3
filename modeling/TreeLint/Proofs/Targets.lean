import TreeLint.Proofs.FormedUnit
import TreeLint.Proofs.Locate

/-!
# Targets in the trees of texts

A target remembers a node by its kind and its range, but nodes one inside the other may have the same
range: a statement that is nothing but the creation of an object has the range of its expression and of the
creation. A node has the range of its parent only if it is the only child, so the parent begins with it.
The grammar lets few kinds of nodes begin with a node, and the kind of this node says how far that can go
on. So on the way down through nodes of one range the kinds get ever simpler, and none comes twice.

The root is an exception, since a unit may begin with a node of any kind, but no unit stands below it.

## Main definitions

* `TreeLint.Kind.frontDepth` — how many nodes, one inside the other, a node may begin with.

## Main results

* `TreeLint.Node.IsShaped.frontDepth_lt` — below a node of the same range the kinds get simpler.
* `TreeLint.eq_of_target_eq_parse` — in the tree of a text, nodes with the same target are the same.
* `TreeLint.resolve?_target_parse` — in the tree of a text, every target leads back to its node.
-/

namespace TreeLint

/-! ## Nodes at the front -/

/-- How many nodes, one inside the other, a node of a kind may begin with. -/
def Kind.frontDepth : Kind → Nat
  | expressionStatement => 2
  | expression | methodDeclaration | fieldDeclaration | propertyDeclaration => 1
  | _ => 0

/-- The first child of a node begins with fewer nodes than the node itself. -/
lemma Kind.frontDepth_lt {k l : Kind} (h : k.mayBegin l = true) : l.frontDepth < k.frontDepth := by
  unfold mayBegin at h
  split at h <;> first | decide | cases h

/-- No node below the root begins with a unit. -/
lemma Kind.ne_compilationUnit {k l : Kind} (h : k.mayBegin l = true) : l ≠ .compilationUnit := by
  unfold mayBegin at h
  split at h <;> first | decide | cases h

namespace Node.IsShaped

variable {root : Node} {a c p : Cursor}

/-- A node below the root begins with its child node if the child has the same range. -/
lemma mayBegin_kind (h : root.IsShaped) (hp : root.Has p) (hne : p ≠ root.cursor) (hc : p.IsChild c)
    (hr : p.range = c.range) : p.kind.mayBegin c.kind = true := by
  have hsolid : ∀ e ∈ c.before, 0 < e.length := fun e he =>
    (h.solid.children hp e (by rw [hc.children_eq]; simp [he])).self
  have hcs := hc.children_eq
  rw [hc.before_eq_nil hsolid (Nat.le_of_eq (Cursor.range_eq_iff.mp hr).1.symm)] at hcs
  exact ((h.shaped hp hne).begins _ _ hcs).2 _ _ rfl

/-- **Below a node of the same range** the kinds get simpler with each step.

**Proof sketch.** By induction on the steps down. All nodes between the two have the range as well, so each
of them begins with the next one. -/
theorem frontDepth_lt (h : root.IsShaped) (ha : root.Has a) (hne : a ≠ root.cursor) (hac : a.Below c)
    (hr : a.range = c.range) : a = c ∨ c.kind.frontDepth < a.kind.frontDepth := by
  induction hac with
  | refl => exact .inl rfl
  | @tail p c hap hstep ih =>
    rw [Cursor.range_eq_iff] at hr
    have hap_bounds := Cursor.Below.bounds hap
    have hpc_bounds := hstep.bounds
    have hp : p ≠ root.cursor := by
      rintro rfl
      exact hne (cursor_of_below hap)
    have hbegins := h.mayBegin_kind (ha.trans hap) hp hstep (by rw [Cursor.range_eq_iff]; omega)
    refine .inr (Nat.lt_of_lt_of_le (Kind.frontDepth_lt hbegins) ?_)
    rcases ih (by rw [Cursor.range_eq_iff]; omega) with rfl | hlt
    · exact Nat.le_refl _
    · exact Nat.le_of_lt hlt

end Node.IsShaped

/-! ## The trees of texts -/

variable {source : String} {a c d : Cursor}

/-- A node of the range of the whole text is no unit, apart from the root. -/
lemma kind_ne_of_range_eq (hc : (parse source).Has c) (hne : c ≠ (parse source).cursor)
    (hr : (parse source).cursor.range = c.range) : c.kind ≠ .compilationUnit := by
  obtain ⟨p, hp, hstep⟩ := Cursor.Below.exists_parent hc hne.symm
  by_cases hroot : p = (parse source).cursor
  · subst hroot
    intro hk
    refine isPart_of_mem_parse source hstep.mem_children c.node.children ?_
    rw [Node.toElement, show c.node.kind = .compilationUnit from hk]
  · rw [Cursor.range_eq_iff] at hr
    have hroot_bounds := Cursor.Below.bounds hp
    have hpc_bounds := hstep.bounds
    exact Kind.ne_compilationUnit ((isShaped_parse source).mayBegin_kind hp hroot hstep
      (by rw [Cursor.range_eq_iff]; omega))

/-- No node above another has the same kind and range. -/
lemma eq_of_below_parse (ha : (parse source).Has a) (hac : a.Below c) (hk : a.kind = c.kind)
    (hr : a.range = c.range) : a = c := by
  have h := isShaped_parse source
  by_cases hroot : a = (parse source).cursor
  · subst hroot
    by_contra hne
    exact kind_ne_of_range_eq hac (Ne.symm hne) hr (hk.symm.trans h.kind)
  · rcases h.frontDepth_lt ha hroot hac hr with heq | hlt
    · exact heq
    · rw [hk] at hlt
      exact absurd hlt (Nat.lt_irrefl _)

/-- In the tree of a text, only the root can be empty. -/
lemma eq_cursor_of_length_eq_zero (hc : (parse source).Has c) (h : c.node.length = 0) :
    c = (parse source).cursor := by
  by_contra hne
  exact absurd h (Nat.ne_of_gt ((isShaped_parse source).shaped hc hne).length_pos)

/-- **In the tree of a text**, nodes with the same kind and range are the same.

**Proof sketch.** If one of the two is above the other, they are the same by `eq_of_below_parse`. If they
are apart, nodes of the same range are empty, so both are the root. -/
theorem eq_of_target_eq_parse (hc : (parse source).Has c) (hd : (parse source).Has d)
    (h : c.target = d.target) : c = d := by
  have hk : c.kind = d.kind := congrArg Target.kind h
  have hr : c.range = d.range := congrArg Target.range h
  rcases Cursor.Below.comparable hc hd with hcd | hdc | hapart
  · exact eq_of_below_parse hc hcd hk hr
  · exact (eq_of_below_parse hd hdc hk.symm hr.symm).symm
  · rw [Cursor.range_eq_iff] at hr
    simp only [Cursor.stop] at hr hapart
    rw [eq_cursor_of_length_eq_zero hc (by omega), eq_cursor_of_length_eq_zero hd (by omega)]

/-- **The target of a node in the tree of a text** leads back to the node, and no other node has the same
target.

**Proof sketch.** Nothing in front of a node is empty, and by `eq_of_target_eq_parse` no node above it has
its kind and range, so `Node.Has.resolve?_target` applies. Only the root can be empty. -/
theorem resolve?_target_parse (hc : c ∈ (parse source).cursors) :
    c.target.resolve? (parse source) = some c ∧
      ∀ d ∈ (parse source).cursors, d.target = c.target → d = c := by
  rw [Node.mem_cursors] at hc
  refine ⟨?_, fun d hd h => eq_of_target_eq_parse (Node.mem_cursors.mp hd) hc h⟩
  rcases Nat.eq_zero_or_pos c.node.length with hzero | hpos
  · obtain rfl := eq_cursor_of_length_eq_zero hc hzero
    exact Node.resolve?_target_cursor _
  · have hsolid : ∀ f ∈ c.path, ∀ e ∈ f.before, 0 < e.length :=
      fun f hf e he => ((isShaped_parse source).solid.before hc f hf e he).self
    refine hc.resolve?_target hpos hsolid fun a ha hk hr => ?_
    have habove := hc.of_mem_ancestors (List.mem_of_mem_tail ha)
    exact hc.ne_of_mem_tail ha (eq_of_target_eq_parse habove hc (by rw [Cursor.target, hk, hr]; rfl))

/-- The creation of an object without anything around it: the unit, the statement, the expression and the
creation all have the range of the text, and the target of the creation leads to the creation. -/
theorem resolve?_target_creation : ∃ source c, source = "new A()" ∧ c ∈ (parse source).cursors ∧
    c.kind = .objectCreationExpression ∧ c.ancestors.map Cursor.range = List.replicate 4 c.range ∧
    c.target.resolve? (parse source) = some c := by
  obtain ⟨source, hsource⟩ : ∃ source, source = "new A()" := ⟨_, rfl⟩
  obtain ⟨c, hc, hk, hr⟩ : ∃ c ∈ (parse source).cursors, c.kind = .objectCreationExpression ∧
      c.ancestors.map Cursor.range = List.replicate 4 c.range := by
    rw [hsource]
    decide +kernel
  exact ⟨source, c, hsource, hc, hk, hr, (resolve?_target_parse hc).1⟩

end TreeLint
