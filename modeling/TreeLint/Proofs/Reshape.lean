import TreeLint.Proofs.Removal

/-!
# The shape of fixed trees

A fix takes handlers and trivia out of guarded blocks and puts the contents of a body in the place of
a guarded block. Both leave the children of every node in order, so that a fixed tree is as shaped as
the tree before it and can be analysed and fixed again.

## Main definitions

* `TreeLint.Element.substInside` — an element with a rule applied to what stands in it.

## Main results

* `TreeLint.Arranged.of_sublist` — slots bear the loss of a kind that may occur any number of times.
* `TreeLint.Rethrow.IsPlan.subst_cases` — what becomes of the children of a node that a plan keeps.
* `TreeLint.Rethrow.IsOutcome.isShaped` — a fixed tree is shaped.
-/

namespace TreeLint

/-! ## Slots -/

/-- Kinds in a row stay in order if only a kind that may occur any number of times gets lost. -/
lemma Arranged.of_sublist {slots : List (Kind × Occurs)} {κ : Kind} {ks ks' : List Kind}
    (h : Arranged slots ks) (hnodup : (slots.map Prod.fst).Nodup)
    (hany : ∀ o, (κ, o) ∈ slots → o = .anyTimes) (hsub : ks'.Sublist ks)
    (hcount : ∀ k, k ≠ κ → ks'.count k = ks.count k) : Arranged slots ks' := by
  induction slots generalizing ks ks' with
  | nil =>
    obtain rfl : ks = [] := h
    exact List.sublist_nil.mp hsub
  | cons slot slots ih =>
    obtain ⟨k, o⟩ := slot
    obtain ⟨n, rest, rfl, hn, hrest⟩ := h
    obtain ⟨front, rest', rfl, hfront, hrest'⟩ := List.sublist_append_iff.mp hsub
    obtain ⟨m, -, rfl⟩ := List.sublist_replicate_iff.mp hfront
    obtain ⟨hk, hnodup⟩ := List.nodup_cons.mp hnodup
    have hnone : rest.count k = 0 := List.count_eq_zero.mpr fun hmem => hk (hrest.mem k hmem)
    have hnone' : rest'.count k = 0 := Nat.eq_zero_of_le_zero (hnone ▸ hrest'.count_le k)
    refine ⟨m, rest', rfl, ?_, ih hrest hnodup
      (fun o ho => hany o (List.mem_cons_of_mem _ ho)) hrest' fun l hl => ?_⟩
    · by_cases hκ : k = κ
      · obtain rfl := hany o (hκ ▸ List.mem_cons_self)
        trivial
      · have hsame := hcount k hκ
        simp only [List.count_append, List.count_replicate_self, hnone, hnone'] at hsame
        obtain rfl : m = n := by omega
        exact hn
    · by_cases hlk : l = k
      · rw [hlk, hnone, hnone']
      · simpa [List.count_replicate, Ne.symm hlk] using hcount l hl

/-- Around exception handling, each kind has one slot, guarded blocks have none, and handlers may
occur any number of times if at all. -/
lemma Kind.slots?_spec {k : Kind} {slots : List (Kind × Occurs)} (h : k.slots? = some slots) :
    (slots.map Prod.fst).Nodup ∧ Kind.tryStatement ∉ slots.map Prod.fst ∧
      ∀ o, (Kind.catchClause, o) ∈ slots → o = .anyTimes := by
  unfold Kind.slots? at h
  split at h
  · obtain rfl := Option.some.inj h
    exact ⟨by decide, by decide, by simp⟩
  · obtain rfl := Option.some.inj h
    exact ⟨by decide, by decide, by simp⟩
  · obtain rfl := Option.some.inj h
    exact ⟨by decide, by decide, by simp⟩
  · cases h

/-! ## Elements that are kept -/

namespace Element

variable {rule : Rule} {start : Nat} {e : Element} {cs : List Element}

/-- An element with a rule applied to what stands in it. -/
def substInside (rule : Rule) (start : Nat) : Element → Element
  | .token t => .token t
  | .node k cs => .node k (substList rule start cs)

@[simp] lemma kind_substInside (e : Element) : (e.substInside rule start).kind = e.kind := by
  cases e <;> rfl

@[simp] lemma isTrivia_substInside (e : Element) :
    (e.substInside rule start).isTrivia = e.isTrivia := by
  cases e <;> rfl

/-- An element that a rule does not replace is kept, with the substitution inside it. -/
lemma subst_of_none (h : rule ⟨e, start⟩ = none) :
    e.subst rule start = [e.substInside rule start] := by
  cases e with
  | token t => exact subst_token_of_none h
  | node k cs => exact subst_node_of_none h

/-- What may begin a node may begin it after a substitution inside. -/
lemma MayStart.substInside {k : Kind} (h : e.MayStart k) : (e.substInside rule start).MayStart k := by
  refine ⟨(isTrivia_substInside e).trans h.1, fun l ds heq => ?_⟩
  cases e with
  | token t => cases heq
  | node l' ds' =>
    obtain ⟨rfl, -⟩ := Element.node.inj heq
    exact h.2 _ _ rfl

/-- What stands in consecutive elements after a substitution stands in the place of one of them. -/
lemma mem_substList {d : Element} :
    d ∈ substList rule start cs ↔ ∃ x ∈ place start cs, d ∈ x.item.subst rule x.start := by
  rw [substList_flatMap, List.mem_flatMap]

/-- If a rule takes out trivia and elements of one kind only, the other kinds are left as often as
they were. -/
lemma kinds_substList {κ : Kind} (h : ∀ x ∈ place start cs, rule x = none ∨
      x.item.subst rule x.start = [] ∧ (x.item.isTrivia = true ∨ x.item.kind = κ)) :
    (kinds (substList rule start cs)).Sublist (kinds cs) ∧
      ∀ k, k ≠ κ → (kinds (substList rule start cs)).count k = (kinds cs).count k := by
  induction cs generalizing start with
  | nil => exact ⟨.slnil, fun _ _ => rfl⟩
  | cons e cs ih =>
    obtain ⟨hsub, hcount⟩ := ih fun x hx => h x (List.mem_cons_of_mem _ hx)
    have hkinds : kinds (e :: cs) = kinds [e] ++ kinds cs := kinds_append [e] cs
    rw [substList_cons, kinds_append, hkinds]
    suffices hhead : (kinds (e.subst rule start)).Sublist (kinds [e]) ∧
        ∀ k, k ≠ κ → (kinds (e.subst rule start)).count k = (kinds [e]).count k by
      refine ⟨hhead.1.append hsub, fun k hk => ?_⟩
      rw [List.count_append, List.count_append, hhead.2 k hk, hcount k hk]
    rcases h ⟨e, start⟩ List.mem_cons_self with hnone | ⟨hnil, hgone⟩
    · have hsame : kinds [e.substInside rule start] = kinds [e] := by
        simp only [kinds, List.filter_cons, isTrivia_substInside]
        split <;> simp
      rw [subst_of_none hnone, hsame]
      exact ⟨.refl _, fun _ _ => rfl⟩
    · refine ⟨by rw [hnil]; exact List.nil_sublist _, fun k hk => ?_⟩
      rw [hnil, kinds_nil, List.count_nil, eq_comm, List.count_eq_zero]
      intro hmem
      obtain ⟨d, hd, rfl⟩ := List.mem_map.mp hmem
      obtain ⟨hd, htriv⟩ := List.mem_filter.mp hd
      obtain rfl := List.mem_singleton.mp hd
      rcases hgone with hgone | hgone
      · simp [hgone] at htriv
      · exact hk hgone

end Element

namespace Rethrow

variable {root tree : Node} {P : Cursor → Prop} {es : List Edit} {c p t : Cursor} {b : Node}
  {x : Placed Element}

/-! ## What stands in a body -/

/-- Trimming adds nothing. -/
lemma mem_of_mem_trimLayout {ds : List Element} {e : Element} (he : e ∈ trimLayout ds) : e ∈ ds := by
  obtain ⟨xs, ys, heq, -⟩ := exists_trimLayout ds
  rw [heq]
  exact List.mem_append_left _ (List.mem_append_right _ he)

/-- What stands in the body of a guarded block with handlers is shaped; it is neither a brace nor a
handler nor a clause that runs in any case. -/
lemma all_of_mem_body (h : root.IsShaped) (ht : root.Has t) (hk : t.kind = .tryStatement)
    (hne : t.handlers ≠ []) (hb : t.node.child? .block = some b) {e : Element} (he : e ∈ body b) :
    e.All Element.IsShaped ∧ e.IsFree ∧ e.kind ≠ .lBrace ∧ e.kind ≠ .rBrace := by
  obtain ⟨l, inner, r, hcs, hl, hr, hinner⟩ := h.exists_braces ht hk hne hb
  rw [body_eq hcs hl hr hinner] at he
  obtain ⟨d, hd, rfl, hdk⟩ := Cursor.exists_of_child? hb
  have hmem : e ∈ d.node.children := by rw [hcs]; simp [he]
  have hdne : d ≠ root.cursor := h.ne_cursor (by rw [Cursor.kind, hdk]; decide)
  exact ⟨h.all.children (ht.child hd) e hmem,
    (h.shaped (ht.child hd) hdne).free (by rw [Cursor.kind, hdk]; decide) e hmem, hinner e he⟩

/-! ## Children of kept nodes -/

/-- **What becomes of a child** of a node that a plan keeps: it is kept, or it is taken out of a
guarded block, as trivia or as a handler, or it is a guarded block that gives way to its body. -/
theorem IsPlan.subst_cases (h : root.IsShaped) (hes : IsPlan root P es)
    (hp : (batchRule es).IsLive root p) (hx : x ∈ p.elements) :
    batchRule es x = none ∨
      (p.kind = .tryStatement ∧ x.item.subst (batchRule es) x.start = [] ∧
        (x.item.isTrivia = true ∨ x.item.kind = .catchClause)) ∨
      ∃ t b, p.IsChild t ∧ t.kind = .tryStatement ∧ IsPointless P t ∧
        t.node.child? .block = some b ∧ x = ⟨t.node.toElement, t.start⟩ ∧
        x.item.subst (batchRule es) x.start = trimLayout (body b) := by
  cases hr : batchRule es x with
  | none => exact .inl rfl
  | some ds =>
    have hsubst : x.item.subst (batchRule es) x.start = ds := Element.subst_of_some hr
    rw [hsubst]
    rcases hes.replaced h hp hx hr with ⟨hk, -, -, hds, hgone⟩ | ⟨t, b, hpt, hk, hpoint, hb, hxt, hds⟩
    · refine .inr (.inl ⟨hk, hds, hgone.imp_right ?_⟩)
      rintro ⟨c, hc, -, rfl⟩
      exact (Cursor.mem_handlers.mp hc).2
    · exact .inr (.inr ⟨t, b, hpt, hk, hpoint, hb, hxt, hds⟩)

/-- The tokens of a node that a plan keeps are kept, unless the node is a guarded block. -/
lemma IsPlan.rule_token (h : root.IsShaped) (hes : IsPlan root P es)
    (hp : (batchRule es).IsLive root p) (hk : p.kind ≠ .tryStatement) {u : Token} {start : Nat}
    (hx : ⟨.token u, start⟩ ∈ p.elements) : batchRule es ⟨.token u, start⟩ = none := by
  rcases hes.subst_cases h hp hx with hnone | ⟨hpk, -⟩ | ⟨t, -, -, -, -, -, heq, -⟩
  · exact hnone
  · exact absurd hpk hk
  · cases congrArg Placed.item heq

/-- A kind that neither a child of a kept node has nor anything in a body is not among the kinds of
what stands in the place of the children. -/
lemma IsPlan.forall_mem_substList (h : root.IsShaped) (hes : IsPlan root P es)
    (hp : (batchRule es).IsLive root p) {Q : Kind → Prop} {xs cs ys : List Element}
    (hcs : p.node.children = xs ++ cs ++ ys) (hQ : ∀ e ∈ cs, Q e.kind)
    (hbody : ∀ t b, p.IsChild t → t.kind = .tryStatement → t.handlers ≠ [] →
      t.node.child? .block = some b → ∀ e ∈ body b, Q e.kind) :
    ∀ e ∈ Element.substList (batchRule es) (p.start + Element.lengthList xs) cs, Q e.kind := by
  intro e he
  obtain ⟨x, hx, he⟩ := Element.mem_substList.mp he
  have hxp : x ∈ p.elements := by
    rw [Cursor.elements, hcs, Element.place_append, Element.place_append]
    exact List.mem_append_left _ (List.mem_append_right _ hx)
  rcases hes.subst_cases h hp hxp with hnone | ⟨-, hnil, -⟩ | ⟨t, b, hpt, hk, hpoint, hb, -, heq⟩
  · rw [Element.subst_of_none hnone, List.mem_singleton] at he
    rw [he, Element.kind_substInside]
    exact hQ _ (Element.item_mem hx)
  · rw [hnil] at he
    cases he
  · rw [heq] at he
    exact hbody t b hpt hk hpoint.handlers hb e (mem_of_mem_trimLayout he)

/-- The edits of a plan keep the first child of every node that they keep. -/
lemma IsPlan.keeps (h : root.IsShaped) (hes : IsPlan root P es) : (batchRule es).Keeps root := by
  have hspec := spec_of_fixes h hes.fixes
  exact batchRule_keeps h.solid (fun e he => (hspec e he).1) fun e he => (hspec e he).2.1

/-! ## Nodes that are kept -/

/-- The children around exception handling stay in order. -/
lemma IsPlan.arranged (h : root.IsShaped) (hes : IsPlan root P es)
    (hc : (batchRule es).IsLive root c) (hne : c ≠ root.cursor) {slots : List (Kind × Occurs)}
    (hslots : c.kind.slots? = some slots) :
    Arranged slots (Element.kinds (Element.substList (batchRule es) c.start c.node.children)) := by
  obtain ⟨hnodup, htry, hany⟩ := Kind.slots?_spec hslots
  have harranged := (h.shaped hc.1 hne).slots slots hslots
  have hkept : ∀ x ∈ Element.place c.start c.node.children, batchRule es x = none ∨
      x.item.subst (batchRule es) x.start = [] ∧
        (x.item.isTrivia = true ∨ x.item.kind = .catchClause) := by
    intro x hx
    rcases hes.subst_cases h hc hx with hnone | ⟨-, hnil, hgone⟩ | ⟨t, b, hct, hk, -⟩
    · exact .inl hnone
    · exact .inr ⟨hnil, hgone⟩
    · -- no slot is for a guarded block
      have hkind := harranged.mem _ (Element.mem_kinds hct.mem_children rfl)
      rw [show t.node.toElement.kind = .tryStatement from hk] at hkind
      exact absurd hkind htry
  obtain ⟨hsub, hcount⟩ := Element.kinds_substList hkept
  exact harranged.of_sublist hnodup hany hsub hcount

/-- A block stays between its braces. -/
lemma IsPlan.isBraced (h : root.IsShaped) (hes : IsPlan root P es)
    (hc : (batchRule es).IsLive root c) (hk : c.kind = .block)
    (hbraced : Element.IsBraced c.node.children) :
    Element.IsBraced (Element.substList (batchRule es) c.start c.node.children) := by
  obtain ⟨l, inner, tail, hcs, hl, hinner, htail⟩ := hbraced
  have htoken : ∀ xs u ys, c.node.children = xs ++ [.token u] ++ ys →
      (Element.token u).subst (batchRule es) (c.start + Element.lengthList xs) = [.token u] := by
    intro xs u ys heq
    refine Element.subst_token_of_none (hes.rule_token h hc (by simp [hk]) ?_)
    exact Element.mem_place.mpr ⟨xs, ys, by simp [heq], rfl⟩
  have hl' := htoken [] l (inner ++ tail) hcs
  have hsplit : c.node.children = [.token l] ++ inner ++ tail := by simp [hcs]
  have hinner' := hes.forall_mem_substList h hc hsplit (Q := fun k => k ≠ .lBrace ∧ k ≠ .rBrace)
    hinner fun t b hct htk hne hb e he =>
      (all_of_mem_body h (hc.1.child hct) htk hne hb he).2.2
  refine ⟨l, Element.substList (batchRule es) (c.start + Element.lengthList [.token l]) inner, tail,
    ?_, hl, hinner', htail⟩
  rw [hcs, Element.substList_cons, Element.substList_append]
  simp only [Element.lengthList_cons, Element.lengthList_nil, Nat.add_zero] at hl' ⊢
  rw [hl']
  rcases htail with rfl | ⟨r, -, rfl⟩
  · simp
  · have hr' := htoken (.token l :: inner) r [] (by simp [hcs])
    have hlen : (Element.token l).length = l.length := rfl
    simp only [Element.lengthList_cons, ← Nat.add_assoc, hlen] at hr'
    simp [hr']

/-- The body of a guarded block that still has handlers stays complete. -/
lemma IsPlan.isClosed (h : root.IsShaped) (hes : IsPlan root P es)
    (hc : (batchRule es).IsLive root c) (hk : c.kind = .tryStatement)
    (hleft : ∃ e ∈ Element.substList (batchRule es) c.start c.node.children,
      e.kind = .catchClause) :
    ∀ e ∈ Element.substList (batchRule es) c.start c.node.children, e.kind = .block →
      e.IsClosed := by
  have hkept : ∀ e ∈ Element.substList (batchRule es) c.start c.node.children, ∃ x ∈ c.elements,
      batchRule es x = none ∧ e = x.item.substInside (batchRule es) x.start := by
    intro e he
    obtain ⟨x, hx, he⟩ := Element.mem_substList.mp he
    rcases hes.subst_cases h hc hx with hnone | ⟨-, hnil, -⟩ | ⟨t, b, hct, htk, -⟩
    · rw [Element.subst_of_none hnone, List.mem_singleton] at he
      exact ⟨x, hx, hnone, he⟩
    · rw [hnil] at he
      cases he
    · exact absurd htk (kind_ne_of_mem_try h hc.1 hk hct.mem_children)
  obtain ⟨d, hd, hdk⟩ := hleft
  obtain ⟨y, hy, -, rfl⟩ := hkept d hd
  rw [Element.kind_substInside] at hdk
  intro e he hek
  obtain ⟨⟨item, start⟩, hx, hnone, rfl⟩ := hkept e he
  rw [Element.kind_substInside] at hek
  obtain ⟨k, cs, u, rfl, hu⟩ := (h.shaped hc.1 (h.ne_cursor (by simp [hk]))).closed hk
    ⟨y.item, Element.item_mem hy, hdk⟩ item (Element.item_mem hx) hek
  obtain ⟨f, hf, hfnode, rfl⟩ := Cursor.isChild_of_mem_elements hx
  have hflive : (batchRule es).IsLive root f := by
    refine hc.child hf ?_
    rw [hfnode]
    exact hnone
  have hfk : f.kind ≠ .tryStatement := by
    have hblock : k = .block := hek
    simp [Cursor.kind, hfnode, hblock]
  have hmem : ⟨.token u, f.start + Element.lengthList cs⟩ ∈ f.elements :=
    Element.mem_place.mpr ⟨cs, [], by simp [hfnode], rfl⟩
  have htoken := hes.rule_token h hflive hfk hmem
  refine ⟨k, Element.substList (batchRule es) f.start cs, u, ?_, hu⟩
  simp [Element.substInside, Element.substList_append, Element.subst_token_of_none htoken]

/-- A node that a plan keeps stays as it should be if what stands in the place of its children is
shaped. -/
theorem IsPlan.shaped (h : root.IsShaped) (hes : IsPlan root P es)
    (hc : (batchRule es).IsLive root c) (hne : c ≠ root.cursor)
    (hnone : batchRule es ⟨c.node.toElement, c.start⟩ = none)
    (hall : ∀ e ∈ Element.substList (batchRule es) c.start c.node.children,
      e.All Element.IsShaped) :
    Shaped c.kind (Element.substList (batchRule es) c.start c.node.children) := by
  have hshaped := h.shaped hc.1 hne
  obtain ⟨d, ds, hcs⟩ : ∃ d ds, c.node.children = d :: ds := by
    refine List.exists_cons_of_ne_nil fun hnil => ?_
    have hpos := hshaped.length_pos
    rw [hnil] at hpos
    exact Nat.lt_irrefl 0 hpos
  have hfirst : Element.substList (batchRule es) c.start c.node.children =
      d.substInside (batchRule es) c.start ::
        Element.substList (batchRule es) (c.start + d.length) ds := by
    rw [hcs, Element.substList_cons,
      Element.subst_of_none ((hes.keeps h).head c hc.1 hne hnone d ds hcs)]
    rfl
  have hchildren : c.node.children = [] ++ c.node.children ++ [] := by simp
  exact {
    kind := hshaped.kind
    length_pos := by
      have hsolid : (d.substInside (batchRule es) c.start).IsSolid :=
        (hall _ (by simp [hfirst])).self.isSolid
      have hpos : 0 < (d.substInside (batchRule es) c.start).length := hsolid
      rw [hfirst, Element.lengthList_cons]
      omega
    begins := by
      intro e es' heq
      obtain ⟨rfl, -⟩ := List.cons.inj (hfirst.symm.trans heq)
      exact (hshaped.begins d ds hcs).substInside
    slots := fun slots hslots => hes.arranged h hc hne hslots
    free := fun hk => hes.forall_mem_substList h hc hchildren
      (Q := fun k => k ≠ .catchClause ∧ k ≠ .finallyClause) (hshaped.free hk)
      fun t b hct htk hne hb e he => (all_of_mem_body h (hc.1.child hct) htk hne hb he).2.1
    braced := fun hk => hes.isBraced h hc hk (hshaped.braced hk)
    closed := fun hk hleft => hes.isClosed h hc hk hleft }

/-! ## The fixed tree -/

/-- **A fixed tree is shaped.**

**Proof sketch.** Down along the nodes that the plan keeps: what replaces a guarded block comes out of
a body of the tree before, and a node that is kept keeps its first child and the order of its
children (`IsPlan.shaped`). -/
theorem IsOutcome.isShaped (h : root.IsShaped) (hout : IsOutcome root P tree) : tree.IsShaped := by
  obtain ⟨hes, -, rfl⟩ := hout
  rename_i es
  have hroot := (batchRule es).isLive_cursor root
  have key : ∀ p x, (batchRule es).IsLive root p → x ∈ p.elements →
      ∀ e ∈ x.item.subst (batchRule es) x.start, e.All Element.IsShaped := by
    intro p x hp hx
    refine Rule.subst_induction (motive := fun _ _ ds => ∀ e ∈ ds, e.All Element.IsShaped) ?_ ?_ ?_
      hp hx
    · intro p x ds hp hx hr e he
      rcases hes.replaced h hp hx hr with ⟨-, -, -, rfl, -⟩ | ⟨t, b, hpt, hk, hpoint, hb, -, rfl⟩
      · cases he
      · exact (all_of_mem_body h (hp.1.child hpt) hk hpoint.handlers hb
          (mem_of_mem_trimLayout he)).1
    · intro p u start hp hx _ e he
      rw [List.mem_singleton.mp he]
      exact h.all.children hp.1 _ (Element.item_mem hx)
    · intro p c hp hpc hnone ih e he
      obtain rfl := List.mem_singleton.mp he
      have hne : c ≠ root.cursor := by
        rintro rfl
        simpa [Node.cursor] using hpc.path_eq
      have hall : ∀ e ∈ Element.substList (batchRule es) c.start c.node.children,
          e.All Element.IsShaped := by
        intro e he
        obtain ⟨y, hy, he⟩ := Element.mem_substList.mp he
        exact ih y hy e he
      exact .node (hes.shaped h (hp.child hpc hnone) hne hnone hall) hall
  have hchildren : root.cursor.node.children = [] ++ root.children ++ [] := by simp [Node.cursor]
  exact {
    kind := h.kind
    free := hes.forall_mem_substList h hroot hchildren
      (Q := fun k => k ≠ .catchClause ∧ k ≠ .finallyClause) h.free
      fun t b hct htk hne hb e he =>
        (all_of_mem_body h (root.has_cursor.child hct) htk hne hb he).2.1
    all := by
      intro e he
      obtain ⟨x, hx, he⟩ := Element.mem_substList.mp he
      exact key root.cursor x hroot hx e he }

end Rethrow

end TreeLint
