import TreeLint.Proofs.Crowding
import TreeLint.Proofs.Plan

/-!
# Trivia behind the last handler that is left

When the last handlers of a guarded block are removed, the handler that is left before them becomes
the last thing in the block, unless some of the trivia that belong to it stay behind it. The removal of
the handlers takes blanks and line ends before them along if it is a single edit; it never takes a
comment that belongs to the handler before.

## Main definitions

* `TreeLint.Rethrow.isWide` — handlers whose removal takes the blanks and line ends before them along.
* `TreeLint.Rethrow.IsTail` — chosen handlers at the end of a guarded block.
* `TreeLint.Rethrow.IsFrayed` — a guarded block that is left with trivia at its end.

## Main results

* `TreeLint.Rethrow.IsTail.mergeRemovals` — where the removal of the last handlers begins.
* `TreeLint.Rethrow.IsTail.stop_lt_runStart_iff` — when this is not directly behind the handler that
  is left.
-/

namespace TreeLint.Rethrow

variable {root : Node} {c d t x z : Cursor} {cs front more run : List Cursor} {removals : List Edit}

/-- A run of handlers up to the last one is removed with the blanks and line ends before it: it is the
last handler alone, or the last two with blanks or line ends before the last. -/
def isWide : List Cursor → Bool
  | [_] => true
  | [_, z] => !(layoutBefore z).isEmpty
  | _ => false

/-- Where the removal of a run of handlers up to the last one begins, by its first handler and the
others. -/
def runStart (d : Cursor) (more : List Cursor) : Nat :=
  if isWide (d :: more) then reach d else d.rangeWithTrivia.start

/-- Chosen handlers at the end of a guarded block without a clause that runs in any case, behind a
handler that is not chosen. -/
structure IsTail (P : Cursor → Prop) (t c : Cursor) (front run : List Cursor) : Prop where
  /-- No clause runs in any case. -/
  hasFinally : t.node.hasFinally = false
  /-- The handler and those behind it. -/
  handlers : t.handlers = front ++ c :: run
  /-- There is a handler behind it. -/
  ne_nil : run ≠ []
  /-- The handler is not chosen. -/
  left : ¬P c
  /-- Those behind it are chosen. -/
  chosen : ∀ d ∈ run, P d

/-- A guarded block whose last handlers are chosen, while some of the trivia that belong to the handler
before them stay. If the removal takes blanks and line ends along, these are comments. -/
def IsFrayed (P : Cursor → Prop) (t : Cursor) : Prop :=
  ∃ c front run, IsTail P t c front run ∧
    ∃ u ∈ c.trailingTrivia, isWide run = true → u.kind.isLayout = false

/-- The removal of a run of handlers begins between the blanks and line ends before the trivia of the
first handler and these trivia. -/
lemma runStart_le (d : Cursor) (more : List Cursor) :
    reach d ≤ runStart d more ∧ runStart d more ≤ d.rangeWithTrivia.start := by
  have := reach_le d
  unfold runStart
  split <;> omega

/-- What stands behind the beginning of handlers up to the last one, with their trivia, belongs to one
of them. -/
lemma exists_rangeWithTrivia (h : root.IsShaped) (ht : root.Has t) (hk : t.kind = .tryStatement)
    (hend : ∀ z ∈ t.handlers.getLast?, z.after = []) {x : Placed Element} (hx : x ∈ t.elements)
    {front run : List Cursor} (hs : t.handlers = front ++ d :: run)
    (hstart : d.rangeWithTrivia.start ≤ x.start) :
    ∃ w ∈ d :: run, w.rangeWithTrivia.contains x.span = true := by
  induction run generalizing front d with
  | nil =>
    obtain ⟨hd, -⟩ := Cursor.mem_handlers.mp (show d ∈ t.handlers by rw [hs]; simp)
    have hafter := hend d (by rw [hs]; simp)
    have hstop := hd.stop_eq
    have hle := (Cursor.mem_elements_bounds hx).2
    have hd := (rangeWithTrivia_bounds d).2
    rw [hafter] at hstop
    refine ⟨d, List.mem_cons_self, Range.contains_iff.mpr ⟨hstart, ?_⟩⟩
    simp only [Element.lengthList_nil] at hstop
    rw [Placed.span_stop]
    omega
  | cons w run ih =>
    have hchain := (isChain_touch h ht hk).suffix ⟨front, hs.symm⟩
    have htouch := (List.isChain_cons_cons.mp hchain).1.2
    obtain ⟨hd, -⟩ := Cursor.mem_handlers.mp (show d ∈ t.handlers by rw [hs]; simp)
    obtain ⟨rest, hafter⟩ := d.exists_after_eq
    have hbound := hd.isBoundary_after hafter
    rw [← Cursor.rangeWithTrivia_stop] at hbound
    rcases hbound.apart hx with hle | hle
    · exact ⟨d, List.mem_cons_self, Range.contains_iff.mpr ⟨hstart, hle⟩⟩
    · have hbehind : t.handlers = (front ++ [d]) ++ w :: run := by simp [hs]
      obtain ⟨y, hy, hcon⟩ := ih hbehind (htouch ▸ hle)
      exact ⟨y, List.mem_cons_of_mem _ hy, hcon⟩

/-- The blanks and line ends before the trivia of a handler belong to its neighbour. -/
lemma layoutBefore_eq {gap : List Token} (hn : c.IsNext d gap) (hk : c.kind = .catchClause) :
    layoutBefore d = ((c.trailingTrivia.map .token).reverse).takeWhile Element.isLayout := by
  have hgap : (gap.map Element.token).reverse =
      (d.leadingTrivia.map .token).reverse ++ (c.trailingTrivia.map .token).reverse := by
    rw [hn.leadingTrivia_eq, hn.trailingTrivia_eq, ← List.reverse_append, ← List.map_append,
      throughNewline_append_behindNewline]
  have hnode : c.node.toElement.isLayout = false := by
    change c.kind.isLayout = false
    rw [hk]
    rfl
  rw [layoutBefore, hn.before, hgap, List.append_assoc, List.drop_left' (by simp),
    List.takeWhile_append, List.takeWhile_cons_of_neg (by simp [hnode]), List.append_nil]
  split
  · rename_i hlen
    exact ((List.takeWhile_prefix _).eq_of_length hlen).symm
  · rfl

/-- If the last handler has a run of its own, it is the only one chosen at the end, or the removal is
not wide. -/
lemma first_of_apart (h : root.IsShaped) (ht : root.Has t) (hk : t.kind = .tryStatement)
    {mid : List Cursor} (hmid : d :: more = mid ++ [z]) (hhs : t.handlers = front ++ d :: more)
    (hlast : isLast z = true) (hapart : ∀ y ∈ mid, (removal y).overlaps (removal z) = false) :
    (isWide (d :: more) = true ∧ z = d) ∨ (isWide (d :: more) = false ∧ d ∈ mid ∧ z ∈ more) := by
  cases mid with
  | nil =>
    obtain ⟨rfl, rfl⟩ := List.cons.inj hmid
    exact .inl ⟨rfl, rfl⟩
  | cons d' mid =>
    obtain ⟨rfl, rfl⟩ := List.cons.inj hmid
    refine .inr ⟨?_, by simp, by simp⟩
    cases mid with
    | nil =>
      have hnot := hapart d (by simp)
      rw [Bool.eq_false_iff, ne_eq,
        overlaps_last_iff h ht hk (show t.handlers = front ++ d :: ([] ++ [z]) from hhs) hlast] at hnot
      simpa [isWide] using hnot
    | cons y mid => cases mid <;> rfl

/-- If the last handler shares its run with the one before it, these two are the only ones chosen at the
end, or the removal is not wide. -/
lemma first_of_overlaps (h : root.IsShaped) (ht : root.Has t) (hk : t.kind = .tryStatement)
    {mid : List Cursor} (hmid : d :: more = mid ++ [x, z]) (hhs : t.handlers = front ++ d :: more)
    (hlast : isLast z = true) (hover : (removal x).overlaps (removal z) = true) :
    (isWide (d :: more) = true ∧ x = d) ∨ (isWide (d :: more) = false ∧ d ∈ mid ∧ x ∈ more) := by
  cases mid with
  | nil =>
    obtain ⟨rfl, rfl⟩ := List.cons.inj hmid
    have hlayout := ((overlaps_last_iff h ht hk
      (show t.handlers = front ++ d :: ([] ++ [z]) from hhs) hlast).mp hover).2
    exact .inl ⟨by simpa [isWide] using hlayout, rfl⟩
  | cons d' mid =>
    obtain ⟨rfl, rfl⟩ := List.cons.inj hmid
    refine .inr ⟨?_, by simp, by simp⟩
    rcases mid with _ | ⟨w, _ | ⟨w', mid⟩⟩ <;> rfl

namespace IsTail

/-- A guarded block ends with chosen handlers in one way at most. -/
lemma unique {P : Cursor → Prop} {c' : Cursor} {front' run' : List Cursor}
    (h : IsTail P t c front run) (h' : IsTail P t c' front' run') : c = c' ∧ run = run' := by
  have heq := h.handlers.symm.trans h'.handlers
  rcases List.append_eq_append_iff.mp heq with ⟨as, rfl, has⟩ | ⟨as, rfl, has⟩
  · cases as with
    | nil => exact List.cons.inj has
    | cons a as =>
      obtain ⟨-, rfl⟩ := List.cons.inj has
      exact absurd (h.chosen c' (by simp)) h'.left
  · cases as with
    | nil => exact (List.cons.inj has).imp Eq.symm Eq.symm
    | cons a as =>
      obtain ⟨-, rfl⟩ := List.cons.inj has
      exact absurd (h'.chosen c (by simp)) h.left

/-- Of a guarded block with such handlers at its end, trivia stay behind if some of those of the handler
before them are not taken along. -/
lemma isFrayed_iff {P : Cursor → Prop} (htail : IsTail P t c front run) :
    IsFrayed P t ↔ ∃ u ∈ c.trailingTrivia, isWide run = true → u.kind.isLayout = false := by
  constructor
  · rintro ⟨c', front', run', htail', hleft⟩
    obtain ⟨rfl, rfl⟩ := htail.unique htail'
    exact hleft
  · exact fun hleft => ⟨c, front, run, htail, hleft⟩

/-- The chosen handlers are those chosen before the last that is not, and the run behind it. -/
lemma filter_handlers {P : Cursor → Bool} (htail : IsTail (fun c => P c = true) t c front run) :
    t.handlers.filter P = front.filter P ++ run := by
  have hrun : run.filter P = run := List.filter_eq_self.mpr htail.chosen
  rw [htail.handlers, List.filter_append, List.filter_cons_of_neg htail.left, hrun]

/-- The first handler of the run that holds the last one is the first chosen one at the end if the
removal is wide, and one behind it otherwise. -/
lemma exists_run (h : root.IsShaped) (ht : root.Has t) (hk : t.kind = .tryStatement)
    {P : Cursor → Bool} (htail : IsTail (fun c => P c = true) t c front (d :: more))
    (hperm : removals.Perm ((t.handlers.filter P).map removal)) :
    ∃ hs z, ∃ xs : List Cursor, ∃ x e, t.handlers = hs ++ [z] ∧
      Rethrow.mergeRemovals t removals = xs.map removal ++ [e] ∧ xs ⊆ hs ∧
      (∀ w ∈ xs, P w = true) ∧ e.removed.start = reach x ∧
      e.removed.stop = z.rangeWithTrivia.stop ∧
      ((isWide (d :: more) = true ∧ x = d) ∨
        (isWide (d :: more) = false ∧ d ∈ xs ∧ x ∈ more)) := by
  have hfilter := htail.filter_handlers
  obtain ⟨mid, z, hmid⟩ : ∃ mid z, d :: more = mid ++ [z] := by
    rcases List.eq_nil_or_concat (d :: more) with hnil | ⟨mid, z, hmid⟩
    · cases hnil
    · exact ⟨mid, z, by simpa using hmid⟩
  have hhs : t.handlers = (front ++ c :: mid) ++ [z] := by simp [htail.handlers, hmid]
  have hsplit : t.handlers = (front ++ [c]) ++ d :: more := by simp [htail.handlers]
  have hPz : P z = true := htail.chosen z (by simp [hmid])
  have hlast : isLast z = true := by simp [isLast_eq h ht hk hhs, htail.hasFinally]
  obtain ⟨xs, x, rest, e, hxs, hsub, hmerged, hstart, hstop, hcase⟩ :=
    exists_mergeRemovals h ht hk hperm hhs hlast htail.hasFinally hPz
  refine ⟨_, z, xs, x, e, hhs, hmerged, hsub.subset, fun w hw => ?_, hstart, hstop, ?_⟩
  · exact (List.mem_filter.mp (show w ∈ t.handlers.filter P by rw [hxs]; simp [hw])).2
  rw [hfilter, hmid] at hxs
  rcases hcase with ⟨rfl, rfl, hapart⟩ | ⟨rfl, hover⟩
  · obtain ⟨rfl, -⟩ := List.append_inj' ((List.append_assoc ..).trans hxs) rfl
    refine (first_of_apart h ht hk hmid hsplit hlast fun y hy => hapart y ?_).imp_right ?_
    · exact List.mem_append_right _ hy
    · exact fun hnot => ⟨hnot.1, List.mem_append_right _ hnot.2.1, hnot.2.2⟩
  · have hinit : front.filter P ++ mid = xs ++ [x] := by
      have hlast : (front.filter P ++ mid) ++ [z] = (xs ++ [x]) ++ [z] := by simpa using hxs
      exact (List.append_inj' hlast rfl).1
    rcases List.eq_nil_or_concat mid with rfl | ⟨mid', y, rfl⟩
    · -- then the handler before the last one would be the one that is not chosen
      have hx : x ∈ front := by
        have hmem : x ∈ front.filter P := by rw [← List.append_nil (front.filter P), hinit]; simp
        exact (List.mem_filter.mp hmem).1
      obtain ⟨first, between, rfl⟩ := List.append_of_mem hx
      have hbetween : t.handlers = first ++ x :: ((between ++ [c]) ++ [z]) := by simp [hhs]
      have hnil := ((overlaps_last_iff h ht hk hbetween hlast).mp hover).1
      simp at hnil
    · rw [List.concat_eq_append, ← List.append_assoc] at hinit
      obtain ⟨rfl, hyx⟩ := List.append_inj' hinit rfl
      obtain rfl := (List.cons.inj hyx).1
      have hpair : d :: more = mid' ++ [y, z] := by simpa using hmid
      refine (first_of_overlaps h ht hk hpair hsplit hlast hover).imp_right fun hnot => ?_
      exact ⟨hnot.1, List.mem_append_right _ hnot.2.1, hnot.2.2⟩

/-- **Where the removal of the last handlers begins**: the edits before it end in front of the handler
that is left, and the edit that begins there, if it takes blanks and line ends along, reaches to the
end. -/
theorem mergeRemovals (h : root.IsShaped) (ht : root.Has t) (hk : t.kind = .tryStatement)
    {P : Cursor → Bool} (htail : IsTail (fun c => P c = true) t c front (d :: more))
    (hperm : removals.Perm ((t.handlers.filter P).map removal)) :
    (∀ e ∈ Rethrow.mergeRemovals t removals,
      e.removed.stop ≤ c.start ∨ runStart d more ≤ e.removed.start) ∧
    ∀ z ∈ t.handlers.getLast?, isWide (d :: more) = true →
      ∃ e ∈ Rethrow.mergeRemovals t removals, e.removed.start = runStart d more ∧
        e.removed.stop = z.rangeWithTrivia.stop := by
  obtain ⟨hs, z, xs, x, e, hhs, hmerged, hsub, hchosen, hstart, hstop, hcase⟩ :=
    exists_run h ht hk htail hperm
  have hpair := htail.handlers ▸ pairwise_precedes h ht hk
  obtain ⟨-, hrest, hfront⟩ := List.pairwise_append.mp hpair
  have hmore := (List.pairwise_cons.mp (List.pairwise_cons.mp hrest).2).1
  have hd := rangeWithTrivia_bounds d
  have hdle := d.start_le_stop
  obtain ⟨hreach, hle⟩ := runStart_le d more
  -- what lies behind the first handler of the tail begins behind it
  have hbehind : ∀ w ∈ more, runStart d more ≤ reach w := by
    intro w hw
    have := (hmore w hw).2
    omega
  refine ⟨fun f hf => ?_, fun z' hz' hwide => ?_⟩
  · rw [hmerged, List.mem_append, List.mem_singleton] at hf
    rcases hf with hf | rfl
    · obtain ⟨w, hw, rfl⟩ := List.mem_map.mp hf
      have hwlast := (before_last h ht hk hhs w (hsub hw)).1
      have hmem : w ∈ front ++ c :: d :: more := by
        rw [← htail.handlers, hhs]
        exact List.mem_append_left _ (hsub hw)
      simp only [List.mem_append, List.mem_cons] at hmem
      rcases hmem with hmem | rfl | rfl | hmem
      · left
        have := (hfront w hmem c List.mem_cons_self).1
        have := rangeWithTrivia_bounds c
        rw [(removal_bounds w).2.2]
        omega
      · exact absurd (hchosen w hw) htail.left
      · right
        rw [removal_of_not_last hwlast]
        exact hle
      · right
        exact (hbehind w hmem).trans (removal_bounds w).1
    · right
      rw [hstart]
      rcases hcase with ⟨hwide, rfl⟩ | ⟨-, -, hx⟩
      · rw [runStart, if_pos hwide]
      · exact hbehind x hx
  · obtain rfl : z' = z := by simpa [hhs] using hz'.symm
    rcases hcase with ⟨-, rfl⟩ | ⟨hnot, -, -⟩
    · exact ⟨e, by rw [hmerged]; simp, by rw [hstart, runStart, if_pos hwide], hstop⟩
    · rw [hnot] at hwide
      cases hwide

/-- What stands behind the beginning of the chosen handlers at the end, with their trivia, is removed. -/
lemma exists_contains_of_start_le (h : root.IsShaped) (ht : root.Has t) (hk : t.kind = .tryStatement)
    {P : Cursor → Bool} (htail : IsTail (fun c => P c = true) t c front (d :: more))
    (hperm : removals.Perm ((t.handlers.filter P).map removal))
    (hend : ∀ z ∈ t.handlers.getLast?, z.after = []) {x : Placed Element} (hx : x ∈ t.elements)
    (hstart : d.rangeWithTrivia.start ≤ x.start) :
    ∃ e ∈ Rethrow.mergeRemovals t removals, e.removed.contains x.span = true := by
  have hsplit : t.handlers = (front ++ [c]) ++ d :: more := by simp [htail.handlers]
  obtain ⟨w, hw, hcon⟩ := exists_rangeWithTrivia h ht hk hend hx hsplit hstart
  have hmem : w ∈ t.handlers := hsplit ▸ List.mem_append_right _ hw
  have hremoval : removal w ∈ removals := hperm.mem_iff.mpr
    (List.mem_map_of_mem (List.mem_filter.mpr ⟨hmem, htail.chosen w hw⟩))
  have hruns : ∀ f ∈ removals, IsRun (fun _ => True) t f := by
    intro f hf
    obtain ⟨y, hy, rfl⟩ := List.mem_map.mp (hperm.mem_iff.mp hf)
    obtain ⟨hty, hyk⟩ := Cursor.mem_handlers.mp (List.mem_filter.mp hy).1
    exact isRun_removal h ht hty hyk trivial
  obtain ⟨e, he, hin⟩ := (mergeRemovals_spec h ht hruns).2 _ hremoval
  have hown := removal_contains w
  refine ⟨e, he, ?_⟩
  rw [Range.contains_iff] at hin hcon hown ⊢
  omega

/-- **What the removals take behind the handler that is left**: everything from the beginning of the
removal of the last handlers on. -/
theorem exists_contains_iff (h : root.IsShaped) (ht : root.Has t) (hk : t.kind = .tryStatement)
    {P : Cursor → Bool} (htail : IsTail (fun c => P c = true) t c front (d :: more))
    (hperm : removals.Perm ((t.handlers.filter P).map removal))
    (hend : ∀ z ∈ t.handlers.getLast?, z.after = []) {x : Placed Element} (hx : x ∈ t.elements)
    (hsolid : x.item.IsSolid) (hcx : c.stop ≤ x.start) :
    (∃ e ∈ Rethrow.mergeRemovals t removals, e.removed.contains x.span = true) ↔
      runStart d more ≤ x.start := by
  obtain ⟨hedits, hwide⟩ := htail.mergeRemovals h ht hk hperm
  constructor
  · rintro ⟨e, he, hcon⟩
    have hpos : 0 < x.item.length := hsolid
    have hcon := Range.contains_iff.mp hcon
    simp only [Placed.span_start, Placed.span_stop] at hcon
    have := c.start_le_stop
    rcases hedits e he with hle | hle <;> omega
  · intro hle
    by_cases hstart : d.rangeWithTrivia.start ≤ x.start
    · exact htail.exists_contains_of_start_le h ht hk hperm hend hx hstart
    -- in front of the trivia of the first chosen one, only a wide removal takes something
    have hw : isWide (d :: more) = true := by
      by_contra hnot
      rw [runStart, if_neg hnot] at hle
      exact hstart hle
    obtain ⟨z, hz⟩ : ∃ z, t.handlers.getLast? = some z := by
      rw [htail.handlers, List.getLast?_append]
      exact ⟨_, by simp [List.getLast?_cons]; rfl⟩
    obtain ⟨e, he, hestart, hestop⟩ := hwide z hz hw
    refine ⟨e, he, ?_⟩
    obtain ⟨htz, -⟩ := Cursor.mem_handlers.mp (List.mem_of_getLast? hz)
    have hstop := htz.stop_eq
    rw [hend z hz, Element.lengthList_nil] at hstop
    have hbounds := Cursor.mem_elements_bounds hx
    have hz' := (rangeWithTrivia_bounds z).2
    rw [Range.contains_iff, hestart, hestop, Placed.span_start, Placed.span_stop]
    omega

/-- **What stays behind the handler that is left**: something exactly if the removal does not begin
directly behind it. -/
theorem stop_lt_runStart_iff (h : root.IsShaped) (ht : root.Has t) (hk : t.kind = .tryStatement)
    {P : Cursor → Prop} (htail : IsTail P t c front (d :: more)) :
    c.stop < runStart d more ↔
      ∃ u ∈ c.trailingTrivia, isWide (d :: more) = true → u.kind.isLayout = false := by
  have hchain := (h.isChain_handlers ht hk).suffix ⟨front, htail.handlers.symm⟩
  obtain ⟨⟨gap, hn⟩, -⟩ := List.isChain_cons_cons.mp hchain
  obtain ⟨hc, hck⟩ := Cursor.mem_handlers.mp (show c ∈ t.handlers by rw [htail.handlers]; simp)
  obtain ⟨hd, -⟩ := Cursor.mem_handlers.mp (show d ∈ t.handlers by rw [htail.handlers]; simp)
  have htouch := hn.touch hc hd
  rw [Cursor.rangeWithTrivia_stop] at htouch
  have hsolid : ∀ e ∈ c.trailingTrivia.map Element.token, e.IsSolid := by
    obtain ⟨rest, hafter⟩ := c.exists_after_eq
    intro e he
    have hmem : e ∈ c.after := hafter ▸ List.mem_append_left _ he
    exact (h.solid.children ht e (hc.mem_of_mem_after hmem)).self
  cases hwide : isWide (d :: more) with
  | false =>
    have hpos := Element.lengthList_pos_iff hsolid
    rw [runStart, hwide, if_neg (by simp), ← htouch, Nat.lt_add_right_iff_pos, hpos]
    simp [List.eq_nil_iff_forall_not_mem]
  | true =>
    -- what stays is what stands in front of the blanks and line ends
    have hlayout := layoutBefore_eq hn hck
    have hsplit := congrArg Element.lengthList (List.takeWhile_append_dropWhile
      (p := Element.isLayout) (l := (c.trailingTrivia.map Element.token).reverse))
    rw [Element.lengthList_append, Element.lengthList_reverse, ← hlayout] at hsplit
    have hrest : ∀ e ∈ ((c.trailingTrivia.map Element.token).reverse).dropWhile Element.isLayout,
        e.IsSolid :=
      fun e he => hsolid e (List.mem_reverse.mp ((List.dropWhile_sublist _).subset he))
    have hpos := Element.lengthList_pos_iff hrest
    have hiff : c.stop < runStart d more ↔
        0 < Element.lengthList
          (((c.trailingTrivia.map Element.token).reverse).dropWhile Element.isLayout) := by
      rw [runStart, hwide, if_pos rfl, reach, ← htouch]
      omega
    rw [hiff, hpos, ne_eq, List.dropWhile_eq_nil_iff]
    simp [Element.isLayout, Element.kind]

end IsTail

end TreeLint.Rethrow
