import TreeLint.Proofs.Neighbours
import TreeLint.Proofs.Reconcile

/-!
# When removals of one guarded block conflict

The removals of some handlers of one guarded block are merged where they overlap. Only the last
handler, if no clause runs in any case, takes the blanks and line ends before it along, so only its
removal can overlap that of its neighbour. A merged run then takes the blanks and line ends before
the neighbour along as well, and may overlap the removal of the handler before that. Such removals
are not merged again.

## Main definitions

* `TreeLint.Rethrow.IsCrowded` — a guarded block whose last three handlers are chosen, with blanks or
  line ends before the last two, while another handler is left.
* `TreeLint.Rethrow.AreCrowding` — the same about handlers from behind, which can be decided.

## Main results

* `TreeLint.Rethrow.mergeRuns_of_isChain`, `TreeLint.Rethrow.mergeRuns_append_pair` — runs that do not
  overlap, and those of which the last two do.
* `TreeLint.Rethrow.exists_mergeRemovals` — what removals become if the last handler is among them.
* `TreeLint.Rethrow.pairwise_mergeRemovals_iff` — merged removals overlap only in a crowded block.
-/

namespace TreeLint.Rethrow

/-! ## Runs -/

section Runs

variable {run e f : Edit} {es : List Edit}

/-- Runs of which no neighbours overlap are left as they are. -/
lemma mergeFrom_of_isChain (h : (run :: es).IsChain fun e f => e.overlaps f = false) :
    mergeFrom run es = run :: es := by
  induction es generalizing run with
  | nil => rfl
  | cons e es ih =>
    obtain ⟨hrun, hrest⟩ := List.isChain_cons_cons.mp h
    rw [mergeFrom, hrun, if_neg (by simp), ih hrest]

/-- Edits of which no two neighbours overlap are not merged. -/
theorem mergeRuns_of_isChain (h : es.IsChain fun e f => e.overlaps f = false) :
    mergeRuns es = es := by
  cases es with
  | nil => rfl
  | cons e es => exact mergeFrom_of_isChain h

/-- Runs of which only the last two overlap: these are merged. -/
theorem mergeRuns_append_pair
    (h : (es ++ [e]).IsChain fun e f => e.overlaps f = false) (hef : e.overlaps f = true) :
    mergeRuns (es ++ [e, f]) = es ++ [{ e with removed := e.removed.cover f.removed }] := by
  cases es with
  | nil => simp [mergeRuns, mergeFrom, hef]
  | cons run es =>
    simp only [List.cons_append, mergeRuns]
    induction es generalizing run with
    | nil =>
      obtain ⟨hrun, -⟩ := List.isChain_cons_cons.mp h
      simp [mergeFrom, hrun, hef]
    | cons d es ih =>
      obtain ⟨hrun, hrest⟩ := List.isChain_cons_cons.mp h
      rw [List.cons_append, mergeFrom, hrun, if_neg (by simp), ih d hrest]
      rfl

end Runs

variable {root : Node} {c d t : Cursor} {P : Cursor → Bool}

/-! ## Removals of handlers -/

/-- The removal of a handler that does not take the blanks and line ends before it along. -/
lemma removal_of_not_last (h : isLast c = false) :
    removal c = .removal c.target c.rangeWithTrivia := by
  simp [removal, h]

/-- The removal of the last handler takes the blanks and line ends before it along. -/
lemma removal_of_last (h : isLast c = true) : (removal c).removed.start = reach c ∧
    (removal c).removed.stop = c.rangeWithTrivia.stop := by
  obtain ⟨hstart, hstop⟩ := widenTo_layoutStart (Nat.le_refl c.rangeWithTrivia.start)
  have hle := reach_le c
  simp only [removal, h, if_true, Edit.removal, hstart, hstop, and_true]
  exact Nat.min_eq_left hle

/-- The removal of a handler begins between the blanks and line ends before its trivia and the handler
itself, and stops where its trivia end. -/
lemma removal_bounds (c : Cursor) : reach c ≤ (removal c).removed.start ∧
    (removal c).removed.start ≤ c.start ∧ (removal c).removed.stop = c.rangeWithTrivia.stop := by
  have := reach_le c
  have := (rangeWithTrivia_bounds c).1
  cases h : isLast c with
  | true =>
    obtain ⟨hstart, hstop⟩ := removal_of_last h
    omega
  | false =>
    rw [removal_of_not_last h]
    exact ⟨by assumption, by assumption, rfl⟩

/-- The removal of a handler takes the trivia that belong to it along. -/
lemma removal_contains (c : Cursor) : (removal c).removed.contains c.rangeWithTrivia = true := by
  refine Range.contains_iff.mpr ⟨?_, (removal_bounds c).2.2.ge⟩
  cases h : isLast c with
  | true => exact (removal_of_last h).1 ▸ reach_le c
  | false => rw [removal_of_not_last h]; exact Nat.le_refl _

/-- A handler that precedes another one: the removal of the first, without the blanks and line ends
before it, does not overlap that of the second. -/
lemma Precedes.overlaps_eq_false (h : Precedes c d) (hc : isLast c = false) (hd : isLast d = false) :
    (removal c).overlaps (removal d) = false := by
  rw [Bool.eq_false_iff, ne_eq, Edit.overlaps_iff, removal_of_not_last hc, removal_of_not_last hd]
  have := h.1
  simp only [Edit.removal]
  omega

/-- The removals of some handlers, in order. -/
theorem sortEdits_eq (h : root.IsShaped) (ht : root.Has t) (hk : t.kind = .tryStatement)
    {removals : List Edit} (hperm : removals.Perm ((t.handlers.filter P).map removal)) :
    sortEdits removals = (t.handlers.filter P).map removal := by
  have hstrict : ((t.handlers.filter P).map removal).Pairwise
      fun e f => e.removed.start < f.removed.start := by
    rw [List.pairwise_map]
    refine ((pairwise_precedes h ht hk).filter P).imp_of_mem fun {c d} hc _ hcd => ?_
    obtain ⟨hc, hck⟩ := Cursor.mem_handlers.mp (List.mem_filter.mp hc).1
    have := h.length_pos (ht.child hc) (h.ne_cursor (by simp [hck]))
    have := hcd.2
    have := removal_bounds c
    have := removal_bounds d
    omega
  have hsymm : Std.Symm fun e f : Edit => e.removed.start ≠ f.removed.start := ⟨fun _ _ h => h.symm⟩
  have hne := (hstrict.imp fun h => Nat.ne_of_lt h).forall
  refine ((sortEdits_perm removals).trans hperm).eq_of_pairwise (fun e f he hf hef hfe => ?_)
    (pairwise_sortEdits removals) (hstrict.imp fun hlt => ?_)
  · by_contra hcon
    have := hne (hperm.mem_iff.mp (mem_sortEdits.mp he)) hf hcon
    simp only [Range.le, Bool.or_eq_true, Bool.and_eq_true, decide_eq_true_eq, beq_iff_eq] at hef hfe
    omega
  · simp [Range.le, hlt]

/-- The run of some handler that holds the last handler is widened to the blanks and line ends before
its first one. -/
lemma widen_bounds (h : root.IsShaped) (ht : root.Has t) (hc : c ∈ t.handlers) {run : Edit}
    {last : Range} (htarget : run.target = c.target) (hcon : run.removed.contains last = true)
    (hle : run.removed.start ≤ c.rangeWithTrivia.start) :
    (widen t.handlers last run).removed.start = min (reach c) run.removed.start ∧
      (widen t.handlers last run).removed.stop = run.removed.stop := by
  rw [widen, if_pos hcon, htarget, h.find?_target ht hc]
  exact widenTo_layoutStart hle

/-! ## Crowded blocks -/

/-- A guarded block whose last three handlers are chosen, with blanks or line ends before the last
two, while another handler is left. -/
structure IsCrowded (chosen : Cursor → Prop) (t : Cursor) : Prop where
  /-- No clause runs in any case. -/
  hasFinally : t.node.hasFinally = false
  /-- Some handler is not chosen. -/
  left : ∃ c ∈ t.handlers, ¬chosen c
  /-- The last three are chosen, and something stands before two of them. -/
  last : ∃ front a b c, t.handlers = front ++ [a, b, c] ∧ chosen a ∧ chosen b ∧ chosen c ∧
    layoutBefore b ≠ [] ∧ layoutBefore c ≠ []

/-- The handlers of a crowded block, from behind: the first three are chosen, with blanks or line ends
before the first two. -/
def AreCrowding (chosen : Cursor → Prop) : List Cursor → Prop
  | c :: b :: a :: _ => chosen a ∧ chosen b ∧ chosen c ∧ layoutBefore b ≠ [] ∧ layoutBefore c ≠ []
  | _ => False

instance {chosen : Cursor → Prop} [DecidablePred chosen] (hs : List Cursor) :
    Decidable (AreCrowding chosen hs) :=
  match hs with
  | c :: b :: a :: _ => inferInstanceAs (Decidable
      (chosen a ∧ chosen b ∧ chosen c ∧ layoutBefore b ≠ [] ∧ layoutBefore c ≠ []))
  | [_, _] => .isFalse id
  | [_] => .isFalse id
  | [] => .isFalse id

/-- Whether a block is crowded can be read off its handlers from behind. -/
theorem isCrowded_iff_reverse {chosen : Cursor → Prop} : IsCrowded chosen t ↔
    t.node.hasFinally = false ∧ (∃ c ∈ t.handlers, ¬chosen c) ∧
      AreCrowding chosen t.handlers.reverse := by
  constructor
  · rintro ⟨hfin, hleft, front, a, b, c, hhs, hlast⟩
    refine ⟨hfin, hleft, ?_⟩
    simpa [hhs, AreCrowding] using hlast
  · rintro ⟨hfin, hleft, hlast⟩
    unfold AreCrowding at hlast
    split at hlast
    · rename_i c b a front hreverse
      refine ⟨hfin, hleft, front.reverse, a, b, c, ?_, hlast⟩
      rw [← List.reverse_reverse t.handlers, hreverse]
      simp
    · exact hlast.elim

instance {chosen : Cursor → Prop} [DecidablePred chosen] (t : Cursor) :
    Decidable (IsCrowded chosen t) :=
  decidable_of_iff _ isCrowded_iff_reverse.symm

/-- The last of some members with a property. -/
lemma filter_eq_nil_or_concat {α : Type} (p : α → Bool) (as : List α) : as.filter p = [] ∨
    ∃ front a back, as = front ++ a :: back ∧ p a = true ∧ (∀ b ∈ back, p b = false) ∧
      as.filter p = front.filter p ++ [a] := by
  induction as with
  | nil => exact .inl rfl
  | cons x xs ih =>
    rcases ih with hnil | ⟨front, a, back, rfl, ha, hback, -⟩
    · cases hx : p x with
      | true =>
        refine .inr ⟨[], x, xs, rfl, hx, fun b hb => ?_, by simp [hx, hnil]⟩
        simpa using List.filter_eq_nil_iff.mp hnil b hb
      | false => exact .inl (by simp [hx, hnil])
    · refine .inr ⟨x :: front, a, back, rfl, ha, hback, ?_⟩
      have hnone : back.filter p = [] := List.filter_eq_nil_iff.mpr fun b hb => by simp [hback b hb]
      cases hx : p x <;> simp [List.filter_append, hx, ha, hnone]

/-- The last member with a property, if the last member has it. -/
lemma eq_of_concat_eq {α : Type} {p : α → Bool} {front front' back : List α} {a b : α}
    (h : front ++ [b] = front' ++ a :: back) (hb : p b = true) (hback : ∀ x ∈ back, p x = false) :
    back = [] ∧ b = a ∧ front = front' := by
  rcases List.eq_nil_or_concat back with rfl | ⟨back, x, rfl⟩
  · obtain ⟨hfront, hlast⟩ := List.append_inj' h rfl
    exact ⟨rfl, (List.cons.inj hlast).1, hfront⟩
  · rw [List.concat_eq_append, ← List.cons_append, ← List.append_assoc] at h
    obtain ⟨-, hlast⟩ := List.append_inj' h rfl
    rw [(List.cons.inj hlast).1, hback x (by simp)] at hb
    cases hb

section Merge

variable {removals : List Edit} {hs : List Cursor} {z : Cursor}

/-- A run that does not hold the last handler is left as it is. -/
lemma widen_of_not_contains {run : Edit} {last : Range} (h : run.removed.contains last = false)
    (handlers : List Cursor) : widen handlers last run = run := by
  rw [widen, if_neg (by simp [h])]

/-- The removal of a handler before the last one does not hold the last one. -/
lemma contains_eq_false (h : root.IsShaped) (ht : root.Has t) (hz : z ∈ t.handlers)
    (hcz : Precedes c z) (hc : isLast c = false) :
    (removal c).removed.contains z.range = false := by
  obtain ⟨htz, hzk⟩ := Cursor.mem_handlers.mp hz
  have hpos := h.length_pos (ht.child htz) (h.ne_cursor (by simp [hzk]))
  have := hcz.1
  have := (rangeWithTrivia_bounds z).1
  rw [Bool.eq_false_iff, ne_eq, Range.contains_iff, removal_of_not_last hc]
  simp only [Edit.removal, Cursor.range_start, Cursor.range_stop]
  omega

/-- Handlers none of which is the last thing in its guarded block: their removals do not overlap. -/
lemma pairwise_removals (h : root.IsShaped) (ht : root.Has t) (hk : t.kind = .tryStatement)
    {cs : List Cursor} (hcs : cs.Sublist t.handlers) (hlast : ∀ c ∈ cs, isLast c = false) :
    (cs.map removal).Pairwise fun e f => e.overlaps f = false := by
  rw [List.pairwise_map]
  exact ((pairwise_precedes h ht hk).sublist hcs).imp_of_mem fun hc hd hcd =>
    hcd.overlaps_eq_false (hlast _ hc) (hlast _ hd)

/-- If the last thing in a guarded block is no chosen handler, the removals of the chosen ones are
left as they are. -/
lemma mergeRemovals_of_not_last (h : root.IsShaped) (ht : root.Has t) (hk : t.kind = .tryStatement)
    (hperm : removals.Perm ((t.handlers.filter P).map removal))
    (hlast : ∀ c ∈ t.handlers.filter P, isLast c = false) :
    mergeRemovals t removals = (t.handlers.filter P).map removal := by
  have hruns : mergeRuns (sortEdits removals) = (t.handlers.filter P).map removal := by
    rw [sortEdits_eq h ht hk hperm]
    exact mergeRuns_of_isChain (pairwise_removals h ht hk List.filter_sublist hlast).isChain
  unfold mergeRemovals
  simp only [hruns]
  split
  · rename_i z hz
    split
    · rfl
    · rename_i hfin
      obtain ⟨hs, hhs⟩ := List.getLast?_eq_some_iff.mp hz
      rw [List.map_map]
      refine List.map_congr_left fun c hc => widen_of_not_contains ?_ _
      have hcs : c ∈ hs := by
        have hmem := (List.mem_filter.mp hc).1
        rw [hhs, List.mem_append, List.mem_singleton] at hmem
        refine hmem.resolve_right fun heq => ?_
        have := hlast c hc
        rw [heq, isLast_eq h ht hk hhs] at this
        simp at this
        exact hfin this
      have hprecedes := (List.pairwise_append.mp (hhs ▸ pairwise_precedes h ht hk)).2.2 c hcs z
        (List.mem_singleton.mpr rfl)
      exact contains_eq_false h ht (by rw [hhs]; simp) hprecedes (hlast c hc)
  · rfl

/-- Without a clause that runs in any case, each merged run is widened if it holds the last
handler. -/
lemma mergeRemovals_eq_map (hfin : t.node.hasFinally = false) (hhs : t.handlers = hs ++ [z]) :
    mergeRemovals t removals =
      (mergeRuns (sortEdits removals)).map (widen t.handlers z.range) := by
  have hlast : t.handlers.getLast? = some z := by rw [hhs]; simp
  unfold mergeRemovals
  simp only [hlast, hfin]
  rfl

/-- Removals of handlers that are followed by an edit behind their beginnings. -/
lemma pairwise_append_iff (h : root.IsShaped) (ht : root.Has t) (hk : t.kind = .tryStatement)
    {cs : List Cursor} (hcs : cs.Sublist t.handlers) (hlast : ∀ c ∈ cs, isLast c = false) {e : Edit}
    (he : ∀ c ∈ cs, (removal c).removed.start < e.removed.stop) :
    (cs.map removal ++ [e]).Pairwise (fun e f => e.overlaps f = false) ↔
      ∀ c ∈ cs, c.rangeWithTrivia.stop ≤ e.removed.start := by
  simp only [List.pairwise_append, pairwise_removals h ht hk hcs hlast, List.pairwise_singleton,
    List.mem_map, List.mem_singleton, forall_exists_index, and_imp, forall_eq, true_and,
    forall_apply_eq_imp_iff₂]
  refine forall₂_congr fun c hc => ?_
  have := he c hc
  have := (removal_bounds c).2.2
  rw [Bool.eq_false_iff, ne_eq, Edit.overlaps_iff]
  omega

/-- The handlers before the last one, none of which is the last thing in its guarded block. -/
lemma before_last (h : root.IsShaped) (ht : root.Has t) (hk : t.kind = .tryStatement)
    (hhs : t.handlers = hs ++ [z]) : ∀ c ∈ hs, isLast c = false ∧ Precedes c z := by
  intro c hc
  have hprecedes := (List.pairwise_append.mp (hhs ▸ pairwise_precedes h ht hk)).2.2 c hc z
    (List.mem_singleton.mpr rfl)
  refine ⟨?_, hprecedes⟩
  obtain ⟨front, back, rfl⟩ := List.append_of_mem hc
  cases back with
  | nil =>
    have hsplit : t.handlers = front ++ c :: z :: [] := by simp [hhs]
    exact isLast_eq_false h ht hk hsplit
  | cons d back =>
    have hsplit : t.handlers = front ++ c :: d :: (back ++ [z]) := by simp [hhs]
    exact isLast_eq_false h ht hk hsplit

/-- Whether the removal of the last handler overlaps that of another one. -/
lemma overlaps_last_iff (h : root.IsShaped) (ht : root.Has t) (hk : t.kind = .tryStatement)
    {front back : List Cursor} {y : Cursor} (hhs : t.handlers = front ++ y :: (back ++ [z]))
    (hlast : isLast z = true) :
    (removal y).overlaps (removal z) = true ↔ back = [] ∧ layoutBefore z ≠ [] := by
  have hsplit : t.handlers = (front ++ y :: back) ++ [z] := by simp [hhs]
  have hprecedes := (before_last h ht hk hsplit y (by simp)).2
  have hy := removal_bounds y
  have hz := removal_of_last hlast
  have := rangeWithTrivia_bounds z
  have := z.start_le_stop
  have := y.start_le_stop
  have := hprecedes.2
  have := reach_le z
  have hyk := (Cursor.mem_handlers.mp (show y ∈ t.handlers by rw [hhs]; simp))
  have hpos := h.length_pos (ht.child hyk.1) (h.ne_cursor (by simp [hyk.2]))
  rw [Edit.overlaps_iff, ← reach_lt_stop_iff h ht hk hhs]
  omega

/-- A block is crowded by the last handler, its neighbour and the one before it. -/
lemma isCrowded_iff {front back : List Cursor} {y : Cursor} (hfin : t.node.hasFinally = false)
    (hleft : ∃ c ∈ t.handlers, ¬P c = true) (hhs : t.handlers = front ++ y :: (back ++ [z]))
    (hy : P y = true) (hz : P z = true) (hback : ∀ x ∈ back, P x = false) :
    IsCrowded (fun c => P c = true) t ↔ (back = [] ∧ layoutBefore z ≠ []) ∧
      ∃ front' x, front = front' ++ [x] ∧ P x = true ∧ layoutBefore y ≠ [] := by
  constructor
  · rintro ⟨-, -, front', a, b, c, heq, ha, hb, -, hlb, hlc⟩
    have hsplit : (front' ++ [a] ++ [b]) ++ [c] = (front ++ y :: back) ++ [z] := by
      rw [hhs] at heq
      simpa using heq.symm
    obtain ⟨hinit, hlast⟩ := List.append_inj' hsplit rfl
    obtain rfl : c = z := (List.cons.inj hlast).1
    obtain ⟨rfl, rfl, rfl⟩ := eq_of_concat_eq hinit hb hback
    exact ⟨⟨rfl, hlc⟩, front', a, rfl, ha, hlb⟩
  · rintro ⟨⟨rfl, hlz⟩, front', x, rfl, hx, hly⟩
    exact ⟨hfin, hleft, front', x, y, z, by simp [hhs], hx, hy, hz, hly, hlz⟩

/-- The removals of handlers before the last one do not hold it, so they are not widened. -/
lemma map_widen (h : root.IsShaped) (ht : root.Has t) (hk : t.kind = .tryStatement)
    (hhs : t.handlers = hs ++ [z]) {cs : List Cursor} (hcs : cs ⊆ hs) :
    (cs.map removal).map (widen t.handlers z.range) = cs.map removal := by
  rw [List.map_map]
  refine List.map_congr_left fun c hc => widen_of_not_contains ?_ _
  obtain ⟨hlast, hprecedes⟩ := before_last h ht hk hhs c (hcs hc)
  exact contains_eq_false h ht (by rw [hhs]; simp) hprecedes hlast

/-- The handler that is the last thing in its guarded block. -/
lemma exists_concat (h : root.IsShaped) (ht : root.Has t) (hk : t.kind = .tryStatement)
    (hz : z ∈ t.handlers) (hlast : isLast z = true) :
    ∃ hs, t.handlers = hs ++ [z] ∧ t.node.hasFinally = false := by
  obtain ⟨hs, back, hsplit⟩ := List.append_of_mem hz
  cases back with
  | nil =>
    rw [isLast_eq h ht hk hsplit] at hlast
    exact ⟨hs, hsplit, by simpa using hlast⟩
  | cons d back =>
    rw [isLast_eq_false h ht hk hsplit] at hlast
    cases hlast

/-- The removals of chosen handlers before the last one do not overlap. -/
lemma isChain_removals (h : root.IsShaped) (ht : root.Has t) (hk : t.kind = .tryStatement)
    (hhs : t.handlers = hs ++ [z]) :
    ((hs.filter P).map removal).IsChain fun e f => e.overlaps f = false := by
  have hsub : (hs.filter P).Sublist t.handlers := by
    rw [hhs]
    exact List.filter_sublist.trans (List.sublist_append_left _ _)
  exact (pairwise_removals h ht hk hsub fun c hc =>
    (before_last h ht hk hhs c (List.mem_filter.mp hc).1).1).isChain

/-- If the last handler reaches into the chosen one before it, the two become one run, which takes
along what blanks and line ends stand before the first of them. -/
lemma mergeRemovals_of_overlaps (h : root.IsShaped) (ht : root.Has t) (hk : t.kind = .tryStatement)
    (hperm : removals.Perm ((t.handlers.filter P).map removal)) {front : List Cursor} {y : Cursor}
    (hhs : t.handlers = (front ++ [y]) ++ [z]) (hlast : isLast z = true)
    (hfin : t.node.hasFinally = false) (hy : P y = true) (hz : P z = true)
    (hyz : (removal y).overlaps (removal z) = true) :
    ∃ e, mergeRemovals t removals = (front.filter P).map removal ++ [e] ∧ e.removed.start = reach y ∧
      e.removed.stop = z.rangeWithTrivia.stop := by
  have hyt : y ∈ t.handlers := by simp [hhs]
  obtain ⟨hylast, htouch, hreach⟩ := before_last h ht hk hhs y (by simp)
  have hall : t.handlers.filter P = front.filter P ++ [y] ++ [z] := by
    simp [hhs, List.filter_append, hy, hz]
  have hchain := isChain_removals (P := P) h ht hk hhs
  have hfilter : (front ++ [y]).filter P = front.filter P ++ [y] := by simp [List.filter_append, hy]
  rw [hfilter] at hchain
  obtain ⟨hzstart, hzstop⟩ := removal_of_last hlast
  have hzbounds := rangeWithTrivia_bounds z
  have hzle := z.start_le_stop
  have hybounds := rangeWithTrivia_bounds y
  have hyle := y.start_le_stop
  obtain ⟨run, hrun⟩ : ∃ run : Edit, run = { removal y with
    removed := (removal y).removed.cover (removal z).removed } := ⟨_, rfl⟩
  have hrange : run.removed.start = y.rangeWithTrivia.start ∧
      run.removed.stop = z.rangeWithTrivia.stop := by
    rw [hrun, removal_of_not_last hylast]
    simp only [Range.cover, Edit.removal, hzstart, hzstop]
    have := reach_le z
    omega
  have hcon : run.removed.contains z.range = true := by
    rw [Range.contains_iff, hrange.1, hrange.2, Cursor.range_start, Cursor.range_stop]
    omega
  obtain ⟨hwstart, hwstop⟩ := widen_bounds h ht hyt (by rw [hrun]; rfl) hcon (Nat.le_of_eq hrange.1)
  have hfront : front.filter P ⊆ front ++ [y] :=
    (List.filter_sublist.trans (List.sublist_append_left _ _)).subset
  refine ⟨widen t.handlers z.range run, ?_, ?_, ?_⟩
  · have hmerged := mergeRuns_append_pair (by simpa using hchain) hyz
    rw [mergeRemovals_eq_map hfin hhs, sortEdits_eq h ht hk hperm, hall, List.append_assoc,
      List.map_append]
    simp only [List.singleton_append, List.map_cons, List.map_nil]
    rw [hmerged, ← hrun, List.map_append, map_widen h ht hk hhs hfront, List.map_singleton]
  · rw [hwstart, hrange.1]
    exact Nat.min_eq_left (reach_le y)
  · rw [hwstop, hrange.2]

/-- If the last handler reaches into no chosen one, it has a run of its own. -/
lemma mergeRemovals_of_apart (h : root.IsShaped) (ht : root.Has t) (hk : t.kind = .tryStatement)
    (hperm : removals.Perm ((t.handlers.filter P).map removal)) (hhs : t.handlers = hs ++ [z])
    (hlast : isLast z = true) (hfin : t.node.hasFinally = false) (hz : P z = true)
    (hapart : ∀ y ∈ hs.filter P, (removal y).overlaps (removal z) = false) :
    ∃ e, mergeRemovals t removals = (hs.filter P).map removal ++ [e] ∧ e.removed.start = reach z ∧
      e.removed.stop = z.rangeWithTrivia.stop := by
  have hall : t.handlers.filter P = hs.filter P ++ [z] := by simp [hhs, List.filter_append, hz]
  have hruns : ((hs.filter P ++ [z]).map removal).IsChain fun e f => e.overlaps f = false := by
    rw [List.map_append, List.map_singleton, List.isChain_append]
    refine ⟨isChain_removals h ht hk hhs, List.isChain_singleton _, fun e he f hf => ?_⟩
    obtain ⟨y, hy, rfl⟩ := List.mem_map.mp (List.mem_of_getLast? he)
    obtain rfl := Option.some.inj hf
    exact hapart y hy
  obtain ⟨hzstart, hzstop⟩ := removal_of_last hlast
  obtain ⟨hwstart, hwstop⟩ := widen_bounds h ht (by rw [hhs]; simp) rfl (contains_removal z)
    (hzstart ▸ reach_le z)
  refine ⟨widen t.handlers z.range (removal z), ?_, ?_, ?_⟩
  · rw [mergeRemovals_eq_map hfin hhs, sortEdits_eq h ht hk hperm, hall, mergeRuns_of_isChain hruns,
      List.map_append, List.map_append, map_widen h ht hk hhs List.filter_sublist.subset,
      List.map_singleton, List.map_singleton]
  · rw [hwstart, hzstart, Nat.min_self]
  · rw [hwstop, hzstop]

/-- **What the removals become if the last handler is chosen**: a run that holds the last handler,
behind the removals of other handlers. The run begins with the last handler unless this one reaches
into the chosen handler before it, and it takes along what blanks and line ends stand before its first
handler. -/
theorem exists_mergeRemovals (h : root.IsShaped) (ht : root.Has t) (hk : t.kind = .tryStatement)
    (hperm : removals.Perm ((t.handlers.filter P).map removal)) (hhs : t.handlers = hs ++ [z])
    (hlast : isLast z = true) (hfin : t.node.hasFinally = false) (hz : P z = true) :
    ∃ cs x rest e, t.handlers.filter P = cs ++ x :: rest ∧ cs.Sublist hs ∧
      mergeRemovals t removals = cs.map removal ++ [e] ∧ e.removed.start = reach x ∧
      e.removed.stop = z.rangeWithTrivia.stop ∧
      ((rest = [] ∧ x = z ∧ ∀ y ∈ cs, (removal y).overlaps (removal z) = false) ∨
        (rest = [z] ∧ (removal x).overlaps (removal z) = true)) := by
  have hall : t.handlers.filter P = hs.filter P ++ [z] := by simp [hhs, List.filter_append, hz]
  by_cases hover : ∃ y ∈ hs.filter P, (removal y).overlaps (removal z) = true
  · obtain ⟨y, hy, hyz⟩ := hover
    obtain ⟨hyhs, hPy⟩ := List.mem_filter.mp hy
    -- only the neighbour of the last handler can be reached by it
    obtain ⟨front, back, rfl⟩ := List.append_of_mem hyhs
    have hsplit : t.handlers = front ++ y :: (back ++ [z]) := by simp [hhs]
    obtain ⟨rfl, -⟩ := (overlaps_last_iff h ht hk hsplit hlast).mp hyz
    obtain ⟨e, hmerged, hstart, hstop⟩ :=
      mergeRemovals_of_overlaps h ht hk hperm hhs hlast hfin hPy hz hyz
    exact ⟨front.filter P, y, [z], e, by simp [hall, List.filter_append, hPy],
      List.filter_sublist.trans (List.sublist_append_left _ _), hmerged, hstart, hstop,
      .inr ⟨rfl, hyz⟩⟩
  · push Not at hover
    have hapart : ∀ y ∈ hs.filter P, (removal y).overlaps (removal z) = false :=
      fun y hy => by simpa using hover y hy
    obtain ⟨e, hmerged, hstart, hstop⟩ :=
      mergeRemovals_of_apart h ht hk hperm hhs hlast hfin hz hapart
    exact ⟨hs.filter P, z, [], e, hall, List.filter_sublist, hmerged, hstart, hstop,
      .inl ⟨rfl, rfl, hapart⟩⟩

/-- Whether one of the handlers before another one is reached by it. -/
lemma forall_stop_le_reach_iff (h : root.IsShaped) (ht : root.Has t) (hk : t.kind = .tryStatement)
    {front : List Cursor} {y : Cursor} (hhs : t.handlers = front ++ [y] ++ [z]) :
    (∀ c ∈ front.filter P, c.rangeWithTrivia.stop ≤ reach y) ↔
      ¬∃ front' x, front = front' ++ [x] ∧ P x = true ∧ layoutBefore y ≠ [] := by
  rcases filter_eq_nil_or_concat P front with hnil | ⟨first, x, back, rfl, hx, hback, hfilter⟩
  · rw [hnil]
    refine iff_of_true (by simp) ?_
    rintro ⟨front', x, rfl, hx, -⟩
    simpa [hx] using List.filter_eq_nil_iff.mp hnil x (by simp)
  · have hsplit : t.handlers = first ++ x :: (back ++ y :: [z]) := by simp [hhs]
    have hreach := reach_lt_stop_iff h ht hk hsplit
    rw [hfilter]
    constructor
    · rintro hall ⟨front', x', heq, hx', hlayout⟩
      obtain ⟨rfl, rfl, -⟩ := eq_of_concat_eq heq.symm hx' hback
      have := hreach.mpr ⟨rfl, hlayout⟩
      have := hall x' (by simp)
      omega
    · intro hnone c hc
      by_contra hlt
      rcases List.mem_append.mp hc with hc | hc
      · -- the other handlers are further away
        have hpair := hsplit ▸ pairwise_precedes h ht hk
        obtain ⟨-, hrest, hcross⟩ := List.pairwise_append.mp hpair
        have hcx := hcross c (List.mem_filter.mp hc).1 x List.mem_cons_self
        have hxy := (List.pairwise_cons.mp hrest).1 y (by simp)
        exact hlt (hcx.stop_le_reach hxy)
      · obtain rfl := List.mem_singleton.mp hc
        obtain ⟨rfl, hlayout⟩ := hreach.mp (by omega)
        exact hnone ⟨first, c, rfl, hx, hlayout⟩

/-- What is removed with a handler begins before the last handler ends. -/
lemma removal_start_lt (h : root.IsShaped) (ht : root.Has t) (hk : t.kind = .tryStatement)
    (hhs : t.handlers = hs ++ [z]) (hc : c ∈ hs) :
    (removal c).removed.start < z.rangeWithTrivia.stop := by
  obtain ⟨htc, hck⟩ := Cursor.mem_handlers.mp (show c ∈ t.handlers by rw [hhs]; simp [hc])
  have hpos := h.length_pos (ht.child htc) (h.ne_cursor (by simp [hck]))
  have hstart := (removal_bounds c).2.1
  have hprecedes := (before_last h ht hk hhs c hc).2.2
  have hreach := reach_le z
  have hz := rangeWithTrivia_bounds z
  have hzle := z.start_le_stop
  omega

/-- A block is not crowded if its last handler reaches into no chosen one. -/
lemma not_isCrowded (h : root.IsShaped) (ht : root.Has t) (hk : t.kind = .tryStatement)
    (hhs : t.handlers = hs ++ [z]) (hlast : isLast z = true)
    (hapart : ∀ y ∈ hs.filter P, (removal y).overlaps (removal z) = false) :
    ¬IsCrowded (fun c => P c = true) t := by
  rintro ⟨-, -, front, a, b, c, heq, -, hb, -, -, hlayout⟩
  have hsplit : front ++ [a, b] ++ [c] = hs ++ [z] := by rw [← hhs, heq]; simp
  obtain ⟨rfl, hcz⟩ := List.append_inj' hsplit rfl
  obtain rfl := (List.cons.inj hcz).1
  have hsplit : t.handlers = (front ++ [a]) ++ b :: ([] ++ [c]) := by rw [heq]; simp
  have hover := (overlaps_last_iff h ht hk hsplit hlast).mpr ⟨rfl, hlayout⟩
  rw [hapart b (List.mem_filter.mpr ⟨by simp, hb⟩)] at hover
  cases hover

/-- **Merged removals** of chosen handlers overlap exactly in a crowded block.

**Proof sketch.** If the last thing in the block is no chosen handler, the removals are left as they
are. Otherwise all removals but the last end before the next begins, and the last one overlaps, if
any, that of its neighbour. If it does not, all is left as it is. If it does, the two become one run,
which is widened, and which then overlaps, if any, the removal of the handler before them. -/
theorem pairwise_mergeRemovals_iff (h : root.IsShaped) (ht : root.Has t) (hk : t.kind = .tryStatement)
    (hperm : removals.Perm ((t.handlers.filter P).map removal))
    (hleft : t.node.hasFinally = true ∨ ∃ c ∈ t.handlers, ¬P c = true) :
    ((mergeRemovals t removals).Pairwise fun e f => e.overlaps f = false) ↔
      ¬IsCrowded (fun c => P c = true) t := by
  by_cases hall : ∀ c ∈ t.handlers.filter P, isLast c = false
  · rw [mergeRemovals_of_not_last h ht hk hperm hall]
    refine iff_of_true (pairwise_removals h ht hk List.filter_sublist hall) ?_
    rintro ⟨hfin, -, front, a, b, c, hhs, -, -, hc, -, -⟩
    have hlast := hall c (List.mem_filter.mpr ⟨by rw [hhs]; simp, hc⟩)
    have hsplit : t.handlers = (front ++ [a, b]) ++ [c] := by simp [hhs]
    rw [isLast_eq h ht hk hsplit, hfin] at hlast
    cases hlast
  · push Not at hall
    obtain ⟨z, hz, hzlast⟩ := hall
    have hzlast : isLast z = true := by simpa using hzlast
    obtain ⟨hzmem, hPz⟩ := List.mem_filter.mp hz
    obtain ⟨hs, hhs, hfin⟩ := exists_concat h ht hk hzmem hzlast
    have hleft := hleft.resolve_left (by simp [hfin])
    have hbefore := before_last h ht hk hhs
    obtain ⟨cs, x, rest, e, hfilter, hcs, hmerged, hstart, hstop, hcase⟩ :=
      exists_mergeRemovals h ht hk hperm hhs hzlast hfin hPz
    have hsub : cs.Sublist t.handlers := by
      rw [hhs]
      exact hcs.trans (List.sublist_append_left _ _)
    have hbehind : ∀ c ∈ cs, (removal c).removed.start < e.removed.stop := fun c hc =>
      hstop ▸ removal_start_lt h ht hk hhs (hcs.subset hc)
    rw [hmerged, pairwise_append_iff h ht hk hsub (fun c hc => (hbefore c (hcs.subset hc)).1) hbehind,
      hstart]
    rw [hhs, List.filter_append, List.filter_cons_of_pos hPz, List.filter_nil] at hfilter
    rcases hcase with ⟨rfl, rfl, hapart⟩ | ⟨rfl, hover⟩
    · -- the last handler has a run of its own
      have hinit := (List.append_inj' hfilter rfl).1
      refine iff_of_true (fun c hc => ?_) (not_isCrowded h ht hk hhs hzlast (hinit ▸ hapart))
      have hnot := hapart c hc
      rw [Bool.eq_false_iff, ne_eq, Edit.overlaps_iff, (removal_of_last hzlast).1,
        (removal_of_last hzlast).2, (removal_bounds c).2.2, ← hstop] at hnot
      have := hbehind c hc
      omega
    · -- the last two handlers share a run
      have hinit : hs.filter P ++ [z] = (cs ++ [x]) ++ [z] := by simpa using hfilter
      replace hinit := (List.append_inj' hinit rfl).1
      obtain ⟨hxhs, hx⟩ := List.mem_filter.mp (show x ∈ hs.filter P by rw [hinit]; simp)
      obtain ⟨front, back, rfl⟩ := List.append_of_mem hxhs
      have hsplit : t.handlers = front ++ x :: (back ++ [z]) := by rw [hhs]; simp
      obtain ⟨rfl, -⟩ := (overlaps_last_iff h ht hk hsplit hzlast).mp hover
      rw [List.filter_append, List.filter_cons_of_pos hx, List.filter_nil] at hinit
      rw [isCrowded_iff hfin hleft hsplit hx hPz (by simp), ← overlaps_last_iff h ht hk hsplit hzlast,
        ← (List.append_inj' hinit rfl).1, forall_stop_le_reach_iff h ht hk hhs]
      simp [hover]

end Merge

end TreeLint.Rethrow
