import Mathlib.Data.List.Find
import Mathlib.Data.List.Nodup
import TreeLint.Proofs.Groups
import TreeLint.Proofs.Handlers

/-!
# The edits of a batch

Each finding leads to the nearest handler around it. A batch of findings chooses some handlers, and
the edits of the batch, once reconciled, are a plan for them: each edit either puts the body of a
guarded block in the place of the whole, all handlers of which are chosen, or removes trivia and
chosen handlers; and each chosen handler is removed by one of the edits.

## Main definitions

* `TreeLint.Rethrow.handlerAround?` — the nearest handler around a range.
* `TreeLint.Rethrow.EditOf` — the edit for a handler.
* `TreeLint.Rethrow.IsPointless` — a guarded block that is nothing but its body.
* `TreeLint.Rethrow.IsFix`, `TreeLint.Rethrow.IsPlan` — edits that fix chosen handlers.

## Main results

* `TreeLint.Rethrow.editOf_of_computeEdit` — the edit for a finding is one for its handler.
* `TreeLint.Rethrow.isPlan_reconcile` — the reconciled edits of a batch are a plan.
-/

namespace TreeLint.Rethrow

variable {root : Node} {c d t : Cursor} {e : Edit} {es : List Edit} {chosen : Cursor → Prop}

/-- The nearest handler around the outermost node with a range. -/
def handlerAround? (root : Node) (r : Range) : Option Cursor :=
  (root.find? r).bind fun node => node.ancestors.find? fun c => c.kind = .catchClause

/-! ## The edit for a finding -/

/-- The edit for a handler: the handler is not filtered, and the edit puts the body of its guarded
block in the place of the whole if nothing else is left of it, and removes the handler otherwise. -/
structure EditOf (root : Node) (c : Cursor) (e : Edit) : Prop where
  /-- The handler is not filtered. -/
  isFiltered : c.node.isFiltered = false
  /-- The handler and its guarded block belong to the tree. -/
  edit : ∃ t, root.Has t ∧ t.kind = .tryStatement ∧ t.IsChild c ∧ c.kind = .catchClause ∧
    ((t.handlers.length = 1 ∧ t.node.hasFinally = false ∧ flatten t = .ok e) ∨
      (¬(t.handlers.length = 1 ∧ t.node.hasFinally = false) ∧ e = removal c))

/-- The nearest handler around a range belongs to the tree, in its guarded block. -/
lemma has_of_handlerAround? (h : root.IsShaped) {r : Range} (hc : handlerAround? root r = some c) :
    ∃ t, root.Has t ∧ t.kind = .tryStatement ∧ t.IsChild c ∧ c.kind = .catchClause := by
  obtain ⟨node, hnode, hfind⟩ := Option.bind_eq_some_iff.mp hc
  obtain ⟨hhas, -⟩ := Node.has_of_find? hnode
  have hmem := List.mem_of_find?_eq_some hfind
  have hk : c.kind = .catchClause := by simpa using List.find?_some hfind
  obtain ⟨t, ht, hchild, hk'⟩ := h.exists_try (hhas.of_mem_ancestors hmem) hk
  exact ⟨t, ht, hk', hchild, hk⟩

/-- In a shaped tree every handler stands in a guarded block. -/
lemma find?_ancestors (h : root.IsShaped) (hd : root.Has d) :
    (d.ancestors.find? fun c => c.kind = .catchClause && c.tryStatement?.isSome) =
      d.ancestors.find? fun c => c.kind = .catchClause := by
  refine List.find?_congr fun c hc => ?_
  by_cases hk : c.kind = .catchClause
  · obtain ⟨t, -, hchild, hk'⟩ := h.exists_try (hd.of_mem_ancestors hc) hk
    simp [hk, Cursor.tryStatement?_eq_some hchild, hk']
  · simp [hk]

/-- **The edit for a finding** is one for the nearest handler around it. -/
theorem editOf_of_computeEdit (hroot : root.IsShaped) {r : Range}
    (h : computeEdit root r = .ok e) :
    ∃ c, handlerAround? root r = some c ∧ EditOf root c e := by
  unfold computeEdit at h
  cases hnode : root.find? r with
  | none => simp [hnode, throw, throwThe, MonadExceptOf.throw] at h
  | some node =>
    simp only [hnode, find?_ancestors hroot (Node.has_of_find? hnode).1] at h
    cases hfind : node.ancestors.find? fun c => c.kind = .catchClause with
    | none => simp [hfind, throw, throwThe, MonadExceptOf.throw] at h
    | some c =>
      have haround : handlerAround? root r = some c := by simp [handlerAround?, hnode, hfind]
      obtain ⟨t, ht, htk, hchild, hck⟩ := has_of_handlerAround? hroot haround
      have htry : c.tryStatement? = some t := by
        rw [Cursor.tryStatement?_eq_some hchild, if_pos htk]
      simp only [hfind, htry] at h
      refine ⟨c, haround, ?_⟩
      cases hfiltered : c.node.isFiltered with
      | true => simp [hfiltered, throw, throwThe, MonadExceptOf.throw, bind, Except.bind] at h
      | false =>
        refine ⟨hfiltered, t, ht, htk, hchild, hck, ?_⟩
        simp only [hfiltered, Bool.false_eq_true, if_false] at h
        split at h
        · rename_i hflat
          exact .inl ⟨hflat.1, by simpa using hflat.2, h⟩
        · rename_i hflat
          refine .inr ⟨by simpa using hflat, ?_⟩
          simpa [pure, Except.pure, bind, Except.bind] using h.symm

/-- Flattening a guarded block puts its trimmed body in the place of the whole. -/
lemma flatten_eq_ok (h : flatten t = .ok e) :
    ∃ b, t.node.child? .block = some b ∧ e = .replacement t.target (trimLayout (body b)) := by
  unfold flatten at h
  split at h
  · cases h
  · rename_i b hb
    exact ⟨b, hb, by simpa using h.symm⟩

/-- In a shaped tree, an edit is the edit for one handler only. -/
theorem EditOf.unique (h : root.IsShaped) (hc : EditOf root c e) (hd : EditOf root d e) : c = d := by
  obtain ⟨t, ht, htk, htc, hck, hc⟩ := hc.edit
  obtain ⟨u, hu, huk, hud, hdk, hd⟩ := hd.edit
  rcases hc with ⟨hlen, -, hflat⟩ | ⟨-, rfl⟩
  · obtain ⟨b, -, rfl⟩ := flatten_eq_ok hflat
    rcases hd with ⟨-, -, hflat'⟩ | ⟨-, hremoval⟩
    · obtain ⟨b', -, heq⟩ := flatten_eq_ok hflat'
      have htarget : t.target = u.target := congrArg Edit.target heq
      obtain rfl := h.eq_of_target_eq ht hu (.inl htk) htarget
      obtain ⟨x, hx⟩ := List.length_eq_one_iff.mp hlen
      have hcx : c ∈ t.handlers := Cursor.mem_handlers.mpr ⟨htc, hck⟩
      have hdx : d ∈ t.handlers := Cursor.mem_handlers.mpr ⟨hud, hdk⟩
      rw [hx, List.mem_singleton] at hcx hdx
      rw [hcx, hdx]
    · have hkind := congrArg (Target.kind ∘ Edit.target) hremoval
      simp only [Function.comp, Edit.replacement, removal, Edit.removal, Cursor.target, htk, hdk]
        at hkind
      cases hkind
  · rcases hd with ⟨-, -, hflat'⟩ | ⟨-, hremoval⟩
    · obtain ⟨b', -, heq⟩ := flatten_eq_ok hflat'
      have hkind := congrArg (Target.kind ∘ Edit.target) heq
      simp only [Function.comp, Edit.replacement, removal, Edit.removal, Cursor.target, huk, hck]
        at hkind
      cases hkind
    · have htarget : c.target = d.target := congrArg Edit.target hremoval
      exact h.eq_of_target_eq (ht.child htc) (hu.child hud) (.inr hck) htarget

/-! ## Fixes and plans -/

/-- A guarded block of which nothing but the body is left without the chosen handlers. -/
structure IsPointless (chosen : Cursor → Prop) (t : Cursor) : Prop where
  /-- No clause runs in any case. -/
  hasFinally : t.node.hasFinally = false
  /-- There is a handler. -/
  handlers : t.handlers ≠ []
  /-- All handlers are chosen. -/
  chosen : ∀ c ∈ t.handlers, chosen c

/-- An edit that fixes a guarded block for some chosen handlers. -/
inductive IsFix (chosen : Cursor → Prop) (t : Cursor) (e : Edit) : Prop where
  /-- The body takes the place of the whole, where nothing but it is left. -/
  | flat {b : Node} : IsPointless chosen t → t.node.child? .block = some b →
    e = .replacement t.target (trimLayout (body b)) → IsFix chosen t e
  /-- Trivia and chosen handlers are removed, the target among them, where something else is
  left. -/
  | run : ¬IsPointless chosen t →
    Sweeps t (fun c => c.kind = .catchClause ∧ chosen c) e.removed → e.operation = .remove →
    (∃ c, t.IsChild c ∧ c.kind = .catchClause ∧ e.target = c.target ∧
      e.removed.contains c.range = true) → IsFix chosen t e

/-- Edits of guarded blocks that remove all chosen handlers. -/
structure IsPlan (root : Node) (chosen : Cursor → Prop) (es : List Edit) : Prop where
  /-- Each edit fixes a guarded block of the tree. -/
  fixes : ∀ e ∈ es, ∃ t, root.Has t ∧ t.kind = .tryStatement ∧ IsFix chosen t e
  /-- Each chosen handler is removed. -/
  covers : ∀ c, chosen c → ∃ t, root.Has t ∧ t.kind = .tryStatement ∧ t.IsChild c ∧
    c.kind = .catchClause ∧ ∃ e ∈ es, IsFix chosen t e ∧ e.removed.contains c.range = true

/-! ## Runs -/

/-- An edit that removes trivia and chosen handlers of a guarded block, its target with everything
that the removal of the target alone would take. -/
structure IsRun (chosen : Cursor → Prop) (t : Cursor) (e : Edit) : Prop where
  /-- What is removed are trivia and chosen handlers. -/
  sweeps : Sweeps t (fun c => c.kind = .catchClause ∧ chosen c) e.removed
  /-- Nothing is put in their place. -/
  operation : e.operation = .remove
  /-- The target is among what is removed. -/
  target : ∃ c, t.IsChild c ∧ c.kind = .catchClause ∧ e.target = c.target ∧
    e.removed.contains (removal c).removed = true

/-- The removal of a chosen handler is a run of its own. -/
lemma isRun_removal (h : root.IsShaped) (ht : root.Has t) (hc : t.IsChild c)
    (hk : c.kind = .catchClause) (hchosen : chosen c) : IsRun chosen t (removal c) where
  sweeps := (sweeps_removal h ht hc).mono fun d hd => by rw [hd]; exact ⟨hk, hchosen⟩
  operation := rfl
  target := ⟨c, hc, hk, rfl, by simp [Range.contains_iff]⟩

/-- Runs that overlap are merged into a run. -/
lemma IsRun.cover {f : Edit} (he : IsRun chosen t e) (hf : IsRun chosen t f)
    (h : e.overlaps f = true) : IsRun chosen t { e with removed := e.removed.cover f.removed } where
  sweeps := he.sweeps.cover hf.sweeps h
  operation := he.operation
  target := by
    obtain ⟨c, hc, hk, htarget, hcon⟩ := he.target
    refine ⟨c, hc, hk, htarget, ?_⟩
    have hleft := Range.contains_iff.mp (Range.contains_cover_left e.removed f.removed)
    rw [Range.contains_iff] at hcon ⊢
    simp only
    omega

/-- The runs of a list, merged where they overlap: they are runs, and they remove no less. -/
lemma mergeFrom_spec {run : Edit} (hrun : IsRun chosen t run) (hes : ∀ f ∈ es, IsRun chosen t f) :
    (∀ f ∈ mergeFrom run es, IsRun chosen t f) ∧
      ∀ f ∈ run :: es, ∃ g ∈ mergeFrom run es, g.removed.contains f.removed = true := by
  induction es generalizing run with
  | nil => exact ⟨by simpa [mergeFrom] using hrun, by simp [mergeFrom, Range.contains_iff]⟩
  | cons f es ih =>
    have hf := hes f List.mem_cons_self
    have hrest : ∀ g ∈ es, IsRun chosen t g := fun g hg => hes g (List.mem_cons_of_mem _ hg)
    cases hover : run.overlaps f with
    | true =>
      obtain ⟨hruns, hcovers⟩ := ih (hrun.cover hf hover) hrest
      simp only [mergeFrom, hover, if_true]
      refine ⟨hruns, fun g hg => ?_⟩
      obtain ⟨m, hm, hmc⟩ := hcovers _ List.mem_cons_self
      have hleft := Range.contains_iff.mp (Range.contains_cover_left run.removed f.removed)
      have hright := Range.contains_iff.mp (Range.contains_cover_right run.removed f.removed)
      rw [Range.contains_iff] at hmc
      simp only at hmc
      rcases List.mem_cons.mp hg with rfl | hg
      · exact ⟨m, hm, by rw [Range.contains_iff]; omega⟩
      · rcases List.mem_cons.mp hg with rfl | hg
        · exact ⟨m, hm, by rw [Range.contains_iff]; omega⟩
        · exact hcovers g (List.mem_cons_of_mem _ hg)
    | false =>
      obtain ⟨hruns, hcovers⟩ := ih hf hrest
      simp only [mergeFrom, hover, Bool.false_eq_true, if_false, List.mem_cons]
      refine ⟨?_, ?_⟩
      · rintro g (rfl | hg)
        · exact hrun
        · exact hruns g hg
      · rintro g (rfl | hg)
        · exact ⟨g, .inl rfl, by simp [Range.contains_iff]⟩
        · obtain ⟨m, hm, hmc⟩ := hcovers g (List.mem_cons.mpr hg)
          exact ⟨m, .inr hm, hmc⟩

/-- Merged runs are runs, and each run is removed by one of them. -/
lemma mergeRuns_spec (hes : ∀ f ∈ es, IsRun chosen t f) :
    (∀ f ∈ mergeRuns es, IsRun chosen t f) ∧
      ∀ f ∈ es, ∃ g ∈ mergeRuns es, g.removed.contains f.removed = true := by
  cases es with
  | nil => simp [mergeRuns]
  | cons e es =>
    exact mergeFrom_spec (hes e List.mem_cons_self) fun f hf => hes f (List.mem_cons_of_mem _ hf)

/-- A run stays one if it is widened, and removes no less. -/
lemma IsRun.widen (h : root.IsShaped) (ht : root.Has t) (he : IsRun chosen t e) (last : Range) :
    IsRun chosen t (widen t.handlers last e) ∧
      (Rethrow.widen t.handlers last e).removed.contains e.removed = true := by
  obtain ⟨c, hc, hk, htarget, hcon⟩ := he.target
  have hfind := h.find?_target ht (Cursor.mem_handlers.mpr ⟨hc, hk⟩)
  unfold Rethrow.widen
  simp only [htarget, hfind, Option.bind_some]
  split
  · have hstart : e.removed.start ≤ c.rangeWithTrivia.start := by
      have hself := Range.contains_iff.mp hcon
      have hremoval : (removal c).removed.start ≤ c.rangeWithTrivia.start := by
        unfold removal
        split
        · have := (widenTo_layoutStart (Nat.le_refl c.rangeWithTrivia.start)).1
          simp only [Edit.removal, this]
          omega
        · exact Nat.le_refl _
      omega
    obtain ⟨hwstart, hwstop⟩ := widenTo_layoutStart hstart
    have hwide : (widenTo (layoutStart? c) e.removed).contains e.removed = true := by
      rw [Range.contains_iff]
      omega
    refine ⟨⟨he.sweeps.widen h ht hc hstart, he.operation, c, hc, hk, rfl, ?_⟩, hwide⟩
    rw [Range.contains_iff] at hwide hcon ⊢
    simp only
    omega
  · exact ⟨he, by simp [Range.contains_iff]⟩

/-- **The removals from one guarded block**, merged: they are runs, and they remove no less. -/
theorem mergeRemovals_spec (h : root.IsShaped) (ht : root.Has t)
    (hes : ∀ f ∈ es, IsRun chosen t f) :
    (∀ f ∈ mergeRemovals t es, IsRun chosen t f) ∧
      ∀ f ∈ es, ∃ g ∈ mergeRemovals t es, g.removed.contains f.removed = true := by
  have hsorted : ∀ f ∈ sortEdits es, IsRun chosen t f := fun f hf => hes f (mem_sortEdits.mp hf)
  obtain ⟨hruns, hcovers⟩ := mergeRuns_spec hsorted
  have hcovers' : ∀ f ∈ es, ∃ g ∈ mergeRuns (sortEdits es), g.removed.contains f.removed = true :=
    fun f hf => hcovers f (mem_sortEdits.mpr hf)
  unfold mergeRemovals
  simp only
  split
  · rename_i last _
    split
    · exact ⟨hruns, hcovers'⟩
    · refine ⟨fun f hf => ?_, fun f hf => ?_⟩
      · obtain ⟨g, hg, rfl⟩ := List.mem_map.mp hf
        exact ((hruns g hg).widen h ht last.range).1
      · obtain ⟨g, hg, hgc⟩ := hcovers' f hf
        refine ⟨_, List.mem_map_of_mem hg, ?_⟩
        have hwide := ((hruns g hg).widen h ht last.range).2
        rw [Range.contains_iff] at hgc hwide ⊢
        omega
  · exact ⟨hruns, hcovers'⟩

/-- A run is a fix where something else is left. -/
lemma IsRun.isFix (he : IsRun chosen t e) (hleft : ¬IsPointless chosen t) : IsFix chosen t e := by
  obtain ⟨c, hc, hk, htarget, hcon⟩ := he.target
  refine .run hleft he.sweeps he.operation ⟨c, hc, hk, htarget, ?_⟩
  have := Range.contains_iff.mp (contains_removal c)
  rw [Range.contains_iff] at hcon ⊢
  omega

/-! ## Grouping by guarded block -/

/-- The removal of a handler belongs to its guarded block. -/
lemma owner?_removal (h : root.IsShaped) (ht : root.Has t) (hk : t.kind = .tryStatement)
    (hc : t.IsChild c) (hck : c.kind = .catchClause) : owner? root (removal c) = some t := by
  have htarget : (removal c).target = c.target := rfl
  rw [owner?, htarget, h.resolve?_target (ht.child hc) (.inr hck), Option.bind_some,
    Cursor.tryStatement?_eq_some hc, if_pos hk]
  exact if_pos hck

/-- The replacement of a guarded block has no owner, since it is no removal of a handler. -/
lemma owner?_flatten (hk : t.kind = .tryStatement) (he : flatten t = .ok e) :
    owner? root e = none := by
  obtain ⟨b, -, rfl⟩ := flatten_eq_ok he
  refine if_neg ?_
  simp [Edit.replacement, Cursor.target, hk]

/-- The edit for a handler that has an owner removes the handler, and one that has none puts the
body in the place of the whole. -/
lemma EditOf.of_owner? (h : root.IsShaped) (hc : EditOf root c e) :
    (∃ t, root.Has t ∧ t.kind = .tryStatement ∧ t.IsChild c ∧ c.kind = .catchClause ∧
      ((owner? root e = none ∧ t.handlers = [c] ∧ t.node.hasFinally = false ∧ flatten t = .ok e) ∨
        (owner? root e = some t ∧ e = removal c))) := by
  obtain ⟨t, ht, hk, htc, hck, hedit⟩ := hc.edit
  refine ⟨t, ht, hk, htc, hck, ?_⟩
  rcases hedit with ⟨hlen, hfin, hflat⟩ | ⟨-, rfl⟩
  · obtain ⟨x, hx⟩ := List.length_eq_one_iff.mp hlen
    have hmem : c ∈ t.handlers := Cursor.mem_handlers.mpr ⟨htc, hck⟩
    rw [hx, List.mem_singleton] at hmem
    exact .inl ⟨owner?_flatten hk hflat, by rw [hx, hmem], hfin, hflat⟩
  · exact .inr ⟨owner?_removal h ht hk htc hck, rfl⟩

/-- The edits that belong to one key, taken from all that have an owner. -/
lemma map_snd_filter_owned (owner? : Edit → Option Cursor) (key : Target) (es : List Edit) :
    ((es.filterMap fun e => (owner? e).map fun c => (c.target, e)).filter
      fun x => decide (x.1 = key)).map Prod.snd =
    es.filter fun e => decide ((owner? e).map Cursor.target = some key) := by
  induction es with
  | nil => rfl
  | cons e es ih =>
    cases hown : owner? e with
    | none => simp [hown, ih]
    | some c =>
      by_cases hkey : c.target = key
      · simp [hown, hkey, ih]
      · simp [hown, hkey, ih]

/-- The removals of different handlers are different. -/
lemma nodup_removals (h : root.IsShaped) (ht : root.Has t) : (t.handlers.map removal).Nodup := by
  refine t.nodup_handlers.map_on fun c hc d hd heq => ?_
  obtain ⟨htc, hck⟩ := Cursor.mem_handlers.mp hc
  obtain ⟨htd, -⟩ := Cursor.mem_handlers.mp hd
  exact h.eq_of_target_eq (ht.child htc) (ht.child htd) (.inr hck) (congrArg Edit.target heq)

/-- The removals of the handlers of a guarded block that pass a test. -/
lemma perm_removals (h : root.IsShaped) (ht : root.Has t) {removals : List Edit}
    (hnodup : removals.Nodup) (hmem : ∀ f ∈ removals, ∃ c ∈ t.handlers, f = removal c)
    {P : Cursor → Bool} (hP : ∀ c ∈ t.handlers, P c = true ↔ removal c ∈ removals) :
    removals.Perm ((t.handlers.filter P).map removal) := by
  refine (List.perm_ext_iff_of_nodup hnodup
    ((nodup_removals h ht).sublist (List.filter_sublist.map _))).mpr fun e => ?_
  simp only [List.mem_map, List.mem_filter]
  constructor
  · intro he
    obtain ⟨c, hc, rfl⟩ := hmem e he
    exact ⟨c, ⟨hc, (hP c hc).mpr he⟩, rfl⟩
  · rintro ⟨c, ⟨hc, hPc⟩, rfl⟩
    exact (hP c hc).mp hPc

/-- The handlers of a guarded block are all chosen if, and only if, there are as many removals of
chosen ones. -/
lemma length_handlers_eq_iff (h : root.IsShaped) (ht : root.Has t) {removals : List Edit}
    (hnodup : removals.Nodup) (hmem : ∀ f ∈ removals, ∃ c ∈ t.handlers, f = removal c) :
    t.handlers.length = removals.length ↔ ∀ c ∈ t.handlers, removal c ∈ removals := by
  have hsubset : removals ⊆ t.handlers.map removal := by
    intro f hf
    obtain ⟨c, hc, rfl⟩ := hmem f hf
    exact List.mem_map_of_mem hc
  have hsub := hnodup.subperm hsubset
  constructor
  · intro hlen c hc
    have hperm := hsub.perm_of_length_le (by rw [List.length_map, hlen])
    exact hperm.mem_iff.mpr (List.mem_map_of_mem hc)
  · intro hall
    have hsub' : (t.handlers.map removal).Subperm removals := by
      refine (nodup_removals h ht).subperm fun f hf => ?_
      obtain ⟨c, hc, rfl⟩ := List.mem_map.mp hf
      exact hall c hc
    have h₁ := hsub.length_le
    have h₂ := hsub'.length_le
    rw [List.length_map] at h₁ h₂
    omega

/-- **What the removals from one guarded block become**: if all its handlers are among them and no
clause runs in any case, the body takes the place of the whole, and otherwise they are merged. -/
lemma reconcileGroup_eq (h : root.IsShaped) (ht : root.Has t) (hk : t.kind = .tryStatement)
    {removals : List Edit} (hnodup : removals.Nodup) (hne : removals ≠ [])
    (hmem : ∀ f ∈ removals, ∃ c ∈ t.handlers, f = removal c)
    (hchosen : ∀ c ∈ t.handlers, chosen c ↔ removal c ∈ removals) :
    (IsPointless chosen t →
        reconcileGroup root t.target removals = (flatten t).map fun e => [e]) ∧
      (¬IsPointless chosen t →
        reconcileGroup root t.target removals = .ok (mergeRemovals t removals)) := by
  have hall := length_handlers_eq_iff h ht hnodup hmem
  simp only [reconcileGroup, h.resolve?_target ht (.inl hk)]
  constructor
  · intro hpoint
    rw [if_neg]
    rintro (hfin | hlen)
    · simp [hpoint.hasFinally] at hfin
    · exact hlen (hall.mpr fun c hc => (hchosen c hc).mp (hpoint.chosen c hc))
  · intro hleft
    rw [if_pos]
    by_contra hcon
    push Not at hcon
    obtain ⟨f, hf⟩ := List.exists_mem_of_ne_nil _ hne
    obtain ⟨d, hd, -⟩ := hmem f hf
    exact hleft ⟨by simpa using hcon.1, List.ne_nil_of_mem hd,
      fun c hc => (hchosen c hc).mpr (hall.mp hcon.2 c hc)⟩

/-- The removals from one guarded block, reconciled: they fix it, and they remove no less. -/
lemma reconcileGroup_spec (h : root.IsShaped) (ht : root.Has t) (hk : t.kind = .tryStatement)
    {removals : List Edit} (hnodup : removals.Nodup) (hne : removals ≠ [])
    (hmem : ∀ f ∈ removals, ∃ c ∈ t.handlers, f = removal c)
    (hchosen : ∀ c ∈ t.handlers, chosen c ↔ removal c ∈ removals)
    (hes : reconcileGroup root t.target removals = .ok es) :
    (∀ e ∈ es, IsFix chosen t e) ∧
      ∀ c, t.IsChild c → c.kind = .catchClause → chosen c →
        ∃ e ∈ es, IsFix chosen t e ∧ e.removed.contains c.range = true := by
  obtain ⟨hflat, hmerge⟩ := reconcileGroup_eq h ht hk hnodup hne hmem hchosen
  by_cases hpoint : IsPointless chosen t
  · rw [hflat hpoint] at hes
    cases hfl : flatten t with
    | error reason => simp [hfl, Except.map] at hes
    | ok e =>
      obtain rfl : [e] = es := by simpa [hfl, Except.map] using hes
      obtain ⟨b, hb, heq⟩ := flatten_eq_ok hfl
      have hfix : IsFix chosen t e := .flat hpoint hb heq
      refine ⟨by simpa using hfix, fun c htc _ _ => ⟨_, List.mem_singleton.mpr rfl, hfix, ?_⟩⟩
      rw [heq]
      exact Cursor.Below.contains (.single htc)
  · rw [hmerge hpoint] at hes
    obtain rfl : mergeRemovals t removals = es := by simpa using hes
    have hruns : ∀ f ∈ removals, IsRun chosen t f := by
      intro f hf
      obtain ⟨c, hc, rfl⟩ := hmem f hf
      obtain ⟨htc, hck⟩ := Cursor.mem_handlers.mp hc
      exact isRun_removal h ht htc hck ((hchosen c hc).mpr hf)
    obtain ⟨hfix, hcovers⟩ := mergeRemovals_spec h ht hruns
    refine ⟨fun e he => (hfix e he).isFix hpoint, fun c htc hck hc => ?_⟩
    obtain ⟨e, he, hcon⟩ := hcovers _ ((hchosen c (Cursor.mem_handlers.mpr ⟨htc, hck⟩)).mp hc)
    refine ⟨e, he, (hfix e he).isFix hpoint, ?_⟩
    have := Range.contains_iff.mp (contains_removal c)
    rw [Range.contains_iff] at hcon ⊢
    omega

/-! ## The edits of a batch -/

section Batch

variable {edits : List Edit}

/-- The edits of a batch that belong to a guarded block. -/
def ownedBy (root : Node) (t : Cursor) (edits : List Edit) : List Edit :=
  edits.filter fun e => decide ((owner? root e).map Cursor.target = some t.target)

/-- The removals that belong to a guarded block are those of its handlers in the batch. -/
lemma removal_mem_ownedBy (h : root.IsShaped) (ht : root.Has t) (hk : t.kind = .tryStatement)
    (hc : t.IsChild c) (hck : c.kind = .catchClause) :
    removal c ∈ ownedBy root t edits ↔ removal c ∈ edits := by
  simp [ownedBy, List.mem_filter, owner?_removal h ht hk hc hck]

/-- The edits of a batch that belong to a guarded block are removals of its handlers. -/
lemma exists_of_mem_ownedBy (h : root.IsShaped) (ht : root.Has t)
    (hedits : ∀ e ∈ edits, ∃ c, EditOf root c e) (he : e ∈ ownedBy root t edits) :
    ∃ c ∈ t.handlers, e = removal c := by
  obtain ⟨hmem, hown⟩ := List.mem_filter.mp he
  obtain ⟨c, hc⟩ := hedits e hmem
  obtain ⟨u, hu, huk, huc, hck, hcase⟩ := hc.of_owner? h
  rcases hcase with ⟨hnone, -⟩ | ⟨hsome, rfl⟩
  · simp [hnone] at hown
  · have htarget : u.target = t.target := by simpa [hsome] using hown
    obtain rfl := h.eq_of_target_eq hu ht (.inl huk) htarget
    exact ⟨c, Cursor.mem_handlers.mpr ⟨huc, hck⟩, rfl⟩

/-- Where a batch removes some handler of a guarded block, the handlers of the block that it chose
are those whose removals it contains. -/
lemma chosen_iff_removal_mem (h : root.IsShaped) (ht : root.Has t) (hk : t.kind = .tryStatement)
    (hedits : ∀ e ∈ edits, ∃ c, EditOf root c e) (hd : d ∈ t.handlers) (hmem : removal d ∈ edits)
    (hc : c ∈ t.handlers) : (∃ e ∈ edits, EditOf root c e) ↔ removal c ∈ edits := by
  obtain ⟨htc, hck⟩ := Cursor.mem_handlers.mp hc
  constructor
  · rintro ⟨e, he, hce⟩
    obtain ⟨u, -, -, huc, -, hcase⟩ := hce.of_owner? h
    obtain rfl : t = u := by simpa [htc.parent?_eq] using huc.parent?_eq
    rcases hcase with ⟨-, hone, -⟩ | ⟨-, rfl⟩
    · rw [hone, List.mem_singleton] at hd
      rwa [← hd]
    · exact he
  · intro he
    obtain ⟨c', hc'⟩ := hedits _ he
    obtain ⟨u, hu, -, huc, -, hcase⟩ := hc'.of_owner? h
    rw [owner?_removal h ht hk htc hck] at hcase
    rcases hcase with ⟨hnone, -⟩ | ⟨-, heq⟩
    · cases hnone
    · have htarget : c.target = c'.target := congrArg Edit.target heq
      obtain rfl := h.eq_of_target_eq (ht.child htc) (hu.child huc) (.inr hck) htarget
      exact ⟨_, he, hc'⟩

/-- **What a batch is reconciled to**: the edits without an owner, and what becomes of the removals
from each guarded block that owns some. -/
theorem mem_reconcile (hes : reconcile root edits = .ok es) :
    (∀ e, e ∈ es ↔ (e ∈ edits ∧ owner? root e = none) ∨ ∃ f ∈ edits, ∃ u gs,
      owner? root f = some u ∧ reconcileGroup root u.target (ownedBy root u edits) = .ok gs ∧ e ∈ gs) ∧
    ∀ f ∈ edits, ∀ u, owner? root f = some u →
      ∃ gs, reconcileGroup root u.target (ownedBy root u edits) = .ok gs := by
  simp only [reconcile, groupBy_eq] at hes
  cases hgroups : ((distinct ((edits.filterMap fun e =>
      (owner? root e).map fun c => (c.target, e)).map Prod.fst)).map fun k =>
        (k, (edits.filterMap fun e => (owner? root e).map fun c => (c.target, e)).filter
          fun x => decide (x.1 = k))).mapM fun g => reconcileGroup root g.1 (g.2.map Prod.snd) with
  | error reason => simp [hgroups, bind, Except.bind] at hes
  | ok groups =>
    obtain rfl : edits.filter (fun e => (owner? root e).isNone) ++ groups.flatten = es := by
      simpa [hgroups, bind, Except.bind, pure, Except.pure] using hes
    have hrel := forall₂_of_mapM_eq_ok hgroups
    rw [List.forall₂_map_left_iff] at hrel
    simp only [map_snd_filter_owned] at hrel
    obtain ⟨hofGroup, hofKey⟩ := exists_of_forall₂ hrel
    have hkey : ∀ f ∈ edits, ∀ u, owner? root f = some u → ∃ gs ∈ groups,
        reconcileGroup root u.target (ownedBy root u edits) = .ok gs := by
      intro f hf u hown
      refine hofKey u.target ?_
      simp only [mem_distinct, List.mem_map, List.mem_filterMap, Option.map_eq_some_iff]
      exact ⟨_, ⟨f, hf, u, hown, rfl⟩, rfl⟩
    refine ⟨fun e => ?_, fun f hf u hown => (hkey f hf u hown).imp fun gs hgs => hgs.2⟩
    rw [List.mem_append, List.mem_filter, Option.isNone_iff_eq_none]
    refine or_congr_right ⟨fun he => ?_, ?_⟩
    · obtain ⟨gs, hgs, he⟩ := List.mem_flatten.mp he
      obtain ⟨key, hmem, hrec⟩ := hofGroup gs hgs
      simp only [mem_distinct, List.mem_map, List.mem_filterMap, Option.map_eq_some_iff] at hmem
      obtain ⟨_, ⟨f, hf, u, hown, rfl⟩, rfl⟩ := hmem
      exact ⟨f, hf, u, gs, hown, hrec, he⟩
    · rintro ⟨f, hf, u, gs, hown, hrec, he⟩
      obtain ⟨gs', hgs', hrec'⟩ := hkey f hf u hown
      obtain rfl := Except.ok.inj (hrec.symm.trans hrec')
      exact List.mem_flatten.mpr ⟨gs, hgs', he⟩

/-- If a batch holds one removal of a guarded block, the handlers that it chose are those whose removals
belong to the block. -/
lemma chosen_iff_mem_ownedBy (h : root.IsShaped) (ht : root.Has t) (hk : t.kind = .tryStatement)
    (hedits : ∀ e ∈ edits, ∃ c, EditOf root c e) (hd : d ∈ t.handlers) (hmem : removal d ∈ edits)
    (hc : c ∈ t.handlers) :
    (∃ e ∈ edits, EditOf root c e) ↔ removal c ∈ ownedBy root t edits := by
  obtain ⟨htc, hck⟩ := Cursor.mem_handlers.mp hc
  rw [chosen_iff_removal_mem h ht hk hedits hd hmem hc, removal_mem_ownedBy h ht hk htc hck]

/-- The edits that belong to a guarded block are runs of one handler. -/
lemma isRun_of_mem_ownedBy (h : root.IsShaped) (ht : root.Has t)
    (hedits : ∀ e ∈ edits, ∃ c, EditOf root c e)
    (hchosen : ∀ c ∈ t.handlers, removal c ∈ ownedBy root t edits → chosen c)
    (he : e ∈ ownedBy root t edits) : IsRun chosen t e := by
  obtain ⟨c, hc, rfl⟩ := exists_of_mem_ownedBy h ht hedits he
  obtain ⟨htc, hck⟩ := Cursor.mem_handlers.mp hc
  exact isRun_removal h ht htc hck (hchosen c hc he)

/-- **The reconciled edits of a batch** are a plan for the handlers that the batch chose.

**Proof sketch.** An edit without an owner puts the body of a guarded block in the place of the
whole, and its one handler was chosen. The others are removals, grouped by the guarded block that
owns them. Each group has a key that occurs, hence a guarded block that is found by it, and the
removals of the group are those of its chosen handlers. -/
theorem isPlan_reconcile (h : root.IsShaped) (hnodup : edits.Nodup)
    (hedits : ∀ e ∈ edits, ∃ c, EditOf root c e) (hes : reconcile root edits = .ok es) :
    IsPlan root (fun c => ∃ e ∈ edits, EditOf root c e) es := by
  obtain ⟨hmem, hrec⟩ := mem_reconcile hes
  -- a removal in the batch says what has become of its whole group
  have hgroup : ∀ {t d gs}, root.Has t → t.kind = .tryStatement → t.IsChild d →
      d.kind = .catchClause → removal d ∈ edits →
      reconcileGroup root t.target (ownedBy root t edits) = .ok gs →
      (∀ e ∈ gs, IsFix (fun c => ∃ e ∈ edits, EditOf root c e) t e) ∧
        ∀ c, t.IsChild c → c.kind = .catchClause → (∃ e ∈ edits, EditOf root c e) →
          ∃ e ∈ gs, IsFix (fun c => ∃ e ∈ edits, EditOf root c e) t e ∧
            e.removed.contains c.range = true := by
    intro t d gs ht hk hd hdk hmem hgs
    refine reconcileGroup_spec h ht hk (hnodup.filter _) (List.ne_nil_of_mem
      ((removal_mem_ownedBy h ht hk hd hdk).mpr hmem))
      (fun f hf => exists_of_mem_ownedBy h ht hedits hf) (fun c hc => ?_) hgs
    exact chosen_iff_mem_ownedBy h ht hk hedits (Cursor.mem_handlers.mpr ⟨hd, hdk⟩) hmem hc
  have hfree : ∀ {t c e}, root.Has t → t.kind = .tryStatement → t.IsChild c → e ∈ edits →
      EditOf root c e → t.handlers = [c] → t.node.hasFinally = false → flatten t = .ok e →
      IsFix (fun c => ∃ e ∈ edits, EditOf root c e) t e := by
    intro t c e ht hk hc he hce hone hfin hflat
    obtain ⟨b, hb, heq⟩ := flatten_eq_ok hflat
    exact .flat ⟨hfin, by simp [hone], by simpa [hone] using ⟨e, he, hce⟩⟩ hb heq
  constructor
  · intro e he
    rcases (hmem e).mp he with ⟨he, hnone⟩ | ⟨f, hf, u, gs, hown, hgs, he⟩
    · obtain ⟨c, hc⟩ := hedits e he
      obtain ⟨t, ht, hk, htc, -, hcase⟩ := hc.of_owner? h
      rcases hcase with ⟨-, hone, hfin, hflat⟩ | ⟨hsome, -⟩
      · exact ⟨t, ht, hk, hfree ht hk htc he hc hone hfin hflat⟩
      · cases hnone.symm.trans hsome
    · obtain ⟨c, hc⟩ := hedits f hf
      obtain ⟨t, ht, hk, htc, hck, hcase⟩ := hc.of_owner? h
      rcases hcase with ⟨hnone, -⟩ | ⟨hsome, rfl⟩
      · cases hown.symm.trans hnone
      · obtain rfl := Option.some.inj (hown.symm.trans hsome)
        exact ⟨u, ht, hk, (hgroup ht hk htc hck hf hgs).1 e he⟩
  · rintro c ⟨e, he, hce⟩
    obtain ⟨t, ht, hk, htc, hck, hcase⟩ := hce.of_owner? h
    refine ⟨t, ht, hk, htc, hck, ?_⟩
    rcases hcase with ⟨hnone, hone, hfin, hflat⟩ | ⟨hsome, rfl⟩
    · refine ⟨e, (hmem e).mpr (.inl ⟨he, hnone⟩), hfree ht hk htc he hce hone hfin hflat, ?_⟩
      obtain ⟨b, -, rfl⟩ := flatten_eq_ok hflat
      exact Cursor.Below.contains (.single htc)
    · obtain ⟨gs, hgs⟩ := hrec _ he t hsome
      obtain ⟨f, hf, hfix⟩ := (hgroup ht hk htc hck he hgs).2 c htc hck ⟨_, he, hce⟩
      exact ⟨f, (hmem f).mpr (.inr ⟨_, he, t, gs, hsome, hgs, hf⟩), hfix⟩

/-- A handler that a batch chose is removed by an edit of its own, unless nothing but a body is left of
its guarded block. -/
lemma removal_mem_of_chosen (h : root.IsShaped)
    (hleft : ¬IsPointless (fun c => ∃ e ∈ edits, EditOf root c e) t) (hd : d ∈ t.handlers)
    (hdc : ∃ e ∈ edits, EditOf root d e) : removal d ∈ edits := by
  obtain ⟨htd, -⟩ := Cursor.mem_handlers.mp hd
  obtain ⟨e, he, hde⟩ := hdc
  obtain ⟨u, -, -, hud, -, hcase⟩ := hde.of_owner? h
  obtain rfl : t = u := by simpa [htd.parent?_eq] using hud.parent?_eq
  rcases hcase with ⟨-, hone, hfin, -⟩ | ⟨-, rfl⟩
  · exact absurd ⟨hfin, by simp [hone], by simpa [hone] using ⟨e, he, hde⟩⟩ hleft
  · exact he

/-- A reconciled edit that removes handlers of a guarded block is one of the merged removals of this
block. -/
lemma mem_mergeRemovals_of_target (h : root.IsShaped) (hedits : ∀ e ∈ edits, ∃ c, EditOf root c e)
    (hes : reconcile root edits = .ok es) (ht : root.Has t) (he : e ∈ es)
    (hop : e.operation = .remove) (htc : t.IsChild c) (hck : c.kind = .catchClause)
    (htarget : e.target = c.target) : e ∈ mergeRemovals t (ownedBy root t edits) := by
  obtain ⟨hmem, -⟩ := mem_reconcile hes
  have hflat : ∀ {u}, flatten u ≠ .ok e := by
    intro u hu
    obtain ⟨b, -, rfl⟩ := flatten_eq_ok hu
    cases hop
  rcases (hmem e).mp he with ⟨he, hnone⟩ | ⟨f, hf, u, gs, hown, hgs, he⟩
  · obtain ⟨c', hc'⟩ := hedits e he
    obtain ⟨u, -, -, -, -, ⟨-, -, -, hu⟩ | ⟨hsome, -⟩⟩ := hc'.of_owner? h
    · exact absurd hu hflat
    · cases hnone.symm.trans hsome
  · obtain ⟨c', hc'⟩ := hedits f hf
    obtain ⟨u', hu, huk, -, -, ⟨hnone, -⟩ | ⟨hsome, -⟩⟩ := hc'.of_owner? h
    · cases hown.symm.trans hnone
    obtain rfl := Option.some.inj (hown.symm.trans hsome)
    simp only [reconcileGroup, h.resolve?_target hu (.inl huk)] at hgs
    split at hgs
    · -- a run of removals has its target in its guarded block
      obtain rfl := Except.ok.inj hgs
      have hruns : ∀ f ∈ ownedBy root u edits, IsRun (fun _ => True) u f := fun f hf =>
        isRun_of_mem_ownedBy h hu hedits (fun _ _ _ => trivial) hf
      obtain ⟨x, hux, hxk, hxtarget, -⟩ := ((mergeRemovals_spec h hu hruns).1 e he).target
      obtain rfl := h.eq_of_target_eq (ht.child htc) (hu.child hux) (.inr hck)
        (htarget.symm.trans hxtarget)
      obtain rfl : t = u := by simpa [htc.parent?_eq] using hux.parent?_eq
      exact he
    · cases hfl : flatten u with
      | error reason => simp [hfl, Except.map] at hgs
      | ok e' =>
        obtain rfl : [e'] = gs := by simpa [hfl, Except.map] using hgs
        exact absurd (List.mem_singleton.mp he ▸ hfl) hflat

/-- **Which edits remove handlers of a guarded block**, if something else is left of it than its body:
the removals of its chosen handlers, merged. -/
theorem mem_mergeRemovals_iff (h : root.IsShaped) (hnodup : edits.Nodup)
    (hedits : ∀ e ∈ edits, ∃ c, EditOf root c e) (hes : reconcile root edits = .ok es)
    (ht : root.Has t) (hk : t.kind = .tryStatement)
    (hleft : ¬IsPointless (fun c => ∃ e ∈ edits, EditOf root c e) t) (hd : d ∈ t.handlers)
    (hdc : ∃ e ∈ edits, EditOf root d e) :
    (∀ c ∈ t.handlers, (∃ e ∈ edits, EditOf root c e) ↔ removal c ∈ ownedBy root t edits) ∧
      ∀ e, e ∈ mergeRemovals t (ownedBy root t edits) ↔
        e ∈ es ∧ IsFix (fun c => ∃ e ∈ edits, EditOf root c e) t e := by
  obtain ⟨hmem, -⟩ := mem_reconcile hes
  obtain ⟨htd, hdk⟩ := Cursor.mem_handlers.mp hd
  have hremoval : removal d ∈ edits := removal_mem_of_chosen h hleft hd hdc
  have hchosen : ∀ c ∈ t.handlers,
      (∃ e ∈ edits, EditOf root c e) ↔ removal c ∈ ownedBy root t edits := fun c hc =>
    chosen_iff_mem_ownedBy h ht hk hedits hd hremoval hc
  refine ⟨hchosen, fun e => ⟨fun he => ?_, ?_⟩⟩
  · have hgroup := (reconcileGroup_eq h ht hk (hnodup.filter _) (List.ne_nil_of_mem
      ((removal_mem_ownedBy h ht hk htd hdk).mpr hremoval))
      (fun f hf => exists_of_mem_ownedBy h ht hedits hf) hchosen).2 hleft
    have hown := owner?_removal h ht hk htd hdk
    refine ⟨(hmem e).mpr (.inr ⟨_, hremoval, t, _, hown, hgroup, he⟩), ?_⟩
    exact ((mergeRemovals_spec h ht fun f hf => isRun_of_mem_ownedBy h ht hedits
      (fun c hc => (hchosen c hc).mpr) hf).1 e he).isFix hleft
  · rintro ⟨he, hfix⟩
    cases hfix with
    | flat hpoint => exact absurd hpoint hleft
    | run _ _ hop htarget =>
      obtain ⟨c, htc, hck, htarget, -⟩ := htarget
      exact mem_mergeRemovals_of_target h hedits hes ht he hop htc hck htarget

end Batch

end TreeLint.Rethrow
