import Mathlib.Data.List.Induction
import Mathlib.Data.List.Perm.Subperm
import Mathlib.Tactic.Common
import TreeLint.Data.Assoc
import TreeLint.Fix.Engine

/-!
# Groups and distinct members

Grouping a list by a key gives one group for each key that occurs, with the members of that key in
order.

## Main results

* `TreeLint.mem_distinct`, `TreeLint.nodup_distinct` — the distinct members of a list.
* `TreeLint.groupBy_eq` — the groups of a list in closed form.
* `TreeLint.mapM_eq`, `TreeLint.forall₂_of_mapM_eq_ok` — runs over a list that do not fail.
-/

namespace TreeLint

section Distinct

variable {α : Type} [DecidableEq α]

@[simp] lemma mem_distinct {a : α} {as : List α} : a ∈ distinct as ↔ a ∈ as := by
  induction as with
  | nil => simp [distinct]
  | cons b as ih =>
    by_cases h : a = b
    · simp [distinct, h]
    · simp [distinct, h, ih]

/-- No member occurs twice among the distinct ones. -/
lemma nodup_distinct (as : List α) : (distinct as).Nodup := by
  induction as with
  | nil => exact List.nodup_nil
  | cons a as ih =>
    rw [distinct, List.nodup_cons]
    exact ⟨by simp, ih.filter _⟩

/-- A member at the end is a further one if it does not occur before. -/
lemma distinct_append_singleton (as : List α) (a : α) :
    distinct (as ++ [a]) = if a ∈ as then distinct as else distinct as ++ [a] := by
  induction as with
  | nil => simp [distinct]
  | cons b as ih =>
    rw [List.cons_append, distinct, ih]
    by_cases hab : a = b
    · subst hab
      by_cases hmem : a ∈ as <;> simp [distinct, hmem]
    · by_cases hmem : a ∈ as <;> simp [distinct, hmem, hab, List.filter_append]

/-- The members of a list without repetitions are its distinct ones. -/
lemma distinct_of_nodup {as : List α} (h : as.Nodup) : distinct as = as := by
  induction as with
  | nil => rfl
  | cons a as ih =>
    obtain ⟨ha, h⟩ := List.nodup_cons.mp h
    rw [distinct, ih h, List.filter_eq_self.mpr fun b hb => ?_]
    simpa using fun heq : b = a => ha (heq ▸ hb)

/-- A list whose members all are the same. -/
lemma distinct_eq_singleton {as : List α} {a : α} (hne : as ≠ []) (has : ∀ b ∈ as, b = a) :
    distinct as = [a] := by
  cases as with
  | nil => exact absurd rfl hne
  | cons b as =>
    obtain ⟨rfl, hrest⟩ := List.forall_mem_cons.mp has
    rw [distinct, List.filter_eq_nil_iff.mpr fun c hc => ?_]
    simp [hrest c (mem_distinct.mp hc)]

end Distinct

/-! ## Groups -/

section Groups

variable {α κ : Type} [DecidableEq κ]

/-- A member joins the group of its key, and opens a group at the end if there is none. -/
lemma addToGroup_map {key : κ} {a : α} {ks : List κ} (hks : ks.Nodup) (members : κ → List α) :
    addToGroup key a (ks.map fun k => (k, members k)) =
      if key ∈ ks then ks.map fun k => (k, if k = key then members k ++ [a] else members k)
      else (ks.map fun k => (k, members k)) ++ [(key, [a])] := by
  induction ks with
  | nil => simp [addToGroup]
  | cons k ks ih =>
    rw [List.nodup_cons] at hks
    by_cases hk : k = key
    · subst hk
      have hrest : ks.map (fun j => (j, if j = k then members j ++ [a] else members j)) =
          ks.map fun j => (j, members j) :=
        List.map_congr_left fun j hj => by rw [if_neg fun heq : j = k => hks.1 (heq ▸ hj)]
      simp [addToGroup, hrest]
    · have hk' : key ≠ k := fun h => hk h.symm
      simp only [List.map_cons, addToGroup, hk, if_false, ih hks.2, List.mem_cons, hk', false_or]
      split <;> simp

/-- **The groups of a list** are those of the keys that occur, each with the members that have the
key. -/
theorem groupBy_eq (key : α → κ) (as : List α) :
    groupBy key as =
      (distinct (as.map key)).map fun k => (k, as.filter fun a => decide (key a = k)) := by
  induction as using List.reverseRecOn with
  | nil => rfl
  | append_singleton as a ih =>
    rw [groupBy, List.foldl_append] at *
    simp only [List.foldl_cons, List.foldl_nil]
    rw [ih, addToGroup_map (nodup_distinct _), List.map_append, List.map_singleton,
      distinct_append_singleton]
    simp only [mem_distinct]
    by_cases hmem : key a ∈ as.map key
    · rw [if_pos hmem, if_pos hmem]
      refine List.map_congr_left fun k _ => ?_
      by_cases hk : k = key a
      · subst hk
        simp [List.filter_append]
      · have hk' : key a ≠ k := fun h => hk h.symm
        simp [List.filter_append, hk, hk']
    · rw [if_neg hmem, if_neg hmem, List.map_append, List.map_singleton]
      congr 1
      · refine List.map_congr_left fun k hk => ?_
        have hk' : key a ≠ k := fun h => hmem (h ▸ mem_distinct.mp hk)
        simp [List.filter_append, hk']
      · have hnone : as.filter (fun b => decide (key b = key a)) = [] := by
          rw [List.filter_eq_nil_iff]
          intro b hb
          simpa using fun heq : key b = key a => hmem (heq ▸ List.mem_map_of_mem hb)
        simp [List.filter_append, hnone]

/-- Members that all have one key are one group. -/
lemma groupBy_eq_singleton {key : α → κ} {as : List α} {k : κ} (hne : as ≠ [])
    (h : ∀ a ∈ as, key a = k) : groupBy key as = [(k, as)] := by
  have hkeys : distinct (as.map key) = [k] :=
    distinct_eq_singleton (by simpa using hne) (by simpa using h)
  have hall : as.filter (fun a => decide (key a = k)) = as :=
    List.filter_eq_self.mpr fun a ha => by simpa using h a ha
  rw [groupBy_eq, hkeys, List.map_singleton, hall]

end Groups

/-! ## Runs that do not fail -/

/-- A run over a list of which no step fails. -/
lemma mapM_eq {α β : Type} {f : α → Option β} {g : α → β} {as : List α}
    (h : ∀ a ∈ as, f a = some (g a)) : as.mapM f = some (as.map g) := by
  induction as with
  | nil => rfl
  | cons a as ih =>
    rw [List.mapM_cons, h a List.mem_cons_self, ih fun b hb => h b (List.mem_cons_of_mem _ hb)]
    rfl

/-- A run over a list that does not fail gives a result for each member. -/
lemma forall₂_of_mapM_eq_ok {ε α β : Type} {f : α → Except ε β} {as : List α} {bs : List β}
    (h : as.mapM f = .ok bs) : List.Forall₂ (fun a b => f a = .ok b) as bs := by
  induction as generalizing bs with
  | nil =>
    rw [List.mapM_nil] at h
    cases h
    exact .nil
  | cons a as ih =>
    rw [List.mapM_cons] at h
    cases ha : f a with
    | error e => simp [ha, bind, Except.bind] at h
    | ok b =>
      cases hrest : as.mapM f with
      | error e => simp [ha, hrest, bind, Except.bind] at h
      | ok bs' =>
        obtain rfl : b :: bs' = bs := by simpa [ha, hrest, bind, Except.bind, pure, Except.pure] using h
        exact .cons ha (ih hrest)

/-- Each member of the second of two related lists is related to a member of the first, and the
other way round. -/
lemma exists_of_forall₂ {α β : Type} {R : α → β → Prop} {as : List α} {bs : List β}
    (h : List.Forall₂ R as bs) :
    (∀ b ∈ bs, ∃ a ∈ as, R a b) ∧ ∀ a ∈ as, ∃ b ∈ bs, R a b := by
  induction h with
  | nil => simp
  | cons hab _ ih =>
    obtain ⟨hright, hleft⟩ := ih
    refine ⟨fun b hb => ?_, fun a ha => ?_⟩
    · rcases List.mem_cons.mp hb with rfl | hb
      · exact ⟨_, List.mem_cons_self, hab⟩
      · obtain ⟨a, ha, hR⟩ := hright b hb
        exact ⟨a, List.mem_cons_of_mem _ ha, hR⟩
    · rcases List.mem_cons.mp ha with rfl | ha
      · exact ⟨_, List.mem_cons_self, hab⟩
      · obtain ⟨b, hb, hR⟩ := hleft a ha
        exact ⟨b, List.mem_cons_of_mem _ hb, hR⟩

/-- If each member of a list is related to something, the list is related to a list. -/
lemma exists_forall₂ {α β : Type} {R : α → β → Prop} {as : List α} (h : ∀ a ∈ as, ∃ b, R a b) :
    ∃ bs, List.Forall₂ R as bs := by
  induction as with
  | nil => exact ⟨[], .nil⟩
  | cons a as ih =>
    obtain ⟨b, hb⟩ := h a List.mem_cons_self
    obtain ⟨bs, hbs⟩ := ih fun x hx => h x (List.mem_cons_of_mem _ hx)
    exact ⟨b :: bs, .cons hb hbs⟩

end TreeLint
