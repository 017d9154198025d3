import Mathlib.Data.List.Basic
import TreeLint.Rule.Builtin
import TreeLint.Rule.Shared

/-!
# Clients that share a registry

Several clients register rules and take snapshots, in any order of their turns. Whatever this order
is, the clients see a registry to which the rules have been added one after the other: those whose
registration went well, in the order of success. So no registration undoes another, a registration
that fails changes nothing, and a snapshot shows a beginning of every later registry.

## Main definitions

* `TreeLint.SharedRegistry.Turn` — what a turn can do to the maps.
* `TreeLint.SharedRegistry.Shares` — the clients share a registry.
* `TreeLint.SharedRegistry.IsFaithful` — what holds between two points of a run.

## Main results

* `TreeLint.SharedRegistry.turn_step` — what a step can do to the maps.
* `TreeLint.SharedRegistry.Shares.step`, `TreeLint.SharedRegistry.Shares.run` — what a step preserves,
  and what a run does.
* `TreeLint.SharedRegistry.run_registerCatalog` — a catalog that no other client interrupts.
* `TreeLint.SharedRegistry.isFaithful_run` — any two points of any run.
-/

namespace TreeLint

/-! ## Maps of rules -/

namespace Registry

variable {r s : Registry} {d : Descriptor}

/-- A rule is found by its identifier in the map of a registry as in the registry itself. -/
lemma find?_toAssoc (r : Registry) (id : String) : r.toAssoc.find? id = r.find? id := by
  unfold toAssoc find?
  induction r.rules with
  | nil => rfl
  | cons e ds ih => by_cases he : e.id = id <;> simp [Assoc.find?, he, ih]

/-- The keys of the map are the identifiers of the rules. -/
lemma map_fst_toAssoc (r : Registry) : r.toAssoc.map Prod.fst = r.rules.map Descriptor.id := by
  simp [toAssoc, Function.comp_def]

/-- The values of the map are the rules. -/
lemma map_snd_toAssoc (r : Registry) : r.toAssoc.map Prod.snd = r.rules := by
  simp [toAssoc, Function.comp_def]

/-- No rule is found under an identifier that is not taken. -/
lemma find?_eq_none_iff {id : String} : r.find? id = none ↔ id ∉ r.rules.map Descriptor.id := by
  simp [find?]

/-- Inserting a rule with a new identifier into a copy of the rules registers it. -/
lemma insert_toAssoc (h : r.register d = .ok s) : r.toAssoc.insert d.id d = s.toAssoc := by
  obtain ⟨hnew, hrules⟩ := register_eq_ok_iff.mp h
  have hfind : r.toAssoc.find? d.id = none := by
    rw [find?_toAssoc]
    exact find?_eq_none_iff.mpr hnew
  rw [Assoc.insert_of_find?_eq_none d hfind, toAssoc, toAssoc, hrules, List.map_append]
  rfl

/-- With more rules behind its own, a registry has a map that begins with the old one. -/
lemma toAssoc_append {ds : List Descriptor} (h : s.rules = r.rules ++ ds) :
    r.toAssoc <+: s.toAssoc := by
  rw [toAssoc, toAssoc, h, List.map_append]
  exact List.prefix_append _ _

/-- To look up an identifier gives the registered rule that has it. -/
lemma lookup_eq_ok_iff {id : String} : r.lookup id = .ok d ↔ d ∈ r.rules ∧ d.id = id := by
  rw [← find?_eq_some_iff, lookup]
  cases r.find? id <;> simp

/-- What a registration comes to. -/
def answer (r : Registry) (rule : Except Error Descriptor) : RegistryEvent :=
  match rule with
  | .error e => .refused e
  | .ok d =>
    match r.register d with
    | .error e => .refused e
    | .ok _ => .registered d

end Registry

namespace SharedRegistry

variable {ι : Type} {s t : SharedRegistry ι} {r r' : Registry}

/-- The current map is the one at the current handle. -/
lemma map_eq_iff {m : Assoc Descriptor} : s.map = m ↔ s.maps[s.current]? = some m := by
  rw [List.getElem?_eq_getElem s.current_lt, Option.some.injEq]
  rfl

/-! ## One step -/

/-- A registration changes nothing and fails as the registry would, or it makes the registry with one
more rule the current one. -/
lemma attempt_cases (h : s.map = r.toAssoc) (rule : Except Error Descriptor) :
    (∃ d r', rule = .ok d ∧ r.register d = .ok r' ∧
      s.attempt rule = (s.publish r'.toAssoc, .registered d)) ∨
    ∃ e, rule.bind r.register = .error e ∧ s.attempt rule = (s, .refused e) := by
  cases rule with
  | error e => exact .inr ⟨e, rfl, rfl⟩
  | ok d =>
    simp only [attempt, h, Registry.find?_toAssoc]
    cases hregister : r.register d with
    | ok r' =>
      have hnone := Registry.find?_eq_none_iff.mpr (Registry.register_eq_ok_iff.mp hregister).1
      refine .inl ⟨d, r', rfl, hregister, ?_⟩
      rw [hnone, Registry.insert_toAssoc hregister]
    | error e =>
      obtain ⟨hmem, rfl⟩ := Registry.register_eq_error_iff.mp hregister
      obtain ⟨d', hd'⟩ : ∃ d', r.find? d.id = some d' :=
        Option.ne_none_iff_exists'.mp fun hnone => Registry.find?_eq_none_iff.mp hnone hmem
      exact .inr ⟨_, hregister, by rw [hd']⟩

/-- Every registration is answered as the registry would answer it. -/
lemma attempt_answer (h : s.map = r.toAssoc) (rule : Except Error Descriptor) :
    (s.attempt rule).2 = r.answer rule := by
  obtain ⟨d, r', rfl, hregister, heq⟩ | ⟨e, hfail, heq⟩ := attempt_cases h rule
  · simp only [heq, Registry.answer, hregister]
  · rw [heq]
    cases rule with
    | error e' =>
      cases hfail
      rfl
    | ok d =>
      have hregister : r.register d = .error e := hfail
      simp only [Registry.answer, hregister]

/-- What a turn can do to the maps of clients who share a registry. -/
inductive Turn (s : SharedRegistry ι) (r : Registry) :
    SharedRegistry ι → Option RegistryEvent → Prop
  /-- A rule is registered, and the map of the registry with this rule becomes the current one. -/
  | adds {t : SharedRegistry ι} {d : Descriptor} {r' : Registry} (register : r.register d = .ok r')
      (maps : t.maps = s.maps ++ [r'.toAssoc]) (current : t.current = s.maps.length) :
      Turn s r t (some (.registered d))
  /-- No rule is registered and the maps are as before. A handle that is given out is that of the
  current map. -/
  | keeps {t : SharedRegistry ι} {e : Option RegistryEvent} (rule : e.bind RegistryEvent.rule? = none)
      (handle : ∀ handle, e = some (.handed handle) → handle = s.current)
      (maps : t.maps = s.maps) (current : t.current = s.current) : Turn s r t e

variable [DecidableEq ι]

/-- A registration is such a turn, whatever the client asks afterwards. -/
lemma turn_attempt (h : s.map = r.toAssoc) (rule : Except Error Descriptor) (i : ι)
    (calls : List RegistryCall) :
    Turn s r ((s.attempt rule).1.proceed i calls) (some (s.attempt rule).2) := by
  obtain ⟨d, r', -, hregister, heq⟩ | ⟨e, -, heq⟩ := attempt_cases h rule
  · rw [heq]
    exact .adds hregister rfl rfl
  · rw [heq]
    exact .keeps rfl (fun _ he => by cases he) rfl rfl

/-- **Every step is such a turn.** -/
theorem turn_step (h : s.map = r.toAssoc) (i : ι) : Turn s r (s.step i).1 (s.step i).2 := by
  have hpass : ∀ calls e, e.bind RegistryEvent.rule? = none →
      (∀ handle, e = some (RegistryEvent.handed handle) → handle = s.current) →
        Turn s r (s.proceed i calls) e := fun calls e hrule hhandle => .keeps hrule hhandle rfl rfl
  unfold step
  split
  case h_1 => exact .keeps rfl (fun _ he => by cases he) rfl rfl
  case h_2 => exact turn_attempt h _ i _
  case h_3 => exact turn_attempt h _ i _
  case h_4 => exact hpass _ _ rfl fun _ he => by cases he
  case h_5 => exact turn_attempt h _ i _
  case h_6 => exact hpass _ _ rfl fun _ he => by cases he; rfl

/-! ## Runs -/

/-- The clients share a registry: its rules are those of the current map, and all earlier maps are
beginnings of this one. -/
structure Shares (s : SharedRegistry ι) (r : Registry) : Prop where
  /-- The current map holds the rules of the registry. -/
  map_eq : s.map = r.toAssoc
  /-- Every map is a beginning of the current one. -/
  earlier : ∀ m ∈ s.maps, m <+: s.map

omit [DecidableEq ι] in
/-- At the beginning the clients share the registry that they are given. -/
lemma shares_start (r : Registry) (pending : ι → List RegistryCall) : (start r pending).Shares r where
  map_eq := rfl
  earlier m hm := by
    obtain rfl := List.mem_singleton.mp hm
    exact List.prefix_refl _

omit [DecidableEq ι] in
/-- What clients look up is what they would find in the registry that they share. -/
lemma Shares.lookup_eq (h : s.Shares r) (id : String) : s.lookup id = r.lookup id := by
  cases hfind : r.find? id <;>
    simp only [lookup, Registry.lookup, h.map_eq, Registry.find?_toAssoc, hfind]

/-- **What a step preserves**: the clients share a registry, to which the rule of the step has been
added if it has registered one. No map is lost. -/
theorem Shares.step (h : s.Shares r) (i : ι) : ∃ r', (s.step i).1.Shares r' ∧
    r'.rules = r.rules ++ ((s.step i).2.bind RegistryEvent.rule?).toList ∧
    s.maps <+: (s.step i).1.maps := by
  generalize hstep : s.step i = turn
  have hturn := turn_step h.map_eq i
  rw [hstep] at hturn
  obtain ⟨t, e⟩ := turn
  cases hturn with
  | @adds d r' register maps current =>
    have hrules := (Registry.register_eq_ok_iff.mp register).2
    have hmap : t.map = r'.toAssoc := map_eq_iff.mpr (by rw [current, maps]; simp)
    refine ⟨r', ⟨hmap, fun m hm => ?_⟩, hrules, maps ▸ List.prefix_append _ _⟩
    rw [maps] at hm
    rcases List.mem_append.mp hm with hm | hm
    · rw [hmap]
      exact (h.map_eq ▸ h.earlier m hm).trans (Registry.toAssoc_append hrules)
    · exact (List.mem_singleton.mp hm).trans hmap.symm ▸ List.prefix_refl _
  | keeps rule _ maps current =>
    have hmap : t.map = s.map := map_eq_iff.mpr (by rw [current, maps]; exact map_eq_iff.mp rfl)
    refine ⟨r, ⟨hmap.trans h.map_eq, fun m hm => ?_⟩, by rw [rule]; simp, maps ▸ List.prefix_refl _⟩
    rw [hmap]
    exact h.earlier m (maps ▸ hm)

omit [DecidableEq ι] in
/-- What is registered in two runs, one after the other, is registered in order. -/
lemma registered_append (es fs : List (ι × RegistryEvent)) :
    registered (es ++ fs) = registered es ++ registered fs := List.filterMap_append

/-- A run is its first step and the run behind it. -/
lemma run_cons (s : SharedRegistry ι) (i : ι) (is : List ι) : s.run (i :: is) =
    (((s.step i).1.run is).1,
      ((s.step i).2.map fun e => (i, e)).toList ++ ((s.step i).1.run is).2) := rfl

/-- **What a run preserves**: the clients share a registry, to which the rules that have been registered
on the way have been added in the order of success. No map is lost. -/
theorem Shares.run (h : s.Shares r) (is : List ι) : ∃ r', (s.run is).1.Shares r' ∧
    r'.rules = r.rules ++ registered (s.run is).2 ∧ s.maps <+: (s.run is).1.maps := by
  induction is generalizing s r with
  | nil => exact ⟨r, h, (List.append_nil _).symm, List.prefix_refl _⟩
  | cons i is ih =>
    obtain ⟨r₁, h₁, hrules₁, hmaps₁⟩ := h.step i
    obtain ⟨r₂, h₂, hrules₂, hmaps₂⟩ := ih h₁
    refine ⟨r₂, h₂, ?_, hmaps₁.trans hmaps₂⟩
    have hfirst : registered ((s.step i).2.map fun e => (i, e)).toList =
        ((s.step i).2.bind RegistryEvent.rule?).toList := by
      cases (s.step i).2 with
      | none => rfl
      | some e => cases hrule : e.rule? <;> simp [registered, hrule]
    rw [run_cons, registered_append, hfirst, hrules₂, hrules₁, List.append_assoc]

/-- **A catalog that no other client interrupts** leads to the same registry as if it was registered
in one go, and fails for the same reason. -/
theorem run_registerCatalog (h : s.Shares r) {i : ι} {entries : List RuleConfig}
    {calls : List RegistryCall} (hcalls : s.pending i = .registerCatalog entries :: calls) :
    ∃ n, n ≤ entries.length + 1 ∧
      (s.run (List.replicate n i)).1.Shares (r.registerEach entries).1 ∧
      (s.run (List.replicate n i)).1.pending i = calls ∧
      (s.run (List.replicate n i)).2.getLast?.map Prod.snd =
        some ((r.registerEach entries).2.elim .finished .refused) := by
  have hproceed : ∀ (t : SharedRegistry ι) (calls : List RegistryCall),
      (t.proceed i calls).pending i = calls := fun t calls => if_pos rfl
  induction entries generalizing s r with
  | nil =>
    have hstep : s.step i = (s.proceed i calls, some .finished) := by
      unfold step
      rw [hcalls]
    refine ⟨1, Nat.le_refl _, ?_⟩
    rw [List.replicate_one, run_cons, hstep]
    exact ⟨⟨h.map_eq, h.earlier⟩, hproceed s calls, rfl⟩
  | cons entry entries ih =>
    have hstep : s.step i = ((s.attempt (Descriptor.ofConfig entry)).1.proceed i
        (if (s.attempt (Descriptor.ofConfig entry)).2.rule?.isSome then
          .registerCatalog entries :: calls else calls),
        some (s.attempt (Descriptor.ofConfig entry)).2) := by
      unfold step
      rw [hcalls]
    have hconfig : r.registerConfig entry = (Descriptor.ofConfig entry).bind r.register := rfl
    rw [Registry.registerEach]
    obtain ⟨d, r', hd, hregister, heq⟩ | ⟨e, hfail, heq⟩ :=
      attempt_cases h.map_eq (Descriptor.ofConfig entry)
    · -- the rest of the catalog is registered in the turns that follow
      rw [hd] at hconfig
      rw [hconfig.trans hregister]
      obtain ⟨r₁, h₁, hrules₁, -⟩ := h.step i
      rw [hstep, heq] at h₁ hrules₁
      obtain rfl : r₁ = r' :=
        Registry.eq_of_rules_eq (hrules₁.trans (Registry.register_eq_ok_iff.mp hregister).2.symm)
      obtain ⟨n, hn, hshares, hpending, hlast⟩ := ih h₁ (hproceed _ _)
      refine ⟨n + 1, by simp only [List.length_cons]; omega, ?_⟩
      rw [List.replicate_succ, run_cons, hstep, heq]
      refine ⟨hshares, hpending, ?_⟩
      obtain ⟨e, he, -⟩ := Option.map_eq_some_iff.mp hlast
      rw [← hlast]
      simp [List.getLast?_cons, he]
    · rw [hconfig.trans hfail]
      refine ⟨1, by omega, ?_⟩
      rw [List.replicate_one, run_cons, hstep, heq]
      exact ⟨⟨h.map_eq, h.earlier⟩, hproceed s calls, rfl⟩

/-! ## Any two points of a run -/

/-- What holds between a point of a run, with the events up to it, and a later point. -/
structure IsFaithful (r₀ : Registry) (s : SharedRegistry ι) (events : List (ι × RegistryEvent))
    (t : SharedRegistry ι) : Prop where
  /-- The rules are those of the beginning and those that have been registered, in the order of
  success. -/
  rules : s.rules = r₀.rules ++ registered events
  /-- Their identifiers are distinct. -/
  nodup : (s.map.map Prod.fst).Nodup
  /-- Each rule is stored under its own identifier. -/
  ownId : ∀ p ∈ s.map, p.1 = p.2.id
  /-- The map is that of the registry to which they have been added one after the other, and every
  registration is answered as this registry would answer it. -/
  registry : ∃ r, r₀.registerAll (registered events) = .ok r ∧ s.map = r.toAssoc ∧
    ∀ rule, (s.attempt rule).2 = r.answer rule
  /-- A registration that fails leaves everything as it is. -/
  refused : ∀ i e, (s.step i).2 = some (.refused e) →
    (s.step i).1.maps = s.maps ∧ (s.step i).1.current = s.current
  /-- A rule that is found is found forever. -/
  lookup : ∀ id d, s.lookup id = .ok d → t.lookup id = .ok d
  /-- No rule that has been registered is lost. -/
  kept : ∀ d ∈ registered events, t.lookup d.id = .ok d
  /-- Whoever takes a snapshot gets a handle of the current map, which is not changed afterwards and is
  a beginning of every later one. -/
  snapshot : ∀ i handle, (s.step i).2 = some (.handed handle) →
    s.maps[handle]? = some s.map ∧ t.maps[handle]? = some s.map ∧ s.map <+: t.map

/-- **Clients that share a registry**, for any rules that it begins with, any number of clients that
register rules, entries and catalogs and take snapshots, and any order of their turns.

At every point of the run the rules are those of the beginning and those that have been registered, in
the order of success, each under its own identifier, and no two with the same. A registration that fails
changes nothing. What has been registered is found forever, and a snapshot is never changed and is a
beginning of every later registry.

**Proof sketch.** A step adds the map of a registry with one more rule behind all other maps, or leaves
them as they are (`turn_step`). So every map is a beginning of the current one, and the current one is
that of the registry with the rules registered so far (`Shares.run`). -/
theorem isFaithful_run (r₀ : Registry) (pending : ι → List RegistryCall) (before after : List ι) :
    IsFaithful r₀ ((start r₀ pending).run before).1 ((start r₀ pending).run before).2
      (((start r₀ pending).run before).1.run after).1 := by
  obtain ⟨r, hs, hrules, -⟩ := (shares_start r₀ pending).run before
  generalize ((start r₀ pending).run before).1 = s at hs
  generalize ((start r₀ pending).run before).2 = events at hrules
  obtain ⟨r', ht, hrules', hmaps⟩ := hs.run after
  generalize registered (s.run after).2 = ds at hrules'
  generalize (s.run after).1 = t at ht hmaps
  have hlookup : ∀ id d, r.lookup id = .ok d → t.lookup id = .ok d := by
    intro id d hd
    rw [ht.lookup_eq, Registry.lookup_eq_ok_iff, hrules']
    obtain ⟨hmem, hid⟩ := Registry.lookup_eq_ok_iff.mp hd
    exact ⟨List.mem_append_left _ hmem, hid⟩
  constructor
  case rules => rw [SharedRegistry.rules, hs.map_eq, Registry.map_snd_toAssoc, hrules]
  case nodup =>
    rw [hs.map_eq, Registry.map_fst_toAssoc]
    exact r.nodup
  case ownId =>
    rw [hs.map_eq]
    intro p hp
    obtain ⟨d, -, rfl⟩ := List.mem_map.mp hp
    rfl
  case registry =>
    exact ⟨r, Registry.registerAll_eq_ok_iff.mpr hrules, hs.map_eq, attempt_answer hs.map_eq⟩
  case refused =>
    intro i e he
    have hturn := turn_step hs.map_eq i
    rw [he] at hturn
    cases hturn with
    | keeps _ _ maps current => exact ⟨maps, current⟩
  case lookup =>
    intro id d hd
    exact hlookup id d (hs.lookup_eq id ▸ hd)
  case kept =>
    intro d hd
    exact hlookup d.id d (Registry.lookup_eq_ok_iff.mpr ⟨hrules ▸ List.mem_append_right _ hd, rfl⟩)
  case snapshot =>
    intro i handle he
    have hturn := turn_step hs.map_eq i
    rw [he] at hturn
    cases hturn with
    | keeps _ given _ _ =>
      obtain rfl := given handle rfl
      have hnow : s.maps[s.current]? = some s.map := map_eq_iff.mp rfl
      refine ⟨hnow, ?_, ?_⟩
      · obtain ⟨more, hmore⟩ := hmaps
        rw [← hmore, List.getElem?_append_left s.current_lt, hnow]
      · rw [hs.map_eq, ht.map_eq]
        exact Registry.toAssoc_append hrules'

/-- Three clients. The first has a catalog with a pattern that cannot be read, the second repeats a rule
of the first, and the third takes a snapshot. -/
theorem isFaithful_run_three : ∃ (pending : Fin 3 → List RegistryCall) (s t : SharedRegistry (Fin 3)),
    pending = (fun i => if i = 0 then
        [.registerCatalog [{ id := "A" }, { id := "B", pattern := some "(" }, { id := "E" }]]
      else if i = 1 then
        [.registerConfig { id := "C" }, .registerConfig { id := "A" }, .registerConfig { id := "D" }]
      else [.snapshot]) ∧
    s = ((start {} pending).run [0, 1]).1 ∧ t = (s.run [0, 1, 2, 1]).1 ∧
    s.rules.map Descriptor.id = ["A", "C"] ∧ t.rules.map Descriptor.id = ["A", "C", "D"] ∧
    (s.step 1).2 = some (.refused (.duplicateRule "A")) ∧ (s.step 1).1.maps = s.maps ∧
    (s.step 2).2 = some (.handed 2) ∧ t.maps[2]? = some s.map ∧ s.map <+: t.map ∧
    ∃ d, s.lookup "A" = .ok d ∧ t.lookup "A" = .ok d := by
  obtain ⟨pending, hpending⟩ : ∃ pending : Fin 3 → List RegistryCall, pending = fun i =>
    if i = 0 then
      [.registerCatalog [{ id := "A" }, { id := "B", pattern := some "(" }, { id := "E" }]]
    else if i = 1 then
      [.registerConfig { id := "C" }, .registerConfig { id := "A" }, .registerConfig { id := "D" }]
    else [.snapshot] := ⟨_, rfl⟩
  have hfaithful := isFaithful_run {} pending [0, 1] [0, 1, 2, 1]
  obtain ⟨s, hs⟩ : ∃ s, s = ((start {} pending).run [0, 1]).1 := ⟨_, rfl⟩
  obtain ⟨t, ht⟩ : ∃ t, t = (s.run [0, 1, 2, 1]).1 := ⟨_, rfl⟩
  rw [← hs, ← ht] at hfaithful
  have hrefused : (s.step 1).2 = some (.refused (.duplicateRule "A")) := by
    rw [hs, hpending]
    decide +kernel
  have hhanded : (s.step 2).2 = some (.handed 2) := by
    rw [hs, hpending]
    decide +kernel
  obtain ⟨-, hkept, hprefix⟩ := hfaithful.snapshot 2 2 hhanded
  obtain ⟨d, hd⟩ : ∃ d, s.lookup "A" = .ok d := by
    rw [hs, hpending]
    exact ⟨_, rfl⟩
  refine ⟨pending, s, t, hpending, hs, ht, ?_, ?_, hrefused, (hfaithful.refused 1 _ hrefused).1,
    hhanded, hkept, hprefix, d, hd, hfaithful.lookup "A" d hd⟩
  · rw [hs, hpending]
    decide +kernel
  · rw [ht, hs, hpending]
    decide +kernel

end SharedRegistry

end TreeLint
