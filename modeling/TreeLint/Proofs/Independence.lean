import Mathlib.Data.List.Basic
import TreeLint.Analysis.Analyzer
import TreeLint.Grammar.Unit

/-!
# Rules that do not disturb each other

A configuration chooses which rules run and how serious their findings are. It does so for each rule
by itself: what an analysis finds is what it would find with all rules running, without the findings
of those that are switched off, and with other severities on the rest. Nothing else depends on the
choice, not even the order.

Each rule finds what it finds in its own name and copies its severity into every finding, and so the
choice can be made before the rules run or afterwards. The findings are then sorted, which is stable,
and so the choice can also be made after that.

## Main definitions

* `TreeLint.LinterConfig.RunsAll` — a configuration forces every rule of a registry on and leaves the
  severities alone; `TreeLint.Registry.allOn` is such a configuration.
* `TreeLint.LinterConfig.admits`, `TreeLint.LinterConfig.regrade` — the choice that a configuration
  makes among findings, and the severity that it gives to one.
* `TreeLint.SpeaksFor` — what a rule finds is found in its name, with its severity.

## Main results

* `TreeLint.filter_mergeSort` — sorting and leaving out can be done in either order.
* `TreeLint.flatMap_enabledRules` — the choice can be made before the rules run or afterwards.
* `TreeLint.Analyzer.analyze_ofConfig` — the findings under any configuration.
-/

namespace TreeLint

/-! ## Sorting -/

section Sorting

variable {α : Type}

/-- Two ways to cut a list in front of the first element without a property are the same. -/
lemma append_inj_of_forall {q : α → Bool} {as as' bs bs' : List α} (h : as ++ bs = as' ++ bs')
    (has : ∀ a ∈ as, q a = true) (has' : ∀ a ∈ as', q a = true)
    (hbs : ∀ b ∈ bs, q b = false) (hbs' : ∀ b ∈ bs', q b = false) : as = as' ∧ bs = bs' := by
  have hnone : ∀ cs : List α, (∀ c ∈ cs, q c = false) → cs.filter q = [] := fun cs hcs =>
    List.filter_eq_nil_iff.mpr fun c hc => by simp [hcs c hc]
  have hfront := congrArg (List.filter q) h
  rw [List.filter_append, List.filter_append, List.filter_eq_self.mpr has,
    List.filter_eq_self.mpr has', hnone bs hbs, hnone bs' hbs', List.append_nil,
    List.append_nil] at hfront
  subst hfront
  exact ⟨rfl, List.append_cancel_left h⟩

/-- **Sorting and leaving out** can be done in either order. -/
theorem filter_mergeSort {le : α → α → Bool}
    (htrans : ∀ a b c, le a b = true → le b c = true → le a c = true)
    (htotal : ∀ a b, (le a b || le b a) = true) (p : α → Bool) (as : List α) :
    (as.mergeSort le).filter p = (as.filter p).mergeSort le := by
  induction as with
  | nil => rw [List.filter_nil, List.mergeSort_nil, List.filter_nil]
  | cons a as ih =>
    -- `a` is sorted in behind all elements that are strictly smaller
    obtain ⟨ls, rs, hsort, hrest, hls⟩ := List.mergeSort_cons htrans htotal a as
    have hrs : ∀ b ∈ rs, le a b = true := by
      have hpair := List.pairwise_mergeSort htrans htotal (a :: as)
      rw [hsort, List.pairwise_append] at hpair
      exact (List.pairwise_cons.mp hpair.2.1).1
    rw [hrest, List.filter_append] at ih
    rw [hsort, List.filter_append, List.filter_cons, List.filter_cons]
    split
    case isFalse => exact ih
    case isTrue =>
      obtain ⟨ls', rs', hsort', hrest', hls'⟩ := List.mergeSort_cons htrans htotal a (as.filter p)
      have hrs' : ∀ b ∈ rs', le a b = true := by
        have hpair := List.pairwise_mergeSort htrans htotal (a :: as.filter p)
        rw [hsort', List.pairwise_append] at hpair
        exact (List.pairwise_cons.mp hpair.2.1).1
      obtain ⟨rfl, rfl⟩ := append_inj_of_forall (q := fun b => !le a b) (ih.trans hrest')
        (fun b hb => hls b (List.mem_of_mem_filter hb)) hls'
        (fun b hb => by simp [hrs b (List.mem_of_mem_filter hb)]) (fun b hb => by simp [hrs' b hb])
      rw [hsort']

end Sorting

/-- The order of findings by start is transitive. -/
lemma Diagnostic.start_trans (x y z : Diagnostic) (hxy : decide (x.span.start ≤ y.span.start) = true)
    (hyz : decide (y.span.start ≤ z.span.start) = true) : decide (x.span.start ≤ z.span.start) = true :=
  decide_eq_true (Nat.le_trans (of_decide_eq_true hxy) (of_decide_eq_true hyz))

/-- The order of findings by start is total. -/
lemma Diagnostic.start_total (x y : Diagnostic) :
    (decide (x.span.start ≤ y.span.start) || decide (y.span.start ≤ x.span.start)) = true := by
  simpa using Nat.le_total x.span.start y.span.start

/-- Sorted findings do not start before those in front of them. -/
lemma pairwise_sortFindings (xs : List Diagnostic) :
    (sortFindings xs).Pairwise fun x y => x.span.start ≤ y.span.start :=
  (List.pairwise_mergeSort Diagnostic.start_trans Diagnostic.start_total xs).imp of_decide_eq_true

/-- Leaving findings out, and changing others without moving them, can be done before sorting or
afterwards. -/
lemma sortFindings_map_filter {f : Diagnostic → Diagnostic} (hf : ∀ x, (f x).span = x.span)
    (p : Diagnostic → Bool) (xs : List Diagnostic) :
    sortFindings ((xs.filter p).map f) = ((sortFindings xs).filter p).map f := by
  rw [sortFindings, sortFindings, filter_mergeSort Diagnostic.start_trans Diagnostic.start_total p xs]
  exact (List.map_mergeSort fun x _ y _ => by rw [hf, hf]).symm

/-! ## Configurations -/

namespace LinterConfig

/-- A configuration forces every rule of a registry on and leaves the severities alone. -/
structure RunsAll (c : LinterConfig) (r : Registry) : Prop where
  /-- Rules run at all. -/
  enabled : c.enabled = true
  /-- Each rule is forced on. -/
  forced : ∀ d ∈ r.rules, (c.rules.find? d.id).bind RuleOverride.enabled = some true
  /-- No rule gets another severity. -/
  ungraded : ∀ d ∈ r.rules, (c.rules.find? d.id).bind RuleOverride.severity = none

/-- A configuration lets the rule run in whose name a finding speaks. -/
def admits (c : LinterConfig) (r : Registry) (x : Diagnostic) : Bool :=
  (r.find? x.ruleId).any fun d => c.isEnabled d.id d.enabled

/-- The finding with the severity that a configuration gives to its rule. -/
def regrade (c : LinterConfig) (r : Registry) (x : Diagnostic) : Diagnostic :=
  (r.find? x.ruleId).elim x fun d => x.withSeverity (c.severityFor d.id d.severity)

/-- A finding is graded anew without being moved. -/
lemma span_regrade (c : LinterConfig) (r : Registry) (x : Diagnostic) :
    (c.regrade r x).span = x.span := by
  unfold regrade
  cases r.find? x.ruleId <;> rfl

variable {c : LinterConfig} {r : Registry} {d : Descriptor} {x : Diagnostic}

/-- A finding in the name of a registered rule is admitted if the rule runs. -/
lemma admits_eq (hd : d ∈ r.rules) (hx : x.ruleId = d.id) :
    c.admits r x = c.isEnabled d.id d.enabled := by
  rw [admits, Registry.find?_eq_some_iff.mpr ⟨hd, hx.symm⟩]
  rfl

/-- A finding in the name of a registered rule has the severity that is configured for the rule. -/
lemma regrade_eq (hd : d ∈ r.rules) (hx : x.ruleId = d.id) :
    c.regrade r x = x.withSeverity (c.severityFor d.id d.severity) := by
  rw [regrade, Registry.find?_eq_some_iff.mpr ⟨hd, hx.symm⟩]
  rfl

end LinterConfig

/-- The configuration that forces every rule of a registry on and says nothing else. -/
def Registry.allOn (r : Registry) : LinterConfig where
  enabled := true
  rules := r.rules.map fun d => (d.id, { enabled := some true })

/-- The configuration that forces every rule of a registry on does so. -/
lemma Registry.runsAll_allOn (r : Registry) : r.allOn.RunsAll r := by
  have hfind : ∀ d ∈ r.rules, r.allOn.rules.find? d.id = some { enabled := some true } := by
    rw [allOn]
    dsimp only
    intro d hd
    generalize r.rules = ds at hd
    induction ds with
    | nil => cases hd
    | cons e ds ih =>
      by_cases he : e.id = d.id
      · simp [Assoc.find?, he]
      · have hne : d ≠ e := fun heq => he (heq ▸ rfl)
        simpa [Assoc.find?, he] using ih (List.mem_of_ne_of_mem hne hd)
  exact ⟨rfl, fun d hd => by rw [hfind d hd]; rfl, fun d hd => by rw [hfind d hd]; rfl⟩

/-- A configuration that forces every rule on and leaves the severities alone enables the rules of
the registry as they are. -/
lemma LinterConfig.RunsAll.enabledRules_eq {c : LinterConfig} {r : Registry} (h : c.RunsAll r) :
    enabledRules r c = r.rules := by
  have hfilter : r.rules.filter (fun d => c.isEnabled d.id d.enabled) = r.rules :=
    List.filter_eq_self.mpr fun d hd => by simp [isEnabled, h.enabled, h.forced d hd]
  have heffective : ∀ d ∈ r.rules, d.effective c = d := by
    intro d hd
    rw [Descriptor.effective, severityFor, h.ungraded d hd]
    rfl
  rw [enabledRules, hfilter, List.map_congr_left heffective, List.map_id']

/-! ## What a rule finds -/

/-- What a rule finds is found in its name, and every finding copies its severity. -/
structure SpeaksFor (find : Descriptor → List Diagnostic) : Prop where
  /-- Findings name the rule. -/
  ruleId : ∀ d, ∀ x ∈ find d, x.ruleId = d.id
  /-- Findings copy the severity of the rule, and nothing else depends on it. -/
  withSeverity : ∀ d s, find { d with severity := s } = (find d).map (·.withSeverity s)

/-- What rules find about a comment is found in their names. -/
lemma speaksFor_onComment? (m : Trivia) : SpeaksFor fun d => (d.onComment? m).toList where
  ruleId d x hx := by
    rw [Option.mem_toList] at hx
    unfold Descriptor.onComment? at hx
    split at hx
    · split at hx
      · obtain rfl := Option.some.inj hx
        rfl
      · cases hx
    · cases hx
  withSeverity d s := by
    have hpattern : ({ d with severity := s } : Descriptor).pattern? = d.pattern? := rfl
    unfold Descriptor.onComment?
    rw [hpattern]
    cases d.pattern? with
    | none => rfl
    | some p =>
      by_cases h : p.occursIn m.text = true <;>
        simp [h, Diagnostic.withSeverity, Descriptor.finding, Descriptor.render]

/-- What the check of handlers finds is found in the name of the rule. -/
lemma Rethrow.speaksFor_check (root : Node) : SpeaksFor (Rethrow.check root) where
  ruleId d x hx := by
    obtain ⟨c, -, rfl⟩ := List.mem_map.mp hx
    rfl
  withSeverity d s := by
    rw [check, check, List.map_map]
    rfl

/-- What the check of classes finds is found in the name of the rule. -/
lemma Instantiation.speaksFor_check (root : Node) : SpeaksFor (Instantiation.check root) where
  ruleId d x hx := by
    obtain ⟨c, -, hc⟩ := List.mem_filterMap.mp hx
    unfold finding? at hc
    split at hc
    · split at hc
      · obtain rfl := Option.some.inj hc
        rfl
      · cases hc
    · cases hc
  withSeverity d s := by
    rw [check, check, List.map_filterMap]
    refine List.filterMap_congr fun c _ => ?_
    unfold finding?
    cases c.nameToken? with
    | none => rfl
    | some t =>
      by_cases h : isNeverInstantiated c.node t.item.text = true <;>
        simp [h, Diagnostic.withSeverity, Descriptor.finding, Descriptor.render]

/-- What a structural rule finds in a tree; nothing if it has no check, or is of another kind. -/
def Descriptor.inspect (root : Node) (d : Descriptor) : List Diagnostic :=
  if d.isStructural then (check? d.id).elim [] fun check => check root d else []

/-- What structural rules find is found in their names. -/
lemma speaksFor_inspect (root : Node) : SpeaksFor (Descriptor.inspect root) := by
  have hcheck : ∀ {id : String} {check : Check}, check? id = some check → SpeaksFor (check root) := by
    intro id check h
    unfold check? at h
    split at h
    · obtain rfl := Option.some.inj h
      exact Rethrow.speaksFor_check root
    · split at h
      · obtain rfl := Option.some.inj h
        exact Instantiation.speaksFor_check root
      · cases h
  constructor
  · intro d x hx
    unfold Descriptor.inspect at hx
    split at hx
    · cases h : check? d.id with
      | none => simp [h] at hx
      | some check => exact (hcheck h).ruleId d x (by simpa [h] using hx)
    · cases hx
  · intro d s
    have hstructural : ({ d with severity := s } : Descriptor).isStructural = d.isStructural := rfl
    unfold Descriptor.inspect
    rw [hstructural]
    split
    · cases h : check? d.id with
      | none => rfl
      | some check => exact (hcheck h).withSeverity d s
    · rfl

/-! ## Rules that run -/

variable {r : Registry} {c all : LinterConfig}

/-- **The choice among findings** can be made before the rules run or afterwards. -/
theorem flatMap_enabledRules {find : Descriptor → List Diagnostic} (hfind : SpeaksFor find)
    (hall : all.RunsAll r) : (enabledRules r c).flatMap find =
      (((enabledRules r all).flatMap find).filter (c.admits r)).map (c.regrade r) := by
  have hrun : ∀ ds : List Descriptor, (∀ d ∈ ds, d ∈ r.rules) →
      ((ds.filter fun d => c.isEnabled d.id d.enabled).map fun d => d.effective c).flatMap find =
        ((ds.flatMap find).filter (c.admits r)).map (c.regrade r) := by
    intro ds hds
    induction ds with
    | nil => rfl
    | cons d ds ih =>
      have hd : d ∈ r.rules := hds d List.mem_cons_self
      have hadmits : ∀ x ∈ find d, c.admits r x = c.isEnabled d.id d.enabled := fun x hx =>
        LinterConfig.admits_eq hd (hfind.ruleId d x hx)
      rw [List.flatMap_cons, List.filter_append, List.map_append,
        ← ih fun e he => hds e (List.mem_cons_of_mem _ he), List.filter_cons]
      split
      case isTrue h =>
        have hkeep : (find d).filter (c.admits r) = find d :=
          List.filter_eq_self.mpr fun x hx => (hadmits x hx).trans h
        have hregrade : (find d).map (c.regrade r) = find (d.effective c) := by
          refine Eq.trans ?_ (hfind.withSeverity d (c.severityFor d.id d.severity)).symm
          exact List.map_congr_left fun x hx => LinterConfig.regrade_eq hd (hfind.ruleId d x hx)
        rw [List.map_cons, List.flatMap_cons, hkeep, hregrade]
      case isFalse h =>
        have hdrop : (find d).filter (c.admits r) = [] :=
          List.filter_eq_nil_iff.mpr fun x hx => by rw [hadmits x hx]; exact h
        rw [hdrop]
        rfl
  rw [hall.enabledRules_eq, enabledRules]
  exact hrun r.rules fun d hd => hd

namespace Analyzer

/-- The findings about comments of the rules that a configuration enables. -/
lemma commentFindings_ofConfig (root : Node) : commentFindings (ofConfig r c).comments root =
    root.comments.flatMap fun m => (enabledRules r c).flatMap fun d => (d.onComment? m).toList := by
  have hpattern : ∀ (m : Trivia) (ds : List Descriptor), onComment (ds.filter Descriptor.isPattern) m =
      ds.flatMap fun d => (d.onComment? m).toList := by
    intro m ds
    rw [onComment, List.filterMap_filter, List.filterMap_eq_flatMap_toList]
    refine List.flatMap_congr fun d _ => ?_
    -- a rule without a pattern finds nothing anyway
    unfold Descriptor.isPattern Descriptor.onComment?
    cases d.pattern? <;> rfl
  exact List.flatMap_congr fun m _ => hpattern m (enabledRules r c)

/-- The findings of the structural rules that a configuration enables. -/
lemma structuralFindings_ofConfig (root : Node) : (ofConfig r c).structuralFindings root =
    (enabledRules r c).flatMap (Descriptor.inspect root) := by
  rw [structuralFindings, ofConfig]
  induction enabledRules r c with
  | nil => rfl
  | cons d ds ih =>
    rw [List.flatMap_cons, ← ih, Descriptor.inspect]
    cases hstructural : d.isStructural with
    | false => simp [hstructural]
    | true => cases hcheck : check? d.id <;> simp [hstructural, hcheck]

/-- **The findings under a configuration**, for any registry and any tree.

They are the findings of all rules, each with its own severity, without those of the rules that the
configuration switches off, and with the severities that it gives to the others. The order of the rest
is kept, and nothing but severities differs.

**Proof sketch.** What a rule finds is found in its name and copies its severity, so for the findings
about one comment, and for those of the structural rules, the choice can be made after the rules have
run (`flatMap_enabledRules`). It can be made after sorting as well, since that is stable and severities
do not count in it (`sortFindings_map_filter`). -/
theorem analyze_ofConfig (registry : Registry) (c all : LinterConfig) (hall : all.RunsAll registry)
    (root : Node) : (ofConfig registry c).analyze root =
      (((ofConfig registry all).analyze root).filter (c.admits registry)).map (c.regrade registry) := by
  have hcomments : commentFindings (ofConfig registry c).comments root =
      ((commentFindings (ofConfig registry all).comments root).filter (c.admits registry)).map
        (c.regrade registry) := by
    rw [commentFindings_ofConfig, commentFindings_ofConfig, List.filter_flatMap, List.map_flatMap]
    exact List.flatMap_congr fun m _ => flatMap_enabledRules (speaksFor_onComment? m) hall
  have hchecks : (ofConfig registry c).structuralFindings root =
      (((ofConfig registry all).structuralFindings root).filter (c.admits registry)).map
        (c.regrade registry) := by
    rw [structuralFindings_ofConfig, structuralFindings_ofConfig]
    exact flatMap_enabledRules (speaksFor_inspect root) hall
  rw [analyze, analyze, ← sortFindings_map_filter (c.span_regrade registry), List.filter_append,
    List.map_append, hcomments, hchecks]

/-- The rule, the place and the severity of a finding. -/
def brief (x : Diagnostic) : String × Nat × Severity := (x.ruleId, x.span.start, x.severity)

/-- Findings in the order of their starts need not be sorted. -/
lemma sortFindings_of_brief {xs : List Diagnostic} {ys : List (String × Nat × Severity)}
    (h : xs.map brief = ys) (hys : ys.Pairwise fun y z => y.2.1 ≤ z.2.1) :
    (sortFindings xs).map brief = ys := by
  rw [← h, List.pairwise_map] at hys
  have hsorted : xs.Pairwise fun x y => decide (x.span.start ≤ y.span.start) = true :=
    hys.imp fun hle => decide_eq_true hle
  rw [sortFindings, List.mergeSort_of_pairwise hsorted, h]

/-- A configuration that puts the comments on, puts the handlers off, and makes more of the classes. -/
theorem analyze_ofConfig_chosen : ∃ r c root, Registry.builtin = .ok r ∧
    c = ({ rules := [("S124", { enabled := some true, severity := some .info }),
      ("S2737", { enabled := some false }), ("S3453", { severity := some .blocker })] } :
        LinterConfig) ∧
    root = parse ("// TODO\nvoid F() \x7b try \x7b B(); \x7d catch \x7b throw; \x7d \x7d " ++
      "class A \x7b private A() \x7b\x7d \x7d") ∧
    r.allOn.RunsAll r ∧
    ((ofConfig r r.allOn).analyze root).map brief =
      [("S124", 0, .major), ("S2737", 32, .minor), ("S3453", 57, .major)] ∧
    (ofConfig r c).analyze root =
      (((ofConfig r r.allOn).analyze root).filter (c.admits r)).map (c.regrade r) ∧
    ((ofConfig r c).analyze root).map brief = [("S124", 0, .info), ("S3453", 57, .blocker)] := by
  obtain ⟨c, hc⟩ : ∃ c : LinterConfig, c =
    { rules := [("S124", { enabled := some true, severity := some .info }),
      ("S2737", { enabled := some false }), ("S3453", { severity := some .blocker })] } := ⟨_, rfl⟩
  obtain ⟨root, hroot⟩ : ∃ root, root =
    parse ("// TODO\nvoid F() \x7b try \x7b B(); \x7d catch \x7b throw; \x7d \x7d " ++
      "class A \x7b private A() \x7b\x7d \x7d") := ⟨_, rfl⟩
  have hfound : Registry.builtin.toOption.map (fun r => [r.allOn, c].map fun c =>
      (commentFindings (ofConfig r c).comments root ++
        (ofConfig r c).structuralFindings root).map brief) =
      some [[("S124", 0, .major), ("S2737", 32, .minor), ("S3453", 57, .major)],
        [("S124", 0, .info), ("S3453", 57, .blocker)]] := by
    rw [hc, hroot]
    decide +kernel
  cases hr : Registry.builtin with
  | error e =>
    rw [hr] at hfound
    cases hfound
  | ok r =>
    rw [hr] at hfound
    simp only [Except.toOption, Option.map_some, List.map_cons, List.map_nil, Option.some.injEq,
      List.cons.injEq, and_true] at hfound
    exact ⟨r, c, root, rfl, hc, hroot, r.runsAll_allOn, sortFindings_of_brief hfound.1 (by decide),
      analyze_ofConfig r c r.allOn r.runsAll_allOn root, sortFindings_of_brief hfound.2 (by decide)⟩

end Analyzer

end TreeLint
