import Mathlib.Data.List.Forall2
import TreeLint.Rule.Builtin

/-!
# Catalogs

The entries of a catalog are looked at twice. When a configuration is validated, each entry must have
an identifier and must not be both a pattern and a fix. When its rules are registered, each entry is
described as a rule, which fails for the same faults and for a pattern that cannot be read, and the
rule needs an identifier of its own. The two agree: registering a catalog goes well if and only if the
catalog is valid, its patterns can be read, and no identifier is taken.

None of this depends on what patterns are. It is proved for any way to read them, that of regular
expressions being one.

## Main definitions

* `TreeLint.CommentPattern.compileBy`, `TreeLint.Descriptor.ofConfigBy`,
  `TreeLint.Registry.ofCatalogBy` — patterns, rules and registries for any way to read patterns.

## Main results

* `TreeLint.RuleConfig.exists_ofConfigBy_iff` — the entries that can be described as rules.
* `TreeLint.Registry.registerBy_eq_ok_iff`, `TreeLint.Registry.registerBy_eq_error` — a registry with
  the entries of a catalog, and why there may be none.
* `TreeLint.Registry.exists_ofCatalogBy_iff_validate` — registration and validation agree.
-/

namespace TreeLint

/-! ## Reading patterns in any way -/

/-- A way to read patterns: it gives the pattern that a text writes, or complains. -/
abbrev PatternReader := String → Except String CommentPattern

namespace CommentPattern

/-- The pattern that a text writes, on behalf of a rule, for any way to read patterns. -/
def compileBy (read : PatternReader) (ruleId source : String) : Except Error CommentPattern :=
  (read source).mapError (.invalidPattern ruleId)

/-- Patterns are read as regular expressions. -/
def ofRegex : PatternReader := fun source =>
  match h : Regex.read? source with
  | some regex => .ok ⟨source, regex, h⟩
  | none => .error "no regular expression"

variable {ruleId source : String} {regex : Regex}

/-- A readable regular expression is a pattern. -/
lemma ofRegex_eq_ok (h : Regex.read? source = some regex) : ofRegex source = .ok ⟨source, regex, h⟩ := by
  unfold ofRegex
  split
  case h_1 regex' h' =>
    cases h.symm.trans h'
    rfl
  case h_2 h' => cases h.symm.trans h'

/-- A text that is no regular expression is refused as a pattern. -/
lemma ofRegex_eq_error (h : Regex.read? source = none) :
    ofRegex source = .error "no regular expression" := by
  unfold ofRegex
  split
  case h_1 h' => cases h.symm.trans h'
  case h_2 => rfl

/-- The pattern of a rule is read if it is a regular expression. -/
lemma compile_eq_ok (h : Regex.read? source = some regex) :
    compile ruleId source = .ok ⟨source, regex, h⟩ := by
  unfold compile
  split
  case h_1 regex' h' =>
    cases h.symm.trans h'
    rfl
  case h_2 h' => cases h.symm.trans h'

/-- The complaint about an unreadable pattern names the rule. -/
lemma compile_eq_error (h : Regex.read? source = none) :
    compile ruleId source = .error (.invalidPattern ruleId "no regular expression") := by
  unfold compile
  split
  case h_1 h' => cases h.symm.trans h'
  case h_2 => rfl

/-- Patterns are compiled with the reader of regular expressions. -/
lemma compileBy_ofRegex : compileBy ofRegex = compile := by
  funext ruleId source
  rw [compileBy]
  cases h : Regex.read? source with
  | some regex =>
    rw [ofRegex_eq_ok h, compile_eq_ok h]
    rfl
  | none =>
    rw [ofRegex_eq_error h, compile_eq_error h]
    rfl

end CommentPattern

namespace Descriptor

/-- The rule that tests comments against a pattern, as all such rules are unless something else is
said. -/
def ofPattern (id : String) (pattern : CommentPattern) : Descriptor where
  id := id
  title := "Regular expression on comment"
  messageTemplate := "The regular expression matches this comment"
  category := .custom "SonarQube"
  severity := .major
  enabled := false
  kind := .pattern pattern
  helpUrl := some <| "http://nemo.sonarqube.org/coding_rules#rule_key="
    ++ "csharpsquid%3ACommentRegularExpression"

/-- The rule that an entry of a catalog declares before its other fields are filled in, for any way to
read patterns. -/
def baseBy (read : PatternReader) (c : RuleConfig) : Except Error Descriptor :=
  match c.pattern, c.fixes with
  | some pattern, none => (CommentPattern.compileBy read c.id pattern).map (ofPattern c.id)
  | none, some fixes => .ok (titled c.id (c.title.getD c.id) (.fix fixes))
  | some _, some _ => .error (.config (.patternAndFix c.id))
  | none, none => .ok (titled c.id (c.title.getD c.id) .structural)

/-- A rule with the fields that an entry of a catalog fills in. -/
def fill (c : RuleConfig) (base : Descriptor) : Descriptor :=
  { base with
    title := c.title.getD base.title
    messageTemplate := c.message.getD base.messageTemplate
    category := (c.category.map RuleCategory.ofSlug).getD base.category
    severity := c.severity.getD base.severity
    enabled := c.enabled.getD base.enabled }

/-- The rule that an entry of a catalog declares, for any way to read patterns. -/
def ofConfigBy (read : PatternReader) (c : RuleConfig) : Except Error Descriptor :=
  if isBlankId c.id then .error (.config .emptyRuleId) else (baseBy read c).map (fill c)

/-- A rule about comments is made of its compiled pattern, or fails as the pattern does. -/
lemma comment_eq (id pattern : String) :
    comment id pattern = (CommentPattern.compile id pattern).map (ofPattern id) := by
  unfold comment
  cases CommentPattern.compile id pattern <;> rfl

/-- Entries of a catalog are read with the reader of regular expressions. -/
lemma ofConfigBy_ofRegex : ofConfigBy CommentPattern.ofRegex = ofConfig := by
  funext c
  obtain ⟨id, title, message, category, severity, enabled, pattern, fixes⟩ := c
  unfold ofConfigBy ofConfig
  by_cases hid : isBlankId id = true
  · simp only [hid, if_true]
    rfl
  · simp only [hid, baseBy, comment_eq, CommentPattern.compileBy_ofRegex]
    cases pattern with
    | none => cases fixes <;> rfl
    | some source =>
      cases fixes with
      | none => cases CommentPattern.compile id source <;> rfl
      | some _ => rfl

end Descriptor

/-! ## Steps that may fail -/

section Attempts

variable {ε α β : Type} {x : Except ε α} {f : α → Except ε β} {b : β} {e : ε}

/-- Two steps succeed if the first does and then the second. -/
lemma bind_eq_ok_iff : (x >>= f) = .ok b ↔ ∃ a, x = .ok a ∧ f a = .ok b := by
  cases x with
  | error e => simp [bind, Except.bind]
  | ok a => simp [bind, Except.bind]

/-- Two steps fail if the first does, or else the second. -/
lemma bind_eq_error_iff :
    (x >>= f) = .error e ↔ x = .error e ∨ ∃ a, x = .ok a ∧ f a = .error e := by
  cases x with
  | error e => simp [bind, Except.bind]
  | ok a => simp [bind, Except.bind]

/-- A mapped result is a success if the result itself is one. -/
lemma map_eq_ok_iff {f : α → β} : x.map f = .ok b ↔ ∃ a, x = .ok a ∧ f a = b := by
  cases x <;> simp [Except.map]

/-- A mapped result fails as the result itself does. -/
lemma map_eq_error_iff {f : α → β} : x.map f = .error e ↔ x = .error e := by
  cases x <;> simp [Except.map]

end Attempts

/-! ## Entries -/

/-- A pattern is compiled exactly if the reader accepts it. -/
lemma CommentPattern.compileBy_eq_ok_iff {read : PatternReader} {id source : String}
    {p : CommentPattern} : compileBy read id source = .ok p ↔ read source = .ok p := by
  unfold compileBy
  cases read source <;> simp [Except.mapError]

/-- A pattern that the reader refuses is an error with the complaint of the reader. -/
lemma CommentPattern.compileBy_eq_error_iff {read : PatternReader} {id source : String} {e : Error} :
    compileBy read id source = .error e ↔
      ∃ complaint, read source = .error complaint ∧ e = .invalidPattern id complaint := by
  unfold compileBy
  cases read source <;> simp [Except.mapError, eq_comm]

namespace RuleConfig

/-- An entry of a catalog has an identifier and is not both a pattern and a fix. -/
def IsSound (e : RuleConfig) : Prop :=
  isBlankId e.id = false ∧ (e.pattern = none ∨ e.fixes = none)

/-- The pattern of an entry, if it has one, can be read. -/
def IsReadable (read : PatternReader) (e : RuleConfig) : Prop :=
  ∀ source, e.pattern = some source → ∃ p, read source = .ok p

variable {read : PatternReader} {e : RuleConfig} {d : Descriptor} {err : Error}

/-- Validation finds no fault in an entry exactly if the entry is sound. -/
lemma fault?_eq_none_iff (index : Nat) : e.fault? index = none ↔ e.IsSound := by
  unfold fault? IsSound
  by_cases hid : isBlankId e.id = true
  · simp [hid]
  · cases e.pattern <;> cases e.fixes <;> simp [hid]

/-- The rule that an entry declares has the identifier of the entry. -/
lemma id_ofConfigBy (h : Descriptor.ofConfigBy read e = .ok d) : d.id = e.id := by
  have hbase : ∀ base, Descriptor.baseBy read e = .ok base → base.id = e.id := by
    intro base hbase
    unfold Descriptor.baseBy at hbase
    split at hbase
    · obtain ⟨p, -, rfl⟩ := map_eq_ok_iff.mp hbase
      rfl
    · obtain rfl := Except.ok.inj hbase
      rfl
    · cases hbase
    · obtain rfl := Except.ok.inj hbase
      rfl
  unfold Descriptor.ofConfigBy at h
  split at h
  · cases h
  · obtain ⟨base, hb, rfl⟩ := map_eq_ok_iff.mp h
    exact hbase base hb

/-- **The entries that can be described as rules** are the sound ones whose pattern can be read. -/
theorem exists_ofConfigBy_iff :
    (∃ d, Descriptor.ofConfigBy read e = .ok d) ↔ e.IsSound ∧ e.IsReadable read := by
  unfold Descriptor.ofConfigBy Descriptor.baseBy IsSound IsReadable
  by_cases hid : isBlankId e.id = true
  · simp [hid]
  · cases e.pattern with
    | none => cases e.fixes <;> simp [hid, Except.map]
    | some source =>
      cases e.fixes with
      | some fixed => simp [hid, Except.map]
      | none => simp [hid, map_eq_ok_iff, CommentPattern.compileBy_eq_ok_iff]

/-- A sound entry that cannot be described as a rule has a pattern that cannot be read. -/
lemma IsSound.ofConfigBy_eq_error (hsound : e.IsSound)
    (h : Descriptor.ofConfigBy read e = .error err) : ∃ source complaint,
      e.pattern = some source ∧ read source = .error complaint ∧
        err = .invalidPattern e.id complaint := by
  obtain ⟨hid, hkinds⟩ := hsound
  rw [Descriptor.ofConfigBy, hid, if_neg Bool.false_ne_true, map_eq_error_iff] at h
  unfold Descriptor.baseBy at h
  split at h
  case h_1 source hpattern _ =>
    obtain ⟨complaint, hread, rfl⟩ := CommentPattern.compileBy_eq_error_iff.mp (map_eq_error_iff.mp h)
    exact ⟨source, complaint, hpattern, hread, rfl⟩
  case h_2 => cases h
  case h_3 hpattern hfixes => simp [hpattern, hfixes] at hkinds
  case h_4 => cases h

end RuleConfig

/-- Validation finds no fault in a catalog exactly if every entry is sound. -/
lemma catalogFault?_eq_none_iff (index : Nat) {catalog : List RuleConfig} :
    catalogFault? index catalog = none ↔ ∀ e ∈ catalog, e.IsSound := by
  induction catalog generalizing index with
  | nil => simp [catalogFault?]
  | cons e rest ih =>
    rw [catalogFault?, List.forall_mem_cons, ← ih (index + 1),
      ← RuleConfig.fault?_eq_none_iff index]
    cases e.fault? index <;> simp

/-- A configuration is valid if the entries of its catalog are sound. -/
theorem Config.validate_eq_ok_iff {c : Config} :
    c.validate = .ok () ↔ ∀ e ∈ c.catalog, e.IsSound := by
  rw [← catalogFault?_eq_none_iff 0, validate]
  cases catalogFault? 0 c.catalog <;> simp

/-! ## Registries -/

namespace Registry

/-- A registry with the rules that the entries of a catalog declare, for any way to describe them. -/
def registerBy (describe : RuleConfig → Except Error Descriptor) (r : Registry) :
    List RuleConfig → Except Error Registry
  | [] => .ok r
  | e :: es => do (← r.register (← describe e)).registerBy describe es

variable {describe : RuleConfig → Except Error Descriptor} {r s : Registry} {es : List RuleConfig}
  {err : Error}

/-- The registration of a catalog reads and registers one entry after the other. -/
lemma registerCatalog_eq (r : Registry) (es : List RuleConfig) :
    r.registerCatalog es = r.registerBy Descriptor.ofConfig es := by
  induction es generalizing r with
  | nil => rfl
  | cons e es ih =>
    have hrest : ∀ r' : Registry, r'.registerBy Descriptor.ofConfig es = r'.registerCatalog es :=
      fun r' => (ih r').symm
    rw [registerBy]
    simp only [hrest]
    rw [registerCatalog, registerEach, registerConfig]
    cases Descriptor.ofConfig e with
    | error err => rfl
    | ok d =>
      simp only [bind, Except.bind]
      cases r.register d <;> rfl

/-- **A registry with the entries of a catalog** has a rule for each of them, in their order behind all
others; there is one whenever such rules have distinct identifiers. -/
theorem registerBy_eq_ok_iff : r.registerBy describe es = .ok s ↔
    ∃ ds, List.Forall₂ (fun e d => describe e = .ok d) es ds ∧ s.rules = r.rules ++ ds := by
  induction es generalizing r with
  | nil =>
    rw [registerBy, Except.ok.injEq]
    constructor
    · rintro rfl
      exact ⟨[], .nil, (List.append_nil _).symm⟩
    · rintro ⟨ds, hds, hrules⟩
      cases hds
      exact eq_of_rules_eq (by rw [hrules, List.append_nil])
  | cons e es ih =>
    rw [registerBy, bind_eq_ok_iff]
    constructor
    · rintro ⟨d, hd, h⟩
      obtain ⟨r', hr', hrest⟩ := bind_eq_ok_iff.mp h
      obtain ⟨ds, hds, hrules⟩ := ih.mp hrest
      refine ⟨d :: ds, .cons hd hds, ?_⟩
      rw [hrules, (register_eq_ok_iff.mp hr').2, List.append_assoc]
      rfl
    · rintro ⟨_ | ⟨d, ds⟩, hds, hrules⟩
      · cases hds
      · obtain ⟨hd, hds⟩ := List.forall₂_cons.mp hds
        obtain ⟨r', hr', hrules'⟩ := exists_register (hrules ▸ s.nodup)
        refine ⟨d, hd, bind_eq_ok_iff.mpr ⟨r', hr', ih.mpr ⟨ds, hds, ?_⟩⟩⟩
        rw [hrules, hrules', List.append_assoc]
        rfl

/-- If there is no registry with the entries of a catalog, one of them cannot be described, or has the
identifier of a rule before it. -/
lemma registerBy_eq_error (h : r.registerBy describe es = .error err) :
    ∃ e ∈ es, describe e = .error err ∨ ∃ d, describe e = .ok d ∧ err = .duplicateRule d.id := by
  induction es generalizing r with
  | nil => cases h
  | cons e es ih =>
    rw [registerBy, bind_eq_error_iff] at h
    rcases h with h | ⟨d, hd, h⟩
    · exact ⟨e, List.mem_cons_self, .inl h⟩
    · rcases bind_eq_error_iff.mp h with h | ⟨r', -, hrest⟩
      · exact ⟨e, List.mem_cons_self, .inr ⟨d, hd, (register_eq_error_iff.mp h).2⟩⟩
      · obtain ⟨e', he', h⟩ := ih hrest
        exact ⟨e', List.mem_cons_of_mem _ he', h⟩

/-! ## Registration and validation -/

/-- The builtin rules, given the pattern of the one that tests comments. -/
def builtinRulesOf (p : CommentPattern) : List Descriptor :=
  [Descriptor.ofPattern "S124" p, Rethrow.rule, Rethrow.fixRule, Instantiation.rule]

/-- The registry of the builtin rules and those of a catalog, for any way to read patterns. -/
def ofCatalogBy (read : PatternReader) (catalog : List RuleConfig) : Except Error Registry := do
  let p ← CommentPattern.compileBy read "S124" "TODO|FIXME"
  let r ← Registry.registerAll ⟨[], List.nodup_nil⟩ (builtinRulesOf p)
  r.registerBy (Descriptor.ofConfigBy read) catalog

/-- Catalogs are registered with patterns read as regular expressions. -/
lemma ofCatalogBy_ofRegex : ofCatalogBy CommentPattern.ofRegex = ofCatalog := by
  funext catalog
  unfold ofCatalogBy ofCatalog builtin builtinRules commentRule
  rw [Descriptor.ofConfigBy_ofRegex, CommentPattern.compileBy_ofRegex, Descriptor.comment_eq]
  simp only [registerCatalog_eq]
  cases CommentPattern.compile "S124" "TODO|FIXME" <;> rfl

/-- If the builtin pattern can be read, the entries of a catalog join the builtin rules. -/
lemma exists_builtin_ofCatalogBy {read : PatternReader} {p : CommentPattern}
    (hp : read "TODO|FIXME" = .ok p) : ∃ r : Registry, r.rules = builtinRulesOf p ∧
      ∀ catalog, ofCatalogBy read catalog = r.registerBy (Descriptor.ofConfigBy read) catalog := by
  have hnodup : ((builtinRulesOf p).map Descriptor.id).Nodup := by
    change ["S124", "S2737", "S2737-fix", "S3453"].Nodup
    decide
  have hbuiltin : ({} : Registry).registerAll (builtinRulesOf p) = .ok ⟨builtinRulesOf p, hnodup⟩ :=
    registerAll_eq_ok_iff.mpr rfl
  refine ⟨⟨builtinRulesOf p, hnodup⟩, rfl, fun catalog => ?_⟩
  rw [ofCatalogBy, CommentPattern.compileBy_eq_ok_iff.mpr hp]
  simp only [bind, Except.bind, hbuiltin]

/-- Entries that can be described have rules, with the identifiers of the entries. -/
lemma exists_forall₂_ofConfigBy {read : PatternReader} {catalog : List RuleConfig} :
    (∃ ds, List.Forall₂ (fun e d => Descriptor.ofConfigBy read e = .ok d) catalog ds) ↔
      ∀ e ∈ catalog, e.IsSound ∧ e.IsReadable read := by
  induction catalog with
  | nil => exact ⟨fun _ _ h => (List.not_mem_nil h).elim, fun _ => ⟨[], .nil⟩⟩
  | cons e es ih =>
    rw [List.forall_mem_cons, ← ih, ← RuleConfig.exists_ofConfigBy_iff]
    constructor
    · rintro ⟨_ | ⟨d, ds⟩, hds⟩
      · cases hds
      · obtain ⟨hd, hds⟩ := List.forall₂_cons.mp hds
        exact ⟨⟨d, hd⟩, ds, hds⟩
    · rintro ⟨⟨d, hd⟩, ds, hds⟩
      exact ⟨d :: ds, .cons hd hds⟩

/-- The rules of a catalog have the identifiers of its entries, in order. -/
lemma map_id_of_forall₂ {read : PatternReader} {catalog : List RuleConfig} {ds : List Descriptor}
    (h : List.Forall₂ (fun e d => Descriptor.ofConfigBy read e = .ok d) catalog ds) :
    ds.map Descriptor.id = catalog.map RuleConfig.id := by
  induction h with
  | nil => rfl
  | cons hd _ ih => rw [List.map_cons, List.map_cons, ih, RuleConfig.id_ofConfigBy hd]

/-- **Registration and validation agree**, for any catalog and any way to read patterns that can read
the builtin one.

The registry of the builtin rules and those of a catalog exists if and only if the catalog is valid,
the patterns of all its entries can be read, and their identifiers are distinct and not those of builtin
rules. It then has the builtin rules and behind them one rule for each entry, in the order of the
catalog. If the catalog is valid and there is no such registry, the reason is an identifier that is
taken, or a pattern that cannot be read; if the catalog is not valid, there is none. All this holds in
particular if patterns are read as regular expressions.

**Proof sketch.** The entries that can be described as rules are those that validation accepts and whose
pattern can be read (`RuleConfig.exists_ofConfigBy_iff`). The rules of all entries are registered if all
identifiers are distinct (`registerBy_eq_ok_iff`), and the first entry that fails says why
(`registerBy_eq_error`). -/
theorem exists_ofCatalogBy_iff_validate (read : PatternReader) {p : CommentPattern}
    (hp : read "TODO|FIXME" = .ok p) (c : Config) :
    ((∃ r, ofCatalogBy read c.catalog = .ok r) ↔
      c.validate = .ok () ∧ (∀ e ∈ c.catalog, e.IsReadable read) ∧
        (c.catalog.map RuleConfig.id).Nodup ∧
        ∀ e ∈ c.catalog, e.id ∉ (builtinRulesOf p).map Descriptor.id) ∧
    (∀ r, ofCatalogBy read c.catalog = .ok r → ∃ ds, r.rules = builtinRulesOf p ++ ds ∧
      List.Forall₂ (fun e d => Descriptor.ofConfigBy read e = .ok d ∧ d.id = e.id) c.catalog ds) ∧
    (c.validate = .ok () → ∀ err, ofCatalogBy read c.catalog = .error err →
      ∃ e ∈ c.catalog, err = .duplicateRule e.id ∨ ∃ source complaint,
        e.pattern = some source ∧ read source = .error complaint ∧
          err = .invalidPattern e.id complaint) ∧
    (c.validate ≠ .ok () → ∃ err, ofCatalogBy read c.catalog = .error err) ∧
    ofCatalog c.catalog = ofCatalogBy CommentPattern.ofRegex c.catalog := by
  obtain ⟨b, hb, hcatalog⟩ := exists_builtin_ofCatalogBy hp
  have hiff : (∃ r, ofCatalogBy read c.catalog = .ok r) ↔
      c.validate = .ok () ∧ (∀ e ∈ c.catalog, e.IsReadable read) ∧
        (c.catalog.map RuleConfig.id).Nodup ∧
        ∀ e ∈ c.catalog, e.id ∉ (builtinRulesOf p).map Descriptor.id := by
    have hids : ∀ ds : List Descriptor, ds.map Descriptor.id = c.catalog.map RuleConfig.id →
        (((b.rules ++ ds).map Descriptor.id).Nodup ↔ (c.catalog.map RuleConfig.id).Nodup ∧
          ∀ e ∈ c.catalog, e.id ∉ (builtinRulesOf p).map Descriptor.id) := by
      intro ds hds
      rw [List.map_append, hds, List.nodup_append, hb]
      constructor
      · rintro ⟨-, hnodup, hapart⟩
        exact ⟨hnodup, fun e he hmem => hapart _ hmem _ (List.mem_map_of_mem he) rfl⟩
      · rintro ⟨hnodup, hnew⟩
        refine ⟨hb ▸ b.nodup, hnodup, ?_⟩
        rintro id hid _ hid' rfl
        obtain ⟨e, he, rfl⟩ := List.mem_map.mp hid'
        exact hnew e he hid
    rw [Config.validate_eq_ok_iff, ← and_assoc, ← forall₂_and, ← exists_forall₂_ofConfigBy,
      hcatalog]
    constructor
    · rintro ⟨r, hr⟩
      obtain ⟨ds, hds, hrules⟩ := registerBy_eq_ok_iff.mp hr
      exact ⟨⟨ds, hds⟩, (hids ds (map_id_of_forall₂ hds)).mp (hrules ▸ r.nodup)⟩
    · rintro ⟨⟨ds, hds⟩, hnew⟩
      exact ⟨⟨b.rules ++ ds, (hids ds (map_id_of_forall₂ hds)).mpr hnew⟩,
        registerBy_eq_ok_iff.mpr ⟨ds, hds, rfl⟩⟩
  refine ⟨hiff, fun r hr => ?_, fun hvalid err herr => ?_, fun hinvalid => ?_,
    (congrFun ofCatalogBy_ofRegex c.catalog).symm⟩
  · obtain ⟨ds, hds, hrules⟩ := registerBy_eq_ok_iff.mp (hcatalog c.catalog ▸ hr)
    exact ⟨ds, hb ▸ hrules, hds.imp fun e d hd => ⟨hd, RuleConfig.id_ofConfigBy hd⟩⟩
  · obtain ⟨e, he, hdescribe | ⟨d, hd, rfl⟩⟩ := registerBy_eq_error (hcatalog c.catalog ▸ herr)
    · exact ⟨e, he, .inr ((Config.validate_eq_ok_iff.mp hvalid e he).ofConfigBy_eq_error hdescribe)⟩
    · exact ⟨e, he, .inl (by rw [RuleConfig.id_ofConfigBy hd])⟩
  · cases hr : ofCatalogBy read c.catalog with
    | ok r => exact absurd (hiff.mp ⟨r, hr⟩).1 hinvalid
    | error err => exact ⟨err, rfl⟩

/-- Three catalogs: one that is registered, one with a pattern that cannot be read, and one that is not
valid. -/
theorem ofCatalogBy_three : ∃ p good odd blank,
    CommentPattern.ofRegex "TODO|FIXME" = .ok p ∧
    good = ({ catalog := [{ id := "NoTodo", pattern := some "TODO" }, { id := "S9999" }] } : Config) ∧
    odd = ({ catalog := [{ id := "NoTodo" }, { id := "Odd", pattern := some "(" }] } : Config) ∧
    blank = ({ catalog := [{ id := " ", pattern := some "TODO" }] } : Config) ∧
    (∃ r ds, ofCatalog good.catalog = .ok r ∧ r.rules = builtinRulesOf p ++ ds ∧
      ds.map Descriptor.id = ["NoTodo", "S9999"]) ∧
    (odd.validate = .ok () ∧ ∃ err, ofCatalog odd.catalog = .error err ∧
      ∃ e ∈ odd.catalog, err = .duplicateRule e.id ∨ ∃ source complaint, e.pattern = some source ∧
        CommentPattern.ofRegex source = .error complaint ∧ err = .invalidPattern e.id complaint) ∧
    blank.validate ≠ .ok () ∧ ∃ err, ofCatalog blank.catalog = .error err := by
  obtain ⟨good, hgood⟩ : ∃ c : Config, c =
    { catalog := [{ id := "NoTodo", pattern := some "TODO" }, { id := "S9999" }] } := ⟨_, rfl⟩
  obtain ⟨odd, hodd⟩ : ∃ c : Config, c =
    { catalog := [{ id := "NoTodo" }, { id := "Odd", pattern := some "(" }] } := ⟨_, rfl⟩
  obtain ⟨blank, hblank⟩ : ∃ c : Config, c =
    { catalog := [{ id := " ", pattern := some "TODO" }] } := ⟨_, rfl⟩
  obtain ⟨p, hp⟩ : ∃ p, CommentPattern.ofRegex "TODO|FIXME" = .ok p := by
    have hread : (CommentPattern.ofRegex "TODO|FIXME").toBool = true := by decide +kernel
    cases h : CommentPattern.ofRegex "TODO|FIXME" with
    | ok p => exact ⟨p, rfl⟩
    | error e => simp [h, Except.toBool] at hread
  obtain ⟨-, hrules, -, -, hgoodEq⟩ := exists_ofCatalogBy_iff_validate CommentPattern.ofRegex hp good
  obtain ⟨-, -, hreason, -, hoddEq⟩ := exists_ofCatalogBy_iff_validate CommentPattern.ofRegex hp odd
  obtain ⟨-, -, -, hfails, hblankEq⟩ :=
    exists_ofCatalogBy_iff_validate CommentPattern.ofRegex hp blank
  have hsound : odd.validate = .ok () := by
    rw [hodd]
    rfl
  have hunsound : blank.validate ≠ .ok () := by
    rw [hblank]
    decide
  refine ⟨p, good, odd, blank, hp, hgood, hodd, hblank, ?_, ⟨hsound, ?_⟩, hunsound, ?_⟩
  · cases hr : ofCatalog good.catalog with
    | error err =>
      have hok : (ofCatalog good.catalog).toBool = true := by
        rw [hgood]
        decide +kernel
      simp [hr, Except.toBool] at hok
    | ok r =>
      obtain ⟨ds, hds, hforall⟩ := hrules r (hgoodEq ▸ hr)
      refine ⟨r, ds, rfl, hds, ?_⟩
      rw [map_id_of_forall₂ (hforall.imp fun e d h => h.1), hgood]
      rfl
  · cases hr : ofCatalog odd.catalog with
    | ok r =>
      have hok : (ofCatalog odd.catalog).toBool = false := by
        rw [hodd]
        decide +kernel
      simp [hr, Except.toBool] at hok
    | error err => exact ⟨err, rfl, hreason hsound err (hoddEq ▸ hr)⟩
  · obtain ⟨err, herr⟩ := hfails hunsound
    exact ⟨err, hblankEq.trans herr⟩

end Registry

end TreeLint
