import TreeLint.Config.Basic
import TreeLint.Data.Datum

/-!
# Configurations as data

How configurations are read from data and written as data.

## Main definitions

* `TreeLint.Config.ofDatum?`, `TreeLint.LinterConfig.ofDatum?`, `TreeLint.RuleConfig.ofDatum?` —
  reading.
* `TreeLint.Config.toDatum` — writing.
-/

namespace TreeLint

/-- The severity that a datum is. -/
def Severity.ofDatum? (dialect : Dialect) : Datum → Option Severity :=
  Datum.choice? dialect Severity.ofName?

/-- The entry of a catalog that a datum is. -/
def RuleConfig.ofDatum? (dialect : Dialect) (d : Datum) : Option RuleConfig := do
  let fields ← d.fields? dialect true
    ["id", "title", "message", "category", "severity", "enabled", "pattern", "fixes"]
  match fields with
  | [some id, title, message, category, severity, enabled, pattern, fixes] =>
    return {
      id := ← id.text?
      title := ← Datum.optional? Datum.text? title
      message := ← Datum.optional? Datum.text? message
      category := ← Datum.optional? Datum.text? category
      severity := ← Datum.optional? (Severity.ofDatum? dialect) severity
      enabled := ← Datum.optional? Datum.bool? enabled
      pattern := ← Datum.optional? Datum.text? pattern
      fixes := ← Datum.optional? Datum.text? fixes }
  | _ => none

/-- What a datum says about one rule. -/
def RuleOverride.ofDatum? (dialect : Dialect) (d : Datum) : Option RuleOverride := do
  match ← d.fields? dialect true ["enabled", "severity"] with
  | [enabled, severity] =>
    return {
      enabled := ← Datum.optional? Datum.bool? enabled
      severity := ← Datum.optional? (Severity.ofDatum? dialect) severity }
  | _ => none

/-- What a datum says about single rules. The last entry for a rule counts. -/
def overridesOfDatum? (dialect : Dialect) : Datum → Option (Assoc RuleOverride)
  | .table entries =>
    entries.foldlM (fun rules (key, value) => do
      return rules.insert (← key) (← RuleOverride.ofDatum? dialect value)) []
  | _ => none

/-- What a datum says about the rules that exist. -/
def LinterConfig.ofDatum? (dialect : Dialect) (d : Datum) : Option LinterConfig := do
  match ← d.fields? dialect false ["enabled", "rules"] with
  | [enabled, rules] =>
    return {
      enabled := ← Datum.default? Datum.bool? true enabled
      rules := ← Datum.default? (overridesOfDatum? dialect) [] rules }
  | _ => none

/-- The configuration that a datum is. -/
def Config.ofDatum? (dialect : Dialect) (d : Datum) : Option Config := do
  match ← d.fields? dialect false ["$schema", "linter", "catalog"] with
  | [schema, linter, catalog] =>
    return {
      schema := ← Datum.optional? Datum.text? schema
      linter := ← Datum.default? (LinterConfig.ofDatum? dialect) {} linter
      catalog := ← Datum.default? (Datum.list? (RuleConfig.ofDatum? dialect)) [] catalog }
  | _ => none

/-! ## Writing -/

/-- A datum that may be missing. -/
def Datum.ofOption {α : Type} (f : α → Datum) : Option α → Datum
  | none => .null
  | some a => f a

/-- A severity as a datum. -/
def Severity.toDatum (s : Severity) : Datum := .text s.name

/-- An entry of a catalog as a datum. -/
def RuleConfig.toDatum (c : RuleConfig) : Datum :=
  .record [
    ("id", .text c.id), ("title", .ofOption .text c.title),
    ("message", .ofOption .text c.message), ("category", .ofOption .text c.category),
    ("severity", .ofOption Severity.toDatum c.severity), ("enabled", .ofOption .bool c.enabled),
    ("pattern", .ofOption .text c.pattern), ("fixes", .ofOption .text c.fixes)]

/-- What is said about one rule, as a datum. -/
def RuleOverride.toDatum (o : RuleOverride) : Datum :=
  .record [("enabled", .ofOption .bool o.enabled),
    ("severity", .ofOption Severity.toDatum o.severity)]

/-- What is said about the rules that exist, as a datum. -/
def LinterConfig.toDatum (c : LinterConfig) : Datum :=
  .record [("enabled", .bool c.enabled),
    ("rules", .record (c.rules.map fun (key, o) => (key, o.toDatum)))]

/-- A configuration as a datum. The reference to a schema is left out if there is none. -/
def Config.toDatum (c : Config) : Datum :=
  .record ((c.schema.map fun s => ("$schema", Datum.text s)).toList
    ++ [("linter", c.linter.toDatum), ("catalog", .list (c.catalog.map RuleConfig.toDatum))])

end TreeLint
