import TreeLint.Config.Record

/-!
# The schema of configurations

A description of configurations as data, by which editors check and complete them.

## Main definitions

* `TreeLint.Schema.config` — the description.
-/

namespace TreeLint.Schema

/-- A table with one entry. -/
def entry (key : String) (value : Datum) : List (String × Datum) := [(key, value)]

/-- A description of something. -/
def description (text : String) : List (String × Datum) := entry "description" (.text text)

/-- A type. -/
def type (name : String) : List (String × Datum) := entry "type" (.text name)

/-- A type or nothing. -/
def nullable (name : String) : List (String × Datum) :=
  entry "type" (.list [.text name, .text "null"])

/-- A reference to a definition. -/
def reference (name : String) : List (String × Datum) := entry "$ref" (.text ("#/$defs/" ++ name))

/-- A severity or nothing. -/
def nullableSeverity : List (String × Datum) :=
  entry "anyOf" (.list [.record (reference "Severity"), .record (type "null")])

/-- The properties of a record. -/
def properties (fields : List (String × List (String × Datum))) : List (String × Datum) :=
  entry "properties" (.record (fields.map fun (name, value) => (name, .record value)))

/-- The severities. -/
def severity : List (String × Datum) :=
  description "Severity levels for diagnostics, lowest first"
    ++ entry "enum" (.list (Severity.all.map Severity.toDatum)) ++ type "string"

/-- What is said about one rule. -/
def ruleOverride : List (String × Datum) :=
  description "Override for one registered rule"
    ++ properties [
      ("enabled", description "Force the rule on or off" ++ nullable "boolean"),
      ("severity",
        nullableSeverity ++ description "Override the default severity for this rule")]
    ++ type "object"

/-- What is said about the rules that exist. -/
def linterConfig : List (String × Datum) :=
  description "Linter configuration"
    ++ properties [
      ("enabled",
        entry "default" (.bool true) ++ description "Enable or disable the linter"
          ++ type "boolean"),
      ("rules",
        entry "additionalProperties" (.record (reference "RuleOverride"))
          ++ entry "default" (.record []) ++ description "Per-rule overrides keyed by rule id"
          ++ type "object")]
    ++ type "object"

/-- An entry of the catalog. -/
def ruleConfig : List (String × Datum) :=
  description ("A rule declared by configuration\n\n"
      ++ "Entries with a `pattern` become comment-pattern rules; entries with\n"
      ++ "`fixes` become fix rules for the named companion rule. Unset metadata is\n"
      ++ "filled in by the registry.")
    ++ properties [
      ("id", description "Stable rule id, unique across the registry" ++ type "string"),
      ("title", nullable "string"),
      ("message",
        description "Message template with positional placeholders" ++ nullable "string"),
      ("category", nullable "string"),
      ("severity", nullableSeverity),
      ("enabled", description "Default-enabled flag" ++ nullable "boolean"),
      ("pattern",
        description "Regular expression tested against raw comment text" ++ nullable "string"),
      ("fixes", description "Companion rule id for fix rules" ++ nullable "string")]
    ++ entry "required" (.list [.text "id"]) ++ type "object"

/-- The description of configurations. -/
def config : Datum :=
  .record (
    entry "$schema" (.text ("https:" ++ "//json-schema.org/draft/2020-12/schema"))
      ++ entry "title" (.text "SableConfiguration")
      ++ description "Root configuration record"
      ++ type "object"
      ++ properties [
        ("$schema",
          description "JSON schema reference, ignored by the loader" ++ nullable "string"),
        ("linter",
          reference "LinterConfiguration" ++ entry "default" ({} : LinterConfig).toDatum
            ++ description "Linter configuration"),
        ("catalog",
          entry "default" (.list [])
            ++ description "Rules declared in configuration, registered after the builtin rules"
            ++ entry "items" (.record (reference "RuleConfig")) ++ type "array")]
      ++ entry "$defs" (.record [
        ("LinterConfiguration", .record linterConfig), ("RuleOverride", .record ruleOverride),
        ("Severity", .record severity), ("RuleConfig", .record ruleConfig)]))

end TreeLint.Schema
