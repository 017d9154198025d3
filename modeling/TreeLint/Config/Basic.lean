import TreeLint.Data.Assoc
import TreeLint.Diagnostic.Severity
import TreeLint.Error
import TreeLint.Unicode.Letter

/-!
# Configurations

A configuration says which rules run and how serious their findings are, and it declares further
rules in its catalog. What it leaves open is decided by the rules themselves.

## Main definitions

* `TreeLint.RuleConfig` — a rule that the catalog declares.
* `TreeLint.RuleOverride`, `TreeLint.LinterConfig` — what a configuration says about rules that
  exist.
* `TreeLint.Config` — a configuration.
* `TreeLint.Config.validate` — the check of its catalog.
-/

namespace TreeLint

/-- A rule that the catalog declares. -/
structure RuleConfig where
  /-- The identifier. -/
  id : String
  /-- The title. -/
  title : Option String := none
  /-- The template of the message. -/
  message : Option String := none
  /-- The slug of the category. -/
  category : Option String := none
  /-- The severity. -/
  severity : Option Severity := none
  /-- Whether the rule runs if nothing else is said. -/
  enabled : Option Bool := none
  /-- A regular expression that is tested against comments. -/
  pattern : Option String := none
  /-- The rule whose findings this rule fixes. -/
  fixes : Option String := none
deriving DecidableEq, Repr

/-- An identifier of nothing but blanks is none. -/
def isBlankId (id : String) : Bool := id.toList.all Unicode.isBlank

/-- What a configuration says about one rule. -/
structure RuleOverride where
  /-- Forces the rule on or off. -/
  enabled : Option Bool := none
  /-- Replaces the severity of the rule. -/
  severity : Option Severity := none
deriving DecidableEq, Repr

/-- What a configuration says about the rules that exist. -/
structure LinterConfig where
  /-- Rules run at all. -/
  enabled : Bool := true
  /-- What is said about single rules, by identifier. -/
  rules : Assoc RuleOverride := []
deriving DecidableEq, Repr

namespace LinterConfig

/-- A rule runs, given whether it does so if nothing is said about it. -/
def isEnabled (c : LinterConfig) (ruleId : String) (default : Bool) : Bool :=
  c.enabled && ((c.rules.find? ruleId).bind RuleOverride.enabled).getD default

/-- The severity of the findings of a rule, given its own severity. -/
def severityFor (c : LinterConfig) (ruleId : String) (default : Severity) : Severity :=
  ((c.rules.find? ruleId).bind RuleOverride.severity).getD default

end LinterConfig

/-- A configuration. -/
structure Config where
  /-- The schema to which the text of the configuration refers. -/
  schema : Option String := none
  /-- What is said about the rules that exist. -/
  linter : LinterConfig := {}
  /-- The rules that are declared. -/
  catalog : List RuleConfig := []
deriving DecidableEq, Repr

/-- The fault of an entry of the catalog at a position, if it has one. -/
def RuleConfig.fault? (index : Nat) (entry : RuleConfig) : Option ConfigFault :=
  if isBlankId entry.id then some (.emptyEntryId index)
  else if entry.pattern.isSome ∧ entry.fixes.isSome then some (.patternAndFix entry.id)
  else none

/-- The first fault of the entries of a catalog from a position on. -/
def catalogFault? (index : Nat) : List RuleConfig → Option ConfigFault
  | [] => none
  | entry :: rest => entry.fault? index <|> catalogFault? (index + 1) rest

/-- Checks the catalog: every entry has an identifier, and none is both a pattern and a fix. -/
def Config.validate (c : Config) : Except Error Unit :=
  match catalogFault? 0 c.catalog with
  | some fault => .error (.config fault)
  | none => .ok ()

end TreeLint
