import TreeLint.Config.Basic
import TreeLint.Diagnostic.Basic
import TreeLint.Rule.Category
import TreeLint.Rule.Message
import TreeLint.Rule.Pattern

/-!
# Rules

A rule is described by what it is called, how it words its findings, how serious they are, and what
kind of rule it is: one that tests comments against a pattern, one whose check inspects the
structure of a tree, or one that fixes the findings of another.

## Main definitions

* `TreeLint.RuleKind`, `TreeLint.Descriptor` — the kinds of rules, and rules.
* `TreeLint.Descriptor.ofConfig` — the rule that an entry of a catalog declares.
* `TreeLint.Descriptor.render` — the message of a finding.
-/

namespace TreeLint

/-- The kinds of rules. -/
inductive RuleKind where
  /-- Tests comments against a pattern. -/
  | pattern (pattern : CommentPattern)
  /-- Inspects the structure of a tree. -/
  | structural
  /-- Fixes the findings of another rule. -/
  | fix (fixes : String)
deriving DecidableEq

/-- The name of a kind. -/
def RuleKind.name : RuleKind → String
  | pattern _ => "pattern"
  | structural => "structural"
  | fix _ => "fix"

/-- A rule. -/
structure Descriptor where
  /-- The identifier. -/
  id : String
  /-- The title. -/
  title : String
  /-- The template of the message. -/
  messageTemplate : String
  /-- What the rule looks for. -/
  category : RuleCategory := .correctness
  /-- How serious its findings are. -/
  severity : Severity := .major
  /-- Whether the rule runs if no configuration says otherwise. -/
  enabled : Bool := true
  /-- The kind of the rule. -/
  kind : RuleKind
  /-- A page that explains the rule. -/
  helpUrl : Option String := none
deriving DecidableEq

namespace Descriptor

/-- A rule of a kind that words its findings as its title. -/
def titled (id title : String) (kind : RuleKind) : Descriptor :=
  { id, title, messageTemplate := title, kind }

/-- The pattern of a rule that tests comments. -/
def pattern? (d : Descriptor) : Option CommentPattern :=
  match d.kind with
  | .pattern p => some p
  | _ => none

/-- The rule whose findings a rule fixes. -/
def fixes? (d : Descriptor) : Option String :=
  match d.kind with
  | .fix fixes => some fixes
  | _ => none

/-- A rule that tests comments. -/
def isPattern (d : Descriptor) : Bool := d.pattern?.isSome

/-- A rule that fixes findings. -/
def isFix (d : Descriptor) : Bool := d.fixes?.isSome

/-- A rule that inspects the structure of a tree. -/
def isStructural (d : Descriptor) : Bool := d.kind = .structural

/-- The message of a finding, given what it is about. -/
def render (d : Descriptor) (args : List String) : String := renderMessage d.messageTemplate args

/-- A finding of a rule at a place. -/
def finding (d : Descriptor) (args : List String) (range : Range) : Diagnostic :=
  ⟨d.id, d.render args, .ofRange range, d.severity⟩

/-- The rule with the severity that a configuration gives to it. -/
def effective (d : Descriptor) (c : LinterConfig) : Descriptor :=
  { d with severity := c.severityFor d.id d.severity }

/-- A rule that tests comments, as all such rules are unless something else is said: it runs only
on demand. -/
def comment (id pattern : String) : Except Error Descriptor := do
  let compiled ← CommentPattern.compile id pattern
  return {
    id
    title := "Regular expression on comment"
    messageTemplate := "The regular expression matches this comment"
    category := .custom "SonarQube"
    severity := .major
    enabled := false
    kind := .pattern compiled
    helpUrl := some <| "http://nemo.sonarqube.org/coding_rules#rule_key="
      ++ "csharpsquid%3ACommentRegularExpression" }

/-- The rule that an entry of a catalog declares. An entry with a pattern tests comments, one that
names a rule to fix is a fix, and any other is a structural rule. -/
def ofConfig (c : RuleConfig) : Except Error Descriptor := do
  if isBlankId c.id then throw (.config .emptyRuleId)
  let base ← match c.pattern, c.fixes with
    | some pattern, none => comment c.id pattern
    | none, some fixes => pure (titled c.id (c.title.getD c.id) (.fix fixes))
    | some _, some _ => throw (.config (.patternAndFix c.id))
    | none, none => pure (titled c.id (c.title.getD c.id) .structural)
  return { base with
    title := c.title.getD base.title
    messageTemplate := c.message.getD base.messageTemplate
    category := (c.category.map RuleCategory.ofSlug).getD base.category
    severity := c.severity.getD base.severity
    enabled := c.enabled.getD base.enabled }

end Descriptor

end TreeLint
