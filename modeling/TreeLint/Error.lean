/-!
# Errors

The ways in which an operation of the library can fail, each as a cause with the data that describe
it, and the wording of each cause in one place. Some causes carry a detail in the words of another
party, such as the file system; the heading of an error is its wording up to that detail.

## Main definitions

* `TreeLint.ConfigFault` — the faults of a configuration.
* `TreeLint.Error` — the failures of the library.
* `TreeLint.Error.message`, `TreeLint.Error.heading` — the full wording, and the wording without
  details in foreign words.
* `TreeLint.Error.category`, `TreeLint.Error.isRecoverable` — a coarse classification.
-/

namespace TreeLint

/-- The formats of a configuration text. -/
inductive ConfigFormat where
  | toml
  | json
  | jsonc
deriving DecidableEq, Repr

/-- The name of a format. -/
def ConfigFormat.name : ConfigFormat → String
  | toml => "TOML"
  | json => "JSON"
  | jsonc => "JSONC"

/-- The faults of a configuration. -/
inductive ConfigFault where
  /-- The text is not of the format that it should have, or describes no configuration. -/
  | malformed (format : ConfigFormat) (detail : String)
  /-- The name of the file has none of the endings of the formats. -/
  | unsupportedExtension (path : String)
  /-- The configuration could not be read from a file, for the reason given. -/
  | unloadable (path : String) (reason : ConfigFault)
  /-- The file that was asked for does not exist. -/
  | missingFile (path : String)
  /-- The place from which a configuration is searched cannot be resolved. -/
  | unresolvablePath (detail : String)
  /-- An entry of the catalog has no identifier. -/
  | emptyEntryId (index : Nat)
  /-- A rule is declared without an identifier. -/
  | emptyRuleId
  /-- A rule declares both a pattern and a rule that it fixes. -/
  | patternAndFix (ruleId : String)
  /-- A fault that a host reports in its own words. -/
  | reported (message : String)
deriving DecidableEq, Repr

/-- The failures of the library. -/
inductive Error where
  /-- A rule with the identifier is registered already. -/
  | duplicateRule (ruleId : String)
  /-- No rule with the identifier is registered. -/
  | unknownRule (ruleId : String)
  /-- The pattern of a rule is no regular expression. -/
  | invalidPattern (ruleId detail : String)
  /-- Two edits of one batch overlap. -/
  | conflictingEdits (message : String)
  /-- No fix can be offered. -/
  | fixUnavailable (reason : String)
  /-- The configuration is at fault. -/
  | config (fault : ConfigFault)
  /-- The file system refused a file. -/
  | io (path detail : String)
  /-- The caller cancelled the operation. -/
  | cancelled
deriving DecidableEq, Repr

namespace ConfigFault

/-- The wording of a fault up to a detail in foreign words, and that detail, if it ends with one. -/
def parts : ConfigFault → String × Option String
  | malformed format detail => ("Invalid " ++ format.name ++ ":", some detail)
  | unsupportedExtension path =>
    ("Unsupported file extension for '" ++ path ++ "' (expected .toml, .json, or .jsonc)", none)
  | unloadable path reason =>
    let (text, detail) := reason.parts
    ("Failed to load config from '" ++ path ++ "': Configuration error: " ++ text, detail)
  | missingFile path => ("Config file not found: " ++ path, none)
  | unresolvablePath detail => ("Invalid path:", some detail)
  | emptyEntryId index => ("catalog entry " ++ toString index ++ " has an empty id", none)
  | emptyRuleId => ("rule id must not be empty", none)
  | patternAndFix ruleId =>
    ("rule '" ++ ruleId ++ "' declares both a pattern and a fixed rule", none)
  | reported message => (message, none)

end ConfigFault

/-- A coarse classification of failures. -/
inductive ErrorCategory where
  | registry
  | pattern
  | fix
  | config
  | io
  | cancelled
deriving DecidableEq, Repr

namespace Error

/-- The wording of a failure up to a detail in foreign words, and that detail, if it ends with
one. -/
def parts : Error → String × Option String
  | duplicateRule ruleId => ("Duplicate rule id '" ++ ruleId ++ "'", none)
  | unknownRule ruleId => ("Unknown rule id '" ++ ruleId ++ "'", none)
  | invalidPattern ruleId detail =>
    ("Invalid pattern for rule '" ++ ruleId ++ "':", some detail)
  | conflictingEdits message => ("Conflicting edits: " ++ message, none)
  | fixUnavailable reason => ("Fix unavailable: " ++ reason, none)
  | config fault =>
    let (text, detail) := fault.parts
    ("Configuration error: " ++ text, detail)
  | io path detail => ("IO error for path '" ++ path ++ "':", some detail)
  | cancelled => ("Operation cancelled", none)

/-- The wording of a failure without details in foreign words. -/
def heading (e : Error) : String := e.parts.1

/-- The full wording of a failure. -/
def message (e : Error) : String :=
  match e.parts with
  | (text, some detail) => text ++ " " ++ detail
  | (text, none) => text

/-- The class of a failure. -/
def category : Error → ErrorCategory
  | duplicateRule _ | unknownRule _ => .registry
  | invalidPattern _ _ => .pattern
  | conflictingEdits _ | fixUnavailable _ => .fix
  | config _ => .config
  | io _ _ => .io
  | cancelled => .cancelled

/-- After a recoverable failure other documents can still be processed. -/
def isRecoverable (e : Error) : Bool := e.category = .fix ∨ e.category = .cancelled

end Error

end TreeLint
