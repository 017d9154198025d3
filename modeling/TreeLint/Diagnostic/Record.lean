import TreeLint.Config.Record
import TreeLint.Diagnostic.Basic

/-!
# Findings as data

How findings are read from data and written as data.

## Main definitions

* `TreeLint.Diagnostic.ofDatum?` — reading.
* `TreeLint.Diagnostic.toDatum` — writing.
-/

namespace TreeLint

/-- The span that a datum is. -/
def Span.ofDatum? (dialect : Dialect) (d : Datum) : Option Span := do
  match ← d.fields? dialect true ["startOffset", "length"] with
  | [some start, some length] =>
    return ⟨← start.natural? maxOffset, ← length.natural? maxOffset⟩
  | _ => none

/-- The finding that a datum is. -/
def Diagnostic.ofDatum? (dialect : Dialect) (d : Datum) : Option Diagnostic := do
  match ← d.fields? dialect true ["ruleId", "message", "span", "severity"] with
  | [some ruleId, some message, some span, some severity] =>
    return ⟨← ruleId.text?, ← message.text?, ← Span.ofDatum? dialect span,
      ← Severity.ofDatum? dialect severity⟩
  | _ => none

/-- A span as a datum. -/
def Span.toDatum (s : Span) : Datum :=
  .record [("startOffset", .integer s.start), ("length", .integer s.length)]

/-- A finding as a datum. -/
def Diagnostic.toDatum (d : Diagnostic) : Datum :=
  .record [("ruleId", .text d.ruleId), ("message", .text d.message), ("span", d.span.toDatum),
    ("severity", d.severity.toDatum)]

end TreeLint
