import TreeLint.Diagnostic.Severity
import TreeLint.Text.Range

/-!
# Diagnostics

A diagnostic is a finding of a rule: the rule's identifier, a message, a place and a severity. The
place is a span, an offset with a length. A span may come from a host, so it need not lie in any
text, and it may even end behind the largest offset; then it stands for no range.

## Main definitions

* `TreeLint.Span`, `TreeLint.Span.range?` — an offset with a length, and the range that it spans.
* `TreeLint.Diagnostic` — a finding.
* `TreeLint.Diagnostic.describe` — a finding in one line.
-/

namespace TreeLint

/-- An offset with a length. -/
structure Span where
  /-- The offset of the first byte. -/
  start : Nat
  /-- The number of bytes. -/
  length : Nat
deriving DecidableEq, Repr

namespace Span

/-- The span of a range. -/
def ofRange (r : Range) : Span := ⟨r.start, r.length⟩

/-- The offset just behind the span. -/
def stop (s : Span) : Nat := s.start + s.length

/-- The range that a span stands for, unless it ends behind the largest offset. -/
def range? (s : Span) : Option Range :=
  if s.stop ≤ maxOffset then some (.ofLength s.start s.length) else none

/-- A range is recovered from its span. -/
theorem range?_ofRange {r : Range} (h : r.stop ≤ maxOffset) : (ofRange r).range? = some r := by
  have hle := r.start_le_stop
  have hstop : r.start + (r.stop - r.start) = r.stop := by omega
  cases r
  simp_all [range?, stop, ofRange, Range.length, Range.ofLength]

end Span

/-- A finding of a rule. -/
structure Diagnostic where
  /-- The identifier of the rule. -/
  ruleId : String
  /-- The message to the user. -/
  message : String
  /-- The place of the finding in the tree that was analysed. -/
  span : Span
  /-- How serious the finding is. -/
  severity : Severity
deriving DecidableEq, Repr

namespace Diagnostic

/-- The range of a finding, unless its span ends behind the largest offset. -/
def range? (d : Diagnostic) : Option Range := d.span.range?

/-- The finding with another severity. -/
def withSeverity (d : Diagnostic) (severity : Severity) : Diagnostic := { d with severity }

/-- A finding in one line. -/
def describe (d : Diagnostic) : String :=
  d.ruleId ++ "[" ++ d.severity.name ++ "] " ++ toString d.span.start ++ ".."
    ++ toString d.span.stop ++ ": " ++ d.message

end Diagnostic

end TreeLint
