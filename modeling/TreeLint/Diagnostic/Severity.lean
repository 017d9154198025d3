/-!
# Severities

How serious a finding is, on a scale of five steps.

## Main definitions

* `TreeLint.Severity` — the steps, by ascending `TreeLint.Severity.rank`.
* `TreeLint.Severity.name`, `TreeLint.Severity.ofName?` — the written form and its exact reading.
* `TreeLint.Severity.read` — the reading that accepts any mixture of upper and lower case.

## Main results

* `TreeLint.Severity.ofName?_name` — a written severity is read back.
-/

namespace TreeLint

/-- How serious a finding is. -/
inductive Severity where
  | info
  | minor
  | major
  | critical
  | blocker
deriving DecidableEq, Repr

namespace Severity

/-- The place of a severity on the scale. -/
def rank : Severity → Nat
  | info => 0
  | minor => 1
  | major => 2
  | critical => 3
  | blocker => 4

instance : Ord Severity := ⟨fun a b => compare a.rank b.rank⟩

/-- The written form of a severity. -/
def name : Severity → String
  | info => "info"
  | minor => "minor"
  | major => "major"
  | critical => "critical"
  | blocker => "blocker"

/-- The severities, by ascending rank. -/
def all : List Severity := [info, minor, major, critical, blocker]

/-- The severity with exactly this written form. -/
def ofName? (text : String) : Option Severity := all.find? (·.name == text)

/-- A written severity is read back. -/
@[simp] theorem ofName?_name (s : Severity) : ofName? s.name = some s := by
  cases s <;> rfl

/-- A text in lower case, as far as ASCII letters are concerned. -/
def lowerAscii (text : String) : String := .ofList (text.toList.map Char.toLower)

/-- Reads a severity in any mixture of upper and lower case. The complaint about any other text
quotes it in lower case. -/
def read (text : String) : Except String Severity :=
  let lower := lowerAscii text
  match ofName? lower with
  | some s => .ok s
  | none => .error ("unknown severity '" ++ lower ++ "'")

end Severity

end TreeLint
