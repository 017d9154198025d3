import TreeLint.Format.Toml.Scalar
import TreeLint.Format.Toml.Table
import TreeLint.Format.Toml.Token

/-!
# TOML

Data in TOML: a text is a list of tokens, tokens are lines, lines are grouped into sections by their
headings, and the sections make up one table.

## Main definitions

* `TreeLint.Toml.value?` — values.
* `TreeLint.Toml.Line`, `TreeLint.Toml.line?` — lines.
* `TreeLint.Toml.Section`, `TreeLint.Toml.sections` — sections.
* `TreeLint.Datum.ofToml?` — the data that a text writes.
-/

namespace TreeLint

namespace Toml

/-! ## Keys -/

/-- The tokens behind blanks. -/
def skipBlanks (ts : List TomlToken) : List TomlToken := ts.dropWhile TomlToken.isBlank

/-- Characters of a key without quotation marks. -/
def isKeyChar (c : Char) : Bool := c.isAlphanum || c = '_' || c = '-'

/-- A key without points. -/
def key? : Reader TomlToken String
  | .atom cs :: rest => if cs.all isKeyChar then some (.ofList cs, rest) else none
  | .text s false :: rest => some (s, rest)
  | _ => none

/-- Points between keys, with blanks around them. -/
def points : Separated TomlToken := ⟨skipBlanks, TomlToken.mark?, false⟩

/-- Keys with points between them. -/
def keys? : List TomlToken → Option (List String × List TomlToken)
  | ts =>
    match key? (skipBlanks ts) with
    | none => none
    | some (key, rest) =>
      match points.behind? '.' rest with
      | none => some ([key], rest)
      | some rest =>
        -- a key and a point have been taken, so this holds; it bounds the recursion
        if rest.length < ts.length then
          (keys? rest).map fun (keys, rest) => (key :: keys, rest)
        else none
termination_by ts => ts.length

/-- How many keys can stand one behind the other, and how deep lists and tables can be nested in a
value. -/
def maxDepth : Nat := 80

/-- Keys with points between them as the way to a table and the key there. -/
def path? : Reader TomlToken (List String × String) := fun ts => do
  let (keys, rest) ← keys? ts
  if maxDepth < keys.length then failure
  return ((keys.dropLast, ← keys.getLast?), rest)

/-! ## Values -/

/-- The characters of a value without quotation marks, which may have points in it. -/
def run : List TomlToken → List Char × List TomlToken
  | .atom cs :: rest => let (more, rest) := run rest; (cs ++ more, rest)
  | .mark '.' :: rest => let (more, rest) := run rest; ('.' :: more, rest)
  | ts => ([], ts)

/-- A plain value. A time of day may be separated from a date by a single space. -/
def plain? : Reader TomlToken Datum := fun ts =>
  match run ts with
  | (cs, .blank true :: rest) =>
    let (more, behind) := run rest
    if behindDate? cs = some [] ∧ more.head?.any Char.isDigit then
      (scalar? (cs ++ ' ' :: more)).map (·, behind)
    else (scalar? cs).map (·, .blank true :: rest)
  | (cs, rest) => (scalar? cs).map (·, rest)

/-- Commas between items, with blanks, comments and line ends around them. -/
def items : Separated TomlToken := ⟨(·.dropWhile TomlToken.isLayout), TomlToken.mark?, true⟩

/-- A key and its value, given the reader of values. -/
def assignment? (value : Reader TomlToken Datum) :
    Reader TomlToken ((List String × String) × Datum) := fun ts => do
  let (path, rest) ← path? ts
  let (d, rest) ← value (skipBlanks (← points.behind? '=' rest))
  return ((path, d), rest)

/-- A value in which lists and tables are nested at most as deep as said. -/
def value? : Nat → Reader TomlToken Datum
  | _, .text s _ :: rest => some (.text s, rest)
  | depth + 1, .mark '[' :: rest =>
    (items.read? ']' (value? depth) rest).map fun (ds, rest) => (.list ds, rest)
  | depth + 1, .mark '\x7b' :: rest => do
    let (values, rest) ← items.read? '\x7d' (assignment? (value? depth)) rest
    return ((← ({} : Table).assignAll? values).datum, rest)
  | _, ts => plain? ts

/-! ## Lines -/

/-- A line that is not empty. -/
inductive Line where
  /-- The heading of a table. -/
  | table (path : List String) (key : String)
  /-- The heading of an item of a list of tables. -/
  | item (path : List String) (key : String)
  /-- A key and its value. -/
  | value (path : List String) (key : String) (d : Datum)

/-- What follows the end of a line. -/
def behindLine? (ts : List TomlToken) : Option (List TomlToken) :=
  match skipBlanks ts with
  | [] => some []
  | .lineEnd :: rest => some rest
  | _ => none

/-- A line, which may be empty. The brackets around the heading of an item are not apart. -/
def line? : Reader TomlToken (Option Line) := fun ts =>
  match skipBlanks ts with
  | [] => some (none, [])
  | .lineEnd :: rest => some (none, rest)
  | .mark '[' :: .mark '[' :: rest => do
    let ((path, key), rest) ← path? rest
    match skipBlanks rest with
    | .mark ']' :: .mark ']' :: rest => return (some (.item path key), ← behindLine? rest)
    | _ => failure
  | .mark '[' :: rest => do
    let ((path, key), rest) ← path? rest
    return (some (.table path key), ← (points.behind? ']' rest).bind behindLine?)
  | ts => do
    let (((path, key), d), rest) ← assignment? (value? maxDepth) ts
    return (some (.value path key d), ← behindLine? rest)

/-! ## Sections -/

/-- A heading with the values under it. -/
structure Section where
  /-- The heading. -/
  heading : Line
  /-- The values. -/
  values : List ((List String × String) × Datum)

/-- The values before the first heading, and the sections. -/
def sections : List Line → List ((List String × String) × Datum) × List Section
  | [] => ([], [])
  | .value path key d :: lines =>
    let (values, rest) := sections lines
    (((path, key), d) :: values, rest)
  | heading :: lines =>
    let (values, rest) := sections lines
    ([], ⟨heading, values⟩ :: rest)

/-- A table with a section. -/
def Table.addSection? (t : Table) (s : Section) : Option Table :=
  match s.heading with
  | .table path key => t.addTable? path key (·.assignAll? s.values)
  | .item path key => t.addItem? path key (·.assignAll? s.values)
  | .value _ _ _ => none

/-- The table that lines describe. -/
def table? (lines : List Line) : Option Table := do
  let (values, rest) := sections lines
  rest.foldlM Table.addSection? (← ({} : Table).assignAll? values)

end Toml

/-- The data that a text in TOML writes. -/
def Datum.ofToml? (text : String) : Option Datum := do
  let tokens ← Toml.tokens? text
  let lines ← readAll? Toml.line? tokens
  return (← Toml.table? lines).datum

end TreeLint
