import TreeLint.Data.Datum
import TreeLint.Format.Escape
import TreeLint.Format.Numeral
import TreeLint.Format.Reader

/-!
# JSON

Data in JSON, in two steps: a text is a list of tokens, and tokens are a piece of data. The second
step has parameters, since it serves a relaxed form of the format as well.

## Main definitions

* `TreeLint.JsonToken`, `TreeLint.JsonForm` — tokens, and what differs between forms of the format.
* `TreeLint.JsonForm.datum?` — the data that tokens write.
* `TreeLint.Datum.ofJson?` — the data that a text writes.
-/

namespace TreeLint

/-- Tokens. -/
inductive JsonToken where
  /-- A bracket, a brace, a colon or a comma. -/
  | mark (c : Char)
  /-- A quoted text, if its written form is that of a text. -/
  | text (s : Option String)
  /-- A word without quotation marks. -/
  | word (s : String)
  /-- A word that can only be a key, if its written form is that of a text. -/
  | name (s : Option String)
  /-- A number. -/
  | number (d : Datum)

/-- The mark that a token is. -/
def JsonToken.mark? : JsonToken → Option Char
  | mark c => some c
  | _ => none

/-- What differs between forms of the format. -/
structure JsonForm where
  /-- What words stand for. -/
  constants : List (String × Datum)
  /-- A comma may follow the last item. -/
  trailingComma : Bool
  /-- A word can be a key. -/
  bareKeys : Bool

namespace JsonForm

/-- The commas of a form. -/
def separated (f : JsonForm) : Separated JsonToken := ⟨id, JsonToken.mark?, f.trailingComma⟩

/-- An entry of a table, given the reader of its value. -/
def entry? (f : JsonForm) (value : Reader JsonToken Datum) :
    Reader JsonToken (Option String × Datum)
  | .text key :: .mark ':' :: rest => (value rest).map fun (d, rest) => ((key, d), rest)
  | .word key :: .mark ':' :: rest =>
    if f.bareKeys then (value rest).map fun (d, rest) => ((some key, d), rest) else none
  | .name key :: .mark ':' :: rest =>
    if f.bareKeys then (value rest).map fun (d, rest) => ((key, d), rest) else none
  | _ => none

/-- A value that is nested at most as deep as said. -/
def value? (f : JsonForm) : Nat → Reader JsonToken Datum
  | _, .text s :: rest => some (s.elim .unsound .text, rest)
  | _, .number d :: rest => some (d, rest)
  | _, .word s :: rest => (f.constants.lookup s).map (·, rest)
  | depth + 1, .mark '[' :: rest =>
    (f.separated.read? ']' (f.value? depth) rest).map fun (items, rest) => (.list items, rest)
  | depth + 1, .mark '\x7b' :: rest =>
    (f.separated.read? '\x7d' (f.entry? (f.value? depth)) rest).map fun (entries, rest) =>
      (.table entries, rest)
  | _, _ => none

/-- The data that tokens write. -/
def datum? (f : JsonForm) (tokens : List JsonToken) : Option Datum :=
  match f.value? tokens.length tokens with
  | some (d, []) => some d
  | _ => none

end JsonForm

/-- Truth values and nothing. -/
def jsonConstants : List (String × Datum) :=
  [("null", .null), ("true", .bool true), ("false", .bool false)]

/-- Brackets, braces, colons and commas. -/
def jsonMarks : List Char := ['[', ']', '\x7b', '\x7d', ':', ',']

namespace Json

/-- The form without exceptions. -/
def form : JsonForm := ⟨jsonConstants, false, false⟩

/-- The escapes of one letter. -/
def escapes : List (Char × Char) :=
  [('"', '"'), ('\\', '\\'), ('/', '/'), ('b', '\x08'), ('f', '\x0c'), ('n', '\n'), ('r', '\r'),
    ('t', '\t')]

/-- The text that numbers of characters and surrogates stand for. -/
def text? (units : List Nat) : Option String := (ofUnits? pairValue units).map String.ofList

/-- A character or an escape inside quotation marks. -/
def unit? : Reader Char (List Nat)
  | '\\' :: 'u' :: cs => (hexEscape? 4 cs).map fun (n, rest) => ([n], rest)
  | '\\' :: c :: cs => (escapes.lookup c).map fun d => ([d.toNat], cs)
  | c :: cs => if c = '\\' ∨ c.toNat < 0x20 then none else some ([c.toNat], cs)
  | [] => none

/-- A number. -/
def number? : Reader Char Datum := fun cs => do
  let negative := cs.head? == some '-'
  let (n, rest) ← readNumeral? (if negative then cs.drop 1 else cs)
  if ¬n.isComplete then failure
  return (if n.isWhole then .integer (signed negative n.value) else .fraction, rest)

/-- The blanks between tokens. -/
def isBlank (c : Char) : Bool := c = ' ' || c = '\t' || c = '\n' || c = '\r'

/-- A token, or a blank. -/
def token? : Reader Char (Option JsonToken)
  | [] => none
  | c :: cs =>
    if isBlank c then some (none, cs)
    else if jsonMarks.contains c then some (some (.mark c), cs)
    else if c = '"' then
      (readUntil? (behind? '"') unit? cs).map fun (units, rest) =>
        (some (.text (text? units)), rest)
    else if c.isAlpha then
      some (some (.word (.ofList ((c :: cs).takeWhile Char.isAlpha))),
        (c :: cs).dropWhile Char.isAlpha)
    else (number? (c :: cs)).map fun (d, rest) => (some (.number d), rest)

end Json

/-- The data that a text in JSON writes. -/
def Datum.ofJson? (text : String) : Option Datum :=
  (readAll? Json.token? text.toList).bind Json.form.datum?

end TreeLint
