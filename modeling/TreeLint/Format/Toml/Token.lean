import TreeLint.Format.Escape
import TreeLint.Format.Reader

/-!
# Tokens of TOML

A text in TOML as a list of marks, blanks, line ends, quoted texts and everything else, which is
made up of atoms. What an atom is depends on where it stands, in a key or in a value, so this is
left open here. Comments are checked and passed over.

## Main definitions

* `TreeLint.TomlToken` — tokens.
* `TreeLint.Toml.tokens?` — the tokens of a text.
-/

namespace TreeLint

/-- Tokens. -/
inductive TomlToken where
  /-- A bracket, a brace, a point, a comma or an equals sign. -/
  | mark (c : Char)
  /-- Blanks; the flag tells whether it is a single space. -/
  | blank (single : Bool)
  /-- The end of a line. -/
  | lineEnd
  /-- Other characters. -/
  | atom (cs : List Char)
  /-- A quoted text, which may go over several lines if the flag is set. -/
  | text (s : String) (multiline : Bool)
deriving DecidableEq

namespace TomlToken

/-- The mark that a token is. -/
def mark? : TomlToken → Option Char
  | mark c => some c
  | _ => none

/-- Spaces and tabs. -/
def isBlank : TomlToken → Bool
  | blank _ => true
  | _ => false

/-- Spaces, tabs and line ends. -/
def isLayout : TomlToken → Bool
  | blank _ | lineEnd => true
  | _ => false

end TomlToken

namespace Toml

/-- Spaces and tabs. -/
def isBlank (c : Char) : Bool := c = ' ' || c = '\t'

/-- Characters that may stand in comments and quoted texts. -/
def isAllowed (c : Char) : Bool := c = '\t' || (c.toNat ≥ 0x20 && c.toNat ≠ 0x7f)

/-- Brackets, braces, points, commas and equals signs. -/
def marks : List Char := ['[', ']', '\x7b', '\x7d', '.', ',', '=']

/-- Characters that are no part of an atom. -/
def isDelimiter (c : Char) : Bool :=
  isBlank c || marks.contains c || ['\n', '\r', '#', '"', '\''].contains c

/-- What follows the end of a line. -/
def behindLineEnd? : List Char → Option (List Char)
  | '\n' :: cs | '\r' :: '\n' :: cs => some cs
  | _ => none

/-! ## Quoted texts -/

/-- The escapes of one letter. -/
def escapes : List (Char × Char) :=
  [('b', '\x08'), ('t', '\t'), ('n', '\n'), ('f', '\x0c'), ('r', '\r'), ('e', '\x1b'), ('"', '"'),
    ('\\', '\\')]

/-- The escapes of a character by number, with the count of digits. -/
def numbered : List (Char × Nat) := [('x', 2), ('u', 4), ('U', 8)]

/-- What an escape behind a backslash stands for. -/
def escape? : Reader Char (List Char)
  | [] => none
  | c :: cs =>
    match numbered.lookup c with
    | some count => do
      let (n, rest) ← hexEscape? count cs
      return ([← charOf? n], rest)
    | none => (escapes.lookup c).map fun d => ([d], cs)

/-- A character of a text between quotation marks. -/
def basicUnit? : Reader Char (List Char)
  | '\\' :: cs => escape? cs
  | c :: cs => if isAllowed c then some ([c], cs) else none
  | [] => none

/-- A character of a text between apostrophes. -/
def literalUnit? : Reader Char (List Char)
  | c :: cs => if isAllowed c then some ([c], cs) else none
  | [] => none

/-- The number of quotation marks that come next. -/
def quotes (quote : Char) (cs : List Char) : Nat := (cs.takeWhile (· = quote)).length

/-- The end of a text over several lines: three quotation marks. -/
def longEnd? (quote : Char) (cs : List Char) : Option (List Char) :=
  if quotes quote cs = 3 then some (cs.drop 3) else none

/-- Blanks and line ends passed over. -/
def skipLayout : List Char → List Char
  | ' ' :: cs | '\t' :: cs | '\n' :: cs | '\r' :: '\n' :: cs => skipLayout cs
  | cs => cs

/-- What follows the layout behind a backslash at the end of a line. -/
def continued? (cs : List Char) : Option (List Char) :=
  (behindLineEnd? (cs.dropWhile isBlank)).map skipLayout

/-- A character of a text over several lines, given how other characters are read. Up to two
quotation marks may stand before the end; line ends stand for themselves. -/
def longUnit? (quote : Char) (escaped : Bool) (unit : Reader Char (List Char)) :
    Reader Char (List Char)
  | [] => none
  | '\n' :: cs => some (['\n'], cs)
  | '\r' :: '\n' :: cs => some (['\r', '\n'], cs)
  | c :: cs =>
    if quotes quote (c :: cs) > 5 then none
    else if c = '\\' ∧ escaped then
      match continued? cs with
      | some rest => some ([], rest)
      | none => unit (c :: cs)
    else unit (c :: cs)

/-- A quoted text that goes over several lines, behind what opens it. A line end comes first is
none of it. -/
def long? (quote : Char) (escaped : Bool) (unit : Reader Char (List Char)) :
    Reader Char TomlToken := fun cs =>
  (readUntil? (longEnd? quote) (longUnit? quote escaped unit) ((behindLineEnd? cs).getD cs)).map
    fun (s, rest) => (.text (.ofList s) true, rest)

/-- A quoted text on one line, behind what opens it. -/
def short? (quote : Char) (unit : Reader Char (List Char)) : Reader Char TomlToken := fun cs =>
  (readUntil? (behind? quote) unit cs).map fun (s, rest) => (.text (.ofList s) false, rest)

/-- A quoted text. -/
def quotedText? : Reader Char TomlToken := fun cs =>
  match behindAll? ['"', '"', '"'] cs, behindAll? ['\'', '\'', '\''] cs with
  | some rest, _ => long? '"' true basicUnit? rest
  | _, some rest => long? '\'' false literalUnit? rest
  | none, none =>
    match cs with
    | '"' :: rest => short? '"' basicUnit? rest
    | '\'' :: rest => short? '\'' literalUnit? rest
    | _ => none

/-! ## Tokens -/

/-- What follows a comment, which ends before the end of the line. -/
def comment? (cs : List Char) : Option (List Char) :=
  let rest := cs.dropWhile isAllowed
  if rest.isEmpty ∨ (behindLineEnd? rest).isSome then some rest else none

/-- A token, or a comment. -/
def token? : Reader Char (Option TomlToken)
  | [] => none
  | c :: cs =>
    if isBlank c then
      let rest := cs.dropWhile isBlank
      some (some (.blank (c = ' ' && rest.length = cs.length)), rest)
    else if c = '#' then (comment? cs).map (none, ·)
    else if c = '\n' ∨ c = '\r' then (behindLineEnd? (c :: cs)).map (some .lineEnd, ·)
    else if c = '"' ∨ c = '\'' then (quotedText? (c :: cs)).map fun (t, rest) => (some t, rest)
    else if marks.contains c then some (some (.mark c), cs)
    else
      some (some (.atom ((c :: cs).takeWhile fun d => !isDelimiter d)),
        (c :: cs).dropWhile fun d => !isDelimiter d)

/-- The tokens of a text. A mark of the byte order may come first. -/
def tokens? (text : String) : Option (List TomlToken) :=
  readAll? token? (match text.toList with
    | [] => []
    | c :: cs => if c.toNat = 0xfeff then cs else c :: cs)

end Toml

end TreeLint
