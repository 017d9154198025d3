import TreeLint.Format.Json
import TreeLint.Unicode.Property

/-!
# Relaxed JSON

JSON for people: comments, commas behind the last item, keys without quotation marks, apostrophes
as quotation marks, lines that are continued inside a text, and more ways to write a number. Other
than in the strict form, a number has to fit its type to be sound.

## Main definitions

* `TreeLint.RelaxedJson.word?`, `TreeLint.RelaxedJson.number?`, `TreeLint.RelaxedJson.token?` —
  words, numbers and tokens.
* `TreeLint.Datum.ofRelaxedJson?` — the data that a text writes.
-/

namespace TreeLint

namespace RelaxedJson

open Unicode (CodeSet Category letters diacritic joinControl)

/-- The form with all exceptions. -/
def form : JsonForm :=
  ⟨jsonConstants ++ [("Infinity", .fraction), ("NaN", .fraction)], true, true⟩

/-! ## Blanks -/

/-- Characters that end a line. -/
def isLineEnd (c : Char) : Bool := c = '\n' || c = '\r' || c.toNat = 0x2028 || c.toNat = 0x2029

/-- The blanks between tokens. -/
def isBlank (c : Char) : Bool :=
  c = '\t' || c = '\x0b' || c = '\x0c' || c.toNat = 0xfeff || isLineEnd c
    || Unicode.Category.spaceSeparatorSet.contains c.toNat

/-- What follows the end of a comment between slashes with stars, for the text inside it. -/
def behindComment? : List Char → Option (List Char)
  | [] => none
  | c :: cs => (behindAll? ['*', '/'] (c :: cs)).or (behindComment? cs)

/-- What follows a comment. -/
def comment? : List Char → Option (List Char)
  | '/' :: '*' :: cs => behindComment? cs
  | '/' :: '/' :: cs => some (cs.dropWhile fun c => !isLineEnd c)
  | _ => none

/-! ## Texts -/

/-- The escapes of one letter that do not stand for the letter itself. -/
def escapes : List (Char × Char) :=
  [('b', '\x08'), ('f', '\x0c'), ('n', '\n'), ('r', '\r'), ('t', '\t'), ('v', '\x0b'),
    ('0', '\x00')]

/-- A character or an escape inside quotation marks; the end of a line behind a backslash is
nothing. -/
def unit? : Reader Char (List Nat)
  | '\\' :: 'u' :: cs => (hexEscape? 4 cs).map fun (n, rest) => ([n], rest)
  | '\\' :: 'x' :: cs => (hexEscape? 2 cs).map fun (n, rest) => ([n], rest)
  | '\\' :: '\r' :: '\n' :: cs => some ([], cs)
  | '\\' :: c :: cs =>
    if isLineEnd c then some ([], cs)
    else
      match escapes.lookup c with
      | some d => some ([d.toNat], cs)
      | none => if c.isDigit then none else some ([c.toNat], cs)
  | c :: cs => if c = '\\' ∨ isLineEnd c then none else some ([c.toNat], cs)
  | [] => none

/-- The number of the character that two numbers write: the ten bits of each side by side, with the
seventeenth bit set. It may be set already, so that only characters of the planes with an odd number
can be written in this way. -/
def pairValue (leading trailing : Nat) : Nat :=
  ((leading &&& 0x3ff) <<< 10 ||| (trailing &&& 0x3ff)) ||| 0x10000

/-- The text that numbers of characters and surrogates stand for. -/
def text? (units : List Nat) : Option String := (ofUnits? pairValue units).map String.ofList

/-! ## Words -/

/-- Letters and letter numbers. -/
def nameStart : CodeSet := letters.union Category.letterNumberSet

/-- Marks, digits, connectors and joiners. -/
def namePart : CodeSet :=
  .unions [Category.nonspacingMarkSet, Category.decimalNumberSet,
    Category.connectorPunctuationSet, diacritic, joinControl]

/-- Characters that begin a word. -/
def isStart (c : Char) : Bool :=
  c = '$' || c = '_' || nameStart.contains c.toNat

/-- Characters that a word may go on with. -/
def isPart (c : Char) : Bool :=
  isStart c || namePart.contains c.toNat

/-- A character or an escape in a word. -/
def wordUnit? : Reader Char (List Nat)
  | '\\' :: 'u' :: cs => (hexEscape? 4 cs).map fun (n, rest) => ([n], rest)
  | c :: cs => if isPart c then some ([c.toNat], cs) else none
  | [] => none

/-- The end of a word: a character that neither belongs to it nor begins an escape. -/
def wordEnd? : List Char → Option (List Char)
  | [] => some []
  | c :: cs => if c = '\\' ∨ isPart c then none else some (c :: cs)

/-- A word. One with escapes can only be a key. -/
def word? : Reader Char JsonToken := fun cs => do
  let (units, rest) ← readUntil? wordEnd? wordUnit? cs
  let written := cs.takeWhile fun c => c = '\\' || isPart c
  return (if written.contains '\\' then .name (text? units) else .word (.ofList written), rest)

/-! ## Numbers -/

/-- The digits of a hexadecimal number, behind the mark of its base. -/
def hexDigits? : Reader Char (List Char)
  | '0' :: 'x' :: cs | '0' :: 'X' :: cs =>
    let digits := cs.takeWhile (isDigitIn 16)
    if digits.isEmpty then none else some (digits, cs.dropWhile (isDigitIn 16))
  | _ => none

/-- A hexadecimal number. It is sound up to 32 bits. -/
def hexNumber (digits : List Char) : Datum :=
  match numeral? 16 0 digits with
  | some n => if n < capacity 32 then .integer n else .unsound
  | none => .unsound

/-- A decimal number. A whole one is sound if it has at most 64 bits with its sign, and any other if
it is rounded to a finite double. -/
def decimal? (negative : Bool) : Reader Char Datum := fun cs => do
  let (n, rest) ← readNumeral? cs
  if ¬n.hasDigits then failure
  if n.isWhole then
    let value := signed negative n.value
    let fits : Bool := -capacity 63 ≤ value ∧ value < capacity 63
    return (if fits then .integer value else .unsound, rest)
  else return (if n.isTooLarge then .unsound else .fraction, rest)

/-- What follows the name of an infinite number or of no number. -/
def behindNoNumber? (cs : List Char) : Option (List Char) :=
  (behindAll? "Infinity".toList cs).or (behindAll? "NaN".toList cs)

/-- A number behind a sign. A hexadecimal number is not sound with a sign, and an infinite one or
none at all is so with a minus sign only. -/
def signedNumber? (negative : Bool) : Reader Char Datum := fun cs =>
  match hexDigits? cs, behindNoNumber? cs with
  | some (_, rest), _ => some (.unsound, rest)
  | none, some rest => some (if negative then .fraction else .unsound, rest)
  | none, none => decimal? negative cs

/-- A number, of which the sign is the first character or missing. -/
def number? : Reader Char Datum
  | '-' :: cs => signedNumber? true cs
  | '+' :: cs => signedNumber? false cs
  | cs =>
    match hexDigits? cs with
    | some (digits, rest) => some (hexNumber digits, rest)
    | none => decimal? false cs

/-! ## Tokens -/

/-- A token, or something that may stand between tokens. -/
def token? : Reader Char (Option JsonToken)
  | [] => none
  | c :: cs =>
    if isBlank c then some (none, cs)
    else if jsonMarks.contains c then some (some (.mark c), cs)
    else if c = '/' then (comment? (c :: cs)).map (none, ·)
    else if c = '"' ∨ c = '\'' then do
      let (units, rest) ← readUntil? (behind? c) unit? cs
      return (some (.text (text? units)), rest)
    else if c = '\\' ∨ isStart c then (word? (c :: cs)).map fun (t, rest) => (some t, rest)
    else (number? (c :: cs)).map fun (d, rest) => (some (.number d), rest)

end RelaxedJson

/-- The data that a text in relaxed JSON writes. -/
def Datum.ofRelaxedJson? (text : String) : Option Datum :=
  (readAll? RelaxedJson.token? text.toList).bind RelaxedJson.form.datum?

end TreeLint
