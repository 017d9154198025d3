import TreeLint.Regex.Basic
import TreeLint.Text.Digit
import TreeLint.Unicode.Casing
import TreeLint.Unicode.Letter
import TreeLint.Unicode.Name

/-!
# Single characters and classes in written expressions

The parts of a written expression that stand for one character or for one place: literal characters,
escapes, and classes in brackets with their ranges and set operations. How they are read depends on
the mode that is in force.

## Main definitions

* `TreeLint.Regex.Mode` — the mode in which a part of an expression is read.
* `TreeLint.Regex.skipLayout` — blanks and comments, which the spaced mode ignores.
* `TreeLint.Regex.Atom`, `TreeLint.Regex.readEscape` — what an escape stands for.
* `TreeLint.Regex.readClass` — a class in brackets.
-/

namespace TreeLint.Regex

open Unicode (CodeSet isBlank)

/-! ## Modes -/

/-- The mode in which a part of an expression is read. -/
structure Mode where
  /-- Characters stand for all that differ from them only in case. -/
  ignoreCase : Bool := false
  /-- The anchors stand for starts and ends of lines. -/
  multiLine : Bool := false
  /-- The dot stands for line ends, too. -/
  dotAll : Bool := false
  /-- Lines end with a carriage return, a line feed or both. -/
  crlf : Bool := false
  /-- Characters are those of Unicode, otherwise bytes that may only be ASCII where a set is
  described. -/
  unicode : Bool := true
  /-- Repetitions prefer the smallest number, and those with a question mark the largest. -/
  swapGreedy : Bool := false
  /-- Blanks and comments between parts are ignored. -/
  spaced : Bool := false

/-- A set with all that differs from its members only in case, if case is ignored. -/
def Mode.close (mode : Mode) (set : CodeSet) : CodeSet :=
  if !mode.ignoreCase then set else if mode.unicode then set.closeCase else set.closeAsciiCase

/-- A set or its complement. Sets of bytes have none, as bytes beyond ASCII are no characters. -/
def Mode.complement? (mode : Mode) (negated : Bool) (set : CodeSet) : Option CodeSet :=
  if !negated then some set else if mode.unicode then some set.compl else none

/-- What follows blanks and comments; a comment goes from a hash sign to the end of its line. -/
def skipFrom (comment : Bool) : List Char → List Char
  | [] => []
  | c :: cs =>
    if comment then skipFrom (c ≠ '\n') cs
    else if isBlank c then skipFrom false cs
    else if c = '#' then skipFrom true cs
    else c :: cs

/-- What follows blanks and comments, if they are ignored. -/
def Mode.skipLayout (mode : Mode) (cs : List Char) : List Char :=
  if mode.spaced then skipFrom false cs else cs

/-! ## Characters by number -/

/-- The next characters of a number, as many as asked for, and what follows them. -/
def takeDigits (mode : Mode) : Nat → List Char → Option (List Char × List Char)
  | 0, cs => some ([], cs)
  | _ + 1, [] => none
  | n + 1, c :: cs => (takeDigits mode n (mode.skipLayout cs)).map fun (ds, rest) => (c :: ds, rest)

/-- The text up to a closing brace without ignored characters, and what follows the brace, for at
most `fuel` characters. -/
def takeBraced (mode : Mode) : Nat → List Char → Option (List Char × List Char)
  | 0, _ => none
  | fuel + 1, cs =>
    match mode.skipLayout cs with
    | [] => none
    | '\x7d' :: rest => some ([], rest)
    | c :: rest => (takeBraced mode fuel rest).map fun (text, rest) => (c :: text, rest)

/-- The text between braces, for the text behind the opening one. -/
def braced (mode : Mode) (cs : List Char) : Option (List Char × List Char) :=
  takeBraced mode (cs.length + 1) cs

/-- A character by number: a fixed count of hexadecimal digits, or any number of them in braces. The
flag tells whether it is a byte with two digits. -/
def readNumbered (mode : Mode) (digits : Nat) (cs : List Char) :
    Option ((Char × Bool) × List Char) := do
  match mode.skipLayout cs with
  | '\x7b' :: rest =>
    let (text, rest) ← braced mode rest
    if text.isEmpty then none
    else
      let c ← (← numeral? 16 0 text) |> charOf?
      return ((c, false), mode.skipLayout rest)
  | cs =>
    let (text, rest) ← takeDigits mode digits cs
    let c ← (← numeral? 16 0 text) |> charOf?
    return ((c, digits == 2), rest)

/-! ## Escapes -/

/-- What a part of an expression that is not put together from others stands for. -/
inductive Atom where
  /-- A character; the flag marks a byte written with two hexadecimal digits. -/
  | char (c : Char) (isByte : Bool)
  /-- One character of a set. -/
  | set (s : CodeSet)
  /-- A place. -/
  | place (condition : Look)

/-- The decimal digits. -/
def digitSet (mode : Mode) : CodeSet :=
  if mode.unicode then Unicode.Category.decimalNumberSet else .ofRange 48 57

/-- White space. -/
def spaceSet (mode : Mode) : CodeSet :=
  if mode.unicode then Unicode.whiteSpace else .ofRanges [(9, 13), (32, 32)]

/-- The characters of words. -/
def wordSet (mode : Mode) : CodeSet :=
  if mode.unicode then Unicode.wordSet else .ofRanges [(48, 57), (65, 90), (95, 95), (97, 122)]

/-- Characters with a meaning of their own in expressions, which an escape takes away. -/
def isMeta (c : Char) : Bool :=
  ['\\', '.', '+', '*', '?', '(', ')', '|', '[', ']', '\x7b', '\x7d', '^', '$', '#', '&', '-',
    '~'].contains c

/-- Characters that an escape leaves as they are: those with a meaning of their own, and all others
of ASCII but letters, digits and angle brackets. -/
def isEscapable (c : Char) : Bool :=
  isMeta c || (c.val < 128 && !c.isAlphanum && c != '<' && c != '>')

/-- The condition that a name in braces behind the escape for borders of words stands for. -/
def borderOf? (unicode : Bool) (name : List Char) : Option Look :=
  match String.ofList name with
  | "start" => some (.wordStart unicode)
  | "end" => some (.wordStop unicode)
  | "start-half" => some (.noWordBefore unicode)
  | "end-half" => some (.noWordAfter unicode)
  | _ => none

/-- A border of a word, perhaps of a certain kind that a name in braces gives. Braces that do not
start like a name are no part of it. -/
def readBorder (mode : Mode) (cs : List Char) : Option (Atom × List Char) :=
  match cs with
  | '\x7b' :: rest =>
    match mode.skipLayout rest with
    | [] => none
    | c :: _ =>
      if c.isAlpha ∨ c = '-' then do
        let (name, rest) ← braced mode rest
        return (.place (← borderOf? mode.unicode name), rest)
      else some (.place (.border mode.unicode), cs)
  | _ => some (.place (.border mode.unicode), cs)

/-- The first place at which one text occurs in another, as what precedes and what follows it. -/
def splitAt? (mark : List Char) : List Char → Option (List Char × List Char)
  | [] => none
  | c :: cs =>
    if mark.isPrefixOf (c :: cs) then some ([], (c :: cs).drop mark.length)
    else (splitAt? mark cs).map fun (front, rest) => (c :: front, rest)

/-- The set that a description in braces stands for: a name, or a property and its value. Between
the two, a colon or an equals sign stands for what has the value, and `!=` for what has not; the
flag tells of this negation. -/
def describedSet? (text : List Char) : Option (CodeSet × Bool) :=
  match splitAt? ['!', '='] text with
  | some (property, value) => (Unicode.valued? property value).map (·, true)
  | none =>
    match splitAt? [':'] text <|> splitAt? ['='] text with
    | some (property, value) => (Unicode.valued? property value).map (·, false)
    | none => (Unicode.named? text).map (·, false)

/-- A set of characters by property: one letter, or a description in braces. The negation of a
negated description is the property itself. -/
def readProperty (mode : Mode) (negated : Bool) (cs : List Char) : Option (Atom × List Char) := do
  let ((set, inverted), rest) ← match mode.skipLayout cs with
    | [] => none
    | '\\' :: _ => none
    | '\x7b' :: rest => do
      let (text, rest) ← braced mode rest
      pure (← describedSet? text, rest)
    | c :: rest => do pure ((← Unicode.named? [c], false), mode.skipLayout rest)
  if !mode.unicode then none
  else return (.set (← mode.complement? (negated != inverted) (mode.close set)), rest)

/-- What the escape that begins with a character stands for, for the text behind the backslash. -/
def readEscape (mode : Mode) : List Char → Option (Atom × List Char)
  | [] => none
  | c :: cs =>
    let numbered (digits : Nat) :=
      (readNumbered mode digits cs).map fun ((d, isByte), rest) => (Atom.char d isByte, rest)
    let set (negated : Bool) (s : CodeSet) :=
      (mode.complement? negated s).map fun s => (Atom.set s, cs)
    let char (n : Nat) := some (Atom.char (Char.ofNat n) false, cs)
    let place (l : Look) := some (Atom.place l, cs)
    match c with
    | 'x' => numbered 2
    | 'u' => numbered 4
    | 'U' => numbered 8
    | 'p' => readProperty mode false cs
    | 'P' => readProperty mode true cs
    | 'd' => set false (digitSet mode)
    | 'D' => set true (digitSet mode)
    | 's' => set false (spaceSet mode)
    | 'S' => set true (spaceSet mode)
    | 'w' => set false (wordSet mode)
    | 'W' => set true (wordSet mode)
    | 'a' => char 7
    | 'f' => char 12
    | 't' => char 9
    | 'n' => char 10
    | 'r' => char 13
    | 'v' => char 11
    | 'A' => place .start
    | 'z' => place .stop
    | 'b' => readBorder mode cs
    | 'B' => place (.noBorder mode.unicode)
    | '<' => place (.wordStart mode.unicode)
    | '>' => place (.wordStop mode.unicode)
    | _ => if isEscapable c then some (.char c false, cs) else none

/-! ## Classes in brackets -/

/-- Members of a class that stand side by side: their union, their number, and how deep the deepest
of them is nested. -/
structure Union where
  /-- The union of the members. -/
  set : CodeSet := .empty
  /-- The number of members. -/
  size : Nat := 0
  /-- The depth of the deepest member. -/
  depth : Nat := 0

namespace Union

/-- A further member. -/
def push (u : Union) (set : CodeSet) (depth : Nat) : Union :=
  ⟨u.set.union set, u.size + 1, max u.depth depth⟩

/-- The depth of the union: two members or more are one level deeper than their deepest. -/
def level (u : Union) : Nat := if u.size < 2 then u.depth else u.depth + 1

end Union

/-- The operations on sets within a class. -/
inductive SetOp where
  | inter
  | diff
  | symmDiff

/-- The result of an operation. -/
def SetOp.apply : SetOp → CodeSet → CodeSet → CodeSet
  | inter => CodeSet.inter
  | diff => CodeSet.diff
  | symmDiff => CodeSet.symmDiff

/-- A class that is being read, with the operation that waits for its right side. -/
structure OpenClass where
  /-- The class stands for what is not in it. -/
  negated : Bool
  /-- The left side of the operation, its depth, and the operation. -/
  pending : Option (CodeSet × Nat × SetOp) := none
  /-- The members read so far, behind the last operation. -/
  union : Union := {}

namespace OpenClass

/-- The set read so far and its depth, the waiting operation carried out. Case is ignored before
anything else is done with the members. -/
def value (c : OpenClass) (mode : Mode) : CodeSet × Nat :=
  let set := mode.close c.union.set
  match c.pending with
  | none => (set, c.union.level)
  | some (left, depth, op) => (op.apply left set, max depth c.union.level + 1)

/-- The class behind an operator. -/
def operate (c : OpenClass) (mode : Mode) (op : SetOp) : OpenClass :=
  let (set, depth) := c.value mode
  { c with pending := some (set, depth, op), union := {} }

/-- The class with a further member. -/
def push (c : OpenClass) (set : CodeSet) (depth : Nat) : OpenClass :=
  { c with union := c.union.push set depth }

end OpenClass

/-- The classes of ASCII by name. -/
def asciiClass? (name : List Char) : Option CodeSet :=
  match String.ofList name with
  | "alnum" => some (.ofRanges [(48, 57), (65, 90), (97, 122)])
  | "alpha" => some (.ofRanges [(65, 90), (97, 122)])
  | "ascii" => some (.ofRange 0 127)
  | "blank" => some (.ofList [9, 32])
  | "cntrl" => some (.ofRanges [(0, 31), (127, 127)])
  | "digit" => some (.ofRange 48 57)
  | "graph" => some (.ofRange 33 126)
  | "lower" => some (.ofRange 97 122)
  | "print" => some (.ofRange 32 126)
  | "punct" => some (.ofRanges [(33, 47), (58, 64), (91, 96), (123, 126)])
  | "space" => some (.ofList [9, 10, 11, 12, 13, 32])
  | "upper" => some (.ofRange 65 90)
  | "word" => some (.ofRanges [(48, 57), (65, 90), (95, 95), (97, 122)])
  | "xdigit" => some (.ofRanges [(48, 57), (65, 70), (97, 102)])
  | _ => none

/-- A class of ASCII by name with its negation, for the text behind its opening bracket; the text
may well be no such thing. -/
def asciiName? : List Char → Option ((Bool × CodeSet) × List Char)
  | ':' :: cs =>
    let (negated, cs) := match cs with
      | '^' :: cs => (true, cs)
      | _ => (false, cs)
    match cs.dropWhile (· ≠ ':') with
    | ':' :: ']' :: rest => (asciiClass? (cs.takeWhile (· ≠ ':'))).map fun s => ((negated, s), rest)
    | _ => none
  | _ => none

/-- The hyphens at the beginning of a class, as members, and what follows them. -/
def leadingHyphens (mode : Mode) (c : OpenClass) : Nat → List Char → OpenClass × List Char
  | fuel + 1, '-' :: cs =>
    leadingHyphens mode (c.push (.single '-'.toNat) 0) fuel (mode.skipLayout cs)
  | _, cs => (c, cs)

/-- The beginning of a class, for the text behind its bracket: a caret negates it, and hyphens and
then a closing bracket, if no hyphen precedes it, stand for themselves. -/
def openClass (mode : Mode) (cs : List Char) : OpenClass × List Char :=
  let (negated, cs) := match mode.skipLayout cs with
    | '^' :: cs => (true, mode.skipLayout cs)
    | cs => (false, cs)
  match leadingHyphens mode { negated } cs.length cs with
  | (c, ']' :: cs) =>
    if c.union.size = 0 then (c.push (.single ']'.toNat) 0, mode.skipLayout cs)
    else (c, ']' :: cs)
  | other => other

/-- The next character behind the first, blanks left out if they are ignored; of a comment, only the
hash sign is left out. -/
def peekBeyond (mode : Mode) (cs : List Char) : Option Char :=
  if mode.spaced then
    let rest := cs.dropWhile isBlank
    let rest := if rest.head? = some '#' then (rest.drop 1).dropWhile isBlank else rest
    if rest.isEmpty then cs.head? else rest.head?
  else cs.head?

/-- A character or an escape within a class. -/
def readMember (mode : Mode) : List Char → Option (Atom × List Char)
  | [] => none
  | '\\' :: cs => readEscape mode cs
  | c :: cs => some (.char c false, cs)

/-- The character that can bound a range. In byte mode it has to be ASCII. -/
def boundOf? (mode : Mode) : Atom → Option Nat
  | .char c _ => if mode.unicode ∨ c.val < 128 then some c.toNat else none
  | _ => none

/-- A character, escape or range within a class. A hyphen makes no range before the end of the class
or before another hyphen. -/
def readRange (mode : Mode) (cs : List Char) : Option (CodeSet × List Char) := do
  let (first, rest) ← readMember mode cs
  let rest := mode.skipLayout rest
  match rest with
  | [] => none
  | c :: behind =>
    let next := peekBeyond mode behind
    if c ≠ '-' ∨ next = some ']' ∨ next = some '-' then
      match first with
      | .set s => some (s, rest)
      | _ => (boundOf? mode first).map fun n => (.single n, rest)
    else
      let (last, rest) ← readMember mode (mode.skipLayout behind)
      let low ← boundOf? mode first
      let high ← boundOf? mode last
      if low ≤ high then some (.ofRange low high, rest) else none

/-- Reads on in the innermost of the open classes, which the others surround, until the outermost is
closed; the answer is its set, its depth and what follows it. Every round reads a character, so as
many rounds are allowed as there are characters. -/
def readClasses (mode : Mode) : Nat → OpenClass → List OpenClass → List Char →
    Option ((CodeSet × Nat) × List Char)
  | 0, _, _, _ => none
  | fuel + 1, c, outer, cs =>
    match mode.skipLayout cs with
    | [] => none
    | '[' :: cs =>
      match asciiName? cs with
      | some ((negated, s), rest) => do
        let s ← mode.complement? negated (mode.close s)
        readClasses mode fuel (c.push s 0) outer rest
      | none =>
        let (inner, rest) := openClass mode cs
        readClasses mode fuel inner (c :: outer) rest
    | ']' :: cs => do
      let (set, depth) := c.value mode
      let set ← mode.complement? c.negated set
      match outer with
      | [] => some ((set, depth + 1), cs)
      | d :: outer => readClasses mode fuel (d.push set (depth + 1)) outer cs
    | '&' :: '&' :: cs => readClasses mode fuel (c.operate mode .inter) outer cs
    | '-' :: '-' :: cs => readClasses mode fuel (c.operate mode .diff) outer cs
    | '~' :: '~' :: cs => readClasses mode fuel (c.operate mode .symmDiff) outer cs
    | cs => do
      let (set, rest) ← readRange mode cs
      readClasses mode fuel (c.push set 0) outer rest

/-- A class, its depth and what follows it, for the text behind its opening bracket. -/
def readClass (mode : Mode) (cs : List Char) : Option ((CodeSet × Nat) × List Char) :=
  let (c, rest) := openClass mode cs
  readClasses mode (cs.length + 1) c [] rest

end TreeLint.Regex
