import TreeLint.Regex.Automaton
import TreeLint.Regex.Class

/-!
# Written expressions

The reader of regular expressions: alternatives, groups, repetitions and modes that are set on the
way. A text that is no expression, or one whose automaton would be too large, has no reading.

## Main definitions

* `TreeLint.Regex.Part` — a part of an expression that has been read.
* `TreeLint.Regex.Reading` — what has been read so far, with the groups that are open.
* `TreeLint.Regex.read?` — the expression that a text writes.
-/

namespace TreeLint.Regex

open Unicode (CodeSet isBlank)

/-- A part of an expression that has been read. -/
structure Part where
  /-- What the part describes. -/
  regex : Regex
  /-- How deep the part is nested. -/
  depth : Nat := 0
  /-- A repetition can follow; it cannot behind a mere change of mode. -/
  repeatable : Bool := true

/-- Several parts as one, which is one level deeper; a single part stays as it is. -/
def combine (join : List Regex → Regex) : List Part → Part
  | [] => { regex := .empty }
  | [p] => p
  | ps => { regex := join (ps.map Part.regex), depth := (ps.map Part.depth).foldl max 0 + 1 }

/-- An alternation and sequence that is being read, the last part first. -/
structure Level where
  /-- The mode that was in force when the group was opened. -/
  mode : Mode
  /-- The number of the group, if it has one. -/
  index : Option Nat
  /-- The alternatives that are complete. -/
  branches : List Part
  /-- The parts of the current alternative. -/
  parts : List Part

/-- What has been read so far. -/
structure Reading where
  /-- The mode in force. -/
  mode : Mode := {}
  /-- The complete alternatives of the innermost group. -/
  branches : List Part := []
  /-- The parts of its current alternative. -/
  parts : List Part := []
  /-- The groups around it, the nearest first. -/
  outer : List Level := []
  /-- How many groups with a number have been opened. -/
  groups : Nat := 0
  /-- The names of groups. -/
  names : List (List Char) := []

namespace Reading

/-- The reading with a further part. -/
def push (r : Reading) (p : Part) : Reading := { r with parts := p :: r.parts }

/-- The current alternative as one part. -/
def branch (r : Reading) : Part := combine concat r.parts.reverse

/-- The reading behind a bar. -/
def nextBranch (r : Reading) : Reading := { r with branches := r.branch :: r.branches, parts := [] }

/-- The innermost group as one part. -/
def whole (r : Reading) : Part := combine choice (r.branch :: r.branches).reverse

/-- The reading behind the opening of a group with a mode. -/
def enter (r : Reading) (index : Option Nat) (mode : Mode) : Reading :=
  { r with
    mode, branches := [], parts := [],
    outer := ⟨r.mode, index, r.branches, r.parts⟩ :: r.outer }

/-- The reading behind the opening of a group with the next number. -/
def enterNext (r : Reading) : Reading :=
  { r.enter (some (r.groups + 1)) r.mode with groups := r.groups + 1 }

/-- The reading behind the end of a group. -/
def leave? (r : Reading) : Option Reading :=
  match r.outer with
  | [] => none
  | l :: outer =>
    let whole := r.whole
    let regex := match l.index with
      | some index => .group index whole.regex
      | none => whole.regex
    let group : Part := { regex, depth := whole.depth + 1 }
    some { r with mode := l.mode, branches := l.branches, parts := group :: l.parts, outer }

/-- The reading with the last part repeated, for the text behind the sign that asks for it, and what
follows a question mark there, which reverses the preference. -/
def repeat? (r : Reading) (least : Nat) (most : Option Nat) (cs : List Char) :
    Option (Reading × List Char) :=
  let (reversed, rest) := match cs with
    | '?' :: cs => (true, cs)
    | cs => (false, cs)
  match r.parts with
  | p :: parts =>
    if p.repeatable then
      let regex := p.regex.repeated least most (reversed == r.mode.swapGreedy)
      some ({ r with parts := { regex, depth := p.depth + 1 } :: parts }, rest)
    else none
  | [] => none

end Reading

/-! ## Groups -/

/-- The mode with one of its flags set or cleared. -/
def Mode.set? (mode : Mode) (flag : Char) (on : Bool) : Option Mode :=
  match flag with
  | 'i' => some { mode with ignoreCase := on }
  | 'm' => some { mode with multiLine := on }
  | 's' => some { mode with dotAll := on }
  | 'R' => some { mode with crlf := on }
  | 'u' => some { mode with unicode := on }
  | 'x' => some { mode with spaced := on }
  | 'U' => some { mode with swapGreedy := on }
  | _ => none

/-- Flags up to the colon or parenthesis that ends them: the new mode, whether a colon ended them,
and what follows. Flags behind a hyphen are cleared; there must be some, and none may occur twice.
Without a colon there has to be a flag. -/
def readFlags (mode : Mode) (seen : List Char) (off dangling : Bool) :
    List Char → Option ((Mode × Bool) × List Char)
  | [] => none
  | c :: cs =>
    if c = ':' ∨ c = ')' then
      if dangling ∨ (c = ')' ∧ seen.isEmpty) then none else some ((mode, c == ':'), cs)
    else if c = '-' then
      if off then none else readFlags mode seen true true cs
    else if seen.contains c then none
    else (mode.set? c !off).bind fun mode => readFlags mode (c :: seen) off false cs

/-- Characters of the names of groups. -/
def isNameChar (first : Bool) (c : Char) : Bool :=
  if first then c == '_' || Unicode.isAlphabetic c
  else c == '_' || c == '.' || c == '[' || c == ']' || Unicode.isAlphanumeric c

/-- The name of a group and what follows the bracket behind it. -/
def readName (cs : List Char) : Option (List Char × List Char) :=
  match cs.takeWhile (· ≠ '>'), cs.dropWhile (· ≠ '>') with
  | c :: name, _ :: rest =>
    if isNameChar true c ∧ name.all (isNameChar false) then some (c :: name, rest) else none
  | _, _ => none

/-- The beginning of a group or a change of mode, for the text behind the parenthesis. Groups that
look around are refused. -/
def Reading.open? (r : Reading) (cs : List Char) : Option (Reading × List Char) :=
  let named (cs : List Char) : Option (Reading × List Char) := do
    let (name, rest) ← readName cs
    if r.names.contains name then none
    else return ({ r.enterNext with names := name :: r.names }, rest)
  match r.mode.skipLayout cs with
  | '?' :: '=' :: _ | '?' :: '!' :: _ | '?' :: '<' :: '=' :: _ | '?' :: '<' :: '!' :: _ => none
  | '?' :: 'P' :: '<' :: cs => named cs
  | '?' :: '<' :: cs => named cs
  | '?' :: cs => do
    let ((mode, grouped), rest) ← readFlags r.mode [] false false cs
    if grouped then return (r.enter none mode, rest)
    else return ({ r with mode }.push { regex := .empty, repeatable := false }, rest)
  | cs => some (r.enterNext, cs)

/-! ## Repetitions -/

/-- The largest count of a repetition. -/
def maxCount : Nat := 4294967295

/-- The digits of a count and what follows them. -/
def takeCount (mode : Mode) : Nat → List Char → List Char × List Char
  | fuel + 1, c :: cs =>
    if c.isDigit then
      let (ds, rest) := takeCount mode fuel (mode.skipLayout cs)
      (c :: ds, rest)
    else ([], c :: cs)
  | _, cs => ([], cs)

/-- The number that decimal digits write. -/
def decimal (digits : List Char) : Nat :=
  digits.foldl (fun n c => n * 10 + (c.toNat - '0'.toNat)) 0

/-- A count between blanks and what follows it; there may be no digit, but not too large a
number. -/
def readCount (mode : Mode) (cs : List Char) : Option (Option Nat × List Char) :=
  let (digits, rest) := takeCount mode cs.length (cs.dropWhile isBlank)
  let rest := rest.dropWhile isBlank
  if digits.isEmpty then some (none, rest)
  else if decimal digits ≤ maxCount then some (some (decimal digits), rest)
  else none

/-- The bounds of a repetition up to its closing brace, for the text behind the opening one. -/
def readBounds (mode : Mode) (cs : List Char) : Option ((Nat × Option Nat) × List Char) := do
  let (least, rest) ← readCount mode (mode.skipLayout cs)
  let least ← least
  match rest with
  | '\x7d' :: rest => some ((least, some least), rest)
  | ',' :: rest =>
    match mode.skipLayout rest with
    | '\x7d' :: rest => some ((least, none), rest)
    | rest => do
      let (most, rest) ← readCount mode rest
      let most ← most
      match rest with
      | '\x7d' :: rest => if least ≤ most then some ((least, some most), rest) else none
      | _ => none
  | _ => none

/-! ## Expressions -/

/-- A character, or the set of those that differ from it only in case, if case is ignored. -/
def Mode.char (mode : Mode) (c : Char) : Regex :=
  if !mode.ignoreCase then .literal [c]
  else if mode.unicode then .ofSet (.ofList (Unicode.caseOrbit c.toNat))
  else .ofSet (CodeSet.single c.toNat).closeAsciiCase

/-- The part that an atom is. A byte that is no character is refused. -/
def Atom.part? (mode : Mode) : Atom → Option Part
  | .char c isByte =>
    if !mode.unicode ∧ isByte ∧ c.val ≥ 128 then none
    else some { regex := mode.char c }
  | .set s => some { regex := .ofSet s }
  | .place l => some { regex := .look l }

/-- What the dot stands for: every character but line ends, or every character. -/
def dotSet (mode : Mode) : CodeSet :=
  if mode.dotAll then .all
  else if mode.crlf then (CodeSet.ofList [10, 13]).compl
  else (CodeSet.single 10).compl

/-- Reads the next part of an expression, which begins with the given character. -/
def Reading.step (r : Reading) (c : Char) (cs : List Char) : Option (Reading × List Char) :=
  let mode := r.mode
  let atom (a : Option (Atom × List Char)) : Option (Reading × List Char) := do
    let (a, rest) ← a
    return (r.push (← a.part? mode), rest)
  let place (l : Look) := atom (some (.place l, cs))
  match c with
  | '(' => r.open? cs
  | ')' => r.leave?.map (·, cs)
  | '|' => some (r.nextBranch, cs)
  | '[' => (readClass mode cs).map fun ((set, depth), rest) =>
    (r.push { regex := .ofSet set, depth }, rest)
  | '?' => r.repeat? 0 (some 1) cs
  | '*' => r.repeat? 0 none cs
  | '+' => r.repeat? 1 none cs
  | '\x7b' => do
    let ((least, most), rest) ← readBounds mode cs
    r.repeat? least most (mode.skipLayout rest)
  | '\\' => atom (readEscape mode cs)
  | '.' => if mode.unicode then atom (some (.set (dotSet mode), cs)) else none
  | '^' => place (if mode.multiLine then .lineStart mode.crlf else .start)
  | '$' => place (if mode.multiLine then .lineStop mode.crlf else .stop)
  | _ => atom (some (.char c false, cs))

/-- Reads on to the end. Every step reads a character, so as many steps are allowed as there are
characters. -/
def Reading.finish? : Nat → Reading → List Char → Option Part
  | fuel, r, cs =>
    match r.mode.skipLayout cs, fuel with
    | [], _ => if r.outer.isEmpty then some r.whole else none
    | _, 0 => none
    | c :: cs, fuel + 1 => (r.step c cs).bind fun (r, rest) => Reading.finish? fuel r rest

/-- How deep an expression may be nested. -/
def maxDepth : Nat := 250

/-- The expression that a text writes. -/
def read? (text : String) : Option Regex := do
  let cs := text.toList
  let whole ← Reading.finish? cs.length {} cs
  if whole.depth ≤ maxDepth ∧ whole.regex.fits then some whole.regex else none

end TreeLint.Regex
