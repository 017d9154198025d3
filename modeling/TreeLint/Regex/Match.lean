import TreeLint.Regex.Basic
import TreeLint.Unicode.Property

/-!
# Matching

Whether an expression occurs in a text is decided without searching: for all places of the text at
once, it is computed at which places a match that starts at one of them can end. A set of places is
a number with one bit for each place, so that passing over a character is a shift.

## Main definitions

* `TreeLint.Look.holds` — a condition at a place.
* `TreeLint.Walk` — an expression fitted to a text.
* `TreeLint.Walk.run` — the places where matches end.
* `TreeLint.Regex.occursIn` — an expression occurs in a text.
-/

namespace TreeLint

/-! ## Conditions -/

/-- A character of a word. -/
def isWordChar (unicode : Bool) (c : Char) : Bool :=
  if unicode then Unicode.wordSet.contains c.toNat
  else c.isAlphanum || c == '_'

/-- A condition holds between two characters, of which either is missing at an end of the text. -/
def Look.holds (condition : Look) (before after : Option Char) : Bool :=
  let word (unicode : Bool) (c : Option Char) : Bool := c.any (isWordChar unicode)
  match condition with
  | .start => before.isNone
  | .stop => after.isNone
  | .lineStart false => before.isNone || before == some '\n'
  | .lineStop false => after.isNone || after == some '\n'
  | .lineStart true =>
    before.isNone || before == some '\n' || (before == some '\r' && after != some '\n')
  | .lineStop true =>
    after.isNone || after == some '\r' || (after == some '\n' && before != some '\r')
  | .border u => word u before != word u after
  | .noBorder u => word u before == word u after
  | .wordStart u => !word u before && word u after
  | .wordStop u => word u before && !word u after
  | .noWordBefore u => !word u before
  | .noWordAfter u => !word u after

/-! ## Sets of places -/

/-- The places before the characters that pass a test, as bits. -/
def charBits (test : Char → Bool) : List Char → Nat
  | [] => 0
  | c :: cs => 2 * charBits test cs + (if test c then 1 else 0)

/-- The places of a text at which a condition holds, as bits. -/
def lookBits (condition : Look) (before : Option Char) : List Char → Nat
  | [] => if condition.holds before none then 1 else 0
  | c :: cs =>
    2 * lookBits condition (some c) cs + (if condition.holds before (some c) then 1 else 0)

/-! ## Walks -/

/-- An expression fitted to a text: sets of characters and conditions have become sets of places. -/
inductive Walk where
  /-- Stays at a place of a set. -/
  | stay (places : Nat)
  /-- Passes over the character behind a place of a set. -/
  | pass (places : Nat)
  /-- Walks one behind the other. -/
  | seq (parts : List Walk)
  /-- Either of several walks. -/
  | alt (branches : List Walk)
  /-- A walk repeated at least and at most so often. -/
  | times (body : Walk) (least : Nat) (most : Option Nat)

mutual

/-- An expression fitted to a text. Which of several matches is preferred makes no difference to
whether there is one. -/
def Regex.walk (text : List Char) : Regex → Walk
  | empty => .seq []
  | literal chars => .seq (chars.map fun c => .pass (charBits (· == c) text))
  | oneOf set => .pass (charBits (fun c => set.contains c.toNat) text)
  | look condition => .stay (lookBits condition none text)
  | times body least most _ => .times (body.walk text) least most
  | group _ body => body.walk text
  | seq parts => .seq (Regex.walks text parts)
  | alt branches => .alt (Regex.walks text branches)

/-- Several expressions fitted to a text. -/
def Regex.walks (text : List Char) : List Regex → List Walk
  | [] => []
  | r :: rs => r.walk text :: Regex.walks text rs

end

/-- A step taken a number of times. From the empty set of places no step leads anywhere. -/
def stepTimes (step : Nat → Nat) : Nat → Nat → Nat
  | 0, places => places
  | n + 1, places => if places = 0 then 0 else stepTimes step n (step places)

/-- The places that a step reaches when it is taken at most `n` times. -/
def stepUpTo (step : Nat → Nat) : Nat → Nat → Nat
  | 0, places => places
  | n + 1, places =>
    let more := places ||| step places
    if more = places then places else stepUpTo step n more

mutual

/-- The places to which a walk leads from the places of a set. As a text with `n` characters has
`n + 1` places, no more than so many steps are needed to reach all that can be reached. -/
def Walk.run (size : Nat) : Walk → Nat → Nat
  | stay allowed, places => places &&& allowed
  | pass allowed, places => (places &&& allowed) <<< 1
  | seq parts, places => Walk.runInTurn size parts places
  | alt branches, places => Walk.runEach size branches places
  | times body least most, places =>
    let reached := stepTimes (body.run size) least places
    match most with
    | none => stepUpTo (body.run size) (size + 1) reached
    | some n => stepUpTo (body.run size) (n - least) reached

/-- The places to which walks lead one behind the other. -/
def Walk.runInTurn (size : Nat) : List Walk → Nat → Nat
  | [], places => places
  | w :: ws, places => Walk.runInTurn size ws (w.run size places)

/-- The places to which any of several walks leads. -/
def Walk.runEach (size : Nat) : List Walk → Nat → Nat
  | [], _ => 0
  | w :: ws, places => w.run size places ||| Walk.runEach size ws places

end

/-- An expression occurs somewhere in a text. -/
def Regex.occursIn (r : Regex) (text : String) : Bool :=
  let cs := text.toList
  -- a match may begin at any place, the end of the text included
  (r.walk cs).run cs.length (1 <<< (cs.length + 1) - 1) != 0

end TreeLint
