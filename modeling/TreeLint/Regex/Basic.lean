import TreeLint.Unicode.CodeSet

/-!
# Regular expressions

A regular expression describes a set of texts, seen in their surroundings: beside characters it can
ask for conditions on the place between two characters, such as the end of a line or the border of a
word.

Expressions are put together by functions that simplify what they are given: neighbouring characters
become one literal, single characters to choose from become a set, and what a choice starts with in
each of its branches is drawn out of it. So an expression has no part that could be written shorter
in one of these ways.

## Main definitions

* `TreeLint.Look` — conditions on a place in a text.
* `TreeLint.Regex` — regular expressions.
* `TreeLint.Regex.ofSet`, `TreeLint.Regex.repeated`, `TreeLint.Regex.concat`,
  `TreeLint.Regex.choice` — simplified expressions from parts.
* `TreeLint.Regex.fewest?`, `TreeLint.Regex.isPlace` — how long the described texts are.
-/

namespace TreeLint

open Unicode (CodeSet)

/-- Conditions on a place in a text. Where a condition speaks of words, `unicode` decides whether
words consist of the letters, marks, digits and connectors of Unicode or of those of ASCII. -/
inductive Look where
  /-- The start of the text. -/
  | start
  /-- The end of the text. -/
  | stop
  /-- The start of a line; with `crlf`, lines end with either control or both. -/
  | lineStart (crlf : Bool)
  /-- The end of a line. -/
  | lineStop (crlf : Bool)
  /-- The border of a word. -/
  | border (unicode : Bool)
  /-- No border of a word. -/
  | noBorder (unicode : Bool)
  /-- The start of a word. -/
  | wordStart (unicode : Bool)
  /-- The end of a word. -/
  | wordStop (unicode : Bool)
  /-- No character of a word precedes. -/
  | noWordBefore (unicode : Bool)
  /-- No character of a word follows. -/
  | noWordAfter (unicode : Bool)
deriving DecidableEq, Repr

/-- Regular expressions. -/
inductive Regex where
  /-- The empty text. -/
  | empty
  /-- Certain characters one behind the other. -/
  | literal (chars : List Char)
  /-- One character of a set. -/
  | oneOf (set : CodeSet)
  /-- The empty text at a place that meets a condition. -/
  | look (condition : Look)
  /-- An expression repeated at least and at most so often. The last field tells which number is
  preferred, the largest or the smallest. -/
  | times (body : Regex) (least : Nat) (most : Option Nat) (greedy : Bool)
  /-- An expression that is a group with a number. -/
  | group (index : Nat) (body : Regex)
  /-- Expressions one behind the other. -/
  | seq (parts : List Regex)
  /-- Either of several expressions. -/
  | alt (branches : List Regex)

namespace Regex

/-! ## Lengths -/

mutual

/-- Only the empty text can match. -/
def isPlace : Regex → Bool
  | empty | look _ => true
  | literal _ | oneOf _ => false
  | times body _ most _ => body.isPlace && most.isSome
  | group _ body => body.isPlace
  | seq parts => arePlaces parts
  | alt branches => arePlaces branches

/-- Each of several expressions matches only the empty text. -/
def arePlaces : List Regex → Bool
  | [] => true
  | r :: rs => r.isPlace && arePlaces rs

end

mutual

/-- The smallest number of characters in a matching text. An expression with a part that cannot
match has none. -/
def fewest? : Regex → Option Nat
  | empty | look _ => some 0
  | literal chars => some chars.length
  | oneOf set => if set.ranges.isEmpty then none else some 1
  | times body least _ _ => body.fewest?.map (· * least)
  | group _ body => body.fewest?
  | seq parts => (fewestOfAll parts).map fun counts => counts.foldl (· + ·) 0
  | alt branches => (fewestOfAll branches).bind List.min?

/-- The smallest numbers of characters for several expressions, if they all have one. -/
def fewestOfAll : List Regex → Option (List Nat)
  | [] => some []
  | r :: rs => do return (← r.fewest?) :: (← fewestOfAll rs)

end

/-! ## Equality -/

mutual

/-- Two expressions are equal. -/
def same : Regex → Regex → Bool
  | empty, empty => true
  | literal cs, literal ds => cs == ds
  | oneOf s, oneOf t => s == t
  | look c, look d => c == d
  | times r least most greedy, times s least' most' greedy' =>
    least == least' && most == most' && greedy == greedy' && r.same s
  | group n r, group m s => n == m && r.same s
  | seq rs, seq ss => allSame rs ss
  | alt rs, alt ss => allSame rs ss
  | _, _ => false

/-- Two lists hold equal expressions. -/
def allSame : List Regex → List Regex → Bool
  | [], [] => true
  | r :: rs, s :: ss => r.same s && allSame rs ss
  | _, _ => false

end

/-! ## Expressions from parts -/

/-- One character of a set. A set with one member is a literal. -/
def ofSet (set : CodeSet) : Regex :=
  match set.only? with
  | some n => literal [Char.ofNat n]
  | none => oneOf set

/-- An expression repeated at least and at most so often. Where only the empty text can match, once
is as good as any number of times. -/
def repeated (body : Regex) (least : Nat) (most : Option Nat) (greedy : Bool) : Regex :=
  let (least, most) :=
    if body.isPlace then (min least 1, some (min (most.getD 1) 1)) else (least, most)
  if most = some 0 then empty
  else if least = 1 ∧ most = some 1 then body
  else times body least most greedy

/-- Neighbouring literals joined, and empty parts left out. -/
def joinParts : List Regex → List Regex
  | [] => []
  | empty :: rs => joinParts rs
  | literal cs :: rs =>
    match joinParts rs with
    | literal ds :: rest => literal (cs ++ ds) :: rest
    | rest => literal cs :: rest
  | r :: rs => r :: joinParts rs

/-- The parts of a sequence; any other expression is one part. -/
def parts : Regex → List Regex
  | seq rs => rs
  | r => [r]

/-- The branches of a choice; any other expression is one branch. -/
def branches : Regex → List Regex
  | alt rs => rs
  | r => [r]

/-- Expressions one behind the other. -/
def concat (rs : List Regex) : Regex :=
  match joinParts (rs.flatMap parts) with
  | [] => empty
  | [r] => r
  | rs => seq rs

/-- The only character of a literal. -/
def singleChar? : Regex → Option Nat
  | literal [c] => some c.toNat
  | _ => none

/-- The set of an expression that is one. -/
def set? : Regex → Option CodeSet
  | oneOf s => some s
  | _ => none

/-- The parts with which each of several sequences starts. -/
def commonStart (first : List Regex) : List (List Regex) → List Regex
  | [] => first
  | rs :: rest =>
    commonStart (((first.zip rs).takeWhile fun (r, s) => r.same s).map Prod.fst) rest

/-- The parts of an expression that is a sequence. -/
def seq? : Regex → Option (List Regex)
  | seq rs => some rs
  | _ => none

/-- A choice among at least two branches, none of them a choice: one set if every branch is one
character, or if every branch is a set. -/
def plainChoice (rs : List Regex) : Regex :=
  match rs.mapM singleChar?, rs.mapM set? with
  | some members, _ => ofSet (.ofList members)
  | _, some sets => ofSet (.unions sets)
  | _, _ => alt rs

/-- A choice whose branches are sequences, with the parts that they all start with in front of it.
These are as many as possible, so that nothing more can be drawn out of what is left. -/
def factored? (rs : List Regex) : Option Regex := do
  match ← rs.mapM seq? with
  | [] => none
  | first :: rest =>
    let start := commonStart first rest
    if start.isEmpty then none
    else
      let ends := (first :: rest).map fun parts => concat (parts.drop start.length)
      return concat (start ++ [plainChoice (ends.flatMap branches)])

/-- Either of several expressions; of none, an expression without a match. -/
def choice (rs : List Regex) : Regex :=
  match rs.flatMap branches with
  | [] => oneOf .empty
  | [r] => r
  | rs =>
    match plainChoice rs with
    | alt rs => (factored? rs).getD (alt rs)
    | r => r

/-! ## Anchors -/

mutual

/-- The expression matches only where a condition on the place before it is met. -/
def startsWith (condition : Look) : Regex → Bool
  | look c => c == condition
  | empty | literal _ | oneOf _ => false
  | times body least _ _ => least > 0 && body.startsWith condition
  | group _ body => body.startsWith condition
  | seq parts => anyStartsWith condition parts
  | alt branches => allStartWith condition branches

/-- One of the parts up to the first that takes up characters starts with the condition. -/
def anyStartsWith (condition : Look) : List Regex → Bool
  | [] => false
  | r :: rs => r.startsWith condition || (r.isPlace && anyStartsWith condition rs)

/-- Every one of several expressions starts with the condition. -/
def allStartWith (condition : Look) : List Regex → Bool
  | [] => true
  | r :: rs => r.startsWith condition && allStartWith condition rs

end

mutual

/-- An expression read backwards: sequences have their parts in the opposite order. -/
def backwards : Regex → Regex
  | times body least most greedy => times body.backwards least most greedy
  | group index body => group index body.backwards
  | seq parts => seq (allBackwards parts).reverse
  | alt branches => alt (allBackwards branches)
  | literal chars => literal chars.reverse
  | r => r

/-- Several expressions read backwards. -/
def allBackwards : List Regex → List Regex
  | [] => []
  | r :: rs => r.backwards :: allBackwards rs

end

end Regex

end TreeLint
