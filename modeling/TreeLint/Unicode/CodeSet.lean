/-!
# Sets of code points

A set of code points is kept as its maximal ranges in ascending order, so that sets with the same
members are equal as values. The operations on sets are those of Boolean algebra. The code points
of surrogates belong to no character: where a range is cut off beside one of them, it ends at the
nearest code point that belongs to a character.

Sets that are defined by enumeration are written as text, one range after the other in hexadecimal,
so that they can be compared with published data by eye.

## Main definitions

* `TreeLint.Unicode.CodeSet` — a set of code points, as inclusive ranges.
* `TreeLint.Unicode.CodeSet.contains` — membership.
* `TreeLint.Unicode.CodeSet.ofText` — the set that a text of hexadecimal ranges describes.
* `TreeLint.Unicode.CodeSet.union`, `TreeLint.Unicode.CodeSet.inter`,
  `TreeLint.Unicode.CodeSet.diff`, `TreeLint.Unicode.CodeSet.compl` — the Boolean operations.
-/

namespace TreeLint.Unicode

/-- The largest code point. -/
def maxCode : Nat := 0x10ffff

/-- The next code point that belongs to a character. -/
def nextCode (n : Nat) : Nat := if n = 0xd7ff then 0xe000 else n + 1

/-- The previous code point that belongs to a character. -/
def prevCode (n : Nat) : Nat := if n = 0xe000 then 0xd7ff else n - 1

/-- A set of code points. -/
structure CodeSet where
  /-- The maximal ranges of members, by ascending first code point. -/
  ranges : List (Nat × Nat)
deriving DecidableEq

namespace CodeSet

/-! ## Construction -/

/-- Ranges by ascending first code point, with those that overlap or touch joined; the range from
`first` to `last` precedes them. -/
def joinFrom (first last : Nat) : List (Nat × Nat) → List (Nat × Nat)
  | [] => [(first, last)]
  | (a, b) :: rest =>
    if a ≤ last + 1 then joinFrom first (max last b) rest else (first, last) :: joinFrom a b rest

/-- The maximal ranges of the union of ranges that are given by ascending first code point. -/
def join : List (Nat × Nat) → List (Nat × Nat)
  | [] => []
  | (a, b) :: rest => joinFrom a b rest

/-- The set of the code points in some ranges. -/
def ofRanges (ranges : List (Nat × Nat)) : CodeSet :=
  ⟨join (ranges.mergeSort fun r s => r.1 ≤ s.1)⟩

/-- The set of the code points from `first` to `last`. -/
def ofRange (first last : Nat) : CodeSet := ⟨[(first, last)]⟩

/-- The set with one member. -/
def single (n : Nat) : CodeSet := ofRange n n

/-- The set with the members listed. -/
def ofList (members : List Nat) : CodeSet := ofRanges (members.map fun n => (n, n))

/-- The set with no members. -/
def empty : CodeSet := ⟨[]⟩

/-- The set of all code points. -/
def all : CodeSet := ofRange 0 maxCode

/-! ## Sets as text -/

/-- The value of a hexadecimal digit in lower case; any other character counts zero. -/
def hexValue (c : Char) : Nat :=
  if '0' ≤ c ∧ c ≤ '9' then c.toNat - '0'.toNat
  else if 'a' ≤ c ∧ c ≤ 'f' then c.toNat - 'a'.toNat + 10
  else 0

/-- The pieces that remain to be read while a text of ranges is scanned: the finished ranges, the
first code point of the current range if its dash has been passed, and the current number. -/
structure Scan where
  /-- The ranges that are complete, the last first. -/
  ranges : List (Nat × Nat) := []
  /-- The first code point of a range whose dash has been read. -/
  first : Option Nat := none
  /-- The number being read, if a digit of it has been seen. -/
  current : Option Nat := none

/-- Closes the number being read, if there is one, and with it the range that it ends. -/
def Scan.close (s : Scan) : Scan :=
  match s.current, s.first with
  | some n, some m => ⟨(m, n) :: s.ranges, none, none⟩
  | some n, none => ⟨(n, n) :: s.ranges, none, none⟩
  | none, _ => s

/-- One character of the text: a digit continues a number, a dash ends the first number of a range,
and a blank ends the range. -/
def Scan.step (s : Scan) (c : Char) : Scan :=
  if c = '-' then ⟨s.ranges, s.current, none⟩
  else if c = ' ' ∨ c = '\n' then s.close
  else ⟨s.ranges, s.first, some (s.current.getD 0 * 16 + hexValue c)⟩

/-- The set that a text describes: hexadecimal code points and ranges `first-last` in ascending
order, separated by blanks. -/
def ofText (text : String) : CodeSet :=
  ⟨join (text.toList.foldl Scan.step {}).close.ranges.reverse⟩

/-! ## Membership -/

/-- A code point lies in one of several ranges in ascending order. -/
def inRanges (n : Nat) : List (Nat × Nat) → Bool
  | [] => false
  | (a, b) :: rest => if n < a then false else n ≤ b || inRanges n rest

/-- Membership. -/
def contains (s : CodeSet) (n : Nat) : Bool := inRanges n s.ranges

/-- The only member of a set with one member. -/
def only? (s : CodeSet) : Option Nat :=
  match s.ranges with
  | [(a, b)] => if a = b then some a else none
  | _ => none

/-- All members are characters of ASCII. -/
def isAscii (s : CodeSet) : Bool := s.ranges.all fun r => r.2 < 128

/-! ## Boolean operations -/

/-- The members of either set. -/
def union (s t : CodeSet) : CodeSet :=
  ⟨join (s.ranges.merge t.ranges fun r r' => r.1 ≤ r'.1)⟩

/-- The members of any set of a list. -/
def unions (sets : List CodeSet) : CodeSet := ofRanges (sets.flatMap ranges)

/-- The ranges in which two ascending lists of ranges overlap. -/
def interRanges : List (Nat × Nat) → List (Nat × Nat) → List (Nat × Nat)
  | [], _ => []
  | _, [] => []
  | (a, b) :: s, (c, d) :: t =>
    let first := max a c
    let last := min b d
    let rest := if b < d then interRanges s ((c, d) :: t) else interRanges ((a, b) :: s) t
    if first ≤ last then (first, last) :: rest else rest
termination_by s t => s.length + t.length

/-- The members of both sets. -/
def inter (s t : CodeSet) : CodeSet := ⟨interRanges s.ranges t.ranges⟩

/-- What an ascending list of ranges leaves of another one. -/
def diffRanges : List (Nat × Nat) → List (Nat × Nat) → List (Nat × Nat)
  | [], _ => []
  | s, [] => s
  | (a, b) :: s, (c, d) :: t =>
    if d < a then diffRanges ((a, b) :: s) t
    else if b < c then (a, b) :: diffRanges s ((c, d) :: t)
    else
      let rest := if d < b then diffRanges ((nextCode d, b) :: s) t else diffRanges s ((c, d) :: t)
      if a < c then (a, prevCode c) :: rest else rest
termination_by s t => s.length + t.length

/-- The members of the first set that are not in the second. -/
def diff (s t : CodeSet) : CodeSet := ⟨diffRanges s.ranges t.ranges⟩

/-- The members of exactly one of two sets. -/
def symmDiff (s t : CodeSet) : CodeSet := (s.union t).diff (s.inter t)

/-- The gaps behind a range that ends at `last`, up to the largest code point. A gap that holds
surrogates only is taken from the one end of their block to the other, with the characters there. -/
def gapsFrom (last : Nat) : List (Nat × Nat) → List (Nat × Nat)
  | [] => if last < maxCode then [(nextCode last, maxCode)] else []
  | (a, b) :: rest =>
    (min (nextCode last) (prevCode a), max (nextCode last) (prevCode a)) :: gapsFrom b rest

/-- The code points outside a set. -/
def compl (s : CodeSet) : CodeSet :=
  match s.ranges with
  | [] => all
  | (a, b) :: rest => ⟨if 0 < a then (0, prevCode a) :: gapsFrom b rest else gapsFrom b rest⟩

/-! ## Case in ASCII -/

/-- The letter of ASCII that differs from a code point only in case; any other code point stands for
itself. -/
def swapAsciiCase (n : Nat) : Nat :=
  if 65 ≤ n ∧ n ≤ 90 then n + 32 else if 97 ≤ n ∧ n ≤ 122 then n - 32 else n

/-- The code points that differ from a member at most in the case of an ASCII letter. -/
def closeAsciiCase (s : CodeSet) : CodeSet :=
  s.union (ofList (((List.range 128).filter s.contains).map swapAsciiCase))

end CodeSet

end TreeLint.Unicode
