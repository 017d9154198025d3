import TreeLint.Format.Reader
import TreeLint.Text.Digit

/-!
# Decimal numerals

Numbers as several formats write them: decimal digits, which may have a point among them and an
exponent of ten behind them. The formats differ in where digits may be missing, and in what happens
to numbers that are too large for a double.

## Main definitions

* `TreeLint.Numeral`, `TreeLint.readNumeral?` — a number as it is written, and its reader.
* `TreeLint.Numeral.isTooLarge` — no double is close to the number.
* `TreeLint.signed` — a number with its sign.
-/

namespace TreeLint

/-- The number of values that a count of bits can have. -/
def capacity (bits : Nat) : Nat := Nat.pow 2 bits

/-- The limit from which on a number is rounded to no finite double: half a step above the largest
one. -/
def doubleLimit : Nat := capacity 1024 - capacity 970

/-- A whole number times a power of ten reaches the limit of doubles. The number of its digits
decides unless it is close to the limit. -/
def reachesLimit (m : Nat) (exponent : Int) : Bool :=
  if m = 0 then false
  else
    -- the limit has 309 digits before the point
    let places : Int := (Nat.toDigits 10 m).length + exponent
    if places > 310 then true
    else if places < 300 then false
    else
      match exponent with
      | .ofNat e => doubleLimit ≤ m * Nat.pow 10 e
      | .negSucc e => doubleLimit * Nat.pow 10 (e + 1) ≤ m

/-- A number without its sign, as it is written. -/
structure Numeral where
  /-- The digits before the point. -/
  whole : List Char
  /-- The digits behind the point, if there is one. -/
  fraction : Option (List Char)
  /-- The exponent, if there is one. -/
  exponent : Option Int

namespace Numeral

/-- The number is written as a whole number. -/
def isWhole (n : Numeral) : Bool := n.fraction.isNone && n.exponent.isNone

/-- There are digits before the point, and behind it if there is one. -/
def isComplete (n : Numeral) : Bool := !n.whole.isEmpty && !(n.fraction == some [])

/-- There are digits before or behind the point. -/
def hasDigits (n : Numeral) : Bool := !n.whole.isEmpty || !(n.fraction.getD []).isEmpty

/-- The value of a number that is written as a whole number. -/
def value (n : Numeral) : Nat := (numeral? 10 0 n.whole).getD 0

/-- The number is rounded to no finite double. -/
def isTooLarge (n : Numeral) : Bool :=
  let fraction := n.fraction.getD []
  reachesLimit ((numeral? 10 0 (n.whole ++ fraction)).getD 0)
    (n.exponent.getD 0 - (fraction.length : Int))

end Numeral

/-- A number with its sign. -/
def signed (negative : Bool) (n : Nat) : Int := if negative then -(n : Int) else n

/-- The exponent of a numeral, which needs digits. -/
def readExponent? (cs : List Char) : Option (Int × List Char) :=
  let negative := cs.head? == some '-'
  let digits := if negative || cs.head? == some '+' then cs.drop 1 else cs
  let front := digits.takeWhile Char.isDigit
  if front.isEmpty then none
  else (numeral? 10 0 front).map fun n => (signed negative n, digits.dropWhile Char.isDigit)

/-- Takes a numeral from the front. A zero can only be its first digit if no digit follows. -/
def readNumeral? : Reader Char Numeral := fun cs => do
  let whole := cs.takeWhile Char.isDigit
  let rest := cs.dropWhile Char.isDigit
  if whole.head? = some '0' ∧ whole.length ≠ 1 then failure
  let (fraction, rest) := match behind? '.' rest with
    | some rest => (some (rest.takeWhile Char.isDigit), rest.dropWhile Char.isDigit)
    | none => (none, rest)
  match (behind? 'e' rest).or (behind? 'E' rest) with
  | some rest =>
    let (exponent, rest) ← readExponent? rest
    return (⟨whole, fraction, some exponent⟩, rest)
  | none => return (⟨whole, fraction, none⟩, rest)

end TreeLint
