import TreeLint.Format.Reader
import TreeLint.Text.Digit

/-!
# Escapes by number

Characters that quoted texts write by number. A format that counts in 16-bit units writes a
character beyond them as two numbers, a leading and a trailing surrogate; one without the other
stands for no character.

## Main definitions

* `TreeLint.hexEscape?` — the number that a count of hexadecimal digits writes.
* `TreeLint.ofUnits?` — the characters that numbers stand for.
-/

namespace TreeLint

/-- The number that a count of hexadecimal digits writes. -/
def hexEscape? (count : Nat) : Reader Char Nat := fun cs =>
  let digits := cs.take count
  if digits.length = count then (numeral? 16 0 digits).map (·, cs.drop count) else none

/-- The first of the two numbers of a character. -/
def isLeading (n : Nat) : Bool := 0xd800 ≤ n && n < 0xdc00

/-- The second of the two numbers of a character. -/
def isTrailing (n : Nat) : Bool := 0xdc00 ≤ n && n < 0xe000

/-- The number of the character that two numbers write: each of them holds ten bits, which count
from the first character that takes two. -/
def pairValue (leading trailing : Nat) : Nat :=
  0x10000 + (leading - 0xd800) * 0x400 + (trailing - 0xdc00)

/-- The characters that numbers stand for, in which a character may be written as two of them;
`pair` tells which one that is. -/
def ofUnits? (pair : Nat → Nat → Nat) : List Nat → Option (List Char)
  | [] => some []
  | [n] => (charOf? n).map ([·])
  | n :: m :: rest =>
    if isLeading n ∧ isTrailing m then do return (← charOf? (pair n m)) :: (← ofUnits? pair rest)
    else do return (← charOf? n) :: (← ofUnits? pair (m :: rest))

end TreeLint
