import TreeLint.Unicode.CodeSet

/-!
# Sets of characters as sequences of bytes

Encoded characters take one to four bytes. A range of code points can be described by ranges of
bytes alone if its ends differ only in a byte behind which all continuations belong to the range; a
set of code points is cut into ranges of this kind.

## Main definitions

* `TreeLint.Unicode.utf8Bytes` — the bytes of a code point.
* `TreeLint.Unicode.ByteRange` — a range of bytes.
* `TreeLint.Unicode.CodeSet.byteSequences` — the encodings of a set, by ranges of bytes.
-/

namespace TreeLint.Unicode

/-- The bytes of a code point. -/
def utf8Bytes (n : Nat) : List Nat := (String.utf8EncodeChar (Char.ofNat n)).map UInt8.toNat

/-- A range of bytes, both ends included. -/
structure ByteRange where
  /-- The smallest byte. -/
  first : Nat
  /-- The largest byte. -/
  last : Nat
deriving DecidableEq

/-- The spans of code points that are encoded in equally many bytes. Surrogates are not encoded. -/
def spans : List (Nat × Nat) :=
  [(0, 0x7f), (0x80, 0x7ff), (0x800, 0xd7ff), (0xe000, 0xffff), (0x10000, maxCode)]

/-- Cuts a range at the borders of the blocks of a given size: what it has of the blocks at its two
ends stands alone, unless these are complete. -/
def cutAtBlocks (size : Nat) (range : Nat × Nat) : List (Nat × Nat) :=
  let (a, b) := range
  if a / size = b / size then [(a, b)]
  else
    let inner := (a + size - 1) / size * size
    let outer := (b + 1) / size * size
    (if a < inner then [(a, inner - 1)] else [])
      ++ (if inner < outer then [(inner, outer - 1)] else [])
      ++ (if outer ≤ b then [(outer, b)] else [])

/-- The parts of a range of code points that can be described by ranges of bytes. The bytes behind
the first hold six bits each. -/
def encodableParts (range : Nat × Nat) : List (Nat × Nat) :=
  (CodeSet.interRanges [range] spans).flatMap fun part =>
    if part.2 < 0x80 then [part]
    else (cutAtBlocks 64 part).flatMap fun part =>
      (cutAtBlocks 4096 part).flatMap (cutAtBlocks 262144)

/-- The encodings of a set of code points, as sequences of ranges of bytes in ascending order. -/
def CodeSet.byteSequences (s : CodeSet) : List (List ByteRange) :=
  (s.ranges.flatMap encodableParts).map fun (a, b) =>
    (utf8Bytes a).zipWith ByteRange.mk (utf8Bytes b)

end TreeLint.Unicode
