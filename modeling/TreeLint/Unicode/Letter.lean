import TreeLint.Unicode.Property

/-!
# Letters and numbers

The classes of characters that decide what may stand in the names of a source text and how a text is
shown. They follow version 17 of Unicode: the sets of the version before, with what was added to
them. ASCII characters are decided by arithmetic.

## Main definitions

* `TreeLint.Unicode.isAlphabetic`, `TreeLint.Unicode.isNumeric`, `TreeLint.Unicode.isAlphanumeric`
  — letters, numbers and both.
* `TreeLint.Unicode.extendsCluster`, `TreeLint.Unicode.isPrinted` — marks on the character before
  them, and characters with a printed form of their own.
* `TreeLint.Unicode.isBlank` — white space, line ends included.
* `TreeLint.Unicode.trim` — a text without the white space at its two ends.
-/

namespace TreeLint.Unicode

/-- Alphabetic characters that version 17 added. -/
def laterLetters : CodeSet := .ofText "
88f c5c cdc a7ce-a7cf a7d2 a7d4 a7f1 10940-10959 10ec5-10ec7 10efa-10efb 11b60-11b67 11db0-11ddb
16ea0-16eb8 16ebb-16ed3 16ff2-16ff6 187f8-187ff 18d09-18d1e 18d80-18df2 1e6c0-1e6de 1e6e0-1e6f5
1e6fe-1e6ff 2b73a-2b73f 2cea2-2cead 323b0-33479"

/-- Numbers that version 17 added. -/
def laterNumbers : CodeSet := .ofText "11de0-11de9 16ff4-16ff6"

/-- Characters that extend a cluster and were added by version 17. -/
def laterMarks : CodeSet := .ofText "
1acf-1add 1ae0-1aeb 10efa-10efb 11b60 11b62-11b64 11b66 1e6e3 1e6e6 1e6ee-1e6ef 1e6f5"

/-- Punctuation, symbols and marks that version 17 added. -/
def laterSymbols : CodeSet := .ofText "
20c1 2b96 fbc3-fbd2 fd90-fd91 fdc8-fdce 10ed0-10ed8 1ccfa-1ccfc 1ceba-1ced0 1cee0-1cef0 1f6d8
1f777-1f77a 1f8d0-1f8d8 1fa54-1fa57 1fa8a 1fa8e 1fac8 1facd 1faea 1faef 1fbfa"

/-- Letters, marks, numbers, punctuation and symbols. -/
def printed : CodeSet :=
  .unions [letters, marks, numbers, punctuation, symbols, laterLetters, laterNumbers, laterMarks,
    laterSymbols]

/-- Letters: the property `Alphabetic`. -/
def isAlphabetic (c : Char) : Bool :=
  if c.val < 128 then c.isAlpha
  else alphabetic.contains c.toNat || laterLetters.contains c.toNat

/-- Numbers of every kind: the general category `Number`. -/
def isNumeric (c : Char) : Bool :=
  if c.val < 128 then c.isDigit else numbers.contains c.toNat || laterNumbers.contains c.toNat

/-- Letters and numbers. -/
def isAlphanumeric (c : Char) : Bool := isAlphabetic c || isNumeric c

/-- The character extends the one before it: the property `Grapheme_Extend`. -/
def extendsCluster (c : Char) : Bool :=
  graphemeExtend.contains c.toNat || laterMarks.contains c.toNat

/-- The character has a printed form of its own. -/
def isPrinted (c : Char) : Bool := printed.contains c.toNat

/-- White space: the property `White_Space`. -/
def isBlank (c : Char) : Bool :=
  let n := c.toNat
  (9 ≤ n && n ≤ 13) || n == 0x20 || n == 0x85 || n == 0xa0 || n == 0x1680
    || (0x2000 ≤ n && n ≤ 0x200a) || n == 0x2028 || n == 0x2029 || n == 0x202f || n == 0x205f
    || n == 0x3000

/-- The characters from the first that is not white space on. -/
def trimStart (cs : List Char) : List Char := cs.dropWhile isBlank

/-- The characters up to the last that is not white space. -/
def trimEnd (cs : List Char) : List Char := (cs.reverse.dropWhile isBlank).reverse

/-- The characters without the white space at the two ends. -/
def trim (cs : List Char) : List Char := trimEnd (trimStart cs)

end TreeLint.Unicode
