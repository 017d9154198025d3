import TreeLint.Unicode.Letter

/-!
# Quoted texts

A text that is shown inside a message is put in quotation marks. What would not be visible or would
end the quotation is written as an escape, so that the quoted form shows exactly which characters
the text has.

## Main definitions

* `TreeLint.escapeChar` — how one character is written inside quotation marks.
* `TreeLint.quoted` — a text in quotation marks.
-/

namespace TreeLint

/-- The digits of a number in lower-case hexadecimal. -/
def hexDigits (n : Nat) : List Char := Nat.toDigits 16 n

/-- A character as an escape with its code point. -/
def unicodeEscape (c : Char) : List Char :=
  ['\\', 'u', Char.ofNat 0x7b] ++ hexDigits c.toNat ++ [Char.ofNat 0x7d]

/-- A character as it is written inside quotation marks. Line ends, tabs, quotation marks and
backslashes have escapes of their own; other controls, marks that extend the character before them,
and characters without a printed form are written by code point. -/
def escapeChar (c : Char) : List Char :=
  if c = '\x00' then ['\\', '0']
  else if c = '\t' then ['\\', 't']
  else if c = '\r' then ['\\', 'r']
  else if c = '\n' then ['\\', 'n']
  else if c = '\\' then ['\\', '\\']
  else if c = '"' then ['\\', '"']
  else if c.val < 128 then
    if c.val < 32 ∨ c.val = 127 then unicodeEscape c else [c]
  else if Unicode.extendsCluster c ∨ ¬Unicode.isPrinted c then unicodeEscape c
  else [c]

/-- A text in quotation marks. -/
def quoted (text : String) : String :=
  .ofList ('"' :: text.toList.flatMap escapeChar ++ ['"'])

end TreeLint
