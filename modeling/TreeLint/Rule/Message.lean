import TreeLint.Text.Digit

/-!
# Message templates

The message of a rule is a template with numbered placeholders, which are replaced by arguments in
one pass from left to right: the text of an argument is never read as a template again. A brace
that opens no placeholder with an argument stands for itself.

## Main definitions

* `TreeLint.readIndex?` — the number of a placeholder.
* `TreeLint.placeholder?` — the argument of a placeholder, and where the placeholder ends.
* `TreeLint.renderMessage` — a template with its placeholders replaced.
-/

namespace TreeLint

/-- The largest number that a placeholder can have. -/
def maxIndex : Nat := 18446744073709551615

/-- The number of a placeholder: decimal digits, of which there is at least one, behind an optional
plus sign. A number that does not fit into 64 bits is none. -/
def readIndex? (cs : List Char) : Option Nat :=
  let digits := if cs.head? = some '+' then cs.drop 1 else cs
  if digits.isEmpty then none else (numeral? 10 0 digits).filter (· ≤ maxIndex)

/-- The argument that a placeholder stands for, and the number of characters of the placeholder,
for the text behind its opening brace. -/
def placeholder? (args : List String) (behind : List Char) : Option (String × Nat) :=
  let body := behind.takeWhile (· ≠ '\x7d')
  if body.length < behind.length then
    (readIndex? body).bind fun i => args[i]?.map (·, body.length + 1)
  else none

/-- A template with its placeholders replaced, as characters. -/
def renderChars (args : List String) : List Char → List Char
  | [] => []
  | c :: cs =>
    if c = '\x7b' then
      match placeholder? args cs with
      | some (arg, n) => arg.toList ++ renderChars args (cs.drop n)
      | none => c :: renderChars args cs
    else c :: renderChars args cs
termination_by cs => cs.length
decreasing_by all_goals (simp only [List.length_drop, List.length_cons]; omega)

/-- A template with its placeholders replaced. -/
def renderMessage (template : String) (args : List String) : String :=
  .ofList (renderChars args template.toList)

end TreeLint
