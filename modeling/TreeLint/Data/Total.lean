/-!
# Totals

The sum of a list of natural numbers, such as the lengths of the parts of a text.

## Main definitions

* `TreeLint.total` — the sum.

## Main results

* `TreeLint.total_append` — the sum of two lists in a row is the sum of their sums.
* `TreeLint.utf8ByteSize_join` — a text has as many bytes as its parts together.
-/

namespace TreeLint

/-- The sum of some numbers. -/
def total : List Nat → Nat
  | [] => 0
  | n :: ns => n + total ns

@[simp] theorem total_nil : total [] = 0 := rfl

@[simp] theorem total_cons (n : Nat) (ns : List Nat) : total (n :: ns) = n + total ns := rfl

@[simp] theorem total_append (ms ns : List Nat) : total (ms ++ ns) = total ms + total ns := by
  induction ms with
  | nil => simp
  | cons m ms ih => simp [ih, Nat.add_assoc]

/-- A text has as many bytes as its parts together. -/
theorem utf8ByteSize_join (parts : List String) :
    (String.join parts).utf8ByteSize = total (parts.map String.utf8ByteSize) := by
  induction parts with
  | nil => rfl
  | cons part parts ih => simp [String.join_cons, String.utf8ByteSize_append, ih]

end TreeLint
