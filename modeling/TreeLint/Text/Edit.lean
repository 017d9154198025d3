import TreeLint.Diagnostic.Basic
import TreeLint.Text.Diff
import TreeLint.Text.Lines

/-!
# Edits of texts

The difference between two texts as a list of edits, in the order of the text and apart from each
other, for hosts that want to change a text rather than replace it.

## Main definitions

* `TreeLint.TextEdit` — the replacement of a range.
* `TreeLint.deriveTextEditsBy?`, `TreeLint.deriveTextEdits` — the edits that lead from one text to
  another, by any comparison of lines and by that of the library.
* `TreeLint.applyTextEdits?` — a text after some edits.
-/

namespace TreeLint

/-- The replacement of a range of a text. -/
structure TextEdit where
  /-- The range in the old text. -/
  range : Range
  /-- What is put there. -/
  newText : String
deriving DecidableEq, Repr

namespace TextEdit

/-- The edit only inserts. -/
def isInsertion (e : TextEdit) : Bool := e.range.isEmpty && !e.newText.isEmpty

/-- The edit only deletes. -/
def isDeletion (e : TextEdit) : Bool := !e.range.isEmpty && e.newText.isEmpty

/-- By how many bytes the edit makes a text longer. -/
def lengthDelta (e : TextEdit) : Int := e.newText.utf8ByteSize - e.range.length

/-- The span that the edit replaces. -/
def span (e : TextEdit) : Span := .ofRange e.range

end TextEdit

/-! ## Deriving edits -/

/-- Changed lines: some lines of the old text give way to some lines of the new one. -/
structure LineChange where
  /-- The first old line. -/
  oldStart : Nat
  /-- The line behind the last old line. -/
  oldStop : Nat
  /-- The first new line. -/
  newStart : Nat
  /-- The line behind the last new line. -/
  newStop : Nat
deriving DecidableEq, Repr

namespace LineChange

/-- The lines that one operation changes. -/
def ofOp (op : LineOp) : LineChange := ⟨op.oldStart, op.oldStop, op.newStart, op.newStop⟩

/-- Changed lines up to the end of one more operation. -/
def extend (c : LineChange) (op : LineOp) : LineChange :=
  { c with oldStop := op.oldStop, newStop := op.newStop }

/-- The edit that changes lines, given the offsets of the old and of the new lines and the new text.
There is none if there are no such lines. -/
def toEdit? (c : LineChange) (oldOffsets newOffsets : List Nat) (new : List Char) :
    Option TextEdit := do
  let range ← Range.ofWrapped? (← oldOffsets[c.oldStart]?) (← oldOffsets[c.oldStop]?)
  let newText ← between? (← newOffsets[c.newStart]?) (← newOffsets[c.newStop]?) new
  return ⟨range, String.ofList newText⟩

end LineChange

/-- The changed lines of a script, given those that further operations may be added to: operations that
follow each other without equal lines between them are put together. -/
def lineChanges (pending : Option LineChange) : List LineOp → List LineChange
  | [] => pending.toList
  | op :: ops =>
    if op.isEqual then pending.toList ++ lineChanges none ops
    else lineChanges (some (pending.elim (.ofOp op) (·.extend op))) ops

/-- The edits that lead from one text to another, by a comparison of their lines. There is no answer if
an operation of the comparison is not about lines of the texts. -/
def deriveTextEditsBy? (compare : String → String → LineScript) (old new : String) :
    Option (List TextEdit) :=
  let script := compare old new
  let oldOffsets := lineOffsets 0 script.oldLines
  let newOffsets := lineOffsets 0 script.newLines
  (lineChanges none script.ops).mapM fun c => c.toEdit? oldOffsets newOffsets new.toList

/-- The edits that lead from one text to another, line by line. -/
def deriveTextEdits (old new : String) : List TextEdit :=
  (deriveTextEditsBy? compareLines old new).getD []

/-! ## Applying edits -/

/-- A text with a range of it replaced. There is none if the range does not lie in the text or an
end of it lies inside a character. -/
def replaceRange? (text : List Char) (e : TextEdit) : Option (List Char) := do
  let (front, rest) ← cutAt? e.range.start text
  let (_, back) ← cutAt? e.range.length rest
  return front ++ e.newText.toList ++ back

/-- The order in which edits are applied: by descending start, those with the same start as they
are listed. -/
def lastFirst (edits : List TextEdit) : List TextEdit :=
  edits.mergeSort fun e f => f.range.start ≤ e.range.start

/-- A text after some edits, of which those further behind are applied first. -/
def applyTextEdits? (text : String) (edits : List TextEdit) : Option String :=
  ((lastFirst edits).foldlM replaceRange? text.toList).map String.ofList

end TreeLint
