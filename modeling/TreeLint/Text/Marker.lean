import TreeLint.Text.Range

/-!
# Marked texts

Places in a text can be marked inline: an opening marker `[|` and a closing marker `|]` enclose the
marked range. Reading a marked text strips the markers and answers the ranges that they enclosed.
Markers do not nest. Of the offsets of a range 32 bits are kept.

## Main definitions

* `TreeLint.MarkerError` — how markers can be out of balance or out of reach.
* `TreeLint.extractRanges` — the text without markers, and the marked ranges.
-/

namespace TreeLint

/-- How the markers of a text can be out of balance or out of reach. -/
inductive MarkerError where
  /-- A marker opens inside a marked range. -/
  | nested
  /-- A marker closes outside of any marked range. -/
  | unopened
  /-- A marked range is not closed. -/
  | unclosed
  /-- A marked range seems to end before it starts, because offsets have 32 bits only. -/
  | wrapped
deriving DecidableEq, Repr

/-- The wording of a marker error. -/
def MarkerError.message : MarkerError → String
  | nested => "extract_ranges: nested '[|' marker"
  | unopened => "extract_ranges: '|]' without '[|'"
  | unclosed => "extract_ranges: unclosed '[|' marker"
  | wrapped => "assertion failed: start <= end"

/-- Strips the markers from what is left of a text, from a given offset of the stripped text on. If
a range is open, `opened` is the offset at which it starts. -/
def extractFrom (offset : Nat) (opened : Option Nat) :
    List Char → Except MarkerError (List Char × List Range)
  | [] => if opened.isSome then .error .unclosed else .ok ([], [])
  | '[' :: '|' :: cs =>
    if opened.isSome then .error .nested else extractFrom offset (some offset) cs
  | '|' :: ']' :: cs =>
    match opened with
    | none => .error .unopened
    | some start =>
      match Range.ofWrapped? start offset with
      | none => .error .wrapped
      | some range => do
        let (text, ranges) ← extractFrom offset none cs
        return (text, range :: ranges)
  | c :: cs => do
    let (text, ranges) ← extractFrom (offset + c.utf8Size) opened cs
    return (c :: text, ranges)

/-- The text without its markers, and the ranges of the stripped text that they enclosed, in
order. -/
def extractRanges (marked : String) : Except MarkerError (String × List Range) := do
  let (text, ranges) ← extractFrom 0 none marked.toList
  return (.ofList text, ranges)

end TreeLint
