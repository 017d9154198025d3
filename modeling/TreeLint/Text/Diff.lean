import TreeLint.Data.Total
import TreeLint.Text.Lines

/-!
# Differences between lists of lines

Two lists of lines are compared by looking for a short script of deletions and insertions that leads
from one to the other. The search goes from both ends at once: after `d` steps it knows, for every
difference between the numbers of deleted and of inserted lines, how far `d` changes can lead. Where
the two searches meet, the lists are divided, and both parts are compared by themselves.

The script is then tidied up. Changes are moved up and down past equal lines where that makes no
difference, so that changes of one kind come together. Steps that follow each other are put together
at last: an operation is about equal lines, or about old lines that give way to new ones.

## Main definitions

* `TreeLint.Hunk` — one step of a script.
* `TreeLint.Diff.middle?` — where two lists are divided.
* `TreeLint.Diff.script` — the script before it is tidied up.
* `TreeLint.Diff.tidy` — the script with changes of one kind brought together.
* `TreeLint.LineOp`, `TreeLint.LineScript` — operations, and two texts compared line by line.
* `TreeLint.compareLines` — the comparison of two texts.
-/

namespace TreeLint

/-- What a step of a script does. -/
inductive Change where
  /-- Lines are kept. -/
  | keep
  /-- Lines of the old list are left out. -/
  | delete
  /-- Lines of the new list are put in. -/
  | insert
deriving DecidableEq, Repr

/-- One step of a script: what is done, where it stands in both lists, and how many lines it is
about. -/
structure Hunk where
  /-- What is done. -/
  change : Change
  /-- The position in the old list. -/
  old : Nat
  /-- The position in the new list. -/
  new : Nat
  /-- The number of lines. -/
  length : Nat
deriving DecidableEq, Repr

/-- An operation of a script: equal lines of both lists, or lines of the old list that give way to
lines of the new one. -/
structure LineOp where
  /-- The lines are equal. -/
  isEqual : Bool
  /-- The first old line. -/
  oldStart : Nat
  /-- The line behind the last old line. -/
  oldStop : Nat
  /-- The first new line. -/
  newStart : Nat
  /-- The line behind the last new line. -/
  newStop : Nat
deriving DecidableEq, Repr

/-- The positions of two lists between which they are compared. -/
structure Window where
  /-- The first line of the old list. -/
  old : Nat
  /-- The number of lines of the old list. -/
  oldLength : Nat
  /-- The first line of the new list. -/
  new : Nat
  /-- The number of lines of the new list. -/
  newLength : Nat

namespace Diff

variable (old new : Array String)

/-- The number of lines, at most `limit`, that agree from two positions on. -/
def agreeing (i j : Nat) : Nat → Nat
  | 0 => 0
  | limit + 1 => if old[i]? = new[j]? then agreeing (i + 1) (j + 1) limit + 1 else 0

/-- The number of lines, at most `limit`, that agree before two positions. -/
def agreeingBefore (i j : Nat) : Nat → Nat
  | 0 => 0
  | limit + 1 =>
    if old[i - 1]? = new[j - 1]? then agreeingBefore (i - 1) (j - 1) limit + 1 else 0

/-! ## The search -/

/-- How far `d` changes lead: for each excess of deleted over inserted lines, from `d` downwards in
steps of two, the number of old lines passed. -/
structure Frontier where
  /-- The number of changes. -/
  changes : Nat
  /-- The numbers of old lines passed. -/
  reach : List Nat

/-- The old lines passed for an excess of deleted lines, if the frontier has it. -/
def Frontier.at? (f : Frontier) (excess : Int) : Option Nat :=
  if excess.natAbs ≤ f.changes then f.reach[((f.changes - excess) / 2).toNat]? else none

/-- How far one more change leads before equal lines are passed. Each entry is reached from one of
two neighbours, by inserting a line from the one above it or by deleting a line from the other; the
farther one counts. -/
def spread (above : Option Nat) : List Nat → List Nat
  | [] => above.toList
  | p :: ps =>
    (match above with
      | none => p + 1
      | some a => if p < a then a else p + 1) :: spread (some p) ps

/-- The frontier of one more change before equal lines are passed. -/
def advance : Option Frontier → Frontier
  | none => ⟨0, [0]⟩
  | some f => ⟨f.changes + 1, spread none f.reach⟩

/-- The excess, the old lines and the new lines passed, for each entry of a frontier. -/
def points (f : Frontier) : List (Int × Nat × Nat) :=
  f.reach.mapIdx fun i x =>
    let excess : Int := f.changes - 2 * i
    (excess, x, (x - excess).toNat)

/-- The old lines passed once equal lines are passed, too, from the start of a window. -/
def slideForward (w : Window) (x y : Nat) : Nat :=
  if x < w.oldLength ∧ y < w.newLength then
    x + agreeing old new (w.old + x) (w.new + y) (min (w.oldLength - x) (w.newLength - y))
  else x

/-- The old lines passed once equal lines are passed, too, from the end of a window backwards. -/
def slideBackward (w : Window) (x y : Nat) : Nat :=
  if x < w.oldLength ∧ y < w.newLength then
    x + agreeingBefore old new (w.old + w.oldLength - x) (w.new + w.newLength - y)
      (min (w.oldLength - x) (w.newLength - y))
  else x

/-- The searches from both ends, for as many numbers of changes as `fuel` says, until they meet. If
the lengths differ by an odd number, it is the search from the start that runs into the other, and
the lists are divided where its last equal lines begin; otherwise it is the search from the end, and
they are divided where its last equal lines begin. -/
def search (w : Window) : Nat → Option Frontier → Option Frontier → Option (Nat × Nat)
  | 0, _, _ => none
  | fuel + 1, forward, backward =>
    let delta : Int := w.oldLength - w.newLength
    let starts := points (advance forward)
    let ahead : Frontier :=
      ⟨(advance forward).changes, starts.map fun (_, x, y) => slideForward old new w x y⟩
    -- the other search is one change behind, so a meeting takes an odd number of changes
    let met := if delta % 2 = 0 then none else
      starts.find? fun (excess, x, y) =>
        match backward.bind fun f => f.at? (delta - excess) with
        | some other => slideForward old new w x y + other ≥ w.oldLength
        | none => false
    match met with
    | some (_, x, y) => some (w.old + x, w.new + y)
    | none =>
      let ends := points (advance backward)
      let back : Frontier :=
        ⟨(advance backward).changes, ends.map fun (_, x, y) => slideBackward old new w x y⟩
      -- now both searches have made the same number of changes
      let met := if delta % 2 ≠ 0 then none else
        ends.find? fun (excess, x, y) =>
          match ahead.at? (delta - excess) with
          | some other => slideBackward old new w x y + other ≥ w.oldLength
          | none => false
      match met with
      | some (_, x, y) =>
        let reached := slideBackward old new w x y
        some (w.old + w.oldLength - reached, w.new + w.newLength - (y + (reached - x)))
      | none => search w fuel (some ahead) (some back)

/-- Where the lists of a window are divided. -/
def middle? (w : Window) : Option (Nat × Nat) :=
  search old new w ((w.oldLength + w.newLength + 1) / 2 + 1) none none

/-! ## The script -/

/-- A step, unless it is about no lines. -/
def hunk? (change : Change) (i j length : Nat) : List Hunk :=
  if length = 0 then [] else [⟨change, i, j, length⟩]

/-- The script for a window. Equal lines at both ends are kept; what is between is divided and
compared, for as many divisions below each other as `fuel` says. -/
def scriptWithin : Nat → Window → List Hunk
  | fuel, w =>
    let front := agreeing old new w.old w.new (min w.oldLength w.newLength)
    let oldLength := w.oldLength - front
    let newLength := w.newLength - front
    let back := agreeingBefore old new (w.old + w.oldLength) (w.new + w.newLength)
      (min oldLength newLength)
    let inner : Window := ⟨w.old + front, oldLength - back, w.new + front, newLength - back⟩
    let replaced := hunk? .delete inner.old inner.new inner.oldLength
      ++ hunk? .insert inner.old inner.new inner.newLength
    let between :=
      if inner.oldLength = 0 ∨ inner.newLength = 0 then replaced
      else
        match fuel, middle? old new inner with
        | fuel + 1, some (x, y) =>
          scriptWithin fuel ⟨inner.old, x - inner.old, inner.new, y - inner.new⟩
            ++ scriptWithin fuel
              ⟨x, inner.old + inner.oldLength - x, y, inner.new + inner.newLength - y⟩
        | _, _ => replaced -- no place to divide: all of the old lines go, all of the new ones come
    hunk? .keep w.old w.new front ++ between
      ++ hunk? .keep (inner.old + inner.oldLength) (inner.new + inner.newLength) back

/-- The script that leads from one list to another, before it is tidied up. -/
def script : List Hunk :=
  scriptWithin old new (old.size + new.size + 1) ⟨0, old.size, 0, new.size⟩

/-! ## Tidying up -/

/-- A script with a place in it: the steps before, the nearest first, the step at the place, and the
steps behind. -/
structure Place where
  /-- The steps before, the nearest first. -/
  before : List Hunk
  /-- The step at the place. -/
  here : Hunk
  /-- The steps behind. -/
  after : List Hunk

/-- The steps, each counted with its lines. -/
def weight (hunks : List Hunk) : Nat := total (hunks.map fun h => h.length + 1)

/-- Moves an insertion up past the last of the equal lines before it that agree with its own last
lines. -/
def liftPast (equal here : Hunk) (after : List Hunk) (n : Nat) : Hunk × Hunk × List Hunk :=
  let after := match after with
    | h :: rest =>
      if h.change = .keep then
        { h with old := h.old - n, new := h.new - n, length := h.length + n } :: rest
      else ⟨.keep, equal.old + equal.length - n, here.new + here.length - n, n⟩ :: h :: rest
    | [] => [⟨.keep, equal.old + equal.length - n, here.new + here.length - n, n⟩]
  ({ equal with length := equal.length - n },
    { here with old := here.old - n, new := here.new - n }, after)

/-- Moves the step at a place up as far as it goes. Past equal lines goes an insertion whose last
lines agree with them; steps of the other kind change places with it, and steps of its own kind are
merged into it. -/
def moveUp : Nat → Place → Place
  | 0, p => p
  | fuel + 1, p =>
    match p.before with
    | [] => p
    | prev :: before =>
      if prev.change = .keep then
        let limit := if p.here.change = .insert then min prev.length p.here.length else 0
        let n := agreeingBefore old new (prev.old + prev.length) (p.here.new + p.here.length) limit
        -- equal lines that have been used up stop nothing
        if n = 0 ∧ prev.length ≠ 0 then p
        else
          let (prev, here, after) :=
            if n = 0 then (prev, p.here, p.after) else liftPast prev p.here p.after n
          moveUp fuel ⟨if prev.length = 0 then before else prev :: before, here, after⟩
      else if prev.change = p.here.change then
        moveUp fuel ⟨before, { prev with length := prev.length + p.here.length }, p.after⟩
      else moveUp fuel ⟨before, p.here, prev :: p.after⟩

/-- Moves an insertion down past the first of the equal lines behind it that agree with its own
first lines. -/
def lowerPast (before : List Hunk) (here equal : Hunk) (n : Nat) : List Hunk × Hunk × Hunk :=
  let before := match before with
    | h :: rest =>
      if h.change = .keep then { h with length := h.length + n } :: rest
      else ⟨.keep, equal.old, here.new, n⟩ :: h :: rest
    | [] => [⟨.keep, equal.old, here.new, n⟩]
  (before, { here with old := here.old + n, new := here.new + n },
    { equal with old := equal.old + n, new := equal.new + n, length := equal.length - n })

/-- Moves the step at a place down as far as it goes, by the same rules. -/
def moveDown : Nat → Place → Place
  | 0, p => p
  | fuel + 1, p =>
    match p.after with
    | [] => p
    | next :: after =>
      if next.change = .keep then
        let limit := if p.here.change = .insert then min next.length p.here.length else 0
        let n := agreeing old new next.old p.here.new limit
        if n = 0 ∧ next.length ≠ 0 then p
        else
          let (before, here, next) :=
            if n = 0 then (p.before, p.here, next) else lowerPast p.before p.here next n
          moveDown fuel ⟨before, here, if next.length = 0 then after else next :: after⟩
      else if next.change = p.here.change then
        moveDown fuel ⟨p.before, { p.here with length := p.here.length + next.length }, after⟩
      else moveDown fuel ⟨next :: p.before, p.here, after⟩

/-- Moves all steps of a kind up and then down, from the first to the last. -/
def gather (change : Change) : Nat → List Hunk → List Hunk → List Hunk
  | _, before, [] => before.reverse
  | 0, before, after => before.reverse ++ after
  | fuel + 1, before, h :: after =>
    if h.change = change then
      let up := moveUp old new (weight before + 1) ⟨before, h, after⟩
      let down := moveDown old new (weight up.after + 1) up
      -- the step may have taken in others, so the scan goes on behind the place where it is now
      gather change fuel (down.here :: down.before) down.after
    else gather change fuel (h :: before) after

/-- The number of steps that moving the steps of a script takes at most. -/
def rounds (hunks : List Hunk) : Nat := (weight hunks + 1) * (weight hunks + 1)

/-- A script with changes of one kind brought together: first the deletions are moved, then the
insertions. -/
def tidy (hunks : List Hunk) : List Hunk :=
  let deleted := gather old new .delete (rounds hunks) [] hunks
  gather old new .insert (rounds deleted) [] deleted

end Diff

/-! ## Operations -/

namespace LineOp

/-- The operation that consists of one step. -/
def ofHunk (h : Hunk) : LineOp :=
  match h.change with
  | .keep => ⟨true, h.old, h.old + h.length, h.new, h.new + h.length⟩
  | .delete => ⟨false, h.old, h.old + h.length, h.new, h.new⟩
  | .insert => ⟨false, h.old, h.old, h.new, h.new + h.length⟩

/-- An operation with one more step. The first deletion decides where old lines begin, and the first
insertion where new lines begin. -/
def add (op : LineOp) (h : Hunk) : LineOp :=
  match h.change with
  | .keep => { op with oldStop := op.oldStop + h.length, newStop := op.newStop + h.length }
  | .delete =>
    if op.oldStart = op.oldStop then { op with oldStart := h.old, oldStop := h.old + h.length }
    else { op with oldStop := op.oldStop + h.length }
  | .insert =>
    if op.newStart = op.newStop then { op with newStart := h.new, newStop := h.new + h.length }
    else { op with newStop := op.newStop + h.length }

/-- The operations of a script, given the one that further steps may be added to: steps that keep lines
are put together, and so are steps that change them. -/
def ofHunks (pending : Option LineOp) : List Hunk → List LineOp
  | [] => pending.toList
  | h :: hs =>
    match pending with
    | none => ofHunks (some (.ofHunk h)) hs
    | some op =>
      if op.isEqual = decide (h.change = .keep) then ofHunks (some (op.add h)) hs
      else op :: ofHunks (some (.ofHunk h)) hs

end LineOp

/-- Two texts compared line by line. -/
structure LineScript where
  /-- The lines of the old text. -/
  oldLines : List String
  /-- The lines of the new text. -/
  newLines : List String
  /-- The operations that lead from the old lines to the new ones. -/
  ops : List LineOp
deriving DecidableEq, Repr

/-- The comparison of two texts line by line. -/
def compareLines (old new : String) : LineScript :=
  let o := (splitLines old).toArray
  let n := (splitLines new).toArray
  ⟨splitLines old, splitLines new, LineOp.ofHunks none (Diff.tidy o n (Diff.script o n))⟩

end TreeLint
