import TreeLint.Error
import TreeLint.Syntax.Locate

/-!
# Edits of trees

An edit removes whole children of a node, the target's parent, and may put other elements in their
place. A batch of edits is applied to a tree as one change: all edits are stated against the tree as
it is, so the last one in the text is applied first, which leaves the places of the others alone.
Edits that overlap are refused.

## Main definitions

* `TreeLint.Edit` — an edit.
* `TreeLint.FixUnavailable` — why there is no fix.
* `TreeLint.Edit.apply` — a tree after one edit.
* `TreeLint.applyEdits` — a tree after a batch of edits, and the ranges of what was put into it.
-/

namespace TreeLint

/-- Why there is no fix. -/
inductive FixUnavailable where
  /-- There is nothing at the place that the fix could change. -/
  | notApplicable
  /-- No node stands at the place. -/
  | targetNotFound
  /-- Two edits of a batch overlap. -/
  | conflictingEdits
  /-- The construct is left alone on purpose. -/
  | notFixable
deriving DecidableEq, Repr

namespace FixUnavailable

/-- The wording of a reason. -/
def message : FixUnavailable → String
  | notApplicable => "no applicable construct at the diagnostic"
  | targetNotFound => "diagnostic does not resolve to a node"
  | conflictingEdits => "edits overlap"
  | notFixable => "construct is not fixed automatically"

/-- The failure that a reason amounts to. -/
def toError : FixUnavailable → Error
  | conflictingEdits => .conflictingEdits conflictingEdits.message
  | reason => .fixUnavailable reason.message

end FixUnavailable

/-- What an edit puts in the place of what it removes. -/
inductive Operation where
  /-- Nothing. -/
  | remove
  /-- Some elements. -/
  | replace (elements : List Element)
deriving DecidableEq

/-- The elements that an operation inserts. -/
def Operation.elements : Operation → List Element
  | remove => []
  | replace elements => elements

/-- An edit of a tree. -/
structure Edit where
  /-- The node that the edit is about. -/
  target : Target
  /-- What is removed: the target, and trivia that go with it. It covers whole children of the
  target's parent. -/
  removed : Range
  /-- What is put in its place. -/
  operation : Operation
deriving DecidableEq

namespace Edit

/-- The edit that removes a node and what else lies in a range. -/
def removal (target : Target) (removed : Range) : Edit := ⟨target, removed, .remove⟩

/-- The edit that puts elements in the place of a node. -/
def replacement (target : Target) (elements : List Element) : Edit :=
  ⟨target, target.range, .replace elements⟩

/-- Two edits overlap if what they remove does; edits that only touch do not. -/
def overlaps (e f : Edit) : Bool := e.removed.overlaps f.removed

/-- The number of bytes that an edit inserts. -/
def insertedLength (e : Edit) : Nat := Element.lengthList e.operation.elements

/-- Where a range behind an edit lies once the edit has been applied. -/
def shift (e : Edit) (r : Range) : Range :=
  if e.removed.length ≤ e.insertedLength then r.shiftRight (e.insertedLength - e.removed.length)
  else r.shiftLeft (e.removed.length - e.insertedLength)

/-- The range of what an edit puts into a tree, if it puts elements into it. -/
def insertedRange? (e : Edit) : Option Range :=
  if e.operation.elements.isEmpty then none
  else some (.ofLength e.removed.start e.insertedLength)

end Edit

/-! ## One edit -/

/-- Consecutive elements with new ones in the place of a part: from the first to the last element
that passes a test. There is nothing to replace if none does. -/
def splice {α : Type} (covered : α → Bool) (replacement elements : List α) : Option (List α) :=
  let front := elements.takeWhile fun e => !covered e
  let rest := elements.dropWhile fun e => !covered e
  if rest.isEmpty then none
  else some (front ++ replacement ++ (rest.reverse.takeWhile fun e => !covered e).reverse)

/-- The tree after an edit. The target is looked up by kind and range, and among the children of its
parent, those that lie in the removed range go, with all that stands between them. -/
def Edit.apply (e : Edit) (root : Node) : Except FixUnavailable Node :=
  match (e.target.resolve? root).bind Cursor.parent? with
  | none => .error .targetNotFound
  | some parent =>
    let covered (p : Placed Element) : Bool :=
      e.removed.contains (.ofLength p.start p.item.length)
    let replacement := e.operation.elements.map fun x => (⟨x, 0⟩ : Placed Element)
    match splice covered replacement parent.elements with
    | none => .error .targetNotFound
    | some children => .ok (parent.rebuild ⟨parent.kind, children.map Placed.item⟩)

/-! ## Batches -/

/-- Edits in the order of what they remove. -/
def sortEdits (edits : List Edit) : List Edit := edits.mergeSort fun e f => e.removed.le f.removed

/-- Two neighbours in a list of edits overlap. -/
def neighboursOverlap : List Edit → Bool
  | e :: f :: es => e.overlaps f || neighboursOverlap (f :: es)
  | _ => false

/-- The tree after edits that are in order and do not overlap, and the ranges in it that hold what
they put there. The last edit is applied first. -/
def applySorted (root : Node) : List Edit → Except FixUnavailable (Node × List Range)
  | [] => .ok (root, [])
  | e :: es => do
    let (later, ranges) ← applySorted root es
    let tree ← e.apply later
    -- what the later edits have put in stands behind this one, and moves with the text
    return (tree, e.insertedRange?.toList ++ ranges.map e.shift)

/-- The tree after a batch of edits, and the ranges in it that hold what they put there. -/
def applyEdits (root : Node) (edits : List Edit) : Except FixUnavailable (Node × List Range) :=
  let sorted := sortEdits edits
  if neighboursOverlap sorted then .error .conflictingEdits else applySorted root sorted

end TreeLint
