import TreeLint.Fix.Engine
import TreeLint.Proofs.Neighbours

/-!
# Fixes in bounded arithmetic

Offsets are 32 bits wide and not negative, and a range does not end before it starts: to add and to
subtract offsets, to build a range and to move it are operations that can fail, and so is to replace
elements between two indices. The fixes of the library compute with natural numbers, where nothing of
this fails. Here they are written once more with the operations that can, step by step.

## Main definitions

* `TreeLint.Bounded.add`, `TreeLint.Bounded.sub`, `TreeLint.Bounded.cover`,
  `TreeLint.Bounded.moveRight`, `TreeLint.Bounded.moveLeft` — operations on offsets and ranges.
* `TreeLint.Bounded.splice` — elements replaced between two indices.
* `TreeLint.Bounded.removal`, `TreeLint.Bounded.mergeRemovals`, `TreeLint.Bounded.reconcile` — the
  edits for handlers that only rethrow.
* `TreeLint.Bounded.applySorted` — a batch of edits.
* `TreeLint.Bounded.fixAll`, `TreeLint.Bounded.fix` — the outcome for several findings and for one.
  There is none if an operation fails.

## Main results

* `TreeLint.Bounded.splice_eq` — indices of elements that pass a test are in bounds.
-/

namespace TreeLint

namespace Bounded

/-! ## Offsets and ranges -/

/-- The sum of two offsets, unless it is too large for an offset. -/
def add (m n : Nat) : Option Nat := if m + n ≤ maxOffset then some (m + n) else none

/-- The difference of two offsets, unless it is negative. -/
def sub (m n : Nat) : Option Nat := if n ≤ m then some (m - n) else none

/-- The smallest range around two others. -/
def cover (r s : Range) : Option Range :=
  Range.ofBounds? (min r.start s.start) (max r.stop s.stop)

/-- A range moved to the right. -/
def moveRight (r : Range) (distance : Nat) : Option Range := do
  Range.ofBounds? (← add r.start distance) (← add r.stop distance)

/-- A range moved to the left. -/
def moveLeft (r : Range) (distance : Nat) : Option Range := do
  Range.ofBounds? (← sub r.start distance) (← sub r.stop distance)

/-- The range of a given length that begins at `start`. -/
def ofLength (start length : Nat) : Option Range := do Range.ofBounds? start (← add start length)

/-- A sum that is an offset is found. -/
lemma add_eq {m n : Nat} (h : m + n ≤ maxOffset) : add m n = some (m + n) := if_pos h

/-- A difference that is not negative is found. -/
lemma sub_eq {m n : Nat} (h : n ≤ m) : sub m n = some (m - n) := if_pos h

/-- The bounds of a range are those of a range. -/
lemma ofBounds?_eq (r : Range) : Range.ofBounds? r.start r.stop = some r :=
  Range.ofBounds?_eq_some_iff.mpr ⟨rfl, rfl⟩

/-- The smallest range around two others can always be built. -/
lemma cover_eq (r s : Range) : cover r s = some (r.cover s) := ofBounds?_eq (r.cover s)

/-- A range can be moved to the right as long as its end stays an offset. -/
lemma moveRight_eq {r : Range} {distance : Nat} (h : r.stop + distance ≤ maxOffset) :
    moveRight r distance = some (r.shiftRight distance) := by
  have hle := r.start_le_stop
  rw [moveRight, add_eq (by omega), add_eq h]
  exact ofBounds?_eq (r.shiftRight distance)

/-- A range can be moved to the left by no more than its start. -/
lemma moveLeft_eq {r : Range} {distance : Nat} (h : distance ≤ r.start) :
    moveLeft r distance = some (r.shiftLeft distance) := by
  have hle := r.start_le_stop
  rw [moveLeft, sub_eq h, sub_eq (by omega)]
  exact ofBounds?_eq (r.shiftLeft distance)

/-- A range of a given length can be built if its end is an offset. -/
lemma ofLength_eq {start length : Nat} (h : start + length ≤ maxOffset) :
    ofLength start length = some (.ofLength start length) := by
  rw [ofLength, add_eq h]
  exact ofBounds?_eq (.ofLength start length)

/-! ## Elements between two indices -/

section Splice

variable {α : Type} {covered : α → Bool} {xs ys es replacement : List α}

/-- The indices of the elements that pass a test. -/
def indices (covered : α → Bool) (es : List α) : List Nat :=
  (List.range es.length).filter fun i => es[i]?.any covered

/-- Elements with new ones in the place of those from the first to the last index, unless the indices
are out of order or out of bounds. -/
def spliceAt (first last : Nat) (replacement es : List α) : Option (List α) :=
  if first ≤ last ∧ last < es.length then
    some (es.take first ++ replacement ++ es.drop (last + 1))
  else none

/-- Elements with new ones in the place of those from the first to the last that passes a test, if
there is one. -/
def splice (covered : α → Bool) (replacement es : List α) : Option (Option (List α)) :=
  match (indices covered es).head?, (indices covered es).getLast? with
  | some first, some last => (spliceAt first last replacement es).map some
  | _, _ => some none

/-- In two lists one after the other, the indices of the second are counted from the length of the first.
-/
lemma indices_append (covered : α → Bool) (xs ys : List α) : indices covered (xs ++ ys) =
    indices covered xs ++ (indices covered ys).map (xs.length + ·) := by
  rw [indices, List.length_append, List.range_add, List.filter_append, List.filter_map]
  congr 1
  · refine List.filter_congr fun i hi => ?_
    rw [List.getElem?_append_left (List.mem_range.mp hi)]
  · refine congrArg (List.map _) (List.filter_congr fun i _ => ?_)
    simp [List.getElem?_append_right]

/-- Where no element passes the test, there is no index. -/
lemma indices_eq_nil (h : ∀ x ∈ xs, covered x = false) : indices covered xs = [] := by
  refine List.filter_eq_nil_iff.mpr fun i _ => ?_
  cases hx : xs[i]? with
  | none => simp
  | some x => simp [h x (List.mem_of_getElem? hx)]

/-- The only element of a list has the index zero. -/
lemma indices_singleton {x : α} (h : covered x = true) : indices covered [x] = [0] := by
  simp [indices, h]

/-- The first element that passes a test, and what stands before it. -/
lemma exists_first {x : α} (hx : x ∈ es) (h : covered x = true) : ∃ front y tail,
    es = front ++ y :: tail ∧ covered y = true ∧ ∀ z ∈ front, covered z = false := by
  obtain ⟨y, hy⟩ := Option.isSome_iff_exists.mp (List.find?_isSome.mpr ⟨x, hx, h⟩)
  obtain ⟨hcovered, front, tail, hes, hfront⟩ := List.find?_eq_some_iff_append.mp hy
  exact ⟨front, y, tail, hes, hcovered, fun z hz => by simpa using hfront z hz⟩

/-- The last element that passes a test, and what stands behind it. -/
lemma exists_last {x : α} (hx : x ∈ es) (h : covered x = true) : ∃ init l back,
    es = init ++ l :: back ∧ covered l = true ∧ ∀ z ∈ back, covered z = false := by
  obtain ⟨back, l, init, hes, hl, hback⟩ := exists_first (List.mem_reverse.mpr hx) h
  refine ⟨init.reverse, l, back.reverse, ?_, hl, fun z hz => hback z (List.mem_reverse.mp hz)⟩
  rw [← List.reverse_reverse es, hes]
  simp

variable {front tail init back : List α} {y l : α}

/-- The first index is the number of elements in front of the first that passes the test. -/
lemma head?_indices (hy : covered y = true) (hfront : ∀ z ∈ front, covered z = false) :
    (indices covered (front ++ y :: tail)).head? = some front.length := by
  rw [indices_append, indices_eq_nil hfront, ← List.singleton_append, indices_append,
    indices_singleton hy]
  simp

/-- The last index is the number of elements in front of the last that passes the test. -/
lemma getLast?_indices (hl : covered l = true) (hback : ∀ z ∈ back, covered z = false) :
    (indices covered (init ++ l :: back)).getLast? = some init.length := by
  rw [indices_append, ← List.singleton_append, indices_append, indices_singleton hl,
    indices_eq_nil hback]
  simp

/-- Between the indices of two members, the second not in front of the first, elements can be replaced.
-/
lemma spliceAt_eq (hes : y :: tail = init ++ l :: back) :
    spliceAt front.length (front ++ init).length replacement (front ++ y :: tail) =
      some (front ++ replacement ++ back) := by
  have hbound : (front ++ init).length < (front ++ y :: tail).length := by
    rw [hes]
    simp only [List.length_append, List.length_cons]
    omega
  have hdrop : (front ++ y :: tail).drop ((front ++ init).length + 1) = back := by
    rw [hes, ← List.append_assoc, ← List.drop_drop, List.drop_left]
    rfl
  rw [spliceAt, if_pos ⟨by simp, hbound⟩, List.take_left, hdrop]

/-- The splice of the library replaces what stands between the first and the last element that pass the
test. -/
lemma splice_of_first_last (hy : covered y = true) (hfront : ∀ z ∈ front, covered z = false)
    (hes : y :: tail = init ++ l :: back) (hl : covered l = true)
    (hback : ∀ z ∈ back, covered z = false) :
    TreeLint.splice covered replacement (front ++ y :: tail) =
      some (front ++ replacement ++ back) := by
  have hkeep : (front ++ y :: tail).takeWhile (fun e => !covered e) = front := by
    rw [List.takeWhile_append_of_pos (by simpa using hfront)]
    simp [hy]
  have hdrop : (front ++ y :: tail).dropWhile (fun e => !covered e) = y :: tail := by
    rw [List.dropWhile_append_of_pos (by simpa using hfront)]
    simp [hy]
  have htake : (y :: tail).reverse.takeWhile (fun e => !covered e) = back.reverse := by
    rw [hes, List.reverse_append, List.reverse_cons, List.append_assoc,
      List.takeWhile_append_of_pos (by simpa using hback)]
    simp [hl]
  simp only [TreeLint.splice, hdrop, hkeep, htake]
  simp

/-- **Indices of elements that pass a test** are in order and in bounds. -/
theorem splice_eq (covered : α → Bool) (replacement es : List α) :
    splice covered replacement es = some (TreeLint.splice covered replacement es) := by
  by_cases hnone : ∀ x ∈ es, covered x = false
  · have hrest : es.dropWhile (fun e => !covered e) = [] :=
      List.dropWhile_eq_nil_iff.mpr fun x hx => by simp [hnone x hx]
    rw [splice, indices_eq_nil hnone, TreeLint.splice, hrest]
    rfl
  · push Not at hnone
    obtain ⟨x, hx, hcovered⟩ := hnone
    rw [ne_eq, Bool.not_eq_false] at hcovered
    obtain ⟨front, y, tail, rfl, hy, hfront⟩ := exists_first hx hcovered
    obtain ⟨init, l, back, hes, hl, hback⟩ := exists_last (List.mem_cons_self : y ∈ y :: tail) hy
    have hlast : (indices covered (front ++ y :: tail)).getLast? = some (front ++ init).length := by
      rw [hes, ← List.append_assoc, getLast?_indices hl hback]
    rw [splice, head?_indices hy hfront, hlast, splice_of_first_last hy hfront hes hl hback]
    simp only [spliceAt_eq hes, Option.map_some]

end Splice

/-! ## Ranges with trivia -/

/-- The range of a node with the trivia that belong to it. -/
def rangeWithTrivia (c : Cursor) : Option Range := do
  let start ← sub c.range.start (total (c.leadingTrivia.map Token.length))
  let stop ← add c.range.stop (total (c.trailingTrivia.map Token.length))
  Range.ofBounds? start stop

/-- Where the blanks and line ends before the trivia of a node start, if there are any. -/
def layoutStart (c : Cursor) : Option (Option Nat) :=
  if (Rethrow.layoutBefore c).isEmpty then some none
  else do
    let r ← rangeWithTrivia c
    let start ← sub r.start (Element.lengthList (Rethrow.layoutBefore c))
    return some start

/-- A range that begins at an offset, if there is one. -/
def startingAt (start : Option Nat) (r : Range) : Option Range :=
  start.elim (some r) fun start => Range.ofBounds? start r.stop

/-! ## Edits for handlers that only rethrow -/

/-- The edit that removes a handler with its trivia. -/
def removal (handler : Cursor) : Option Edit := do
  let r ← rangeWithTrivia handler
  if Rethrow.isLast handler then
    let r ← startingAt (← layoutStart handler) r
    return .removal handler.target r
  else return .removal handler.target r

/-- The edit for the nearest handler of a guarded block around the node with a range. -/
def computeEdit (root : Node) (r : Range) : Option (Except FixUnavailable Edit) :=
  match root.find? r with
  | none => some (.error .targetNotFound)
  | some node =>
    match node.ancestors.find? fun c => c.kind = .catchClause && c.tryStatement?.isSome with
    | none => some (.error .notApplicable)
    | some handler =>
      if handler.node.isFiltered then some (.error .notFixable)
      else match handler.tryStatement? with
        | none => some (.error .notApplicable)
        | some t =>
          if t.handlers.length = 1 ∧ ¬t.node.hasFinally then some (Rethrow.flatten t)
          else (removal handler).map .ok

/-- A run of removals, of which the first is given, with the removals that overlap it merged into
it, and the runs behind it. -/
def mergeFrom (run : Edit) : List Edit → Option (List Edit)
  | [] => some [run]
  | e :: es =>
    if run.overlaps e then do
      let r ← cover run.removed e.removed
      mergeFrom { run with removed := r } es
    else (mergeFrom e es).map (run :: ·)

/-- Removals in order, those that overlap merged. -/
def mergeRuns : List Edit → Option (List Edit)
  | [] => some []
  | e :: es => mergeFrom e es

/-- A run of removals, widened to the blanks and line ends before its first handler if it holds the
last handler. -/
def widen (handlers : List Cursor) (lastRange : Range) (run : Edit) : Option Edit :=
  if run.removed.contains lastRange then
    match handlers.find? fun c => c.target = run.target with
    | none => some run
    | some first => do
      let start ← layoutStart first
      let r ← startingAt (start.map (min · run.removed.start)) run.removed
      return { run with removed := r }
  else some run

/-- Removals of handlers of one guarded block as runs that do not overlap. -/
def mergeRemovals (t : Cursor) (removals : List Edit) : Option (List Edit) := do
  let runs ← mergeRuns (sortEdits removals)
  match t.handlers.getLast? with
  | some last => if t.node.hasFinally then some runs else runs.mapM (widen t.handlers last.range)
  | none => some runs

/-- The removals from one guarded block as edits that fit together. -/
def reconcileGroup (root : Node) (target : Target) (removals : List Edit) :
    Option (Except FixUnavailable (List Edit)) :=
  match target.resolve? root with
  | none => some (.error .targetNotFound)
  | some t =>
    if t.node.hasFinally ∨ t.handlers.length ≠ removals.length then
      (mergeRemovals t removals).map .ok
    else some ((Rethrow.flatten t).map fun e => [e])

/-- What a step that can fail makes of each member of a list, up to the first failure. -/
def collect {α β : Type} (f : α → Option (Except FixUnavailable β)) :
    List α → Option (Except FixUnavailable (List β))
  | [] => some (.ok [])
  | a :: as =>
    (f a).bind fun
      | .error reason => some (.error reason)
      | .ok b => (collect f as).map fun bs => bs.map (b :: ·)

/-- The edits of one batch, made to fit together. -/
def reconcile (root : Node) (edits : List Edit) : Option (Except FixUnavailable (List Edit)) :=
  let owned := edits.filterMap fun e => (Rethrow.owner? root e).map fun c => (c.target, e)
  let free := edits.filter fun e => (Rethrow.owner? root e).isNone
  (collect (fun g => reconcileGroup root g.1 (g.2.map Prod.snd)) (groupBy Prod.fst owned)).map
    fun groups => groups.map fun groups => free ++ groups.flatten

/-! ## Batches of edits -/

/-- The number of bytes that an edit inserts. -/
def insertedLength (e : Edit) : Option Nat :=
  (e.operation.elements.map Element.length).foldlM add 0

/-- The range of what an edit puts into a tree, if it puts elements into it. -/
def insertedRange (e : Edit) : Option (Option Range) :=
  if e.operation.elements.isEmpty then some none
  else do
    let r ← ofLength e.removed.start (← insertedLength e)
    return some r

/-- Where a range behind an edit lies once the edit has been applied. -/
def shift (e : Edit) (r : Range) : Option Range := do
  let removed ← sub e.removed.stop e.removed.start
  let inserted ← insertedLength e
  if removed ≤ inserted then moveRight r (← sub inserted removed)
  else moveLeft r (← sub removed inserted)

/-- The tree after an edit, unless it is too long for its offsets. -/
def apply (e : Edit) (root : Node) : Option (Except FixUnavailable Node) :=
  match (e.target.resolve? root).bind Cursor.parent? with
  | none => some (.error .targetNotFound)
  | some parent =>
    (splice (fun p => e.removed.contains (.ofLength p.start p.item.length))
      (e.operation.elements.map fun x => (⟨x, 0⟩ : Placed Element)) parent.elements).bind fun
      | none => some (.error .targetNotFound)
      | some children =>
        let tree := parent.rebuild ⟨parent.kind, children.map Placed.item⟩
        if tree.length ≤ maxOffset then some (.ok tree) else none

/-- The tree after edits that are in order and do not overlap, and the ranges in it that hold what
they put there. -/
def applySorted (root : Node) : List Edit → Option (Except FixUnavailable (Node × List Range))
  | [] => some (.ok (root, []))
  | e :: es =>
    (applySorted root es).bind fun
      | .error reason => some (.error reason)
      | .ok (later, ranges) =>
        (apply e later).bind fun
          | .error reason => some (.error reason)
          | .ok tree => do
            let inserted ← insertedRange e
            let shifted ← ranges.mapM (shift e)
            return .ok (tree, inserted.toList ++ shifted)

/-- The tree after a batch of edits, and the ranges in it that hold what they put there. -/
def applyEdits (root : Node) (edits : List Edit) :
    Option (Except FixUnavailable (Node × List Range)) :=
  let sorted := sortEdits edits
  if neighboursOverlap sorted then some (.error .conflictingEdits) else applySorted root sorted

/-! ## Fixes -/

/-- The edit for a finding of a rule at a range. The builtin engine provides for handlers that only
rethrow, and for nothing else. -/
def editAt (root : Node) (ruleId : String) (r : Range) : Option (Except FixUnavailable Edit) :=
  if root.fullRange.contains r then
    if ruleId = Rethrow.ruleId then computeEdit root r else some (.error .notApplicable)
  else some (.error .targetNotFound)

/-- The range that a span stands for. -/
def range (s : Span) : Option Range := ofLength s.start s.length

/-- The edits for several findings, each with its rule, up to the first failure. -/
def edits (root : Node) : List Diagnostic → Option (Except FixUnavailable (List (String × Edit)))
  | [] => some (.ok [])
  | d :: ds => do
    let r ← range d.span
    (editAt root d.ruleId r).bind fun
      | .error reason => some (.error reason)
      | .ok edit => (edits root ds).map fun rest => rest.map fun rest => (d.ruleId, edit) :: rest

/-- The edits of one rule, without repetitions and made to fit together. -/
def reconcileRule (root : Node) (ruleId : String) (edits : List Edit) :
    Option (Except FixUnavailable (List Edit)) :=
  if ruleId = Rethrow.ruleId then reconcile root (distinct edits) else some (.error .notApplicable)

/-- The tree with the edits of several rules applied as one change. -/
def applyRules (root : Node) (edits : List (String × Edit)) :
    Option (Except FixUnavailable (Node × List Range)) :=
  (collect (fun g => reconcileRule root g.1 (g.2.map Prod.snd)) (groupBy Prod.fst edits)).bind fun
    | .error reason => some (.error reason)
    | .ok groups => applyEdits root groups.flatten

/-- The outcome of a fix by the builtin engine for several findings. There is none if an operation on
offsets, ranges or indices fails on the way. -/
def fixAll (root : Node) (findings : List Diagnostic) : Option FixOutcome :=
  if findings.isEmpty then some (.unavailable .notApplicable)
  else
    (edits root findings).bind fun
      | .error reason => some (.unavailable reason)
      | .ok edits =>
        (applyRules root edits).map fun
          | .ok (tree, reformat) => .applied tree reformat
          | .error reason => .unavailable reason

/-- The outcome of a fix by the builtin engine for one finding. -/
def fix (root : Node) (finding : Diagnostic) : Option FixOutcome := fixAll root [finding]

end Bounded

end TreeLint
