import TreeLint.Rule.Descriptor
import TreeLint.Syntax.Trivia

/-!
# Rules about comments

Rules with a pattern are run together: every comment of a tree, in the order of the text, is tested
against every rule, in the order of the rules, and each match is a finding. A run can be cancelled;
whether it has been is asked before each element below the root.

## Main definitions

* `TreeLint.Descriptor.onComment?` — the finding of one rule about one comment.
* `TreeLint.commentFindings` — the findings of several rules about the comments of a tree.
* `TreeLint.commentFindingsUnless` — the same, unless the run is cancelled.
-/

namespace TreeLint

/-- The finding of a rule about a comment, if the rule has a pattern that occurs in it. -/
def Descriptor.onComment? (d : Descriptor) (comment : Trivia) : Option Diagnostic :=
  match d.pattern? with
  | some p =>
    if p.occursIn comment.text then some (d.finding [comment.text] comment.range) else none
  | none => none

/-- The findings of rules about a comment, in the order of the rules. -/
def onComment (rules : List Descriptor) (comment : Trivia) : List Diagnostic :=
  rules.filterMap fun d => d.onComment? comment

/-- The findings of rules about the comments of a tree: in the order of the comments, and for one
comment in the order of the rules. -/
def commentFindings (rules : List Descriptor) (root : Node) : List Diagnostic :=
  root.comments.flatMap (onComment rules)

/-- The findings of rules about the comments of consecutive elements, unless the run has been
cancelled. -/
def elementFindingsUnless (cancelled : Bool) (rules : List Descriptor) :
    List (Placed Element) → Except Error (List Diagnostic)
  | [] => .ok []
  | p :: ps =>
    if cancelled then .error .cancelled
    else do
      let rest ← elementFindingsUnless cancelled rules ps
      return (p.item.comments p.start).flatMap (onComment rules) ++ rest

/-- The findings of rules about the comments of a tree, unless the run has been cancelled. -/
def commentFindingsUnless (cancelled : Bool) (rules : List Descriptor) (root : Node) :
    Except Error (List Diagnostic) :=
  elementFindingsUnless cancelled rules root.cursor.elements

end TreeLint
