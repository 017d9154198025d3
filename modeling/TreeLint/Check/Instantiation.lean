import TreeLint.Rule.Descriptor
import TreeLint.Syntax.Declaration

/-!
# Classes without instances

A class all of whose constructors are private can only be instantiated from inside. If it is not,
and neither offers a static member to the outside nor has a derived class inside, it is useless.

## Main definitions

* `TreeLint.Instantiation.isNeverInstantiated` — the classes that are reported.
* `TreeLint.Instantiation.check` — the check.
-/

namespace TreeLint.Instantiation

/-- The identifier of the rule. -/
def ruleId : String := "S3453"

/-- The rule. The message names the class. -/
def rule : Descriptor where
  id := ruleId
  title := "Classes should not have only \"private\" constructors"
  messageTemplate :=
    "Class '\x7b0\x7d' can't be instantiated; make its constructor 'public'."
  category := .design
  severity := .major
  kind := .structural

/-- There are constructors of instances, and all are private. -/
def hasOnlyPrivateConstructors (n : Node) : Bool :=
  let constructors := n.constructors.filter fun c => !c.isStatic
  !constructors.isEmpty && constructors.all Node.isPrivate

/-- A static method, property or field can be used from outside. -/
def exposesStatic (n : Node) : Bool :=
  n.members.any fun m =>
    (m.kind = .methodDeclaration || m.kind = .propertyDeclaration || m.kind = .fieldDeclaration)
      && m.isStatic && !m.isPrivate

/-- A class inside a class is derived from a class of a given name. -/
def hasDerivedInside (n : Node) (name : String) : Bool :=
  n.nestedClasses.any fun m => (m.baseNames?.getD []).contains name

/-- An object of a type with a given name is created somewhere in a node. -/
def creates (n : Node) (name : String) : Bool :=
  n.nodes.any fun m => m.kind = .objectCreationExpression && m.createdType? == some name

/-- A class of a given name is never instantiated, neither from outside nor from inside. -/
def isNeverInstantiated (n : Node) (name : String) : Bool :=
  hasOnlyPrivateConstructors n && !exposesStatic n && !hasDerivedInside n name && !creates n name

/-- The finding about a class, at its name. -/
def finding? (rule : Descriptor) (c : Cursor) : Option Diagnostic :=
  match c.nameToken? with
  | some t =>
    if isNeverInstantiated c.node t.item.text then some (rule.finding [t.item.text] t.range)
    else none
  | none => none

/-- Reports classes that are never instantiated, in the order of the text. -/
def check (root : Node) (rule : Descriptor) : List Diagnostic :=
  (root.cursors.filter (·.kind = .classDeclaration)).filterMap (finding? rule)

end TreeLint.Instantiation
