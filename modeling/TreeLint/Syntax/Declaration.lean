import TreeLint.Syntax.Cursor

/-!
# Views of declarations

Questions about type declarations and their members, answered from the children of their nodes.

## Main definitions

* `TreeLint.Node.typeName?` — the name of a type.
* `TreeLint.Cursor.nameToken?`, `TreeLint.Node.baseNames?`, `TreeLint.Node.members` — the name, the
  bases and the members of a class.
* `TreeLint.Node.isStatic`, `TreeLint.Node.isPrivate` — the modifiers of a member.
* `TreeLint.Node.createdType?` — the type that an object creation names.
-/

namespace TreeLint

/-- The modifiers written directly on a declaration, in order. -/
def Node.modifiers (n : Node) : List Kind := (n.childTokens.map Token.kind).filter Kind.isModifier

/-- The name of a type: its first name, generic arguments left out. -/
def Node.typeName? (n : Node) : Option String := (n.token? .ident).map Token.text

/-! ## Classes -/

/-- The token that names a class: the first name behind the keyword. -/
def Cursor.nameToken? (c : Cursor) : Option (Placed Token) :=
  (c.tokens.dropWhile fun t => !t.item.kind.isTypeKeyword).find? fun t => t.item.kind = .ident

/-- The name of a class. -/
def Cursor.name? (c : Cursor) : Option String := c.nameToken?.map fun t => t.item.text

/-- A class is generic if it has type parameters. -/
def Node.isGeneric (n : Node) : Bool := (n.child? .typeParameterList).isSome

/-- The names of the bases of a class, generic arguments left out. There are none without a list of
bases. -/
def Node.baseNames? (n : Node) : Option (List String) :=
  (n.child? .baseList).map fun bases =>
    (bases.childNodes.filter (·.kind = .typeRef)).filterMap Node.typeName?

/-- The member declarations directly inside a class. -/
def Node.members (n : Node) : List Node := n.childNodes.filter (·.kind.isMember)

/-- The constructors of a class. -/
def Node.constructors (n : Node) : List Node :=
  n.members.filter (·.kind = .constructorDeclaration)

/-- The classes at any depth below a node. -/
def Node.nestedClasses (n : Node) : List Node :=
  (Element.nodesList n.children).filter (·.kind = .classDeclaration)

/-! ## Members -/

/-- A member that carries the modifier for statics. -/
def Node.isStatic (n : Node) : Bool := n.modifiers.contains .staticKw

/-- A member is private unless a modifier gives it a wider access. -/
def Node.isPrivate (n : Node) : Bool :=
  !n.modifiers.any fun k => k = .publicKw ∨ k = .protectedKw ∨ k = .internalKw

/-- The name of the type that an object creation names. -/
def Node.createdType? (n : Node) : Option String := (n.child? .typeRef).bind Node.typeName?

end TreeLint
