/-!
# Kinds of tokens and nodes

Every token and every node of a syntax tree carries a kind: trivia, keywords, punctuation, literals
and names for tokens, declarations, statements and expressions for nodes. A kind has a numeric code
and a name, and the classifications below are functions of the kind alone.

## Main definitions

* `TreeLint.Kind` — the kinds.
* `TreeLint.Kind.code`, `TreeLint.Kind.ofCode?` — the numeric codes and their reading.
* `TreeLint.Kind.keywordText?`, `TreeLint.Kind.ofKeyword?` — the spelling of a keyword and back.
* `TreeLint.Kind.isTrivia`, `TreeLint.Kind.isComment`, `TreeLint.Kind.isKeyword`,
  `TreeLint.Kind.isModifier`, `TreeLint.Kind.isNode`, `TreeLint.Kind.isStatement` — the
  classifications.

## Main results

* `TreeLint.Kind.ofCode?_code` — a code is read back as its kind.
* `TreeLint.Kind.ofKeyword?_eq_some_iff` — a word is a keyword exactly if it is its spelling.
-/

namespace TreeLint

/-- The kinds of tokens and nodes of a C-family syntax tree. -/
inductive Kind where
  /-- Blanks other than line ends. -/
  | whitespace
  /-- One line end. -/
  | newline
  /-- A comment to the end of the line. -/
  | lineComment
  /-- A comment between delimiters. -/
  | blockComment
  /-- A documentation comment to the end of the line. -/
  | docLineComment
  /-- A documentation comment between delimiters. -/
  | docBlockComment
  | usingKw
  | namespaceKw
  | classKw
  | structKw
  | tryKw
  | catchKw
  | finallyKw
  | throwKw
  | whenKw
  | newKw
  | returnKw
  | publicKw
  | privateKw
  | protectedKw
  | internalKw
  | staticKw
  | sealedKw
  | abstractKw
  | readonlyKw
  | voidKw
  | varKw
  | baseKw
  | thisKw
  | lBrace
  | rBrace
  | lParen
  | rParen
  | lBracket
  | rBracket
  | semicolon
  | colon
  | comma
  | dot
  | lt
  | gt
  | equals
  | fatArrow
  /-- Any other run of operator characters. -/
  | operator
  | ident
  | stringLiteral
  | numberLiteral
  | compilationUnit
  | usingDirective
  | namespaceDeclaration
  | classDeclaration
  | typeParameterList
  | baseList
  | constructorDeclaration
  | methodDeclaration
  | fieldDeclaration
  | propertyDeclaration
  | parameterList
  | typeRef
  | block
  | tryStatement
  | catchClause
  | catchDeclaration
  | catchFilter
  | finallyClause
  | throwStatement
  | returnStatement
  | expressionStatement
  | expression
  | objectCreationExpression
  | argumentList
  /-- Input that fits nothing else and is kept as it is. -/
  | error
deriving DecidableEq, Repr

namespace Kind

/-- The numeric code of a kind: trivia lie below 10, keywords from 10 to 99, other tokens from 100
to 199, nodes from 200 to 399, and the kind of unreadable input is 400. -/
def code : Kind → Nat
  | whitespace => 0
  | newline => 1
  | lineComment => 2
  | blockComment => 3
  | docLineComment => 4
  | docBlockComment => 5
  | usingKw => 10
  | namespaceKw => 11
  | classKw => 12
  | structKw => 13
  | tryKw => 20
  | catchKw => 21
  | finallyKw => 22
  | throwKw => 23
  | whenKw => 24
  | newKw => 25
  | returnKw => 26
  | publicKw => 40
  | privateKw => 41
  | protectedKw => 42
  | internalKw => 43
  | staticKw => 44
  | sealedKw => 45
  | abstractKw => 46
  | readonlyKw => 47
  | voidKw => 60
  | varKw => 61
  | baseKw => 62
  | thisKw => 63
  | lBrace => 100
  | rBrace => 101
  | lParen => 102
  | rParen => 103
  | lBracket => 104
  | rBracket => 105
  | semicolon => 106
  | colon => 107
  | comma => 108
  | dot => 109
  | lt => 110
  | gt => 111
  | equals => 112
  | fatArrow => 113
  | operator => 114
  | ident => 150
  | stringLiteral => 151
  | numberLiteral => 152
  | compilationUnit => 200
  | usingDirective => 201
  | namespaceDeclaration => 202
  | classDeclaration => 210
  | typeParameterList => 211
  | baseList => 212
  | constructorDeclaration => 213
  | methodDeclaration => 214
  | fieldDeclaration => 215
  | propertyDeclaration => 216
  | parameterList => 217
  | typeRef => 218
  | block => 250
  | tryStatement => 251
  | catchClause => 252
  | catchDeclaration => 253
  | catchFilter => 254
  | finallyClause => 255
  | throwStatement => 256
  | returnStatement => 257
  | expressionStatement => 258
  | expression => 300
  | objectCreationExpression => 301
  | argumentList => 302
  | error => 400

/-- The name of a kind, as it is written in dumps and messages. -/
def name : Kind → String
  | whitespace => "Whitespace"
  | newline => "Newline"
  | lineComment => "LineComment"
  | blockComment => "BlockComment"
  | docLineComment => "DocLineComment"
  | docBlockComment => "DocBlockComment"
  | usingKw => "UsingKw"
  | namespaceKw => "NamespaceKw"
  | classKw => "ClassKw"
  | structKw => "StructKw"
  | tryKw => "TryKw"
  | catchKw => "CatchKw"
  | finallyKw => "FinallyKw"
  | throwKw => "ThrowKw"
  | whenKw => "WhenKw"
  | newKw => "NewKw"
  | returnKw => "ReturnKw"
  | publicKw => "PublicKw"
  | privateKw => "PrivateKw"
  | protectedKw => "ProtectedKw"
  | internalKw => "InternalKw"
  | staticKw => "StaticKw"
  | sealedKw => "SealedKw"
  | abstractKw => "AbstractKw"
  | readonlyKw => "ReadonlyKw"
  | voidKw => "VoidKw"
  | varKw => "VarKw"
  | baseKw => "BaseKw"
  | thisKw => "ThisKw"
  | lBrace => "LBrace"
  | rBrace => "RBrace"
  | lParen => "LParen"
  | rParen => "RParen"
  | lBracket => "LBracket"
  | rBracket => "RBracket"
  | semicolon => "Semicolon"
  | colon => "Colon"
  | comma => "Comma"
  | dot => "Dot"
  | lt => "Lt"
  | gt => "Gt"
  | equals => "Equals"
  | fatArrow => "FatArrow"
  | operator => "Operator"
  | ident => "Ident"
  | stringLiteral => "StringLiteral"
  | numberLiteral => "NumberLiteral"
  | compilationUnit => "CompilationUnit"
  | usingDirective => "UsingDirective"
  | namespaceDeclaration => "NamespaceDeclaration"
  | classDeclaration => "ClassDeclaration"
  | typeParameterList => "TypeParameterList"
  | baseList => "BaseList"
  | constructorDeclaration => "ConstructorDeclaration"
  | methodDeclaration => "MethodDeclaration"
  | fieldDeclaration => "FieldDeclaration"
  | propertyDeclaration => "PropertyDeclaration"
  | parameterList => "ParameterList"
  | typeRef => "TypeRef"
  | block => "Block"
  | tryStatement => "TryStatement"
  | catchClause => "CatchClause"
  | catchDeclaration => "CatchDeclaration"
  | catchFilter => "CatchFilter"
  | finallyClause => "FinallyClause"
  | throwStatement => "ThrowStatement"
  | returnStatement => "ReturnStatement"
  | expressionStatement => "ExpressionStatement"
  | expression => "Expression"
  | objectCreationExpression => "ObjectCreationExpression"
  | argumentList => "ArgumentList"
  | error => "Error"

/-- The keywords with their spellings. -/
def keywords : List (String × Kind) := [
  ("using", usingKw), ("namespace", namespaceKw), ("class", classKw), ("struct", structKw),
  ("try", tryKw), ("catch", catchKw), ("finally", finallyKw), ("throw", throwKw),
  ("when", whenKw), ("new", newKw), ("return", returnKw), ("public", publicKw),
  ("private", privateKw), ("protected", protectedKw), ("internal", internalKw),
  ("static", staticKw), ("sealed", sealedKw), ("abstract", abstractKw),
  ("readonly", readonlyKw), ("void", voidKw), ("var", varKw), ("base", baseKw), ("this", thisKw)]

/-- The kinds, by ascending code. -/
def all : List Kind := [
  whitespace, newline, lineComment, blockComment, docLineComment, docBlockComment,
  usingKw, namespaceKw, classKw, structKw, tryKw, catchKw, finallyKw, throwKw, whenKw, newKw,
  returnKw, publicKw, privateKw, protectedKw, internalKw, staticKw, sealedKw, abstractKw,
  readonlyKw, voidKw, varKw, baseKw, thisKw, lBrace, rBrace, lParen, rParen, lBracket, rBracket,
  semicolon, colon, comma, dot, lt, gt, equals, fatArrow, operator, ident, stringLiteral,
  numberLiteral, compilationUnit, usingDirective, namespaceDeclaration, classDeclaration,
  typeParameterList, baseList, constructorDeclaration, methodDeclaration, fieldDeclaration,
  propertyDeclaration, parameterList, typeRef, block, tryStatement, catchClause,
  catchDeclaration, catchFilter, finallyClause, throwStatement, returnStatement,
  expressionStatement, expression, objectCreationExpression, argumentList, error]

/-- The kind with a given code, if there is one. -/
def ofCode? (code : Nat) : Option Kind := all.find? (·.code == code)

/-- A code is read back as the kind that it belongs to. -/
@[simp] theorem ofCode?_code (kind : Kind) : ofCode? kind.code = some kind := by
  cases kind <;> rfl

/-- The kind with a given name, if there is one. -/
def ofName? (name : String) : Option Kind := all.find? (·.name == name)

/-- The keyword with a given spelling, if there is one. -/
def ofKeyword? (word : String) : Option Kind := keywords.lookup word

/-- The spelling of a keyword; other kinds have none. -/
def keywordText? (kind : Kind) : Option String := (keywords.find? (·.2 == kind)).map (·.1)

/-- Blanks, line ends and comments. -/
def isTrivia (kind : Kind) : Bool := kind.code < 10

/-- Comments of every flavour. -/
def isComment : Kind → Bool
  | lineComment | blockComment | docLineComment | docBlockComment => true
  | _ => false

/-- Documentation comments. -/
def isDocComment : Kind → Bool
  | docLineComment | docBlockComment => true
  | _ => false

/-- Blanks and line ends: the trivia that only lay out the text. -/
def isLayout : Kind → Bool
  | whitespace | newline => true
  | _ => false

/-- Keywords. -/
def isKeyword (kind : Kind) : Bool := 10 ≤ kind.code && kind.code < 100

/-- Keywords that modify a declaration. -/
def isModifier : Kind → Bool
  | publicKw | privateKw | protectedKw | internalKw | staticKw | sealedKw | abstractKw
  | readonlyKw => true
  | _ => false

/-- The two keywords that introduce a type declaration. -/
def isTypeKeyword : Kind → Bool
  | classKw | structKw => true
  | _ => false

/-- Kinds of structural nodes, as opposed to tokens. -/
def isNode (kind : Kind) : Bool := (200 ≤ kind.code && kind.code < 400) || kind == error

/-- Statements. -/
def isStatement : Kind → Bool
  | block | tryStatement | throwStatement | returnStatement | expressionStatement => true
  | _ => false

/-- Member declarations of a class body. -/
def isMember : Kind → Bool
  | constructorDeclaration | methodDeclaration | fieldDeclaration | propertyDeclaration
  | classDeclaration => true
  | _ => false

/-- A word is read as a keyword exactly if it is the spelling of that keyword. -/
theorem ofKeyword?_eq_some_iff {word : String} {kind : Kind} :
    ofKeyword? word = some kind ↔ keywordText? kind = some word := by
  constructor
  · intro h
    unfold ofKeyword? keywords at h
    simp only [List.lookup_cons] at h
    repeat' split at h
    all_goals simp_all
    all_goals subst h; rfl
  · intro h
    cases kind <;> simp_all [keywordText?, keywords] <;> subst h <;> rfl

end Kind

end TreeLint
