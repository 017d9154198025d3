import TreeLint.Grammar.Expression

/-!
# Statements and members

Statements and member declarations contain each other: a class can stand among statements, and a
method has a block of statements. As with expressions, each production is written over a pair of
parsers for the inner occurrences and closed at the end.

## Main definitions

* `TreeLint.Grammar.Inner` — the parsers for inner statements and members.
* `TreeLint.Grammar.block`, `TreeLint.Grammar.tryStatement`, `TreeLint.Grammar.catchClause` — the
  productions around exception handling.
* `TreeLint.Grammar.statement`, `TreeLint.Grammar.member` — a statement and a member declaration.
-/

namespace TreeLint.Grammar

/-- The parsers for the statements and members inside a production. -/
structure Inner where
  /-- A statement. -/
  statement : Parser
  /-- A member declaration. -/
  member : Parser

/-! ## Blocks and exception handling -/

/-- A block of statements between braces. -/
def block (inner : Inner) : Parser :=
  node .block (bump ++ closedBy .rBrace inner.statement)

/-- A block, if an opening brace is ahead. -/
def optionalBlock (inner : Inner) : Parser := when (at_ .lBrace) (block inner)

/-- The declaration of a handler: a type and a name in parentheses, each of which may be absent. -/
def catchDeclaration : Parser :=
  node .catchDeclaration (bump ++ when atTypeStart typeRef ++ eat .ident ++ eat .rParen)

/-- The filter of a handler: `when` and a parenthesised condition. -/
def catchFilter : Parser :=
  node .catchFilter (bump ++ when (at_ .lParen) (bump ++ expression ++ eat .rParen))

/-- A handler: `catch`, a declaration, a filter and a block, of which all but the first may be
absent. -/
def catchClause (inner : Inner) : Parser :=
  node .catchClause
    (bump
      ++ when (at_ .lParen) catchDeclaration
      ++ when (at_ .whenKw) catchFilter
      ++ optionalBlock inner)

/-- The clause that runs in any case. -/
def finallyClause (inner : Inner) : Parser :=
  node .finallyClause (bump ++ optionalBlock inner)

/-- A guarded block with its handlers. -/
def tryStatement (inner : Inner) : Parser :=
  node .tryStatement
    (bump
      ++ optionalBlock inner
      ++ repeatWhile (at_ .catchKw) (catchClause inner)
      ++ when (at_ .finallyKw) (finallyClause inner))

/-! ## Other statements -/

/-- A keyword, an optional expression and a semicolon. -/
def keywordStatement (kind : Kind) : Parser :=
  node kind (bump ++ expression ++ eat .semicolon)

/-- An expression and a semicolon. A token that can start no expression stands for itself. -/
def expressionStatement : Parser :=
  node .expressionStatement (choose (atExpressionEnd 0) bump expression ++ eat .semicolon)

/-! ## Members -/

/-- Attribute lists, kept as plain tokens, and modifiers. -/
def memberPrefix : Parser :=
  repeatWhile (at_ .lBracket) (balanced .lBracket .rBracket)
    ++ repeatWhile (fun ts => (peek ts).any Kind.isModifier) bump

/-- The parameters of a generic declaration between angle brackets. -/
def typeParameterList : Parser :=
  node .typeParameterList
    (bump ++ loop (fun isOpen ts =>
      match isOpen, peek ts with
      | false, _ => none
      | true, none | true, some .lBrace => none
      | true, some .gt => some (bump, false)
      | true, some _ => some (bump, true)) true)

/-- The bases of a class behind a colon, separated by commas. -/
def baseList : Parser :=
  node .baseList
    (bump ++ repeatWhile (fun ts => atTypeStart ts || at_ .comma ts)
      (choose atTypeStart typeRef bump))

/-- A body between braces, or a semicolon in its place. -/
def braced (p : Parser) : Parser :=
  choose (at_ .lBrace) (bump ++ closedBy .rBrace p) (eat .semicolon)

/-- A class from its keyword on: name, type parameters, bases, constraints and body. -/
def classRest (inner : Inner) : Parser :=
  bump
    ++ eat .ident
    ++ when (at_ .lt) typeParameterList
    ++ when (at_ .colon) baseList
    ++ repeatWhile (fun ts => (peek ts).isSome && !atAny [.lBrace, .rBrace, .semicolon] ts) bump
    ++ braced inner.member

/-- The body of a member: a block, an expression behind an arrow, or a semicolon. -/
def memberBody (inner : Inner) : Parser := fun ts =>
  match peek ts with
  | some .lBrace => block inner ts
  | some .fatArrow => (bump ++ expression ++ eat .semicolon) ts
  | some .semicolon => bump ts
  | _ => skip ts

/-- A constructor from its name on. -/
def constructorRest (inner : Inner) : Parser :=
  bump
    ++ parameterList
    ++ when (at_ .colon)
      (bump ++ when (atAny [.baseKw, .thisKw]) bump ++ when (at_ .lParen) argumentList)
    ++ memberBody inner

/-- What follows the name of a method. -/
def methodRest (inner : Inner) : Parser :=
  when (at_ .lt) typeParameterList
    ++ parameterList
    ++ repeatWhile
      (fun ts => (peek ts).isSome && !atAny [.lBrace, .rBrace, .fatArrow, .semicolon] ts) bump
    ++ memberBody inner

/-- What follows the name of a property with accessors, which are kept as plain tokens. -/
def accessorsRest : Parser :=
  balanced .lBrace .rBrace
    ++ when (at_ .equals) (bump ++ expression ++ eat .semicolon)

/-- An initial value, if one is ahead. -/
def initializer : Parser := when (at_ .equals) (bump ++ expression)

/-- What follows the first name of a field: an initial value, further names, and a semicolon. -/
def fieldRest : Parser :=
  initializer ++ repeatWhile (at_ .comma) (bump ++ eat .ident ++ initializer) ++ eat .semicolon

/-- A method, a property or a field from its type on: the kind of node and the parser of what
follows the name, by the token behind the name. -/
def typedMember (inner : Inner) (afterName : List Token) : Kind × Parser :=
  match peek afterName with
  | some .lParen | some .lt => (.methodDeclaration, methodRest inner)
  | some .lBrace => (.propertyDeclaration, accessorsRest)
  | some .fatArrow => (.propertyDeclaration, memberBody inner)
  | _ => (.fieldDeclaration, fieldRest)

/-- A member declaration that starts at the next token, with its attributes and modifiers, which
belong to its node. Attributes and modifiers that no declaration follows stay plain tokens, and so
does a token that starts no member. -/
def declarationOver (inner : Inner) : Parser := fun ts =>
  let rest := (memberPrefix ts).2
  let other := choose (fun ts => (memberPrefix ts).1.isEmpty) bump memberPrefix
  match peek rest with
  | none => other ts
  | some k =>
    if k.isTypeKeyword then
      wrap .classDeclaration (memberPrefix ++ classRest inner) ts
    else if k = .ident ∧ peekSecond rest = some .lParen then
      wrap .constructorDeclaration (memberPrefix ++ constructorRest inner) ts
    else if isTypeStart k then
      let name := typeRef ++ eat .ident
      let (kind, tail) := typedMember inner (name rest).2
      wrap kind (memberPrefix ++ name ++ tail) ts
    else other ts

/-- A member declaration. The trivia in front of it stay outside of its node. -/
def memberOver (inner : Inner) : Parser := trivia ++ declarationOver inner

/-! ## Closing the recursion -/

/-- A statement. Stray closing brackets, commas and semicolons stay plain tokens. -/
def statementOver (inner : Inner) : Parser := fun ts =>
  match peek ts with
  | none => skip ts
  | some .lBrace => block inner ts
  | some .tryKw => tryStatement inner ts
  | some .throwKw => keywordStatement .throwStatement ts
  | some .returnKw => keywordStatement .returnStatement ts
  | some .semicolon | some .rParen | some .rBracket | some .rBrace | some .comma => bump ts
  | some k =>
    if k.isModifier || k.isTypeKeyword then memberOver inner ts else expressionStatement ts

/-- Statements and members nested at most to a given depth. -/
def innerTo : Nat → Inner
  | 0 => ⟨skip, skip⟩
  | depth + 1 =>
    ⟨fun ts => statementOver (innerTo depth) ts, fun ts => memberOver (innerTo depth) ts⟩

/-- A statement. -/
def statement : Parser := fun ts => (innerTo ts.length).statement ts

/-- A member declaration. -/
def member : Parser := fun ts => (innerTo ts.length).member ts

end TreeLint.Grammar
