import TreeLint.Grammar.Statement

/-!
# Compilation units

A compilation unit is a sequence of items: directives, namespaces, declarations and statements.
Every text is a compilation unit; what fits no production is kept as plain tokens.

## Main definitions

* `TreeLint.Grammar.item` — one item.
* `TreeLint.parse` — the tree of a source text.
-/

namespace TreeLint

namespace Grammar

/-- A directive that imports names, up to its semicolon or up to a brace. -/
def usingDirective : Parser :=
  node .usingDirective
    (bump
      ++ repeatWhile (fun ts => (peek ts).isSome && !atAny [.semicolon, .lBrace, .rBrace] ts) bump
      ++ eat .semicolon)

/-- A namespace with its items between braces, or with a semicolon in their place. -/
def namespaceOver (inner : Parser) : Parser :=
  node .namespaceDeclaration
    (bump ++ repeatWhile (atAny [.ident, .dot]) bump ++ braced inner)

/-- An item, over a parser for the items inside namespaces. -/
def itemOver (inner : Parser) : Parser := fun ts =>
  match peek ts with
  | some .usingKw => usingDirective ts
  | some .namespaceKw => namespaceOver inner ts
  | some k =>
    if k.isModifier || k.isTypeKeyword || k == .lBracket then member ts else statement ts
  | none => skip ts

/-- Items nested at most to a given depth. -/
def itemTo : Nat → Parser
  | 0 => skip
  | depth + 1 => fun ts => itemOver (itemTo depth) ts

/-- An item. -/
def item : Parser := fun ts => itemTo ts.length ts

/-- The items up to the end of the input, and the trivia behind the last of them. -/
def items : Parser := repeatWhile (fun ts => (peek ts).isSome) item ++ trivia

end Grammar

/-- The tree of a list of tokens. -/
def parseTokens (ts : List Token) : Node := ⟨.compilationUnit, (Grammar.items ts).1⟩

/-- The tree of a source text. -/
def parse (source : String) : Node := parseTokens (lex source)

end TreeLint
