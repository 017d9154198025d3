import TreeLint.Grammar.Parser

/-!
# Types and expressions

Types are written `Name.Qualified<Arguments>[]`. An expression is a flat run of tokens up to the
end of the enclosing construct, in which only object creations are nodes of their own.

The productions that can contain themselves are written over a parser for the inner occurrence, and
closed at the end: an inner occurrence starts behind at least one token of the outer one, so the
number of tokens bounds the depth.

## Main definitions

* `TreeLint.Grammar.typeRef` — a type.
* `TreeLint.Grammar.expression` — an expression.
* `TreeLint.Grammar.argumentList` — a parenthesised list of expressions.
-/

namespace TreeLint.Grammar

/-- A type starts with a name or with one of two keywords. -/
def isTypeStart : Kind → Bool
  | .ident | .voidKw | .varKw => true
  | _ => false

/-- The next real token starts a type. -/
def atTypeStart (ts : List Token) : Bool := (peek ts).any isTypeStart

/-! ## Types -/

/-- The arguments of a generic type behind the opening bracket, up to the closing one. Anything that
is neither a type nor a comma ends them. -/
def typeArguments (inner : Parser) : Parser :=
  loop (fun isOpen ts =>
    match isOpen, peek ts with
    | false, _ => none
    | true, some .gt => some (bump, false)
    | true, some .comma => some (bump, true)
    | true, some k => if isTypeStart k then some (inner, true) else none
    | true, none => none) true

/-- A type, over a parser for the types among its arguments. -/
def typeRefOver (inner : Parser) : Parser :=
  node .typeRef
    (bump
      ++ repeatWhile (fun ts => at_ .dot ts && peekSecond ts == some .ident) (bump ++ bump)
      ++ when (at_ .lt) (bump ++ typeArguments inner)
      ++ repeatWhile (fun ts => at_ .lBracket ts && peekSecond ts == some .rBracket) (bump ++ bump)
      ++ when (atText "?") bump)

/-- Types nested at most to a given depth. -/
def typeRefTo : Nat → Parser
  | 0 => skip
  | depth + 1 => fun ts => typeRefOver (typeRefTo depth) ts

/-- A type. -/
def typeRef : Parser := fun ts => typeRefTo ts.length ts

/-- A parenthesised list of parameters, kept as plain tokens. -/
def parameterList : Parser :=
  when (at_ .lParen) (node .parameterList (balanced .lParen .rParen))

/-! ## Expressions -/

/-- The tokens ahead end an expression inside `depth` open brackets: the end of the input, a
semicolon and braces always do, commas and closing brackets only outside all brackets. -/
def atExpressionEnd (depth : Nat) (ts : List Token) : Bool :=
  match peek ts with
  | none => true
  | some .semicolon | some .lBrace | some .rBrace => true
  | some .comma | some .rParen | some .rBracket => depth == 0
  | some _ => false

/-- A parenthesised list of expressions. It ends with its bracket, or before a token that cannot
stand in a list. -/
def argumentListOver (inner : Parser) : Parser :=
  node .argumentList
    (bump ++ loop (fun isOpen ts =>
      match isOpen, peek ts with
      | false, _ => none
      | true, none | true, some .lBrace | true, some .rBrace | true, some .semicolon => none
      | true, some .rParen => some (bump, false)
      | true, some .comma => some (bump, true)
      | true, some _ => some (choose (atExpressionEnd 0) bump inner, true)) true)

/-- An object creation: `new`, a type, arguments and an initializer, of which each may be absent. -/
def objectCreationOver (inner : Parser) : Parser :=
  node .objectCreationExpression
    (bump
      ++ when atTypeStart typeRef
      ++ when (at_ .lParen) (argumentListOver inner)
      ++ when (at_ .lBrace) (balanced .lBrace .rBrace))

/-- An expression, over a parser for the expressions among the arguments of its object creations.
It is absent if the tokens ahead end an expression. -/
def expressionOver (inner : Parser) : Parser :=
  choose (atExpressionEnd 0) skip
    (node .expression (loop (fun depth ts =>
      if atExpressionEnd depth ts then none
      else match peek ts with
        | some .newKw => some (objectCreationOver inner, depth)
        | some .lParen | some .lBracket => some (bump, depth + 1)
        -- outside all brackets this would end the expression, so the depth is positive
        | some .rParen | some .rBracket => some (bump, depth - 1)
        | _ => some (bump, depth)) 0))

/-- Expressions nested at most to a given depth. -/
def expressionTo : Nat → Parser
  | 0 => skip
  | depth + 1 => fun ts => expressionOver (expressionTo depth) ts

/-- An expression, if one is ahead. -/
def expression : Parser := fun ts => expressionTo ts.length ts

/-- A parenthesised list of expressions. -/
def argumentList : Parser := argumentListOver expression

end TreeLint.Grammar
