import TreeLint.Grammar.Unit
import TreeLint.Syntax.Builder

/-!
# The recogniser as procedures over a builder

The productions of the grammar answer elements. The same recogniser can be read as procedures that
walk over the tokens and give requests to a builder: they call each other without a bound, repeat
their rounds without a bound, and ask for nodes to be opened and closed. Nothing in this reading says
that a procedure ends, that a loop stops, or that a request can be met: a run is a derivation, and a
run that asks for something impossible ends without a state.

## Main definitions

* `TreeLint.Grammar.Command` — what a procedure consists of.
* `TreeLint.Grammar.Procedure`, `TreeLint.Grammar.Command.body` — the procedures and what they do.
* `TreeLint.Grammar.State` — the tokens left and the tree under construction.
* `TreeLint.Grammar.Exec` — the runs of a command.

As with parsers, two commands in sequence are written `c ++ d`.
-/

namespace TreeLint.Grammar

/-- What a run works on. -/
structure State where
  /-- The tokens that are left. -/
  tokens : List Token
  /-- The tree under construction. -/
  builder : Builder

/-! ## Requests -/

/-- One action on the tokens and the builder. -/
inductive Request where
  /-- Adds the next token, if one is left. -/
  | take
  /-- Opens a node. -/
  | open_ (kind : Kind)
  /-- Opens a node around the elements from a remembered position on. -/
  | openAt (position : Nat) (kind : Kind)
  /-- Closes the innermost open node. -/
  | close

/-- What a request does, if it can be met. -/
def Request.run : Request → State → Option State
  | .take, ⟨[], b⟩ => some ⟨[], b⟩
  | .take, ⟨t :: ts, b⟩ => some ⟨ts, b.token t⟩
  | .open_ kind, ⟨ts, b⟩ => some ⟨ts, b.open_ kind⟩
  | .openAt position kind, ⟨ts, b⟩ => (b.openAt? position kind).map (⟨ts, ·⟩)
  | .close, ⟨ts, b⟩ => b.close?.map (⟨ts, ·⟩)

/-! ## Commands -/

/-- The procedures of the recogniser. Some finish a node that begins at a remembered position. -/
inductive Procedure where
  | compilationUnit
  | item
  | usingDirective
  | namespaceDeclaration
  | member
  | classRest (start : Nat)
  | typeParameterList
  | baseList
  | constructorRest (start : Nat)
  | typedMemberRest (start : Nat)
  | parameterList
  | memberBody
  | typeRef
  | statement
  | block
  | tryStatement
  | catchClause
  | keywordStatement (kind : Kind)
  | expression
  | objectCreation
  | argumentList

/-- What a procedure consists of. -/
inductive Command : Type 1 where
  /-- Does nothing. -/
  | skip
  /-- Makes a request. -/
  | request (r : Request)
  /-- Goes on as the tokens ahead decide. -/
  | look (next : List Token → Command)
  /-- Goes on with the position of the builder in hand. -/
  | mark (next : Nat → Command)
  /-- One command after the other. -/
  | seq (c d : Command)
  /-- Repeats rounds with a state of its own: as long as there is a next state, one more round. -/
  | loop {σ : Type} (next : σ → List Token → Option σ) (round : σ → List Token → Command) (s : σ)
  /-- Runs a procedure. -/
  | call (p : Procedure)

namespace Command

instance : Append Command := ⟨seq⟩

/-- Takes one path or another, as the tokens ahead decide. -/
def branch (test : List Token → Bool) (c d : Command) : Command :=
  look fun ts => if test ts then c else d

/-- Runs a command if the tokens ahead pass a test. -/
def when (test : List Token → Bool) (c : Command) : Command := branch test c skip

/-- Repeats a command while the tokens ahead pass a test. -/
def repeatWhile (test : List Token → Bool) (c : Command) : Command :=
  loop (fun _ ts => if test ts then some () else none) (fun _ _ => c) ()

/-- Takes the trivia in front of the next real token, one by one. -/
def trivia : Command := repeatWhile (fun ts => ts.head?.any (·.kind.isTrivia)) (request .take)

/-- Takes the next real token and the trivia in front of it. -/
def bump : Command := trivia ++ request .take

/-- Takes the next real token if it is of a given kind. -/
def eat (kind : Kind) : Command := when (at_ kind) bump

/-- A node, behind the trivia ahead, around what a command makes. -/
def node (kind : Kind) (c : Command) : Command :=
  trivia ++ (request (.open_ kind) ++ c ++ request .close)

/-- A node around the elements from a remembered position on and what a command makes. -/
def nodeFrom (start : Nat) (kind : Kind) (c : Command) : Command :=
  request (.openAt start kind) ++ c ++ request .close

/-- Repeats a command up to a closing token, which is taken as well, or up to the end of the
input. -/
def closedBy (closing : Kind) (c : Command) : Command :=
  loop
    (fun isOpen ts =>
      match isOpen, peek ts with
      | true, some k => some (k != closing)
      | _, _ => none)
    (fun _ ts => if at_ closing ts then bump else c) true

/-- A body between braces, or a semicolon in its place. -/
def braced (c : Command) : Command :=
  branch (at_ .lBrace) (bump ++ closedBy .rBrace c) (eat .semicolon)

/-- Takes a bracketed run of tokens, nested pairs of the same brackets included. -/
def balanced (opening closing : Kind) : Command :=
  loop
    (fun depth ts =>
      match depth, peek ts with
      | some d, some k =>
        if k = opening then some (some (d + 1))
        else if k = closing then some (if d - 1 = 0 then none else some (d - 1))
        else some (some d)
      | _, _ => none)
    (fun _ _ => bump) (some 0)

/-! ### Parts of procedures -/

/-- The arguments of a generic type behind the opening bracket. -/
def typeArguments : Command :=
  loop
    (fun isOpen ts =>
      match isOpen, peek ts with
      | true, some .gt => some false
      | true, some .comma => some true
      | true, some k => if isTypeStart k then some true else none
      | _, _ => none)
    (fun _ ts => if atTypeStart ts then call .typeRef else bump) true

/-- The arguments of a list behind the opening bracket. -/
def arguments : Command :=
  loop
    (fun isOpen ts =>
      match isOpen, peek ts with
      | false, _ => none
      | true, none | true, some .lBrace | true, some .rBrace | true, some .semicolon => none
      | true, some k => some (k != .rParen))
    (fun _ ts =>
      if at_ .rParen ts || at_ .comma ts then bump
      else branch (atExpressionEnd 0) bump (call .expression)) true

/-- The tokens and object creations of an expression. -/
def expressionParts : Command :=
  loop
    (fun depth ts =>
      if atExpressionEnd depth ts then none
      else match peek ts with
        | some .lParen | some .lBracket => some (depth + 1)
        | some .rParen | some .rBracket => some (depth - 1)
        | _ => some depth)
    (fun _ ts => if at_ .newKw ts then call .objectCreation else bump) 0

/-- A block, if an opening brace is ahead. -/
def optionalBlock : Command := when (at_ .lBrace) (call .block)

/-- The declaration of a handler. -/
def catchDeclaration : Command :=
  node .catchDeclaration
    (bump ++ when atTypeStart (call .typeRef) ++ eat .ident ++ eat .rParen)

/-- The filter of a handler. -/
def catchFilter : Command :=
  node .catchFilter (bump ++ when (at_ .lParen) (bump ++ call .expression ++ eat .rParen))

/-- The clause that runs in any case. -/
def finallyClause : Command := node .finallyClause (bump ++ optionalBlock)

/-- An expression and a semicolon. -/
def expressionStatement : Command :=
  node .expressionStatement (branch (atExpressionEnd 0) bump (call .expression) ++ eat .semicolon)

/-- Attribute lists or modifiers are ahead. -/
def startsPrefix (ts : List Token) : Bool := at_ .lBracket ts || (peek ts).any Kind.isModifier

/-- Attribute lists and modifiers. -/
def memberPrefix : Command :=
  repeatWhile (at_ .lBracket) (balanced .lBracket .rBracket)
    ++ repeatWhile (fun ts => (peek ts).any Kind.isModifier) bump

/-- The type parameters of a declaration behind the opening bracket. -/
def typeParameters : Command :=
  loop
    (fun isOpen ts =>
      match isOpen, peek ts with
      | false, _ | true, none | true, some .lBrace => none
      | true, some k => some (k != .gt))
    (fun _ _ => bump) true

/-- A class from its keyword on. -/
def classRest : Command :=
  bump
    ++ eat .ident
    ++ when (at_ .lt) (call .typeParameterList)
    ++ when (at_ .colon) (call .baseList)
    ++ repeatWhile (fun ts => (peek ts).isSome && !atAny [.lBrace, .rBrace, .semicolon] ts) bump
    ++ braced (call .member)

/-- A constructor from its name on. -/
def constructorRest : Command :=
  bump
    ++ call .parameterList
    ++ when (at_ .colon)
      (bump ++ when (atAny [.baseKw, .thisKw]) bump ++ when (at_ .lParen) (call .argumentList))
    ++ call .memberBody

/-- What follows the name of a method. -/
def methodRest : Command :=
  when (at_ .lt) (call .typeParameterList)
    ++ call .parameterList
    ++ repeatWhile
      (fun ts => (peek ts).isSome && !atAny [.lBrace, .rBrace, .fatArrow, .semicolon] ts) bump
    ++ call .memberBody

/-- What follows the name of a property with accessors. -/
def accessorsRest : Command :=
  balanced .lBrace .rBrace ++ when (at_ .equals) (bump ++ call .expression ++ eat .semicolon)

/-- An initial value, if one is ahead. -/
def initializer : Command := when (at_ .equals) (bump ++ call .expression)

/-- What follows the first name of a field. -/
def fieldRest : Command :=
  initializer ++ repeatWhile (at_ .comma) (bump ++ eat .ident ++ initializer) ++ eat .semicolon

/-- Goes on behind the attributes and modifiers of a member that starts at a remembered position, as the
tokens ahead decide. What starts no member is taken as it is, unless something has been consumed. -/
def memberRest (start : Nat) (consumed : Bool) (ts : List Token) : Command :=
  if (peek ts).any Kind.isTypeKeyword then call (.classRest start)
  else if at_ .ident ts && peekSecond ts == some .lParen then call (.constructorRest start)
  else if atTypeStart ts then call (.typedMemberRest start)
  else if consumed then skip else bump

/-- Goes on behind the type and the name of a member that starts at a remembered position. -/
def typedRest (start : Nat) (ts : List Token) : Command :=
  match peek ts with
  | some .lParen | some .lt => nodeFrom start .methodDeclaration methodRest
  | some .lBrace => nodeFrom start .propertyDeclaration accessorsRest
  | some .fatArrow => nodeFrom start .propertyDeclaration (call .memberBody)
  | _ => nodeFrom start .fieldDeclaration fieldRest

/-! ### The procedures -/

/-- What the procedures do. -/
def body : Procedure → Command
  | .compilationUnit =>
    request (.open_ .compilationUnit)
      ++ (repeatWhile (fun ts => (peek ts).isSome) (call .item) ++ trivia)
      ++ request .close
  | .item => look fun ts =>
    match peek ts with
    | some .usingKw => call .usingDirective
    | some .namespaceKw => call .namespaceDeclaration
    | some k =>
      if k.isModifier || k.isTypeKeyword || k == .lBracket then call .member else call .statement
    | none => call .statement
  | .usingDirective =>
    node .usingDirective
      (bump
        ++ repeatWhile (fun ts => (peek ts).isSome && !atAny [.semicolon, .lBrace, .rBrace] ts) bump
        ++ eat .semicolon)
  | .namespaceDeclaration =>
    node .namespaceDeclaration
      (bump ++ repeatWhile (atAny [.ident, .dot]) bump ++ braced (call .item))
  | .member =>
    trivia ++ look fun ts => mark fun start =>
      memberPrefix ++ look (memberRest start (startsPrefix ts))
  | .classRest start => nodeFrom start .classDeclaration classRest
  | .typeParameterList => node .typeParameterList (bump ++ typeParameters)
  | .baseList =>
    node .baseList
      (bump ++ repeatWhile (fun ts => atTypeStart ts || at_ .comma ts)
        (branch atTypeStart (call .typeRef) bump))
  | .constructorRest start => nodeFrom start .constructorDeclaration constructorRest
  | .typedMemberRest start => (call .typeRef ++ eat .ident) ++ look (typedRest start)
  | .parameterList => when (at_ .lParen) (node .parameterList (balanced .lParen .rParen))
  | .memberBody => look fun ts =>
    match peek ts with
    | some .lBrace => call .block
    | some .fatArrow => bump ++ call .expression ++ eat .semicolon
    | some .semicolon => bump
    | _ => skip
  | .typeRef =>
    node .typeRef
      (bump
        ++ repeatWhile (fun ts => at_ .dot ts && peekSecond ts == some .ident) (bump ++ bump)
        ++ when (at_ .lt) (bump ++ typeArguments)
        ++ repeatWhile (fun ts => at_ .lBracket ts && peekSecond ts == some .rBracket) (bump ++ bump)
        ++ when (atText "?") bump)
  | .statement => look fun ts =>
    match peek ts with
    | some .lBrace => call .block
    | some .tryKw => call .tryStatement
    | some .throwKw => call (.keywordStatement .throwStatement)
    | some .returnKw => call (.keywordStatement .returnStatement)
    | some .semicolon | some .rParen | some .rBracket | some .rBrace | some .comma => bump
    | some k => if k.isModifier || k.isTypeKeyword then call .member else expressionStatement
    | none => skip
  | .block => node .block (bump ++ closedBy .rBrace (call .statement))
  | .tryStatement =>
    node .tryStatement
      (bump
        ++ optionalBlock
        ++ repeatWhile (at_ .catchKw) (call .catchClause)
        ++ when (at_ .finallyKw) finallyClause)
  | .catchClause =>
    node .catchClause
      (bump
        ++ when (at_ .lParen) catchDeclaration
        ++ when (at_ .whenKw) catchFilter
        ++ optionalBlock)
  | .keywordStatement kind => node kind (bump ++ call .expression ++ eat .semicolon)
  | .expression => branch (atExpressionEnd 0) skip (node .expression expressionParts)
  | .objectCreation =>
    node .objectCreationExpression
      (bump
        ++ when atTypeStart (call .typeRef)
        ++ when (at_ .lParen) (call .argumentList)
        ++ when (at_ .lBrace) (balanced .lBrace .rBrace))
  | .argumentList => node .argumentList (bump ++ arguments)

end Command

/-! ## Runs -/

/-- The runs of a command: from a state to the state it ends in, or to none if a request on the way
cannot be met. A command that goes on forever has no run. -/
inductive Exec : Command → State → Option State → Prop where
  /-- Nothing is done. -/
  | skip (s : State) : Exec .skip s (some s)
  /-- A request is met or not. -/
  | request (r : Request) (s : State) : Exec (.request r) s (r.run s)
  /-- The tokens ahead decide. -/
  | look {next : List Token → Command} {s : State} {o : Option State}
      (h : Exec (next s.tokens) s o) : Exec (.look next) s o
  /-- The position is remembered. -/
  | mark {next : Nat → Command} {s : State} {o : Option State}
      (h : Exec (next s.builder.position) s o) : Exec (.mark next) s o
  /-- The first command of a sequence ends, and the second one goes on from there. -/
  | seq {c d : Command} {s s' : State} {o : Option State} (hc : Exec c s (some s'))
      (hd : Exec d s' o) : Exec (.seq c d) s o
  /-- The first command of a sequence fails. -/
  | seqFail {c d : Command} {s : State} (hc : Exec c s none) : Exec (.seq c d) s none
  /-- A loop stops. -/
  | loopStop {σ : Type} {next : σ → List Token → Option σ} {round : σ → List Token → Command} {x : σ}
      {s : State} (h : next x s.tokens = none) : Exec (.loop next round x) s (some s)
  /-- A loop goes on with one more round. -/
  | loopRound {σ : Type} {next : σ → List Token → Option σ} {round : σ → List Token → Command}
      {x y : σ} {s : State} {o : Option State} (h : next x s.tokens = some y)
      (hround : Exec (.seq (round x s.tokens) (.loop next round y)) s o) :
      Exec (.loop next round x) s o
  /-- A procedure does what its body does. -/
  | call {p : Procedure} {s : State} {o : Option State} (h : Exec (.body p) s o) : Exec (.call p) s o

end TreeLint.Grammar
