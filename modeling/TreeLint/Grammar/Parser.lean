import TreeLint.Syntax.Tree

/-!
# Parsers that lose nothing

A parser takes tokens from the front of a list and answers the elements that it made of them,
together with the tokens that are left. Trivia are taken lazily: a trivia token is taken only
together with the next real token, and it goes to the node that is open when that token is
reached. Hence a node never begins or ends with trivia.

Loops run at most as often as there are tokens, which is enough because every round takes one.

## Main definitions

* `TreeLint.Grammar.Parser` — tokens to elements and remaining tokens.
* `TreeLint.Grammar.peek`, `TreeLint.Grammar.peekSecond` — the kinds of the next two real tokens.
* `TreeLint.Grammar.bump`, `TreeLint.Grammar.eat` — take the next real token.
* `TreeLint.Grammar.node`, `TreeLint.Grammar.wrap` — make a node of what another parser takes.
* `TreeLint.Grammar.loop`, `TreeLint.Grammar.repeatWhile` — repetition.
* `TreeLint.Grammar.balanced` — a bracketed run of tokens.

Two parsers in sequence are written `p ++ q`.
-/

namespace TreeLint.Grammar

/-- A parser takes tokens from the front of a list and answers the elements made of them and the
tokens left. -/
def Parser := List Token → List Element × List Token

/-- The parser that takes nothing. -/
def skip : Parser := fun ts => ([], ts)

/-- One parser after the other. -/
def Parser.andThen (p q : Parser) : Parser := fun ts =>
  let (es, ts) := p ts
  let (fs, ts) := q ts
  (es ++ fs, ts)

instance : Append Parser := ⟨Parser.andThen⟩

/-! ## Looking ahead -/

/-- The next token that is not trivia. -/
def peekToken? (ts : List Token) : Option Token := ts.find? fun t => !t.kind.isTrivia

/-- The kind of the next token that is not trivia. -/
def peek (ts : List Token) : Option Kind := (peekToken? ts).map Token.kind

/-- The kind of the second token from here that is not trivia. -/
def peekSecond (ts : List Token) : Option Kind :=
  ((ts.filter fun t => !t.kind.isTrivia)[1]?).map Token.kind

/-- The next real token is of a given kind. -/
def at_ (kind : Kind) (ts : List Token) : Bool := peek ts == some kind

/-- The next real token is of one of the given kinds. -/
def atAny (kinds : List Kind) (ts : List Token) : Bool := (peek ts).any kinds.contains

/-- The next real token has a given text. -/
def atText (text : String) (ts : List Token) : Bool := (peekToken? ts).any (·.text == text)

/-! ## Taking tokens -/

/-- Takes the trivia in front of the next real token. -/
def trivia : Parser := fun ts =>
  ((ts.takeWhile (·.kind.isTrivia)).map .token, ts.dropWhile (·.kind.isTrivia))

/-- Takes one token as it is. -/
def one : Parser
  | [] => ([], [])
  | t :: ts => ([.token t], ts)

/-- Takes the next real token and the trivia in front of it. -/
def bump : Parser := trivia ++ one

/-- Takes one path or another, as the tokens ahead decide. -/
def choose (test : List Token → Bool) (p q : Parser) : Parser := fun ts =>
  if test ts then p ts else q ts

/-- Runs a parser if the tokens ahead pass a test, and takes nothing otherwise. -/
def when (test : List Token → Bool) (p : Parser) : Parser := choose test p skip

/-- Takes the next real token if it is of a given kind. -/
def eat (kind : Kind) : Parser := when (at_ kind) bump

/-! ## Nodes -/

/-- Makes a node of everything that a parser takes. -/
def wrap (kind : Kind) (p : Parser) : Parser := fun ts =>
  let (es, ts) := p ts
  ([.node kind es], ts)

/-- Leaves the trivia ahead to the enclosing node, and makes a node of what the parser takes
behind them. -/
def node (kind : Kind) (p : Parser) : Parser := trivia ++ wrap kind p

/-! ## Repetition -/

/-- At most `rounds` rounds of a loop. In each round the state and the tokens ahead decide whether
the loop goes on, and with which parser and which state. -/
def loopFor {σ : Type} (step : σ → List Token → Option (Parser × σ)) : Nat → σ → Parser
  | 0, _ => skip
  | rounds + 1, s => fun ts =>
    match step s ts with
    | none => ([], ts)
    | some (p, s') => (p ++ loopFor step rounds s') ts

/-- A loop with a state, for as long as its step wants to go on. -/
def loop {σ : Type} (step : σ → List Token → Option (Parser × σ)) (s : σ) : Parser := fun ts =>
  loopFor step ts.length s ts

/-- Repeats a parser while the tokens ahead pass a test. -/
def repeatWhile (test : List Token → Bool) (p : Parser) : Parser :=
  loop (fun (_ : Unit) ts => if test ts then some (p, ()) else none) ()

/-- Repeats a parser up to a closing token, which is taken as well, or up to the end of the
input. -/
def closedBy (closing : Kind) (p : Parser) : Parser :=
  loop (fun isOpen ts =>
    match isOpen, peek ts with
    | false, _ => none
    | true, none => none
    | true, some k => if k = closing then some (bump, false) else some (p, true)) true

/-- Takes a bracketed run of tokens, nested pairs of the same brackets included. A closing bracket
with no partner ends the run at once; without any closing bracket the run goes to the end of the
input. -/
def balanced (opening closing : Kind) : Parser :=
  loop (fun depth ts =>
    match depth, peek ts with
    | none, _ => none
    | some _, none => none
    | some d, some k =>
      if k = opening then some (bump, some (d + 1))
      -- at depth zero no bracket has been opened yet
      else if k = closing then some (bump, if d ≤ 1 then none else some (d - 1))
      else some (bump, some d)) (some 0)

end TreeLint.Grammar
