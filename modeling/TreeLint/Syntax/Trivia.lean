import TreeLint.Syntax.Cursor

/-!
# Trivia

Blanks, line ends and comments stand between the nodes and tokens that they separate. This module
classifies them, reads the content of comments, and decides which trivia belong to a node: a node
owns what follows it up to and including the first line end, and what precedes it from behind the
part that the previous sibling owns.

## Main definitions

* `TreeLint.TriviaKind` — the classes of trivia.
* `TreeLint.Trivia` — a trivia token with its class and range.
* `TreeLint.Trivia.content?` — the content of a comment without its delimiters.
* `TreeLint.Node.trivia`, `TreeLint.Node.comments` — the trivia and the comments of a tree.
* `TreeLint.Cursor.leadingTrivia`, `TreeLint.Cursor.trailingTrivia`,
  `TreeLint.Cursor.rangeWithTrivia` — the trivia that a node owns, and its range with them.
-/

namespace TreeLint

/-- The classes of trivia. -/
inductive TriviaKind where
  /-- Blanks. -/
  | whitespace
  /-- A line end. -/
  | newline
  /-- A comment to the end of the line. -/
  | lineComment
  /-- A comment between delimiters. -/
  | blockComment
  /-- A documentation comment of either form. -/
  | docComment
deriving DecidableEq, Repr

/-- The class of a kind of trivia; other kinds have none. -/
def Kind.triviaKind? : Kind → Option TriviaKind
  | .whitespace => some .whitespace
  | .newline => some .newline
  | .lineComment => some .lineComment
  | .blockComment => some .blockComment
  | .docLineComment | .docBlockComment => some .docComment
  | _ => none

namespace TriviaKind

/-- The name of a class of trivia. -/
def name : TriviaKind → String
  | whitespace => "Whitespace"
  | newline => "Newline"
  | lineComment => "LineComment"
  | blockComment => "BlockComment"
  | docComment => "DocComment"

/-- Comments of every flavour. -/
def isComment : TriviaKind → Bool
  | lineComment | blockComment | docComment => true
  | whitespace | newline => false

end TriviaKind

/-- A trivia token lifted out of a tree. -/
structure Trivia where
  /-- The class of the token. -/
  kind : TriviaKind
  /-- The text of the token, delimiters included. -/
  text : String
  /-- Where the token stands. -/
  range : Range
deriving DecidableEq

namespace Trivia

/-- The trivia that a token is, if it is one. -/
def ofToken? (t : Placed Token) : Option Trivia :=
  t.item.kind.triviaKind?.map (⟨·, t.item.text, t.range⟩)

/-! ## The content of a comment -/

/-- Drops a two-character opening delimiter from the front as often as it stands there. -/
def dropOpening : List Char → List Char
  | '/' :: '*' :: cs => dropOpening cs
  | cs => cs

/-- Drops a two-character closing delimiter from the end of a reversed text as often as it stands
there. -/
def dropClosing : List Char → List Char
  | '/' :: '*' :: cs => dropClosing cs
  | cs => cs

/-- The content of a comment that starts with slashes: what follows them, trimmed. -/
def slashContent (text : List Char) : List Char := Unicode.trim (text.dropWhile (· == '/'))

/-- The content of a comment between delimiters: what lies between them and the stars at its
beginning, trimmed. -/
def delimitedContent (text : List Char) : List Char :=
  let inner := (dropOpening text).dropWhile (· == '*')
  Unicode.trim (dropClosing inner.reverse).reverse

/-- The content of a comment without its delimiters. Trivia that are no comments have none, and
neither has a line comment that does not start with two slashes. -/
def content? (t : Trivia) : Option String :=
  let text := t.text.toList
  let slashes := text.take 2 = ['/', '/']
  match t.kind with
  | .lineComment => if slashes then some (.ofList (slashContent text)) else none
  | .docComment => some (.ofList (if slashes then slashContent text else delimitedContent text))
  | .blockComment => some (.ofList (delimitedContent text))
  | .whitespace | .newline => none

end Trivia

/-! ## The trivia of a tree -/

mutual
/-- The tokens of an element with their offsets, in order. -/
def Element.placedLeaves (start : Nat) : Element → List (Placed Token)
  | .token t => [⟨t, start⟩]
  | .node _ cs => Element.placedLeavesList start cs
/-- The tokens of a list of elements with their offsets, in order. -/
def Element.placedLeavesList (start : Nat) : List Element → List (Placed Token)
  | [] => []
  | e :: es => e.placedLeaves start ++ Element.placedLeavesList (start + e.length) es
end

/-- The tokens of consecutive elements are those of the elements one by one. -/
theorem Element.placedLeavesList_eq_flatMap (start : Nat) (es : List Element) :
    Element.placedLeavesList start es =
      (Element.place start es).flatMap fun p => p.item.placedLeaves p.start := by
  induction es generalizing start with
  | nil => rfl
  | cons e es ih => rw [Element.placedLeavesList, Element.place, List.flatMap_cons, ih]

/-- The trivia of an element that starts at an offset, in order. -/
def Element.trivia (start : Nat) (e : Element) : List Trivia :=
  (e.placedLeaves start).filterMap Trivia.ofToken?

/-- The comments of an element that starts at an offset, in order. -/
def Element.comments (start : Nat) (e : Element) : List Trivia :=
  (e.trivia start).filter (·.kind.isComment)

/-- The trivia of a tree in the order of the text. -/
def Node.trivia (root : Node) : List Trivia := root.toElement.trivia 0

/-- The comments of a tree in the order of the text. -/
def Node.comments (root : Node) : List Trivia := root.toElement.comments 0

/-! ## Ownership -/

/-- The tokens at the start of a list of elements, up to the first that is not trivia. -/
def Element.triviaRun (es : List Element) : List Token :=
  (es.takeWhile Element.isTrivia).filterMap Element.token?

/-- The tokens up to and including the first line end. -/
def throughNewline : List Token → List Token
  | [] => []
  | t :: ts => if t.kind = .newline then [t] else t :: throughNewline ts

/-- The tokens behind the first line end; none if there is no line end. -/
def behindNewline : List Token → List Token
  | [] => []
  | t :: ts => if t.kind = .newline then ts else behindNewline ts

namespace Cursor

/-- The trivia before a node that belong to it. If something other than trivia precedes them, the
part up to and including the first line end belongs to that instead. -/
def leadingTrivia (c : Cursor) : List Token :=
  let run := (Element.triviaRun c.before).reverse
  if c.before.all Element.isTrivia then run else behindNewline run

/-- The trivia behind a node that belong to it: those up to and including the first line end. -/
def trailingTrivia (c : Cursor) : List Token := throughNewline (Element.triviaRun c.after)

/-- The range of a node with the trivia that belong to it. -/
def rangeWithTrivia (c : Cursor) : Range where
  start := c.range.start - total (c.leadingTrivia.map Token.length)
  stop := c.range.stop + total (c.trailingTrivia.map Token.length)
  start_le_stop := by have := c.range.start_le_stop; omega

end Cursor

end TreeLint
