import TreeLint.Syntax.Kind
import TreeLint.Unicode.Letter

/-!
# Tokens and their recognition

A source text is cut into tokens without losing a character: blanks, line ends and comments are
tokens like all others. Cutting looks at the first character of what is left, chooses the kind of
token that starts there, and counts how many of the following characters belong to it.

## Main definitions

* `TreeLint.Token` — a kind and the text of a token.
* `TreeLint.Token.extent` — the kind of the token that starts with a given character, and how many
  of the characters behind it belong to it.
* `TreeLint.Token.scan`, `TreeLint.lex` — the tokens of a list of characters and of a text.

## Main results

* `TreeLint.flatMap_scan` — the texts of the tokens concatenate to the characters scanned.
* `TreeLint.join_lex` — the same for a text.
-/

namespace TreeLint

/-- A token: its kind and its text. -/
structure Token where
  /-- The kind of the token. -/
  kind : Kind
  /-- The characters of the token. -/
  text : String
deriving DecidableEq, Repr

namespace Token

/-- The number of bytes of the token's text. -/
def length (t : Token) : Nat := t.text.utf8ByteSize

/-! ## Character classes of the lexer -/

/-- The two characters that can end a line. -/
def isLineEnd (c : Char) : Bool := c == '\n' || c == '\r'

/-- A name starts with a letter, an underscore or an at sign. -/
def isNameStart (c : Char) : Bool := Unicode.isAlphabetic c || c == '_' || c == '@'

/-- A name goes on with letters, numbers and underscores. -/
def isNamePart (c : Char) : Bool := Unicode.isAlphanumeric c || c == '_'

/-- A number goes on with ASCII letters and digits, points and underscores. -/
def isNumberPart (c : Char) : Bool := c.isAlphanum || c == '.' || c == '_'

/-- The characters that continue a run of operator characters. A slash may start a run but never
continues one, so that a comment behind an operator stays a comment. -/
def isOperatorPart (c : Char) : Bool := "+-*%&|^!~?=<>:$".toList.contains c

/-! ## Extents of the tokens with a body -/

/-- How many characters are left of a quoted literal whose opening quote has been read. A backslash
takes the next character with it; the literal ends with the quote, with the line, or with the
text. -/
def quotedExtent (quote : Char) : List Char → Nat
  | [] => 0
  | '\\' :: _ :: cs => 2 + quotedExtent quote cs
  | c :: cs => if c = quote ∨ c = '\n' then 1 else 1 + quotedExtent quote cs

/-- How many characters are left of a verbatim string whose opening quote has been read. A doubled
quote stands for one quote and does not end the string. -/
def verbatimExtent : List Char → Nat
  | [] => 0
  | '"' :: '"' :: cs => 2 + verbatimExtent cs
  | c :: cs => if c = '"' then 1 else 1 + verbatimExtent cs

/-- How many characters are left of a block comment whose opening delimiter has been read. -/
def commentExtent : List Char → Nat
  | [] => 0
  | '*' :: '/' :: _ => 2
  | _ :: cs => 1 + commentExtent cs

/-- The length of the longest run of characters of one class at the start. -/
def runLength (p : Char → Bool) (cs : List Char) : Nat := (cs.takeWhile p).length

/-- The kind of a word: a keyword if it is spelled like one, and a name otherwise. -/
def wordKind (word : List Char) : Kind := (Kind.ofKeyword? (String.ofList word)).getD .ident

/-- The kind of the token that starts with `c`, and how many of the characters `rest` behind it
belong to the same token. -/
def extent (c : Char) (rest : List Char) : Kind × Nat :=
  if c = '\n' then (.newline, 0)
  else if c = '\r' then (.newline, if rest.head? = some '\n' then 1 else 0)
  else if Unicode.isBlank c then
    (.whitespace, runLength (fun d => Unicode.isBlank d && !isLineEnd d) rest)
  else if c = '/' ∧ rest.head? = some '/' then
    let isDoc := rest.take 2 = ['/', '/'] ∧ rest.take 3 ≠ ['/', '/', '/']
    (if isDoc then .docLineComment else .lineComment, runLength (fun d => !isLineEnd d) rest)
  else if c = '/' ∧ rest.head? = some '*' then
    let isDoc := rest.take 2 = ['*', '*'] ∧ rest.take 3 ≠ ['*', '*', '/']
    (if isDoc then .docBlockComment else .blockComment, 1 + commentExtent (rest.drop 1))
  else if c = '"' ∨ c = '\'' then (.stringLiteral, quotedExtent c rest)
  else if c = '@' ∧ rest.head? = some '"' then
    (.stringLiteral, 1 + verbatimExtent (rest.drop 1))
  else if isNameStart c then
    let n := runLength isNamePart rest
    (wordKind (c :: rest.take n), n)
  else if c.isDigit then (.numberLiteral, runLength isNumberPart rest)
  else if c = '{' then (.lBrace, 0)
  else if c = '}' then (.rBrace, 0)
  else if c = '(' then (.lParen, 0)
  else if c = ')' then (.rParen, 0)
  else if c = '[' then (.lBracket, 0)
  else if c = ']' then (.rBracket, 0)
  else if c = ';' then (.semicolon, 0)
  else if c = ',' then (.comma, 0)
  else if c = '.' then (.dot, 0)
  else if c = ':' ∧ rest.head? ≠ some ':' then (.colon, 0)
  else if c = '=' ∧ rest.head? = some '>' then (.fatArrow, 1)
  else if c = '=' ∧ rest.head? ≠ some '=' then (.equals, 0)
  else if c = '<' ∧ rest.head? ≠ some '=' ∧ rest.head? ≠ some '<' then (.lt, 0)
  else if c = '>' ∧ rest.head? ≠ some '=' then (.gt, 0)
  else if isOperatorPart c ∨ c = '/' then (.operator, runLength isOperatorPart rest)
  else (.error, 0)

/-- The tokens of a list of characters. -/
def scan : List Char → List Token
  | [] => []
  | c :: rest =>
    let (kind, n) := extent c rest
    ⟨kind, String.ofList (c :: rest.take n)⟩ :: scan (rest.drop n)
termination_by cs => cs.length
decreasing_by simp only [List.length_drop, List.length_cons]; omega

end Token

/-- The tokens of a source text, trivia included. -/
def lex (source : String) : List Token := Token.scan source.toList

/-- The characters of the tokens are the characters scanned, in order. -/
theorem flatMap_scan (cs : List Char) :
    (Token.scan cs).flatMap (fun t => t.text.toList) = cs := by
  fun_induction Token.scan cs with
  | case1 => rfl
  | case2 c rest kind n h ih => simp [ih]

/-- The texts of the tokens of a source text concatenate to the text. -/
theorem join_lex (source : String) :
    (lex source).flatMap (fun t => t.text.toList) = source.toList := flatMap_scan _

end TreeLint
