import TreeLint.Error
import TreeLint.Regex.Match
import TreeLint.Regex.Reader

/-!
# Comment patterns

The pattern of a rule about comments: a regular expression that is tested against the whole text of
a comment, its delimiters included.

## Main definitions

* `TreeLint.CommentPattern` — a regular expression with the text that writes it.
* `TreeLint.CommentPattern.compile` — the pattern that a text writes.

## Main results

* `TreeLint.CommentPattern.eq_of_source_eq` — a pattern is determined by its text.
-/

namespace TreeLint

/-- A regular expression with the text that writes it. -/
structure CommentPattern where
  /-- The text. -/
  source : String
  /-- The expression. -/
  regex : Regex
  /-- The text writes the expression. -/
  read_source : Regex.read? source = some regex

namespace CommentPattern

/-- The pattern that a text writes, on behalf of a rule. -/
def compile (ruleId source : String) : Except Error CommentPattern :=
  match h : Regex.read? source with
  | some regex => .ok ⟨source, regex, h⟩
  | none => .error (.invalidPattern ruleId "no regular expression")

/-- The pattern occurs in a text. -/
def occursIn (p : CommentPattern) (text : String) : Bool := p.regex.occursIn text

/-- Patterns with the same text are equal. -/
theorem eq_of_source_eq {p q : CommentPattern} (h : p.source = q.source) : p = q := by
  obtain ⟨s, r, hr⟩ := p
  obtain ⟨t, u, hu⟩ := q
  subst h
  cases hr.symm.trans hu
  rfl

instance : DecidableEq CommentPattern := fun p q =>
  if h : p.source = q.source then isTrue (eq_of_source_eq h)
  else isFalse fun heq => h (heq ▸ rfl)

end CommentPattern

end TreeLint
