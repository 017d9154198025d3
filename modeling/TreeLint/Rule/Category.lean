/-!
# Rule categories

Rules are organised by what they look for. Beside four categories with fixed slugs, any other slug
names a category of its own.

## Main definitions

* `TreeLint.RuleCategory` — the categories.
* `TreeLint.RuleCategory.slug`, `TreeLint.RuleCategory.ofSlug` — the written form and its reading.

## Main results

* `TreeLint.RuleCategory.slug_ofSlug` — every slug but one is kept: there is a second spelling of
  one category.
-/

namespace TreeLint

/-- What a rule looks for. -/
inductive RuleCategory where
  /-- Code that is likely wrong. -/
  | correctness
  /-- Code that does nothing useful. -/
  | redundancy
  /-- Matters of design, such as types that can never be used. -/
  | design
  /-- Style and conventions. -/
  | style
  /-- A category of its own. -/
  | custom (slug : String)
deriving DecidableEq, Repr

namespace RuleCategory

/-- The written form of a category. -/
def slug : RuleCategory → String
  | correctness => "correctness"
  | redundancy => "redundancy"
  | design => "design"
  | style => "style"
  | custom slug => slug

/-- The category that a slug names. -/
def ofSlug (slug : String) : RuleCategory :=
  if slug = "correctness" then correctness
  else if slug = "redundancy" ∨ slug = "redundant" then redundancy
  else if slug = "design" then design
  else if slug = "style" then style
  else custom slug

/-- Reading a slug and writing the category gives the slug back, unless it is the second spelling
of the category of redundant code. -/
theorem slug_ofSlug {text : String} (h : text ≠ "redundant") : (ofSlug text).slug = text := by
  unfold ofSlug
  split
  · simp_all [slug]
  split
  · simp_all [slug]
  split
  · simp_all [slug]
  split
  · simp_all [slug]
  · rfl

/-- A category of its own, as opposed to the four with fixed slugs. -/
def isCustom : RuleCategory → Bool
  | custom _ => true
  | _ => false

end RuleCategory

end TreeLint
