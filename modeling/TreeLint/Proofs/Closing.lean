import TreeLint.Proofs.FormedUnit

/-!
# Guarded blocks, handlers and braces in the tree of a text

Removing handlers, counting them and looking for the last one rest on the shape of guarded blocks: which
children they have and in which order, and where the blocks among them end. This file puts together what
the grammar gives for each text.

Blocks are filled by the parser of statements, which goes on to members, types and expressions. Whatever
stands in a block, the parser comes back to the block before it takes the closing brace. So the closing
brace is missing only where the text ends before.

## Main results

* `TreeLint.exists_braces` — the braces of a block, and what is behind a block without the closing one.
* `TreeLint.tryShape_parse` — guarded blocks, handlers and blocks of every text are well shaped.
-/

namespace TreeLint

open Element

variable {source : String} {b c : Cursor}

/-- Below the root, the elements with the kinds of tokens are the tokens. -/
lemma isTokenKind_iff (hc : (parse source).Has c) {e : Element} (he : e ∈ c.node.children) :
    Token.IsTokenKind e.kind ↔ ∃ t, e = .token t := by
  have hshaped : e.IsShaped := ((isShaped_parse source).all.children hc e he).self
  refine ⟨fun hk => ?_, ?_⟩
  · obtain ⟨t, ht, -⟩ := hshaped.exists_token hk
    exact ⟨t, ht⟩
  · rintro ⟨t, rfl⟩
    exact Token.IsPlain.kind hshaped

/-- **The braces of a block.** A block begins with its only direct opening brace and ends with its only
direct closing brace, or lacks the latter and is followed by trivia only. -/
theorem exists_braces (hb : (parse source).Has b) (hk : b.kind = .block) : ∃ l inner tail,
    b.node.children = .token l :: (inner ++ tail) ∧ l.kind = .lBrace ∧
    (∀ e ∈ inner, e.kind ≠ .lBrace ∧ e.kind ≠ .rBrace) ∧
    ((∃ r, r.kind = .rBrace ∧ tail = [.token r]) ∨
      (tail = [] ∧ ∀ t ∈ b.behind, t.kind.isTrivia = true)) := by
  have hshaped := isShaped_parse source
  have hne := hshaped.ne_cursor (c := b) (by rw [hk]; decide)
  obtain ⟨l, inner, tail, hcs, hl, hinner, htail⟩ := (hshaped.shaped hb hne).braced hk
  refine ⟨l, inner, tail, hcs, hl, hinner, ?_⟩
  rcases htail with rfl | htail
  · refine .inr ⟨rfl, Grammar.peek_eq_none_iff.mp ((formed_parse source hb hne).open_ hk ?_)⟩
    intro e he
    rw [hcs, List.append_nil, List.mem_cons] at he
    rcases he with rfl | he
    · simp [kind, hl]
    · exact (hinner e he).2
  · exact .inl htail

/-- **Exception handling in the tree of a text** is well shaped, whatever the text.

Let a text be given. In its tree, the elements below the root with the kinds of tokens are tokens, and all
others are nodes. The children of a guarded block are, trivia left out, its keyword, at most one block, any
number of handlers and at most one clause that runs in any case, in this order. Every handler stands in a
guarded block; its children are its keyword, at most one declaration, at most one filter and at most one
block, in this order. Every block begins with its only direct opening brace and has at most one direct
closing brace, which is its last child; without it, all tokens of the text behind the block are trivia.

**Proof sketch.** The order of the children is the one in which the grammar reads them
(`isShaped_parse`). A block reads statements up to its closing brace, and stops without it only if no real
token is left, since a statement takes a token wherever one is ahead (`formed_parse`). -/
theorem tryShape_parse (source : String) :
    (∀ c, (parse source).Has c → ∀ e ∈ c.node.children,
      Token.IsTokenKind e.kind ↔ ∃ t, e = .token t) ∧
    (∀ t, (parse source).Has t → t.kind = .tryStatement →
      Arranged [(.tryKw, .once), (.block, .atMostOnce), (.catchClause, .anyTimes),
        (.finallyClause, .atMostOnce)] (kinds t.node.children)) ∧
    (∀ c, (parse source).Has c → c.kind = .catchClause →
      (∃ t, (parse source).Has t ∧ t.IsChild c ∧ t.kind = .tryStatement) ∧
      Arranged [(.catchKw, .once), (.catchDeclaration, .atMostOnce), (.catchFilter, .atMostOnce),
        (.block, .atMostOnce)] (kinds c.node.children)) ∧
    (∀ b, (parse source).Has b → b.kind = .block → ∃ l inner tail,
      b.node.children = .token l :: (inner ++ tail) ∧ l.kind = .lBrace ∧
      (∀ e ∈ inner, e.kind ≠ .lBrace ∧ e.kind ≠ .rBrace) ∧
      ((∃ r, r.kind = .rBrace ∧ tail = [.token r]) ∨
        (tail = [] ∧ ∃ ahead behind, lex source = ahead ++ b.node.leaves ++ behind ∧
          total (ahead.map Token.length) = b.start ∧ ∀ t ∈ behind, t.kind.isTrivia = true))) := by
  have hshaped := isShaped_parse source
  have hslots : ∀ {c : Cursor} {slots}, (parse source).Has c → c.kind.slots? = some slots →
      Arranged slots (kinds c.node.children) := by
    intro c slots hc hk
    have hne := hshaped.ne_cursor (c := c) (by intro h; rw [h] at hk; cases hk)
    exact (hshaped.shaped hc hne).slots slots hk
  refine ⟨fun c hc e he => isTokenKind_iff hc he, fun t ht hk => hslots ht (by rw [hk]; rfl),
    fun c hc hk => ⟨hshaped.exists_try hc hk, hslots hc (by rw [hk]; rfl)⟩, fun b hb hk => ?_⟩
  obtain ⟨l, inner, tail, hcs, hl, hinner, htail⟩ := exists_braces hb hk
  refine ⟨l, inner, tail, hcs, hl, hinner, htail.imp_right fun ⟨hnil, hbehind⟩ => ⟨hnil, ?_⟩⟩
  have hleaves := hb.leaves_eq
  rw [leaves_parse] at hleaves
  exact ⟨b.ahead, b.behind, hleaves, hb.total_ahead, hbehind⟩

end TreeLint
