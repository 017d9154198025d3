import Mathlib.Data.List.Infix
import Mathlib.Data.List.TakeWhile
import TreeLint.Proofs.Extents
import TreeLint.Syntax.Trivia

/-!
# What a block comment says

A block comment is a body between two delimiters. If the body does not hold the closing delimiter, the
lexer reads the three together as one token, which is documentation if the body begins with a star.

The content of the comment should be the body without the stars at its beginning, trimmed. It is read
off the whole text, and there each delimiter is taken away as often as it stands at its end, the opening
one first, then stars, then the closing one. This goes wrong in two ways, and in no other. A body of
nothing but stars takes the star of the closing delimiter along, so that the slash is left. And a body
that begins with the opening delimiter loses it.

## Main definitions

* `TreeLint.IsBody` — what can stand between the delimiters of a block comment.
* `TreeLint.blockComment`, `TreeLint.commentKind` — the block comment with a body, and its kind.
* `TreeLint.bodyContent` — the body without the stars at its beginning, trimmed.

## Main results

* `TreeLint.lex_blockComment` — a block comment is one token.
* `TreeLint.Trivia.delimitedContent_blockComment` — what is read as its content, in all cases.
* `TreeLint.content?_blockComment_iff` — when this is the content of the body.
-/

namespace TreeLint

/-! ## Trimming -/

namespace Unicode

/-- The number of characters that are not white space. -/
def solidCount (cs : List Char) : Nat := cs.countP (!isBlank ·)

/-- White space at the beginning does not count. -/
lemma solidCount_dropWhile_isBlank (cs : List Char) : solidCount (cs.dropWhile isBlank) = solidCount cs := by
  induction cs with
  | nil => rfl
  | cons c cs ih =>
    cases hc : isBlank c with
    | true => simpa [solidCount, hc] using ih
    | false => simp [hc]

/-- The order of the characters does not matter. -/
lemma solidCount_reverse (cs : List Char) : solidCount cs.reverse = solidCount cs := List.countP_reverse

/-- Trimming takes away white space only. -/
lemma solidCount_trim (cs : List Char) : solidCount (trim cs) = solidCount cs := by
  rw [trim, trimEnd, trimStart, solidCount_reverse, solidCount_dropWhile_isBlank, solidCount_reverse,
    solidCount_dropWhile_isBlank]

end Unicode

/-! ## Bodies -/

/-- A text that can stand between the delimiters of a block comment: it does not hold the closing one. -/
def IsBody (body : List Char) : Prop := ¬['*', '/'] <:+: body

instance (body : List Char) : Decidable (IsBody body) := inferInstanceAs (Decidable ¬_)

/-- The block comment with a body. -/
def blockComment (body : List Char) : List Char := '/' :: '*' :: (body ++ ['*', '/'])

/-- The kind of the block comment with a body: one that begins with a star makes it documentation. -/
def commentKind (body : List Char) : Kind :=
  if body.head? = some '*' then .docBlockComment else .blockComment

/-- The body of a block comment without the stars at its beginning, trimmed. -/
def bodyContent (body : List Char) : List Char := Unicode.trim (body.dropWhile (· == '*'))

/-- The body of a block comment without the opening delimiter at its beginning, if there is one. -/
def bareBody : List Char → List Char
  | '/' :: '*' :: body => body
  | body => body

variable {d : Char} {body part : List Char}

/-- A part of a body is a body. -/
lemma IsBody.of_infix (h : IsBody body) (hpart : part <:+: body) : IsBody part :=
  fun hclose => h (hclose.trans hpart)

/-- Behind a star at the beginning of a body there is no slash. -/
lemma IsBody.ne_slash (h : IsBody ('*' :: d :: body)) : d ≠ '/' := by
  rintro rfl
  exact h (List.prefix_append ['*', '/'] body).isInfix

/-- What is left of a body without its opening delimiter is the end of the body. -/
lemma bareBody_suffix (body : List Char) : bareBody body <:+ body := by
  unfold bareBody
  split
  · exact List.suffix_append ['/', '*'] _
  · exact List.suffix_rfl

/-- No opening delimiter stands behind the one at the beginning of a body. -/
lemma IsBody.not_opening_bareBody (h : IsBody body) : ¬['/', '*'] <+: bareBody body := by
  unfold bareBody
  split
  case h_1 body =>
    rintro ⟨rest, rfl⟩
    exact (h.of_infix (List.suffix_cons '/' _).isInfix).ne_slash rfl
  case h_2 hbare =>
    rintro ⟨rest, rfl⟩
    exact hbare rest rfl

/-- The content of a body has no characters but those of the body. -/
lemma solidCount_bodyContent_le (body : List Char) :
    Unicode.solidCount (bodyContent body) ≤ Unicode.solidCount body := by
  rw [bodyContent, Unicode.solidCount_trim]
  exact (List.dropWhile_suffix _).sublist.countP_le

/-! ## The token -/

namespace Token

/-- A block comment ends with the first closing delimiter. -/
lemma commentExtent_body (h : IsBody body) : commentExtent (body ++ ['*', '/']) = body.length + 2 := by
  induction body with
  | nil => rfl
  | cons c body ih =>
    have hrest : IsBody body := h.of_infix (List.suffix_cons c body).isInfix
    have hopen : ∀ cs, c = '*' → body ++ ['*', '/'] = '/' :: cs → False := by
      rintro cs rfl heq
      cases body with
      | nil => cases heq
      | cons d body => exact h.ne_slash (List.cons.inj heq).1
    rw [List.cons_append, commentExtent.eq_3 _ _ hopen, ih hrest, List.length_cons]
    omega

/-- A block comment is read as documentation if its body begins with a star. -/
lemma isDocBlock_iff (h : IsBody body) :
    (('*' :: (body ++ ['*', '/'])).take 2 = ['*', '*'] ∧
      ('*' :: (body ++ ['*', '/'])).take 3 ≠ ['*', '*', '/']) ↔ body.head? = some '*' := by
  cases body with
  | nil => simp
  | cons c body =>
    cases body with
    | nil => simp
    | cons d body =>
      simp only [List.cons_append, List.take_succ_cons, List.take_zero, List.cons.injEq, true_and,
        and_true, List.head?_cons, Option.some.injEq, ne_eq, not_and, and_iff_left_iff_imp]
      rintro rfl _
      exact h.ne_slash

/-- The token that a block comment begins with reaches to its end. -/
lemma extent_blockComment (h : IsBody body) :
    extent '/' ('*' :: (body ++ ['*', '/'])) = (commentKind body, body.length + 3) := by
  have hblank : Unicode.isBlank '/' = false := by decide
  have hbranch : extent '/' ('*' :: (body ++ ['*', '/'])) =
      (if ('*' :: (body ++ ['*', '/'])).take 2 = ['*', '*'] ∧
          ('*' :: (body ++ ['*', '/'])).take 3 ≠ ['*', '*', '/'] then .docBlockComment
        else .blockComment, 1 + commentExtent (body ++ ['*', '/'])) := by
    simp [extent, hblank]
  have hlen : 1 + (body.length + 2) = body.length + 3 := by omega
  rw [hbranch, commentExtent_body h, hlen, if_congr (isDocBlock_iff h) rfl rfl, commentKind]

end Token

/-- **A block comment** is one token. -/
theorem lex_blockComment (h : IsBody body) :
    lex (.ofList (blockComment body)) = [⟨commentKind body, .ofList (blockComment body)⟩] := by
  have hext := Token.extent_blockComment h
  have hlen : ('*' :: (body ++ ['*', '/'])).length = body.length + 3 := by simp
  rw [lex, String.toList_ofList, blockComment, Token.scan, hext]
  simp only [← hlen, List.take_length, List.drop_length, Token.scan]

/-- A block comment is trivia of one of two classes. -/
lemma triviaKind?_commentKind (body : List Char) : ∃ k, (commentKind body).triviaKind? = some k ∧
    (k = .docComment ∨ k = .blockComment) := by
  unfold commentKind
  split
  · exact ⟨_, rfl, .inl rfl⟩
  · exact ⟨_, rfl, .inr rfl⟩

/-! ## The content -/

namespace Trivia

/-- Nothing is taken away from a text that does not begin with the opening delimiter. -/
lemma dropOpening_eq {cs : List Char} (h : ¬['/', '*'] <+: cs) : dropOpening cs = cs := by
  unfold dropOpening
  split
  · exact absurd (List.prefix_append ['/', '*'] _) h
  · rfl

/-- Nothing is taken away from a text that does not end with the closing delimiter. -/
lemma dropClosing_eq {cs : List Char} (h : ¬['*', '/'] <:+ cs) : dropClosing cs.reverse = cs.reverse := by
  unfold dropClosing
  split
  · rename_i ds heq
    refine absurd ?_ h
    rw [← List.reverse_prefix, heq]
    exact List.prefix_append ['/', '*'] ds
  · rfl

/-- A body of nothing but stars leaves the slash of the closing delimiter. -/
lemma delimitedContent_stars (h : ∀ c ∈ body, c = '*') :
    delimitedContent (blockComment body) = ['/'] := by
  have hopen : ¬['/', '*'] <+: body ++ ['*', '/'] := by
    cases body with
    | nil => decide
    | cons c body =>
      obtain rfl := h c List.mem_cons_self
      simp
  have hnone : body.dropWhile (· == '*') = [] :=
    List.dropWhile_eq_nil_iff.mpr fun c hc => beq_iff_eq.mpr (h c hc)
  have hstars : (body ++ ['*', '/']).dropWhile (· == '*') = ['/'] := by
    rw [List.dropWhile_append, hnone]
    rfl
  rw [delimitedContent, blockComment, dropOpening, dropOpening_eq hopen, hstars]
  decide

/-- A body that does not begin with the opening delimiter, and is not made of stars only, is read as it
should be. -/
lemma delimitedContent_body (h : IsBody body) (hopen : ¬['/', '*'] <+: body)
    (hsome : ∃ c ∈ body, c ≠ '*') : delimitedContent (blockComment body) = bodyContent body := by
  by_cases hslash : body = ['/']
  · -- the slash and the star behind it are taken for an opening delimiter, and the last slash is left
    subst hslash
    decide
  obtain ⟨c, hc, hstar⟩ := hsome
  have hopening : ¬['/', '*'] <+: body ++ ['*', '/'] := by
    cases body with
    | nil => cases hc
    | cons b body =>
      cases body with
      | nil => simpa [eq_comm] using hslash
      | cons d body => simpa using hopen
  obtain ⟨rest, hrest⟩ : ∃ rest, rest = body.dropWhile (· == '*') := ⟨_, rfl⟩
  have hne : rest ≠ [] := by
    rw [hrest, ne_eq, List.dropWhile_eq_nil_iff]
    exact fun hall => hstar (beq_iff_eq.mp (hall c hc))
  have hstars : (body ++ ['*', '/']).dropWhile (· == '*') = rest ++ ['*', '/'] := by
    rw [List.dropWhile_append, ← hrest, if_neg (by simpa using hne)]
  have hclosing : ¬['*', '/'] <:+ rest := fun hsuffix =>
    h (hsuffix.isInfix.trans (hrest ▸ (List.dropWhile_suffix _).isInfix))
  have hreverse : (rest ++ ['*', '/']).reverse = '/' :: '*' :: rest.reverse := by simp
  rw [delimitedContent, blockComment, dropOpening, dropOpening_eq hopening, hstars, hreverse,
    dropClosing, dropClosing_eq hclosing, List.reverse_reverse, bodyContent, hrest]

/-- **What is read as the content** of a block comment: if its body begins with the opening delimiter,
this is left aside, and if nothing but stars is left, the content is a slash. -/
theorem delimitedContent_blockComment (h : IsBody body) : delimitedContent (blockComment body) =
    if (bareBody body).all (· == '*') then ['/'] else bodyContent (bareBody body) := by
  have hbare : delimitedContent (blockComment body) = delimitedContent (blockComment (bareBody body)) := by
    unfold bareBody
    split <;> rfl
  have hbody := h.of_infix (bareBody_suffix body).isInfix
  rw [hbare]
  split
  case isTrue hall => exact delimitedContent_stars (by simpa using hall)
  case isFalse hsome => exact delimitedContent_body hbody h.not_opening_bareBody (by simpa using hsome)

/-- What is read as the content has at most one character that the body without an opening delimiter at
its beginning has not. -/
lemma solidCount_delimitedContent_le (h : IsBody body) :
    Unicode.solidCount (delimitedContent (blockComment body)) ≤ Unicode.solidCount (bareBody body) + 1 := by
  rw [delimitedContent_blockComment h]
  split
  · exact List.countP_le_length.trans (Nat.le_add_left _ _)
  · exact (solidCount_bodyContent_le _).trans (Nat.le_succ _)

/-- **The content of a body** is read from its block comment unless the body is made of stars only, or
begins with the opening delimiter. -/
theorem delimitedContent_blockComment_iff (h : IsBody body) :
    delimitedContent (blockComment body) = bodyContent body ↔
      (∃ c ∈ body, c ≠ '*') ∧ ¬['/', '*'] <+: body := by
  constructor
  · intro heq
    refine ⟨?_, ?_⟩
    · by_contra hall
      have hstars : ∀ c ∈ body, c = '*' := by simpa using hall
      have hnone : body.dropWhile (· == '*') = [] :=
        List.dropWhile_eq_nil_iff.mpr fun c hc => beq_iff_eq.mpr (hstars c hc)
      rw [delimitedContent_stars hstars, bodyContent, hnone] at heq
      cases heq
    · rintro ⟨rest, rfl⟩
      simp only [List.cons_append, List.nil_append] at h heq
      -- the two characters of the delimiter are no white space, so trimming would keep them
      have hcount : Unicode.solidCount ('/' :: '*' :: rest) = Unicode.solidCount rest + 2 := by
        rw [Unicode.solidCount, List.countP_cons_of_pos (by decide), List.countP_cons_of_pos (by decide)]
        rfl
      have hkept : Unicode.solidCount (bodyContent ('/' :: '*' :: rest)) = Unicode.solidCount rest + 2 :=
        (Unicode.solidCount_trim ('/' :: '*' :: rest)).trans hcount
      have hread := solidCount_delimitedContent_le h
      rw [heq, hkept, bareBody] at hread
      omega
  · rintro ⟨hsome, hopen⟩
    exact delimitedContent_body h hopen hsome

/-- The content of a block comment is read between delimiters, be it documentation or not. -/
lemma content?_of_text {m : Trivia} (htext : m.text.toList = blockComment body)
    (hkind : m.kind = .docComment ∨ m.kind = .blockComment) :
    m.content? = some (.ofList (delimitedContent (blockComment body))) := by
  have hslashes : (blockComment body).take 2 ≠ ['/', '/'] := by simp [blockComment]
  rw [content?, htext]
  rcases hkind with hkind | hkind
  · simp only [hkind, if_neg hslashes]
  · simp only [hkind]

end Trivia

/-- **The content of a block comment.** A body without the closing delimiter, put between delimiters, is
lexed as one token, which is documentation if the body begins with a star. As the content of this token,
wherever it stands, the body without the stars at its beginning, trimmed, is read if, and only if, the
body is not made of stars only (nor empty) and does not begin with the opening delimiter.

**Proof sketch.** If the body begins with the opening delimiter, this is taken away with the one in front
of it, and two characters are missing that trimming would keep. If nothing but stars is left, they are
taken away with the star of the closing delimiter, of which the slash stays. In any other case each
delimiter is taken away once, since no other one stands at the end where it is looked for. -/
theorem content?_blockComment_iff {body : String} (h : IsBody body.toList) (start : Nat) : ∃ t m,
    lex ("/*" ++ body ++ "*/") = [t] ∧ t.text = "/*" ++ body ++ "*/" ∧
    t.kind = commentKind body.toList ∧ Trivia.ofToken? ⟨t, start⟩ = some m ∧
    (m.content? = some (.ofList (bodyContent body.toList)) ↔
      (∃ c ∈ body.toList, c ≠ '*') ∧ ¬['/', '*'] <+: body.toList) := by
  have hchars : ("/*" ++ body ++ "*/").toList = blockComment body.toList := by simp [blockComment]
  have htext : "/*" ++ body ++ "*/" = .ofList (blockComment body.toList) := by
    rw [← hchars, String.ofList_toList]
  obtain ⟨k, hk, hclass⟩ := triviaKind?_commentKind body.toList
  refine ⟨⟨commentKind body.toList, "/*" ++ body ++ "*/"⟩, _, ?_, rfl, rfl,
    by rw [Trivia.ofToken?, hk]; rfl, ?_⟩
  · rw [htext, lex_blockComment h]
  · rw [Trivia.content?_of_text hchars hclass, Option.some.injEq, String.ofList_inj,
      Trivia.delimitedContent_blockComment_iff h]

/-- A body with stars at both ends and an opening delimiter inside has its content. -/
theorem content?_blockComment_starred : ∃ body t m, body = "* é /* x **" ∧ IsBody body.toList ∧
    lex ("/*" ++ body ++ "*/") = [t] ∧ t.kind = .docBlockComment ∧
    Trivia.ofToken? ⟨t, 0⟩ = some m ∧ m.content? = some "é /* x **" := by
  obtain ⟨body, hbody⟩ : ∃ body, body = "* é /* x **" := ⟨_, rfl⟩
  have h : IsBody body.toList := by rw [hbody]; decide
  obtain ⟨t, m, hlex, -, hkind, hm, hiff⟩ := content?_blockComment_iff h 0
  have hsome : ∃ c ∈ body.toList, c ≠ '*' := ⟨'x', by rw [hbody]; simp, by decide⟩
  have hopen : ¬['/', '*'] <+: body.toList := by rw [hbody]; simp
  have hcontent := hiff.mpr ⟨hsome, hopen⟩
  rw [hbody] at hkind hcontent
  exact ⟨body, t, m, hbody, h, hlex, hkind, hm, hcontent⟩

/-- The slash of the closing delimiter is left of a comment without a body. -/
theorem content?_blockComment_empty : ∃ t m, IsBody "".toList ∧ lex ("/*" ++ "" ++ "*/") = [t] ∧
    Trivia.ofToken? ⟨t, 0⟩ = some m ∧ m.content? = some "/" ∧
    String.ofList (bodyContent "".toList) = "" := by
  refine ⟨⟨.blockComment, "/**/"⟩, ⟨.blockComment, "/**/", .ofLength 0 4⟩, ?_⟩
  decide +kernel

end TreeLint
