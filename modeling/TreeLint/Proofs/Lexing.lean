import Mathlib.Tactic.Common
import TreeLint.Syntax.Token

/-!
# Tokens of a text

The lexer cuts a text into tokens that are not empty and never carry the kind of a structural node.

## Main definitions

* `TreeLint.Token.IsPlain` — what every token of a text is.

## Main results

* `TreeLint.isPlain_of_mem_lex` — the tokens of a text are plain.
* `TreeLint.join_text_lex` — their texts make up the text.
* `TreeLint.exists_of_ident_mem_lex` — how names start.
* `TreeLint.keywordText?_of_mem_lex` — how keywords are spelled.
-/

namespace TreeLint

namespace Token

/-- The kinds that tokens have. -/
def IsTokenKind (kind : Kind) : Prop := kind.code < 200 ∨ kind = .error

instance (kind : Kind) : Decidable (IsTokenKind kind) := inferInstanceAs (Decidable (_ ∨ _))

/-- A token that holds at least one byte and does not carry the kind of a structural node. -/
structure IsPlain (t : Token) : Prop where
  /-- The token is not empty. -/
  length_pos : 0 < t.length
  /-- Its kind is the kind of a token. -/
  kind : IsTokenKind t.kind

/-- A token with a character has a length. -/
lemma length_ofList_pos (kind : Kind) (c : Char) (cs : List Char) :
    0 < (⟨kind, String.ofList (c :: cs)⟩ : Token).length := by
  rw [length, Nat.pos_iff_ne_zero, ne_eq, String.utf8ByteSize_eq_zero_iff]
  simp [← String.toList_inj]

/-- What a keyword is looked up as stands in the table of keywords. -/
lemma exists_mem_keywords {word : String} {kind : Kind} (h : Kind.ofKeyword? word = some kind) :
    ∃ entry ∈ Kind.keywords, entry.2 = kind := by
  obtain ⟨w, hw⟩ : ∃ w, kind.keywordText? = some w := ⟨_, Kind.ofKeyword?_eq_some_iff.mp h⟩
  unfold Kind.keywordText? at hw
  obtain ⟨entry, hentry, -⟩ := Option.map_eq_some_iff.mp hw
  exact ⟨entry, List.mem_of_find?_eq_some hentry, by simpa using List.find?_some hentry⟩

/-- The kind of a keyword is a kind of tokens. -/
lemma isTokenKind_ofKeyword? {word : String} {kind : Kind} (h : Kind.ofKeyword? word = some kind) :
    IsTokenKind kind := by
  obtain ⟨entry, hentry, rfl⟩ := exists_mem_keywords h
  have hall : ∀ e ∈ Kind.keywords, e.2.code < 200 := by decide
  exact .inl (hall _ hentry)

/-- A word is a keyword or a name. -/
lemma isTokenKind_wordKind (word : List Char) : IsTokenKind (wordKind word) := by
  unfold wordKind
  cases h : Kind.ofKeyword? (String.ofList word) with
  | none => exact .inl (by decide)
  | some kind => exact isTokenKind_ofKeyword? h

/-- A choice between two extents is of a kind with a property if both are. -/
lemma fst_ite {P : Kind → Prop} {p : Prop} [Decidable p] {a b : Kind × Nat} (ha : P a.1)
    (hb : P b.1) : P (if p then a else b).1 := by
  split
  · exact ha
  · exact hb

/-- The kind that is read at a character is one of tokens. -/
lemma isTokenKind_extent (c : Char) (rest : List Char) : IsTokenKind (extent c rest).1 := by
  unfold extent
  repeat' apply fst_ite (P := IsTokenKind)
  all_goals first
    | exact isTokenKind_wordKind _
    | (dsimp only; decide)
    | (dsimp only; split <;> decide)

/-- No other token than one that starts like a name is a name. -/
lemma isNameStart_of_extent {c : Char} {rest : List Char} (h : (extent c rest).1 = .ident) :
    isNameStart c = true := by
  by_contra hc
  revert h
  rw [extent, if_neg hc]
  repeat' apply fst_ite (P := (· ≠ .ident))
  all_goals first
    | (dsimp only; decide)
    | (dsimp only; split <;> decide)

/-- A name among the tokens begins with a character that may start one. -/
lemma exists_of_ident_mem_scan {cs : List Char} {t : Token} (h : t ∈ scan cs) (hk : t.kind = .ident) :
    ∃ c rest, isNameStart c = true ∧ t.text = String.ofList (c :: rest) := by
  fun_induction scan cs with
  | case1 => cases h
  | case2 c rest kind n heq ih =>
    rcases List.mem_cons.mp h with rfl | h
    · have hextent : (extent c rest).1 = .ident := by rwa [heq]
      exact ⟨c, rest.take n, isNameStart_of_extent hextent, rfl⟩
    · exact ih h

/-- A branch whose kind is no keyword is left aside where a keyword is read. -/
lemma ite_of_isKeyword {p : Prop} [Decidable p] {a b x : Kind × Nat} (ha : a.1.isKeyword = false)
    (hb : b.1.isKeyword = true → b = x) :
    (if p then a else b).1.isKeyword = true → (if p then a else b) = x := by
  intro h
  split at h
  · rw [ha] at h
    cases h
  · rw [if_neg ‹_›]
    exact hb h

/-- Where a keyword starts, a word is read. -/
lemma extent_of_isKeyword {c : Char} {rest : List Char} : (extent c rest).1.isKeyword = true →
    extent c rest = (wordKind (c :: rest.take (runLength isNamePart rest)), runLength isNamePart rest) := by
  by_cases hc : isNameStart c = true
  · rw [extent, if_pos hc]
    repeat' apply ite_of_isKeyword
    all_goals first
      | exact fun _ => rfl
      | rfl
      | (dsimp only; split <;> rfl)
  · have hnone : (extent c rest).1.isKeyword = false := by
      rw [extent, if_neg hc]
      repeat' apply fst_ite (P := (·.isKeyword = false))
      all_goals first
        | rfl
        | (dsimp only; split <;> rfl)
    rw [hnone]
    intro h
    cases h

/-- A keyword is spelled like itself. -/
lemma keywordText?_of_mem_scan {cs : List Char} {t : Token} (h : t ∈ scan cs)
    (hk : t.kind.isKeyword = true) : Kind.keywordText? t.kind = some t.text := by
  fun_induction scan cs with
  | case1 => cases h
  | case2 c rest kind n heq ih =>
    rcases List.mem_cons.mp h with rfl | h
    · have hextent : (extent c rest).1.isKeyword = true → extent c rest = _ := extent_of_isKeyword
      rw [heq] at hextent
      obtain ⟨hword, rfl⟩ := Prod.mk.inj (hextent hk)
      refine Kind.ofKeyword?_eq_some_iff.mp ?_
      simp only at hk ⊢
      rw [hword, wordKind] at hk ⊢
      cases hlookup : Kind.ofKeyword? (String.ofList (c :: rest.take (runLength isNamePart rest))) with
      | none => rw [hlookup] at hk; cases hk
      | some k => rfl
    · exact ih h

/-- Every token that is cut off is plain. -/
lemma isPlain_of_mem_scan {cs : List Char} {t : Token} (h : t ∈ scan cs) : t.IsPlain := by
  fun_induction scan cs with
  | case1 => cases h
  | case2 c rest kind n heq ih =>
    rcases List.mem_cons.mp h with rfl | h
    · refine ⟨length_ofList_pos .., ?_⟩
      have hkind := isTokenKind_extent c rest
      rwa [heq] at hkind
    · exact ih h

end Token

/-- The texts of the tokens of a text make up the text. -/
theorem join_text_lex (source : String) : String.join ((lex source).map Token.text) = source := by
  rw [← String.toList_inj, String.toList_join, List.flatMap_map, join_lex]

/-- The tokens of a text are plain. -/
theorem isPlain_of_mem_lex {source : String} {t : Token} (h : t ∈ lex source) : t.IsPlain :=
  Token.isPlain_of_mem_scan h

/-- The names in a text start as names do. -/
theorem exists_of_ident_mem_lex {source : String} {t : Token} (h : t ∈ lex source)
    (hk : t.kind = .ident) :
    ∃ c rest, Token.isNameStart c = true ∧ t.text = String.ofList (c :: rest) :=
  Token.exists_of_ident_mem_scan h hk

/-- A keyword of a text is spelled like itself. -/
theorem keywordText?_of_mem_lex {source : String} {t : Token} (h : t ∈ lex source)
    (hk : t.kind.isKeyword = true) : Kind.keywordText? t.kind = some t.text :=
  Token.keywordText?_of_mem_scan h hk

end TreeLint
