import TreeLint.Grammar.Expression
import TreeLint.Proofs.Prune

/-!
# Other names and other trivia

Two texts that differ only in their trivia and in the names that they use have the same real tokens,
up to a renaming. This file says what a renaming does to tokens and trees, and what is left of both
without trivia. What the recogniser sees when it looks ahead is left as it was: the kinds of the next
real tokens, and whether the next one is a question mark, unless a renaming makes one of a name.

## Main definitions

* `TreeLint.Token.rename`, `TreeLint.Node.rename` — tokens and trees with other names.
* `TreeLint.Token.strip`, `TreeLint.Node.strip` — the same without trivia.

## Main results

* `TreeLint.Grammar.peek_strip`, `TreeLint.Grammar.peekSecond_strip`,
  `TreeLint.Grammar.atText_strip` — looking ahead.
-/

namespace TreeLint

variable (ρ : String → String)

/-! ## Tokens -/

namespace Token

/-- A token with another text, if it is a name. -/
def rename (t : Token) : Token := if t.kind = .ident then { t with text := ρ t.text } else t

/-- The real tokens among some, with other names. -/
def strip (ts : List Token) : List Token :=
  (ts.filter fun t => !t.kind.isTrivia).map (rename ρ)

variable {ρ} {t : Token} {ts : List Token}

@[simp] lemma kind_rename : (t.rename ρ).kind = t.kind := by
  unfold rename
  split <;> rfl

/-- A name has its new text. -/
lemma text_rename (h : t.kind = .ident) : (t.rename ρ).text = ρ t.text := by
  rw [rename, if_pos h]

@[simp] lemma rename_id : t.rename id = t := by
  unfold rename
  split <;> rfl

@[simp] lemma strip_nil : strip ρ [] = [] := rfl

/-- Trivia are left out. -/
lemma strip_cons_of_trivia (h : t.kind.isTrivia = true) : strip ρ (t :: ts) = strip ρ ts := by
  simp [strip, h]

/-- A real token is kept, with another name. -/
lemma strip_cons_of_real (h : t.kind.isTrivia = false) :
    strip ρ (t :: ts) = t.rename ρ :: strip ρ ts := by
  simp [strip, h]

/-- The kinds of what is left. -/
lemma map_kind_strip : (strip ρ ts).map kind = (ts.map kind).filter fun k => !k.isTrivia := by
  rw [strip, List.map_map, List.filter_map]
  exact List.map_congr_left fun _ _ => kind_rename

/-- Trivia in front make no difference. -/
lemma strip_dropWhile : strip ρ (ts.dropWhile (·.kind.isTrivia)) = strip ρ ts := by
  induction ts with
  | nil => rfl
  | cons t ts ih =>
    cases h : t.kind.isTrivia with
    | false => simp [h]
    | true => simp [h, ih, strip_cons_of_trivia h]

/-- The number of real tokens among some. -/
def realCount (ts : List Token) : Nat := (ts.filter fun t => !t.kind.isTrivia).length

@[simp] lemma length_strip : (strip ρ ts).length = realCount ts := List.length_map _

/-- A real token counts. -/
lemma realCount_cons_of_real (h : t.kind.isTrivia = false) :
    realCount (t :: ts) = realCount ts + 1 := by
  simp [realCount, h]

/-- Trivia in front do not count. -/
lemma realCount_append_of_trivia {us : List Token} (h : ∀ u ∈ us, u.kind.isTrivia = true) :
    realCount (us ++ ts) = realCount ts := by
  rw [realCount, List.filter_append, List.filter_eq_nil_iff.mpr (by simpa using h)]
  rfl

/-- There are no more real tokens than tokens. -/
lemma realCount_le_length : realCount ts ≤ ts.length := List.length_filter_le _ _

/-- What is left without trivia is real. -/
lemma isTrivia_of_mem_strip (h : t ∈ strip ρ ts) : t.kind.isTrivia = false := by
  obtain ⟨u, hu, rfl⟩ := List.mem_map.mp h
  simpa using (List.mem_filter.mp hu).2

end Token

/-! ## Trees -/

namespace Element

mutual
/-- An element with other names. -/
def rename : Element → Element
  | .token t => .token (t.rename ρ)
  | .node k cs => .node k (renameList cs)
/-- Consecutive elements with other names. -/
def renameList : List Element → List Element
  | [] => []
  | e :: es => e.rename :: renameList es
end

/-- What is left of consecutive elements without trivia, with other names. -/
def strip (parent : Kind) (es : List Element) : List Element :=
  renameList ρ (eraseList isAnyTrivia parent es)

variable {ρ} {parent k : Kind} {t : Token} {cs ds es : List Element}

/-- Consecutive elements are renamed one by one. -/
lemma renameList_eq_map : renameList ρ es = es.map (rename ρ) := by
  induction es with
  | nil => rfl
  | cons e es ih => rw [renameList, List.map_cons, ih]

@[simp] lemma strip_nil : strip ρ parent [] = [] := rfl

@[simp] lemma strip_append : strip ρ parent (es ++ ds) = strip ρ parent es ++ strip ρ parent ds := by
  simp only [strip, eraseList_append, renameList_eq_map, List.map_append]

/-- Trivia among elements are left out. -/
lemma strip_cons_of_trivia (h : t.kind.isTrivia = true) :
    strip ρ parent (.token t :: es) = strip ρ parent es := by
  rw [strip, eraseList_cons, erase_token, if_pos (by simpa [isAnyTrivia] using h)]
  rfl

/-- A real token among elements is kept, with another name. -/
lemma strip_cons_of_real (h : t.kind.isTrivia = false) :
    strip ρ parent (.token t :: es) = .token (t.rename ρ) :: strip ρ parent es := by
  rw [strip, eraseList_cons, erase_token, if_neg (by simp [isAnyTrivia, h])]
  rfl

/-- A node is kept, with what is left of its children. -/
lemma strip_cons_node :
    strip ρ parent (.node k cs :: es) = .node k (strip ρ k cs) :: strip ρ parent es := rfl

/-- Of trivia nothing is left. -/
lemma strip_map_token {ts : List Token} (h : ∀ t ∈ ts, t.kind.isTrivia = true) :
    strip ρ parent (ts.map .token) = [] := by
  induction ts with
  | nil => rfl
  | cons t ts ih =>
    rw [List.map_cons, strip_cons_of_trivia (h t List.mem_cons_self),
      ih fun u hu => h u (List.mem_cons_of_mem _ hu)]

mutual
/-- Two renamings that agree on the names in an element do the same to it. -/
theorem rename_congr {σ : String → String} : ∀ e : Element,
    (∀ t ∈ e.leaves, t.kind = .ident → ρ t.text = σ t.text) → e.rename ρ = e.rename σ
  | .token t, h => by
    have htoken := h t (by simp)
    unfold rename Token.rename
    split
    · rw [htoken ‹_›]
    · rfl
  | .node k cs, h => by rw [rename, rename, renameList_congr cs h]
/-- Two renamings that agree on the names in consecutive elements do the same to them. -/
theorem renameList_congr {σ : String → String} : ∀ es : List Element,
    (∀ t ∈ leavesList es, t.kind = .ident → ρ t.text = σ t.text) →
      renameList ρ es = renameList σ es
  | [], _ => rfl
  | e :: es, h => by
    rw [renameList, renameList, rename_congr e fun t ht => h t (List.mem_append_left _ ht),
      renameList_congr es fun t ht => h t (List.mem_append_right _ ht)]
end

mutual
/-- Nothing changes if all names are kept. -/
theorem rename_id : ∀ e : Element, e.rename id = e
  | .token t => by rw [rename, Token.rename_id]
  | .node k cs => by rw [rename, renameList_id cs]
/-- Nothing changes if all names are kept. -/
theorem renameList_id : ∀ es : List Element, renameList id es = es
  | [] => rfl
  | e :: es => by rw [renameList, rename_id e, renameList_id es]
end

end Element

namespace Node

/-- A tree with other names. -/
def rename (n : Node) : Node := ⟨n.kind, Element.renameList ρ n.children⟩

/-- What is left of a tree without trivia, with other names. -/
def strip (n : Node) : Node := (n.erase isAnyTrivia).rename ρ

@[simp] lemma kind_strip {n : Node} : (n.strip ρ).kind = n.kind := rfl

/-- The children of what is left of a node are what is left of its children. -/
lemma children_strip {n : Node} : (n.strip ρ).children = Element.strip ρ n.kind n.children := rfl

/-- Without new names, stripping is the erasure of trivia. -/
lemma strip_id (n : Node) : n.strip id = n.erase isAnyTrivia := by
  rw [strip, rename, Element.renameList_id]

end Node

/-! ## Looking ahead -/

namespace Grammar

variable {ρ} (ts : List Token)

/-- The next real token is the same, with another name. -/
lemma peekToken?_strip : peekToken? (Token.strip ρ ts) = (peekToken? ts).map (Token.rename ρ) := by
  induction ts with
  | nil => rfl
  | cons t ts ih =>
    cases h : t.kind.isTrivia with
    | false =>
      rw [Token.strip_cons_of_real h, peekToken?, peekToken?, List.find?_cons_of_pos (by simp [h]),
        List.find?_cons_of_pos (by simp [h])]
      rfl
    | true =>
      rw [Token.strip_cons_of_trivia h, ih, peekToken?, peekToken?,
        List.find?_cons_of_neg (by simp [h])]

/-- The next real token is of the same kind. -/
@[simp] theorem peek_strip : peek (Token.strip ρ ts) = peek ts := by
  rw [peek, peekToken?_strip, Option.map_map]
  simp only [peek, Function.comp_def, Token.kind_rename]

/-- So is the one behind it. -/
@[simp] theorem peekSecond_strip : peekSecond (Token.strip ρ ts) = peekSecond ts := by
  have hfilter : (Token.strip ρ ts).filter (fun t => !t.kind.isTrivia) = Token.strip ρ ts := by
    refine List.filter_eq_self.mpr fun t ht => ?_
    rw [Token.isTrivia_of_mem_strip ht, Bool.not_false]
  rw [peekSecond, hfilter, Token.strip, List.getElem?_map, Option.map_map]
  simp only [peekSecond, Function.comp_def, Token.kind_rename]

/-- A renaming that neither makes a text of a name nor replaces it leaves it visible. -/
theorem atText_strip {text : String} (h : ∀ name, ρ name = text ↔ name = text) :
    atText text (Token.strip ρ ts) = atText text ts := by
  have htoken : ∀ t : Token, (t.rename ρ).text = text ↔ t.text = text := by
    intro t
    unfold Token.rename
    split
    · exact h t.text
    · exact Iff.rfl
  rw [atText, peekToken?_strip, Option.any_map, atText]
  congr 1
  funext t
  rw [Bool.eq_iff_iff, beq_iff_eq, beq_iff_eq, htoken]

@[simp] lemma at_strip (k : Kind) : at_ k (Token.strip ρ ts) = at_ k ts := by rw [at_, peek_strip, at_]

@[simp] lemma atAny_strip (ks : List Kind) : atAny ks (Token.strip ρ ts) = atAny ks ts := by
  rw [atAny, peek_strip, atAny]

@[simp] lemma atTypeStart_strip : atTypeStart (Token.strip ρ ts) = atTypeStart ts := by
  rw [atTypeStart, peek_strip, atTypeStart]

@[simp] lemma atExpressionEnd_strip (depth : Nat) :
    atExpressionEnd depth (Token.strip ρ ts) = atExpressionEnd depth ts := by
  rw [atExpressionEnd, peek_strip, atExpressionEnd]

variable {ts}

/-- Without a real token ahead there is none. -/
lemma realCount_eq_zero_iff : Token.realCount ts = 0 ↔ peek ts = none := by
  rw [peek, Option.map_eq_none_iff, peekToken?, List.find?_eq_none, Token.realCount,
    List.length_eq_zero_iff, List.filter_eq_nil_iff]

end Grammar

end TreeLint
