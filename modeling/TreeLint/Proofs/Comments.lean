import TreeLint.Proofs.Unit
import TreeLint.Rule.Comment

/-!
# Findings about comments

The rules about comments see a comment at the end of a long way: the text is cut into tokens, the
recogniser hangs these into a tree, and a traversal of the tree adds up the lengths of what it has
passed. Nothing of this shows in the findings: they are those of the comments among the tokens of the
text, in the order of the text, each at the offset where its text stands there.

The findings do not depend on what the patterns are, only on where they are said to occur, so this is
proved for any such test.

## Main definitions

* `TreeLint.Token.place` — consecutive tokens with their offsets.
* `TreeLint.commentFindingsBy` — the findings of rules about the comments of a tree, for any test of
  where a pattern occurs.

## Main results

* `TreeLint.Element.placedLeaves_eq` — the tokens of an element stand where the lengths of those
  before them say.
* `TreeLint.Token.exists_of_mem_place` — a token of a text stands at its offset.
* `TreeLint.commentFindings_parse` — the findings about the comments of a text.
-/

namespace TreeLint

/-! ## Tokens with offsets -/

namespace Token

/-- Consecutive tokens with their offsets, the first at `start`. -/
def place (start : Nat) : List Token → List (Placed Token)
  | [] => []
  | t :: ts => ⟨t, start⟩ :: place (start + t.length) ts

@[simp] lemma place_nil (start : Nat) : place start [] = [] := rfl

@[simp] lemma place_cons (start : Nat) (t : Token) (ts : List Token) :
    place start (t :: ts) = ⟨t, start⟩ :: place (start + t.length) ts := rfl

/-- Tokens behind others are placed from the end of these on. -/
lemma place_append (start : Nat) (ts us : List Token) :
    place start (ts ++ us) = place start ts ++ place (start + total (ts.map length)) us := by
  induction ts generalizing start with
  | nil => simp
  | cons t ts ih => simp [ih, Nat.add_assoc]

/-- Placing tokens changes none of them. -/
lemma map_item_place (start : Nat) (ts : List Token) : (place start ts).map Placed.item = ts := by
  induction ts generalizing start with
  | nil => rfl
  | cons t ts ih => simp [ih]

/-- A token stands behind the texts of the tokens before it. -/
lemma exists_split_of_mem_place {start : Nat} {ts : List Token} {p : Placed Token}
    (hp : p ∈ place start ts) :
    ∃ us vs, ts = us ++ p.item :: vs ∧ p.start = start + total (us.map length) := by
  induction ts generalizing start with
  | nil => cases hp
  | cons t ts ih =>
    rcases List.mem_cons.mp hp with rfl | hp
    · exact ⟨[], ts, rfl, rfl⟩
    · obtain ⟨us, vs, rfl, hstart⟩ := ih hp
      refine ⟨t :: us, vs, rfl, ?_⟩
      simp only [hstart, List.map_cons, total_cons, Nat.add_assoc]

/-- **A token of a text stands at its offset**: so many bytes of the text are before it. -/
theorem exists_of_mem_place {source : String} {p : Placed Token} (hp : p ∈ place 0 (lex source)) :
    ∃ before after, source = before ++ p.item.text ++ after ∧ before.utf8ByteSize = p.start := by
  obtain ⟨us, vs, hlex, hstart⟩ := exists_split_of_mem_place hp
  refine ⟨String.join (us.map text), String.join (vs.map text), ?_, ?_⟩
  · conv_lhs => rw [← join_text_lex source, hlex]
    simp [String.join_append, String.join_cons, String.append_assoc]
  · rw [utf8ByteSize_join, List.map_map, hstart, Nat.zero_add]
    rfl

end Token

/-! ## The tokens of a tree -/

namespace Element

mutual
/-- **The tokens of an element** stand where the lengths of those before them say. -/
theorem placedLeaves_eq (start : Nat) : ∀ e : Element,
    e.placedLeaves start = Token.place start e.leaves
  | .token _ => rfl
  | .node _ cs => placedLeavesList_eq start cs
/-- The tokens of consecutive elements stand where the lengths of those before them say. -/
theorem placedLeavesList_eq (start : Nat) : ∀ es : List Element,
    placedLeavesList start es = Token.place start (leavesList es)
  | [] => rfl
  | e :: es => by
    rw [placedLeavesList, placedLeaves_eq start e, placedLeavesList_eq (start + e.length) es,
      leavesList_cons, Token.place_append, length_eq]
end

end Element

/-- The tokens that count as comments are those of the kinds of comments. -/
lemma Kind.any_isComment_triviaKind? (k : Kind) :
    k.triviaKind?.any TriviaKind.isComment = k.isComment := by
  cases k <;> rfl

/-! ## Findings -/

section Findings

variable (occurs : CommentPattern → String → Bool)

/-- The finding of a rule about a comment, if the rule has a pattern that is said to occur in it. -/
def Descriptor.onCommentBy? (d : Descriptor) (comment : Trivia) : Option Diagnostic :=
  match d.pattern? with
  | some p => if occurs p comment.text then some (d.finding [comment.text] comment.range) else none
  | none => none

/-- The findings of rules about the comments of a tree, for any test of where a pattern occurs: in the
order of the comments, and for one comment in the order of the rules. -/
def commentFindingsBy (rules : List Descriptor) (root : Node) : List Diagnostic :=
  root.comments.flatMap fun comment => rules.filterMap fun d => d.onCommentBy? occurs comment

/-- The library looks for occurrences of the patterns of its rules. -/
lemma commentFindingsBy_occursIn : commentFindingsBy CommentPattern.occursIn = commentFindings := rfl

/-- The finding of a rule about a token that stands at a known offset: it spans the token, and the text
of the token is what the message is about. -/
def Descriptor.onToken (d : Descriptor) (p : Placed Token) : Diagnostic where
  ruleId := d.id
  message := renderMessage d.messageTemplate [p.item.text]
  span := ⟨p.start, p.item.text.utf8ByteSize⟩
  severity := d.severity

/-- A finding about one comment is the finding about the text and the range of its token. -/
lemma Descriptor.finding_eq_onToken (d : Descriptor) (p : Placed Token) :
    d.finding [p.item.text] p.range = d.onToken p := by
  have hspan : Span.ofRange p.range = ⟨p.start, p.item.text.utf8ByteSize⟩ := by
    simp [Span.ofRange, Placed.range, Range.ofLength, Range.length, Token.length]
  rw [finding, hspan]
  rfl

/-- What a rule finds in a comment that is known by its text and its range. -/
lemma Descriptor.onCommentBy?_eq (d : Descriptor) {p : Placed Token} {comment : Trivia}
    (htext : comment.text = p.item.text) (hrange : comment.range = p.range) :
    d.onCommentBy? occurs comment =
      if d.pattern?.any (occurs · p.item.text) then some (d.onToken p) else none := by
  rw [onCommentBy?, htext, hrange, d.finding_eq_onToken]
  cases d.pattern? <;> rfl

/-- Rules find in a comment what those among them find whose patterns are said to occur in it. -/
lemma filterMap_onCommentBy? (rules : List Descriptor) {p : Placed Token} {comment : Trivia}
    (htext : comment.text = p.item.text) (hrange : comment.range = p.range) :
    (rules.filterMap fun d => d.onCommentBy? occurs comment) =
      (rules.filter fun d => d.pattern?.any (occurs · p.item.text)).map fun d => d.onToken p := by
  induction rules with
  | nil => rfl
  | cons d ds ih =>
    have hfirst := d.onCommentBy?_eq occurs htext hrange
    by_cases hoccurs : d.pattern?.any (occurs · p.item.text) = true
    · rw [if_pos hoccurs] at hfirst
      simp only [List.filterMap_cons, List.filter_cons, hfirst, if_pos hoccurs, List.map_cons, ih]
    · rw [if_neg hoccurs] at hfirst
      simp only [List.filterMap_cons, List.filter_cons, hfirst, if_neg hoccurs, ih]

/-- The comments among some tokens have the findings of these tokens. -/
lemma flatMap_comments (rules : List Descriptor) (ps : List (Placed Token)) :
    (((ps.filterMap Trivia.ofToken?).filter (·.kind.isComment)).flatMap fun comment =>
      rules.filterMap fun d => d.onCommentBy? occurs comment) =
      (ps.filter (·.item.kind.isComment)).flatMap fun p =>
        (rules.filter fun d => d.pattern?.any (occurs · p.item.text)).map fun d => d.onToken p := by
  induction ps with
  | nil => rfl
  | cons p ps ih =>
    have hkind := p.item.kind.any_isComment_triviaKind?
    cases htrivia : p.item.kind.triviaKind? with
    | none =>
      have hnot : p.item.kind.isComment = false := by rw [← hkind, htrivia]; rfl
      simpa [Trivia.ofToken?, htrivia, hnot] using ih
    | some k =>
      have hsame : k.isComment = p.item.kind.isComment := by rw [← hkind, htrivia]; rfl
      cases hcomment : p.item.kind.isComment with
      | false => simpa [Trivia.ofToken?, htrivia, hsame, hcomment] using ih
      | true =>
        have hfirst : (rules.filterMap fun d => d.onCommentBy? occurs ⟨k, p.item.text, p.range⟩) = _ :=
          filterMap_onCommentBy? occurs rules rfl rfl
        simpa [Trivia.ofToken?, htrivia, hsame, hcomment, hfirst] using ih

/-- The findings about the comments of a tree are those of the comments among its tokens. -/
theorem commentFindingsBy_eq (rules : List Descriptor) (root : Node) :
    commentFindingsBy occurs rules root =
      ((Token.place 0 root.leaves).filter (·.item.kind.isComment)).flatMap fun p =>
        (rules.filter fun d => d.pattern?.any (occurs · p.item.text)).map fun d => d.onToken p := by
  have hplaced := Element.placedLeaves_eq 0 root.toElement
  rw [commentFindingsBy, Node.comments, Element.comments, Element.trivia, hplaced, flatMap_comments]
  rfl

end Findings

/-- **The findings about the comments of a text.**

Whatever test says where patterns occur, the findings of some rules about the tree of a text are these:
for each comment among the tokens of the text, in their order, and for each rule whose pattern is said to
occur in the comment, in the order of the rules, the finding of the rule that spans this comment. The
offset of a comment is the number of bytes of the text that are before it. The rules as they run are the
case in which patterns occur where their expressions do.

**Proof sketch.** The tree of a text has the tokens of the text for leaves (`leaves_parse`), and the
traversal gives them the offsets that their lengths add up to (`Element.placedLeaves_eq`). These are
offsets in the text because the tokens spell it (`join_text_lex`). -/
theorem commentFindings_parse (rules : List Descriptor) (source : String) :
    (∀ occurs : CommentPattern → String → Bool,
      commentFindingsBy occurs rules (parse source) =
        ((Token.place 0 (lex source)).filter (·.item.kind.isComment)).flatMap fun p =>
          (rules.filter fun d => d.pattern?.any (occurs · p.item.text)).map fun d => d.onToken p) ∧
    commentFindings rules (parse source) =
      commentFindingsBy CommentPattern.occursIn rules (parse source) ∧
    (Token.place 0 (lex source)).map Placed.item = lex source ∧
    ∀ p ∈ Token.place 0 (lex source), ∃ before after,
      source = before ++ p.item.text ++ after ∧ before.utf8ByteSize = p.start := by
  refine ⟨fun occurs => ?_, ?_, Token.map_item_place 0 _, fun p hp => Token.exists_of_mem_place hp⟩
  · rw [commentFindingsBy_eq, leaves_parse]
  · rw [commentFindingsBy_occursIn]

end TreeLint
