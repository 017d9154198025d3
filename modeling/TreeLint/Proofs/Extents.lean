import Mathlib.Data.List.Chain
import TreeLint.Proofs.Lexing

/-!
# Where tokens end

How far a token reaches is decided by its own characters and by the one behind them. So a token that
the lexer has cut out of a text is cut out again wherever the same characters are followed by the
same character or by nothing, and consecutive tokens are cut apart again unless two neighbours fuse.
A line end behind a token is as good as any other character, so tokens with a line end between them do
not fuse.

## Main definitions

* `TreeLint.Token.IsFirst` — a token is the first in front of some characters.

## Main results

* `TreeLint.Token.extent_local` — where a token ends depends on one character behind it.
* `TreeLint.Token.scan_flatMap_iff` — tokens are recovered from their texts unless two neighbours
  fuse.
* `TreeLint.Token.IsFirst.before_of_layout` — blanks and line ends keep tokens apart.
* `TreeLint.lex_text_of_mem_lex` — a token of a text is the only token of its own text.
-/

namespace TreeLint

namespace Token

variable {body r r' : List Char}

/-! ## Runs -/

/-- A run of characters is no longer than the text. -/
lemma runLength_le (p : Char → Bool) (cs : List Char) : runLength p cs ≤ cs.length :=
  (List.takeWhile_sublist _).length_le

/-- A quoted literal is no longer than the text. -/
lemma quotedExtent_le (quote : Char) (cs : List Char) : quotedExtent quote cs ≤ cs.length := by
  fun_induction quotedExtent quote cs with
  | case1 => simp
  | case2 c cs ih => simp only [List.length_cons]; omega
  | case3 c cs _ _ => simp
  | case4 c cs _ _ ih => simp only [List.length_cons]; omega

/-- A verbatim string is no longer than the text. -/
lemma verbatimExtent_le (cs : List Char) : verbatimExtent cs ≤ cs.length := by
  fun_induction verbatimExtent cs <;> simp only [List.length_cons, List.length_nil] <;> omega

/-- A block comment is no longer than the text. -/
lemma commentExtent_le (cs : List Char) : commentExtent cs ≤ cs.length := by
  fun_induction commentExtent cs <;> simp only [List.length_cons, List.length_nil] <;> omega

/-- A run of characters of one class ends at the first character behind it. -/
lemma runLength_append_eq_iff {p : Char → Bool} :
    runLength p (body ++ r) = body.length ↔ (∀ c ∈ body, p c = true) ∧ ∀ c ∈ r.head?, p c = false := by
  induction body with
  | nil =>
    cases r with
    | nil => simp [runLength]
    | cons c r => cases hc : p c <;> simp [runLength, hc]
  | cons c body ih =>
    cases hc : p c with
    | true => simpa [runLength, hc] using ih
    | false => simp [runLength, hc]

/-- What stands behind a token that begins with `c` can stand in the place of something else: it begins
the same, or there is nothing, or it is a line end where there was something. Behind a carriage return, a
line end does not count, since both could be one. -/
def AgreesWith (c : Char) (r' r : List Char) : Prop :=
  r' = [] ∨ r'.head? = r.head? ∨ (c ≠ '\r' ∧ r ≠ [] ∧ ∀ d ∈ r'.head?, isLineEnd d = true)

/-- What is true of line ends and of the character that stood there is true of the one that stands there
now. -/
lemma AgreesWith.forall_head? {c : Char} (h : AgreesWith c r' r) {P : Char → Prop}
    (hend : ∀ d, isLineEnd d = true → P d) (hr : ∀ d ∈ r.head?, P d) : ∀ d ∈ r'.head?, P d := by
  rcases h with rfl | h | ⟨-, -, h⟩
  · simp
  · rwa [h]
  · exact fun d hd => hend d (h d hd)

/-- At the end of a text, there is still nothing. -/
lemma AgreesWith.eq_nil {c : Char} (h : AgreesWith c r' r) (hr : r = []) : r' = [] := by
  rcases h with h | h | h
  · exact h
  · rwa [hr, List.head?_nil, List.head?_eq_none_iff] at h
  · exact absurd hr h.2.1

/-- A run of characters of a class without line ends ends in the same place. -/
lemma runLength_local {c : Char} {p : Char → Bool} (hp : ∀ d, isLineEnd d = true → p d = false)
    (h : runLength p (body ++ r) = body.length) (hr : AgreesWith c r' r) :
    runLength p (body ++ r') = body.length := by
  rw [runLength_append_eq_iff] at h ⊢
  exact ⟨h.1, hr.forall_head? hp h.2⟩

/-! ## Literals and comments -/

/-- A backslash takes the next character with it, so a literal that ends before the text does not end
behind a backslash. -/
lemma ne_backslash {quote c : Char} {cs : List Char} (hr : r ≠ [])
    (hpair : ∀ d ds, c = '\\' → cs = d :: ds → False)
    (h : quotedExtent quote (c :: cs ++ r) = (c :: cs).length) : c ≠ '\\' := by
  rintro rfl
  obtain rfl : cs = [] := by
    cases cs with
    | nil => rfl
    | cons d ds => exact (hpair d ds rfl rfl).elim
  obtain ⟨d, ds, rfl⟩ := List.exists_cons_of_ne_nil hr
  simp only [List.cons_append, List.nil_append, quotedExtent, List.length_cons,
    List.length_nil] at h
  omega

/-- A literal that ends before the text does ends with its quote or its line, whatever follows. -/
lemma quotedExtent_append {quote : Char} (hr : r ≠ [])
    (h : quotedExtent quote (body ++ r) = body.length) (r' : List Char) :
    quotedExtent quote (body ++ r') = body.length := by
  fun_induction quotedExtent quote body with
  | case1 =>
    obtain ⟨c, cs, rfl⟩ := List.exists_cons_of_ne_nil hr
    rw [List.nil_append, List.length_nil] at h
    unfold quotedExtent at h
    split at h
    · contradiction
    · omega
    · split at h <;> omega
  | case2 c cs ih =>
    simp only [List.cons_append, quotedExtent, List.length_cons] at h ⊢
    rw [ih (by omega)]
    omega
  | case3 c cs hpair hend =>
    have hc := ne_backslash hr hpair h
    rw [List.cons_append, quotedExtent.eq_3 _ _ _ fun _ _ h => absurd h hc, if_pos hend] at h ⊢
    exact h
  | case4 c cs hpair hend ih =>
    have hc := ne_backslash hr hpair h
    rw [List.cons_append, quotedExtent.eq_3 _ _ _ fun _ _ h => absurd h hc, if_neg hend,
      List.length_cons] at h ⊢
    rw [ih (by omega)]
    omega

/-- A block comment that ends before the text does ends with its delimiter, whatever follows. -/
lemma commentExtent_append (hr : r ≠ []) (h : commentExtent (body ++ r) = body.length)
    (r' : List Char) : commentExtent (body ++ r') = body.length ∧ 2 ≤ body.length := by
  fun_induction commentExtent body with
  | case1 =>
    obtain ⟨c, cs, rfl⟩ := List.exists_cons_of_ne_nil hr
    rw [List.nil_append, List.length_nil] at h
    unfold commentExtent at h
    split at h
    · contradiction
    · omega
    · omega
  | case2 cs =>
    simp only [List.cons_append, commentExtent, List.length_cons] at h ⊢
    omega
  | case3 c cs hpair ih =>
    rw [List.cons_append] at h ⊢
    have hopen : ∀ ds, c = '*' → cs ++ r = '/' :: ds → False := by
      rintro ds rfl heq
      rw [heq, commentExtent, List.length_cons] at h
      obtain rfl : cs = [] := List.eq_nil_of_length_eq_zero (by
        cases cs with
        | nil => rfl
        | cons d cs => exact (hpair cs rfl (by rw [(List.cons.inj heq).1])).elim)
      simp at h
    rw [commentExtent.eq_3 _ _ hopen, List.length_cons] at h
    obtain ⟨hext, hlen⟩ := ih (by omega)
    obtain ⟨d, ds, rfl⟩ := List.exists_cons_of_length_pos (l := cs) (by omega)
    rw [commentExtent.eq_3 _ _ fun es hc heq => hpair ds hc (by rw [(List.cons.inj heq).1]), hext]
    simp only [List.length_cons] at hlen ⊢
    omega

/-- A verbatim string that ends before the text does ends with its quote, if no other one follows. -/
lemma verbatimExtent_append {c : Char} (hr : r ≠ [])
    (h : verbatimExtent (body ++ r) = body.length) (hr' : AgreesWith c r' r) : verbatimExtent (body ++ r') = body.length := by
  fun_induction verbatimExtent body with
  | case1 =>
    obtain ⟨c, cs, rfl⟩ := List.exists_cons_of_ne_nil hr
    rw [List.nil_append, List.length_nil] at h
    unfold verbatimExtent at h
    split at h
    · contradiction
    · omega
    · split at h <;> omega
  | case2 cs ih =>
    simp only [List.cons_append, verbatimExtent, List.length_cons] at h ⊢
    rw [ih (by omega)]
    omega
  | case3 cs hpair =>
    rw [List.cons_append] at h ⊢
    have hclose : ∀ ds, cs ++ r = '"' :: ds → False := by
      intro ds heq
      cases cs with
      | nil =>
        rw [heq, verbatimExtent, List.length_cons, List.length_nil] at h
        omega
      | cons d cs => exact hpair cs rfl (by rw [(List.cons.inj heq).1])
    rw [verbatimExtent.eq_3 _ _ fun ds _ => hclose ds, if_pos rfl, List.length_cons] at h
    obtain rfl : cs = [] := List.eq_nil_of_length_eq_zero (by omega)
    rw [List.nil_append, verbatimExtent.eq_3 _ _ fun ds _ heq => ?_, if_pos rfl]
    · rfl
    · rcases hr' with rfl | hr' | ⟨-, -, hends⟩
      · cases heq
      · rw [heq, List.head?_cons, eq_comm, List.head?_eq_some_iff] at hr'
        obtain ⟨es, hes⟩ := hr'
        exact hclose es hes
      · exact absurd (hends '"' (by rw [heq]; rfl)) (by decide)
  | case4 c cs hpair hc ih =>
    rw [List.cons_append, verbatimExtent.eq_3 _ _ fun _ h => absurd h hc, if_neg hc,
      List.length_cons] at h ⊢
    rw [ih (by omega)]
    omega

/-! ## All tokens -/

/-- A choice between two extents is bounded if both are where they are chosen. -/
lemma snd_ite_le {p : Prop} [Decidable p] {a b : Kind × Nat} {n : Nat} (ha : p → a.2 ≤ n)
    (hb : ¬p → b.2 ≤ n) : (if p then a else b).2 ≤ n := by
  split
  · exact ha ‹_›
  · exact hb ‹_›

/-- Two choices on equivalent conditions have the same value if their branches have. -/
lemma ite_local {α : Type} {p p' : Prop} [Decidable p] [Decidable p'] {a a' b b' x : α}
    (hp : p ↔ p') (ha : p → a = x → a' = x) (hb : ¬p → b = x → b' = x) :
    (if p then a else b) = x → (if p' then a' else b') = x := by
  intro h
  by_cases hc : p
  · rw [if_pos hc] at h
    rw [if_pos (hp.mp hc), ha hc h]
  · rw [if_neg hc] at h
    rw [if_neg (hp.not.mp hc), hb hc h]

/-- No token is longer than the text. -/
lemma extent_le (c : Char) (rest : List Char) : (extent c rest).2 ≤ rest.length := by
  have hpos : ∀ d, rest.head? = some d → 0 < rest.length := by
    rintro d hd
    obtain ⟨ds, rfl⟩ := List.head?_eq_some_iff.mp hd
    simp
  have hcomment := commentExtent_le (rest.drop 1)
  have hverbatim := verbatimExtent_le (rest.drop 1)
  rw [List.length_drop] at hcomment hverbatim
  unfold extent
  refine snd_ite_le (fun _ => Nat.zero_le _) fun _ => ?_
  refine snd_ite_le (fun _ => ?_) fun _ => ?_
  · dsimp only
    split
    · exact hpos _ ‹_›
    · exact Nat.zero_le _
  refine snd_ite_le (fun _ => runLength_le _ _) fun _ => ?_
  refine snd_ite_le (fun _ => runLength_le _ _) fun _ => ?_
  refine snd_ite_le (fun hc => ?_) fun _ => ?_
  · have := hpos _ hc.2
    dsimp only
    omega
  refine snd_ite_le (fun _ => quotedExtent_le _ _) fun _ => ?_
  refine snd_ite_le (fun hc => ?_) fun _ => ?_
  · have := hpos _ hc.2
    dsimp only
    omega
  refine snd_ite_le (fun _ => runLength_le _ _) fun _ => ?_
  refine snd_ite_le (fun _ => runLength_le _ _) fun _ => ?_
  iterate 10 refine snd_ite_le (fun _ => Nat.zero_le _) fun _ => ?_
  refine snd_ite_le (fun hc => hpos _ hc.2) fun _ => ?_
  iterate 3 refine snd_ite_le (fun _ => Nat.zero_le _) fun _ => ?_
  exact snd_ite_le (fun _ => runLength_le _ _) fun _ => Nat.zero_le _

/-- Two characters that belong to the same token wherever they stand at its beginning. -/
def pairs : List (Char × Char) :=
  [('\r', '\n'), ('/', '/'), ('/', '*'), ('@', '"'), (':', ':'), ('=', '>'), ('=', '='), ('<', '='),
    ('<', '<'), ('>', '=')]

/-- A token that begins with a pair is longer than its first character. -/
lemma extent_pair_pos {c d : Char} (h : (c, d) ∈ pairs) (ds : List Char) :
    0 < (extent c (d :: ds)).2 := by
  have hblank : ∀ c ∈ ['/', '@', ':', '=', '<', '>'], Unicode.isBlank c = false := by
    simp only [List.forall_mem_cons, List.not_mem_nil, false_implies, implies_true, and_true]
    decide +kernel
  have hname : ∀ c ∈ [':', '=', '<', '>'], isNameStart c = false := by
    simp only [List.forall_mem_cons, List.not_mem_nil, false_implies, implies_true, and_true]
    decide +kernel
  have hpart : ∀ c ∈ [':', '=', '<', '>'], isOperatorPart c = true := by
    simp only [List.forall_mem_cons, List.not_mem_nil, false_implies, implies_true, and_true]
    decide +kernel
  simp only [pairs, List.mem_cons, Prod.mk.injEq, List.not_mem_nil, or_false] at h
  rcases h with ⟨rfl, rfl⟩ | ⟨rfl, rfl⟩ | ⟨rfl, rfl⟩ | ⟨rfl, rfl⟩ | ⟨rfl, rfl⟩ | ⟨rfl, rfl⟩ |
    ⟨rfl, rfl⟩ | ⟨rfl, rfl⟩ | ⟨rfl, rfl⟩ | ⟨rfl, rfl⟩
  all_goals
    simp [extent, runLength, hblank, hname, hpart, isLineEnd, Char.isDigit,
      Nat.add_pos_left Nat.zero_lt_one]

/-- Whether some characters begin with others is not decided by a character that is none of these. -/
lemma take_append_eq_iff (s : List Char) (hr : ∀ c ∈ r.head?, c ∉ s) :
    (body ++ r).take s.length = s ↔ body.take s.length = s := by
  rcases Nat.lt_or_ge body.length s.length with hlt | hge
  · refine iff_of_false (fun h => ?_) fun h => ?_
    · cases r with
      | nil =>
        have := congrArg List.length h
        simp at this
        omega
      | cons c r =>
        refine hr c rfl ?_
        rw [← h]
        exact List.mem_take_iff_getElem.mpr ⟨body.length, by simp; omega, by simp⟩
    · have := congrArg List.length h
      simp at this
      omega
  · rw [List.take_append_of_le_length hge]

/-- A line comment is recognised as documentation by its own characters. -/
lemma isDocLine_append (body : List Char) (hr : ∀ c ∈ r.head?, isLineEnd c = true) :
    ((body ++ r).take 2 = ['/', '/'] ∧ (body ++ r).take 3 ≠ ['/', '/', '/']) ↔
      (body.take 2 = ['/', '/'] ∧ body.take 3 ≠ ['/', '/', '/']) := by
  have hne : ∀ c ∈ r.head?, c ≠ '/' := by
    rintro c hc rfl
    exact absurd (hr _ hc) (by decide)
  have htwo : (body ++ r).take 2 = ['/', '/'] ↔ body.take 2 = ['/', '/'] :=
    take_append_eq_iff ['/', '/'] fun c hc => by simpa using hne c hc
  have hthree : (body ++ r).take 3 = ['/', '/', '/'] ↔ body.take 3 = ['/', '/', '/'] :=
    take_append_eq_iff ['/', '/', '/'] fun c hc => by simpa using hne c hc
  exact and_congr htwo (not_congr hthree)

/-- Whether a line comment is documentation does not depend on what stands behind its line. -/
lemma isDocLine_local {c : Char} (h : runLength (fun d => !isLineEnd d) (body ++ r) = body.length)
    (hr : AgreesWith c r' r) :
    ((body ++ r).take 2 = ['/', '/'] ∧ (body ++ r).take 3 ≠ ['/', '/', '/']) ↔
      ((body ++ r').take 2 = ['/', '/'] ∧ (body ++ r').take 3 ≠ ['/', '/', '/']) := by
  have hend : ∀ d ∈ r.head?, isLineEnd d = true := by simpa using (runLength_append_eq_iff.mp h).2
  exact (isDocLine_append body hend).trans (isDocLine_append body (hr.forall_head? (fun _ => id) hend)).symm

/-- A quoted literal ends in the same place if what stands behind it agrees. -/
lemma quotedExtent_local {c quote : Char} (h : quotedExtent quote (body ++ r) = body.length)
    (hr : AgreesWith c r' r) : quotedExtent quote (body ++ r') = body.length := by
  by_cases hnil : r = []
  · rw [hr.eq_nil hnil, ← hnil, h]
  · exact quotedExtent_append hnil h r'

/-- A verbatim string behind its first character, which is not part of what is to be closed. -/
lemma verbatimExtent_local {c : Char} (h : 1 + verbatimExtent ((body ++ r).drop 1) = body.length)
    (hr : AgreesWith c r' r) : 1 + verbatimExtent ((body ++ r').drop 1) = body.length := by
  by_cases hnil : r = []
  · rw [hr.eq_nil hnil, ← hnil, h]
  · obtain ⟨b, bs, rfl⟩ := List.exists_cons_of_length_pos (l := body) (by omega)
    simp only [List.cons_append, List.drop_succ_cons, List.drop_zero, List.length_cons] at h ⊢
    have hext : verbatimExtent (bs ++ r') = bs.length := verbatimExtent_append hnil (by omega) hr
    omega

/-- A block comment behind its first character: it ends in the same place, and as it is not shorter than
its delimiters, it begins with the same characters. -/
lemma commentExtent_local {c : Char} (h : 1 + commentExtent ((body ++ r).drop 1) = body.length)
    (hr : AgreesWith c r' r) : 1 + commentExtent ((body ++ r').drop 1) = body.length ∧
      ∀ n ≤ 3, (body ++ r').take n = (body ++ r).take n := by
  by_cases hnil : r = []
  · rw [hr.eq_nil hnil, ← hnil]
    exact ⟨h, fun _ _ => rfl⟩
  · obtain ⟨b, bs, rfl⟩ := List.exists_cons_of_length_pos (l := body) (by omega)
    simp only [List.cons_append, List.drop_succ_cons, List.drop_zero, List.length_cons] at h
    have hinside : commentExtent (bs ++ r) = bs.length := by omega
    obtain ⟨hext, hlen⟩ := commentExtent_append hnil hinside r'
    refine ⟨?_, fun n hn => ?_⟩
    · simp only [List.cons_append, List.drop_succ_cons, List.drop_zero, List.length_cons]
      omega
    · rw [List.take_append_of_le_length (by simp; omega),
        List.take_append_of_le_length (by simp; omega)]

/-- The first character of a token and the one behind the token make no pair, since a pair would belong to
the token. So pairs are seen in the same way whatever stands there. -/
lemma head?_pair_iff {c d : Char} {kind : Kind} (hd : (c, d) ∈ pairs) (hr : AgreesWith c r' r)
    (h : extent c (body ++ r) = (kind, body.length)) :
    (body ++ r).head? = some d ↔ (body ++ r').head? = some d := by
  cases body with
  | cons b body => simp
  | nil =>
    have hnot : r.head? ≠ some d := by
      intro hrd
      obtain ⟨ds, rfl⟩ := List.head?_eq_some_iff.mp hrd
      have hpos := extent_pair_pos hd ds
      rw [List.nil_append] at h
      simp [h] at hpos
    refine iff_of_false hnot fun hrd => ?_
    rcases hr with rfl | hr | ⟨hc, -, hr⟩
    · cases hrd
    · exact hnot (hr.symm.trans hrd)
    · -- only a carriage return makes a pair with a line end
      have hreturn : ∀ q ∈ pairs, isLineEnd q.2 = true → q.1 = '\r' := by decide
      exact hc (hreturn _ hd (hr d hrd))

/-- No run of characters of one class that makes a token goes over a line end. -/
lemma eq_false_of_isLineEnd {p : Char → Bool} (hp : p ∈ [fun d => Unicode.isBlank d && !isLineEnd d,
    fun d => !isLineEnd d, isNamePart, isNumberPart, isOperatorPart]) :
    ∀ d, isLineEnd d = true → p d = false := by
  intro d hd
  simp only [isLineEnd, Bool.or_eq_true, beq_iff_eq] at hd
  simp only [List.mem_cons, List.not_mem_nil, or_false] at hp
  rcases hp with rfl | rfl | rfl | rfl | rfl <;> rcases hd with rfl | rfl <;> decide +kernel

/-- **Where a token ends** depends on one character behind it, and a line end can stand in the place of any
other.

**Proof sketch.** The conditions by which the kind of a token is chosen look at one character behind
the first (`head?_pair_iff`). The extents of runs, literals and comments depend on one character behind
them by the lemmas above. -/
theorem extent_local {c : Char} {kind : Kind} (hr : AgreesWith c r' r)
    (h : extent c (body ++ r) = (kind, body.length)) :
    extent c (body ++ r') = (kind, body.length) := by
  have hhead : ∀ d, (c, d) ∈ pairs →
      ((body ++ r).head? = some d ↔ (body ++ r').head? = some d) :=
    fun d hd => head?_pair_iff hd hr h
  have hrun : ∀ {p : Char → Bool} {k : Kind}, p ∈ [fun d => Unicode.isBlank d && !isLineEnd d,
      fun d => !isLineEnd d, isNamePart, isNumberPart, isOperatorPart] →
        (k, runLength p (body ++ r)) = (kind, body.length) →
          (k, runLength p (body ++ r')) = (kind, body.length) := by
    intro p k hp h
    rw [Prod.mk.injEq] at h ⊢
    exact ⟨h.1, runLength_local (eq_false_of_isLineEnd hp) h.2 hr⟩
  revert h
  -- one choice after the other, in the order of the definition
  unfold extent
  refine ite_local Iff.rfl (fun _ => id) fun _ => ?_
  refine ite_local Iff.rfl (fun hc => ?_) fun _ => ?_
  · simp only [hhead '\n' (by simp [hc, pairs]), imp_self]
  refine ite_local Iff.rfl (fun _ => hrun (by simp)) fun _ => ?_
  refine ite_local (and_congr_right fun hc => hhead _ (by simp [hc, pairs])) (fun _ h => ?_)
    fun _ => ?_
  · -- a line comment
    rw [Prod.mk.injEq] at h ⊢
    refine ⟨?_, runLength_local (eq_false_of_isLineEnd (by simp)) h.2 hr⟩
    rw [← h.1]
    exact if_congr (isDocLine_local h.2 hr).symm rfl rfl
  refine ite_local (and_congr_right fun hc => hhead _ (by simp [hc, pairs])) (fun _ h => ?_)
    fun _ => ?_
  · -- a block comment
    rw [Prod.mk.injEq] at h ⊢
    obtain ⟨hext, htake⟩ := commentExtent_local h.2 hr
    refine ⟨?_, hext⟩
    rw [← h.1, htake 2 (by omega), htake 3 (by omega)]
  refine ite_local Iff.rfl (fun _ h => ?_) fun _ => ?_
  · -- a quoted literal
    rw [Prod.mk.injEq] at h ⊢
    exact ⟨h.1, quotedExtent_local h.2 hr⟩
  refine ite_local (and_congr_right fun hc => hhead _ (by simp [hc, pairs])) (fun _ h => ?_)
    fun _ => ?_
  · -- a verbatim string
    rw [Prod.mk.injEq] at h ⊢
    exact ⟨h.1, verbatimExtent_local h.2 hr⟩
  refine ite_local Iff.rfl (fun _ h => ?_) fun _ => ?_
  · -- a word, the kind of which depends on all its characters
    dsimp only at h ⊢
    rw [Prod.mk.injEq] at h ⊢
    have hn := runLength_local (eq_false_of_isLineEnd (by simp)) h.2 hr
    refine ⟨?_, hn⟩
    rw [← h.1, h.2, hn, List.take_left, List.take_left]
  refine ite_local Iff.rfl (fun _ => hrun (by simp)) fun _ => ?_
  iterate 9 refine ite_local Iff.rfl (fun _ => id) fun _ => ?_
  -- signs that can begin an operator
  refine ite_local (and_congr_right fun hc => not_congr (hhead _ (by simp [hc, pairs])))
    (fun hc => id) fun _ => ?_
  refine ite_local (and_congr_right fun hc => hhead _ (by simp [hc, pairs])) (fun _ => id)
    fun _ => ?_
  refine ite_local (and_congr_right fun hc => not_congr (hhead _ (by simp [hc, pairs])))
    (fun _ => id) fun _ => ?_
  refine ite_local (and_congr_right fun hc => and_congr
    (not_congr (hhead _ (by simp [hc, pairs]))) (not_congr (hhead _ (by simp [hc, pairs]))))
    (fun _ => id) fun _ => ?_
  refine ite_local (and_congr_right fun hc => not_congr (hhead _ (by simp [hc, pairs])))
    (fun _ => id) fun _ => ?_
  exact ite_local Iff.rfl (fun _ => hrun (by simp)) fun _ => id

/-! ## Tokens in a row -/

/-- A token is the first one in front of some characters. -/
def IsFirst (t : Token) (r : List Char) : Prop :=
  ∃ c body, t.text.toList = c :: body ∧ extent c (body ++ r) = (t.kind, body.length)

variable {t u : Token} {cs : List Char} {ts : List Token}

/-- A token that is the first one stays so before less, or before something that begins the same. -/
lemma IsFirst.before (h : IsFirst t r) (hr : r' = [] ∨ r'.head? = r.head?) : IsFirst t r' := by
  obtain ⟨c, body, htext, hext⟩ := h
  exact ⟨c, body, htext, extent_local (hr.imp_right .inl) hext⟩

/-- A token that does not begin with a carriage return and that is the first one in front of something
stays so in front of a line end. -/
lemma IsFirst.before_lineEnd (h : IsFirst t r) (hr : r ≠ [])
    (hr' : ∀ d ∈ r'.head?, isLineEnd d = true) (ht : t.text.toList.head? ≠ some '\r') :
    IsFirst t r' := by
  obtain ⟨c, body, htext, hext⟩ := h
  rw [htext, List.head?_cons, ne_eq, Option.some.injEq] at ht
  exact ⟨c, body, htext, extent_local (.inr (.inr ⟨ht, hr, hr'⟩)) hext⟩

/-- A token that is the first one in front of some characters is cut off there. -/
lemma scan_of_isFirst (h : IsFirst t r) : scan (t.text.toList ++ r) = t :: scan r := by
  obtain ⟨c, body, htext, hext⟩ := h
  rw [htext, List.cons_append, scan, hext]
  simp [← htext]

/-- The first token of a text, and what stands behind it. -/
lemma isFirst_of_scan (h : scan cs = t :: ts) :
    ∃ r, cs = t.text.toList ++ r ∧ IsFirst t r ∧ scan r = ts := by
  cases cs with
  | nil => simp [scan] at h
  | cons c rest =>
    obtain ⟨kind, n, hext⟩ : ∃ kind n, extent c rest = (kind, n) := ⟨_, _, rfl⟩
    have hle : n ≤ rest.length := by simpa [hext] using extent_le c rest
    have hlen : (rest.take n).length = n := by rw [List.length_take, Nat.min_eq_left hle]
    simp only [scan, hext] at h
    obtain ⟨rfl, hts⟩ := List.cons.inj h
    refine ⟨rest.drop n, by simp, ⟨c, rest.take n, by simp, ?_⟩, hts⟩
    rw [List.take_append_drop, hlen, hext]

/-- A token on its own is the only one in its text. -/
lemma IsFirst.scan_text (h : IsFirst t []) : scan t.text.toList = [t] := by
  simpa [scan] using scan_of_isFirst h

/-- The tokens of a text are tokens on their own. -/
lemma isFirst_of_mem_scan (h : t ∈ scan cs) : IsFirst t [] := by
  induction hn : cs.length using Nat.strong_induction_on generalizing cs with
  | _ n ih =>
    subst hn
    cases hscan : scan cs with
    | nil => simp [hscan] at h
    | cons u us =>
      obtain ⟨r, rfl, hfirst, hr⟩ := isFirst_of_scan hscan
      rw [hscan, List.mem_cons] at h
      rcases h with rfl | h
      · exact hfirst.before (.inl rfl)
      · obtain ⟨c, body, htext, -⟩ := hfirst
        refine ih r.length ?_ (hr ▸ h) rfl
        simp only [htext, List.cons_append, List.length_cons, List.length_append]
        omega

/-- Two tokens in a row are cut apart if the first one is the first token in front of the second. -/
lemma scan_pair_iff (hu : IsFirst u []) :
    scan (t.text.toList ++ u.text.toList) = [t, u] ↔ IsFirst t u.text.toList := by
  constructor
  · intro h
    obtain ⟨r, hr, hfirst, -⟩ := isFirst_of_scan h
    rwa [List.append_cancel_left hr]
  · intro h
    rw [scan_of_isFirst h, hu.scan_text]

/-- A token of a text is the first one in front of what stands behind it. -/
lemma exists_isFirst_of_scan {us : List Token} (h : scan cs = ts ++ t :: us) :
    ∃ r, IsFirst t r ∧ scan r = us := by
  induction ts generalizing cs with
  | nil =>
    obtain ⟨r, -, hfirst, hr⟩ := isFirst_of_scan h
    exact ⟨r, hfirst, hr⟩
  | cons u ts ih =>
    obtain ⟨r, -, -, hr⟩ := isFirst_of_scan h
    exact ih hr

/-- **Tokens in a row** are recovered from their texts if, and only if, no two neighbours fuse. -/
theorem scan_flatMap_iff (hts : ∀ t ∈ ts, IsFirst t []) :
    scan (ts.flatMap fun t => t.text.toList) = ts ↔
      ts.IsChain fun t u => scan (t.text.toList ++ u.text.toList) = [t, u] := by
  induction ts with
  | nil => simp [scan]
  | cons t ts ih =>
    obtain ⟨ht, hts⟩ := List.forall_mem_cons.mp hts
    cases ts with
    | nil => simpa using ht.scan_text
    | cons u us =>
      have hu := hts u List.mem_cons_self
      have hiff : IsFirst t ((u :: us).flatMap fun t => t.text.toList) ↔ IsFirst t u.text.toList := by
        obtain ⟨c, body, htext, -⟩ := hu
        have hhead : ((u :: us).flatMap fun t => t.text.toList).head? = u.text.toList.head? := by
          simp [htext]
        exact ⟨fun h => h.before (.inr hhead.symm), fun h => h.before (.inr hhead)⟩
      rw [List.isChain_cons_cons, scan_pair_iff hu, ← hiff, ← ih hts, List.flatMap_cons]
      constructor
      · intro h
        obtain ⟨r, hr, hfirst, hrest⟩ := isFirst_of_scan h
        obtain rfl := List.append_cancel_left hr
        exact ⟨hfirst, hrest⟩
      · rintro ⟨hfirst, hrest⟩
        rw [scan_of_isFirst hfirst, hrest]

/-! ## Blanks and line ends among the tokens -/

/-- A word is neither blanks nor a line end. -/
lemma isLayout_wordKind (word : List Char) : (wordKind word).isLayout = false := by
  unfold wordKind
  cases h : Kind.ofKeyword? (String.ofList word) with
  | none => rfl
  | some kind =>
    obtain ⟨entry, hentry, rfl⟩ := exists_mem_keywords h
    have hall : ∀ e ∈ Kind.keywords, e.2.isLayout = false := by decide
    exact hall _ hentry

/-- Only a token that begins with white space is blanks or a line end. -/
lemma isLayout_extent {c : Char} (rest : List Char) (hc : Unicode.isBlank c = false) :
    (extent c rest).1.isLayout = false := by
  have hnewline : c ≠ '\n' := by rintro rfl; revert hc; decide +kernel
  have hreturn : c ≠ '\r' := by rintro rfl; revert hc; decide +kernel
  rw [extent, if_neg hnewline, if_neg hreturn, if_neg (by simp [hc])]
  repeat' apply fst_ite (P := fun k => k.isLayout = false)
  all_goals first
    | exact isLayout_wordKind _
    | rfl
    | (dsimp only; split <;> rfl)

/-- The line ends among the tokens are those that begin with one. -/
lemma extent_fst_eq_newline_iff {c : Char} {rest : List Char} :
    (extent c rest).1 = .newline ↔ isLineEnd c = true := by
  by_cases hnewline : c = '\n'
  · simp [extent, hnewline, isLineEnd]
  by_cases hreturn : c = '\r'
  · simp [extent, hreturn, isLineEnd]
  refine iff_of_false (fun h => ?_) (by simp [isLineEnd, hnewline, hreturn])
  cases hc : Unicode.isBlank c with
  | true => simp [extent, hnewline, hreturn, hc] at h
  | false =>
    have hnot := isLayout_extent rest hc
    rw [h] at hnot
    cases hnot

/-- The blanks among the tokens are those that begin with white space other than a line end. -/
lemma extent_fst_eq_whitespace_iff {c : Char} {rest : List Char} :
    (extent c rest).1 = .whitespace ↔ (Unicode.isBlank c && !isLineEnd c) = true := by
  by_cases hnewline : c = '\n'
  · simp [extent, hnewline, isLineEnd]
  by_cases hreturn : c = '\r'
  · simp [extent, hreturn, isLineEnd]
  cases hc : Unicode.isBlank c with
  | true => simp [extent, hnewline, hreturn, hc, isLineEnd]
  | false =>
    refine iff_of_false (fun h => ?_) (by simp)
    have hnot := isLayout_extent rest hc
    rw [h] at hnot
    cases hnot

/-- A line end that is not a carriage return alone is the first token in front of anything. -/
lemma IsFirst.before_of_newline (h : IsFirst t r) (hk : t.kind = .newline) (ht : t.text ≠ "\r")
    (r' : List Char) : IsFirst t r' := by
  obtain ⟨c, body, htext, hext⟩ := h
  have hend : isLineEnd c = true := extent_fst_eq_newline_iff.mp (by rw [hext, hk])
  refine ⟨c, body, htext, ?_⟩
  simp only [isLineEnd, Bool.or_eq_true, beq_iff_eq] at hend
  rcases hend with rfl | rfl
  · obtain ⟨-, hlen⟩ := Prod.mk.inj hext
    rw [hk, ← hlen]
    rfl
  · have hne : body ≠ [] := by
      rintro rfl
      exact ht (by rw [← String.toList_inj, htext]; rfl)
    obtain ⟨d, ds, rfl⟩ := List.exists_cons_of_ne_nil hne
    have hlen : (if (d :: ds ++ r).head? = some '\n' then 1 else 0) = (d :: ds).length :=
      (Prod.mk.inj hext).2
    have hd : d = '\n' := by
      by_contra hnot
      rw [if_neg (by simpa using hnot)] at hlen
      cases hlen
    rw [if_pos (by simp [hd])] at hlen
    rw [hk, ← hlen, extent, if_neg (by decide), if_pos rfl, if_pos (by simp [hd])]

/-- Blanks are the first token in front of anything but blanks. -/
lemma IsFirst.before_of_whitespace (h : IsFirst t r) (hk : t.kind = .whitespace) {r' : List Char}
    (hr' : ∀ d ∈ r'.head?, (Unicode.isBlank d && !isLineEnd d) = false) : IsFirst t r' := by
  obtain ⟨c, body, htext, hext⟩ := h
  have hblank := extent_fst_eq_whitespace_iff.mp (by rw [hext, hk])
  refine ⟨c, body, htext, ?_⟩
  simp only [Bool.and_eq_true, Bool.not_eq_true', isLineEnd, Bool.or_eq_false_iff,
    beq_eq_false_iff_ne] at hblank
  obtain ⟨hc, hnewline, hreturn⟩ := hblank
  have hrun : ∀ rest, extent c rest =
      (.whitespace, runLength (fun d => Unicode.isBlank d && !isLineEnd d) rest) := fun rest => by
    rw [extent, if_neg hnewline, if_neg hreturn, if_pos hc]
  rw [hrun, hk, Prod.mk.injEq] at hext ⊢
  exact ⟨rfl, runLength_append_eq_iff.mpr ⟨(runLength_append_eq_iff.mp hext.2).1, hr'⟩⟩

/-- **Two tokens do not fuse** at the end or at the beginning of a line, nor do blanks with what is no
blank, unless the first is a carriage return alone. -/
lemma IsFirst.before_of_layout (ht : IsFirst t r) (hr : r ≠ []) (hu : IsFirst u [])
    (htext : t.text ≠ "\r") (hlayout : t.kind = .newline ∨ u.kind = .newline ∨
      (t.kind = .whitespace ∧ u.kind ≠ .whitespace)) : IsFirst t u.text.toList := by
  obtain ⟨d, ds, hutext, hext⟩ := hu
  have hhead : ∀ e, e ∈ u.text.toList.head? ↔ e = d := by
    intro e
    rw [hutext, List.head?_cons, Option.mem_some_iff, eq_comm]
  by_cases htk : t.kind = .newline
  · exact ht.before_of_newline htk htext _
  rcases hlayout with hk | hk | ⟨hk, huk⟩
  · exact absurd hk htk
  · refine ht.before_lineEnd hr (fun e he => ?_) fun hreturn => htk ?_
    · rw [(hhead e).mp he]
      exact extent_fst_eq_newline_iff.mp (by rw [hext, hk])
    · obtain ⟨c, body, hctext, hcext⟩ := ht
      rw [hctext, List.head?_cons, Option.some.injEq] at hreturn
      have hkind : (extent c (body ++ r)).1 = t.kind := congrArg Prod.fst hcext
      rw [← hkind, extent_fst_eq_newline_iff, hreturn]
      rfl
  · refine ht.before_of_whitespace hk fun e he => ?_
    rw [(hhead e).mp he, Bool.eq_false_iff, ne_eq, ← extent_fst_eq_whitespace_iff, hext]
    exact huk

end Token

/-- **A token of a text** is not empty, and it is the only token of its own text. So its kind is decided
by its text alone and never by what follows: tokens of any two texts that are spelled alike are the same
token.

**Proof sketch.** In its text, the token stands in front of some characters, and where it ends depends on
the first of these only. So it ends in the same place if none of them is there (`Token.extent_local`). -/
theorem lex_text_of_mem_lex {source : String} {t : Token} (h : t ∈ lex source) :
    t.text ≠ "" ∧ lex t.text = [t] ∧ ∀ other, ∀ u ∈ lex other, u.text = t.text → u = t := by
  have hself : ∀ {s : String} {u : Token}, u ∈ lex s → lex u.text = [u] := fun hu =>
    (Token.isFirst_of_mem_scan hu).scan_text
  refine ⟨fun hempty => ?_, hself h, fun other u hu htext => ?_⟩
  · have hpos := (isPlain_of_mem_lex h).length_pos
    rw [Token.length, hempty] at hpos
    exact absurd hpos (by decide)
  · have hsame := hself hu
    rw [htext, hself h] at hsame
    exact (List.cons.inj hsame).1.symm

/-- A comment without an end takes the rest of the text, and so does its own text. -/
theorem lex_text_unclosed : ∃ source t, source = "a=>@\"b\"\"c\"/*/ é" ∧ t ∈ lex source ∧
    t = ⟨.blockComment, "/*/ é"⟩ ∧ t.text ≠ "" ∧ lex t.text = [t] ∧
      ∀ other, ∀ u ∈ lex other, u.text = t.text → u = t := by
  obtain ⟨source, hsource⟩ : ∃ source, source = "a=>@\"b\"\"c\"/*/ é" := ⟨_, rfl⟩
  have hmem : (⟨.blockComment, "/*/ é"⟩ : Token) ∈ lex source := by
    rw [hsource]
    decide +kernel
  exact ⟨source, _, hsource, hmem, rfl, lex_text_of_mem_lex hmem⟩

end TreeLint
