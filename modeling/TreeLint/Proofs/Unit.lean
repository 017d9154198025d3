import TreeLint.Grammar.Unit
import TreeLint.Proofs.Statements

/-!
# Soundness of compilation units

Every text has a tree, whose leaves are the tokens of the text in order, and whose elements are as
they should be.

## Main results

* `TreeLint.leaves_parse` — the leaves of the tree of a text are the tokens of the text.
* `TreeLint.isShaped_parse` — the tree of a text is shaped.
* `TreeLint.isTrimmed_parse` — no node below its root begins or ends with trivia.
-/

namespace TreeLint

namespace Grammar

open Element

variable {ts : List Token} {κ : Kind} {n : Nat} {inner : Parser}

/-! ## Items -/

/-- A using directive is sound where a real token is ahead. -/
lemma sound_usingDirective (hplain : ∀ t ∈ ts, t.IsPlain) (hpeek : (peek ts).isSome = true) :
    usingDirective.Sound (Makes .usingDirective) ts := by
  refine sound_freeNode_of_isSome rfl (by decide) (by decide) (.of_plain hplain) hpeek fun t vs hw ht => ?_
  exact ⟨(((Parser.Enters.bump hw (by simp [peek_cons ht])).andThen
    (free_repeatWhile_bump fun us hus => isSome_of_isSome_and hus)).andThen .eat).1,
    (begins_bump_append ht).andThen⟩

/-- A namespace is sound if the items in it are, which have fewer tokens. -/
lemma sound_namespaceOver (h : Within (n + 1) ts) (hpeek : (peek ts).isSome = true)
    (hinner : ∀ us, Within n us → (peek us).isSome = true → inner.Sound IsFree us) :
    (namespaceOver inner).Sound (Makes .namespaceDeclaration) ts := by
  refine sound_freeNode_of_isSome rfl (by decide) (by decide) h hpeek fun t vs hw ht => ?_
  exact ⟨(((Parser.Enters.bump hw (by simp [peek_cons ht])).andThen
    (free_repeatWhile_bump fun us hus => isSome_of_any hus)).andThen (free_braced hinner)).1,
    (begins_bump_append ht).andThen⟩

/-- An item is sound and takes something, if inner ones are sound. -/
lemma sound_itemOver (h : Within (n + 1) ts) (hpeek : peek ts = some κ)
    (hinner : ∀ us, Within n us → (peek us).isSome = true → inner.Sound IsFree us) :
    (itemOver inner).Sound IsFree ts ∧ (itemOver inner).Moves ts := by
  suffices hp : ∃ p : Parser, itemOver inner ts = p ts ∧ p.Sound IsFree ts ∧ p.Moves ts by
    obtain ⟨p, heq, hs, hm⟩ := hp
    refine ⟨hs.congr heq, ?_⟩
    unfold Parser.Moves at hm ⊢
    rwa [heq]
  have hsome : (peek ts).isSome = true := by simp [hpeek]
  by_cases husing : κ = .usingKw
  · subst husing
    have hs := sound_usingDirective h.plain hsome
    exact ⟨usingDirective, by simp [itemOver, hpeek], hs.mono fun e he => he.isFree (by decide),
      moves_of_makes hs hpeek⟩
  by_cases hnamespace : κ = .namespaceKw
  · subst hnamespace
    have hs := sound_namespaceOver h hsome hinner
    exact ⟨namespaceOver inner, by simp [itemOver, hpeek],
      hs.mono fun e he => he.isFree (by decide), moves_of_makes hs hpeek⟩
  have hrest : itemOver inner ts = if κ.isModifier || κ.isTypeKeyword || κ == .lBracket then member ts
      else statement ts := by
    simp only [itemOver, hpeek]
  cases hmember : κ.isModifier || κ.isTypeKeyword || κ == .lBracket with
  | true => exact ⟨member, by rw [hrest, if_pos hmember], sound_member h.plain hsome⟩
  | false =>
    exact ⟨statement, by rw [hrest, if_neg (by simp [hmember])], sound_statement h.plain hsome⟩

/-- Items nested to a given depth are sound at no more tokens than the depth. -/
lemma sound_itemTo (d : Nat) : ∀ ts, Within d ts → (peek ts).isSome = true →
    (itemTo d).Sound IsFree ts ∧ (itemTo d).Moves ts := by
  induction d with
  | zero =>
    intro ts h hpeek
    rw [List.length_eq_zero_iff.mp (Nat.le_zero.mp h.length_le)] at hpeek
    cases hpeek
  | succ d ih =>
    intro ts h hpeek
    obtain ⟨κ, hκ⟩ := Option.isSome_iff_exists.mp hpeek
    obtain ⟨hs, hm⟩ := sound_itemOver h hκ fun us hus hsome => (ih us hus hsome).1
    exact ⟨hs.congr rfl, hm⟩

/-- An item, where a real token is ahead. -/
theorem sound_item (hplain : ∀ t ∈ ts, t.IsPlain) (hpeek : (peek ts).isSome = true) :
    item.Sound IsFree ts ∧ item.Moves ts := by
  obtain ⟨hs, hm⟩ := sound_itemTo ts.length ts ⟨Nat.le_refl _, hplain⟩ hpeek
  exact ⟨hs.congr rfl, hm⟩

/-! ## Units -/

/-- All tokens are taken: the items stop only where nothing but trivia is left. -/
theorem items_spec (hplain : ∀ t ∈ ts, t.IsPlain) :
    leavesList (items ts).1 = ts ∧ ∀ e ∈ (items ts).1, e.All IsParsed ∧ e.IsFree := by
  have hitem : ∀ us, us <:+ ts → (peek us).isSome = true → item.Sound IsFree us ∧ item.Moves us :=
    fun us hus hsome => sound_item (fun t ht => hplain t (hus.subset ht)) hsome
  have hsound : (repeatWhile (fun ts => (peek ts).isSome) item).Sound IsFree ts :=
    sound_repeatWhile fun us hus hsome => (hitem us hus hsome).1
  have hdone := repeatWhile_done hitem rfl
  have hrest : ∀ t ∈ (repeatWhile (fun ts => (peek ts).isSome) item ts).2,
      t.kind.isTrivia = true := by
    refine peek_eq_none_iff.mp ?_
    simpa using hdone
  have htrivia : (trivia (repeatWhile (fun ts => (peek ts).isSome) item ts).2).1 =
      (repeatWhile (fun ts => (peek ts).isSome) item ts).2.map .token := by
    rw [trivia, List.takeWhile_eq_self_iff.mpr hrest]
  rw [items, append_apply, htrivia]
  constructor
  · rw [leavesList_append, leavesList_map_token, hsound.leaves]
  · intro e he
    rcases List.mem_append.mp he with he | he
    · exact ⟨hsound.parsed e he, hsound.holds e he⟩
    · obtain ⟨t, ht, rfl⟩ := List.mem_map.mp he
      have htp := hplain t (hsound.suffix.subset ht)
      exact ⟨all_token htp, isFree_token htp⟩

end Grammar

variable (source : String)

/-- The items of a text hold all its tokens, and are as elements should be. -/
lemma items_lex : Element.leavesList (Grammar.items (lex source)).1 = lex source ∧
    ∀ e ∈ (Grammar.items (lex source)).1, e.All Grammar.IsParsed ∧ e.IsFree :=
  Grammar.items_spec fun _ ht => isPlain_of_mem_lex ht

/-- **The leaves of the tree of a text** are the tokens of the text, in order. -/
theorem leaves_parse : (parse source).leaves = lex source := (items_lex source).1

/-- The tree of a text has as many bytes as the text. -/
theorem length_parse : (parse source).length = source.utf8ByteSize := by
  have hleaves : Element.leavesList (parse source).children = lex source := leaves_parse source
  rw [Node.length, Element.lengthList_eq, hleaves]
  conv_rhs => rw [← join_text_lex source, utf8ByteSize_join, List.map_map]
  rfl

/-- **The tree of a text** is shaped. -/
theorem isShaped_parse : (parse source).IsShaped where
  kind := rfl
  free e he := ((items_lex source).2 e he).2
  all e he := ((items_lex source).2 e he).1.imp fun _ h => h.1

/-- In the tree of a text, no node below the root begins or ends with trivia. -/
theorem isTrimmed_parse : (parse source).All Element.IsTrimmed :=
  fun e he => ((items_lex source).2 e he).1.imp fun _ h => h.2

end TreeLint
