import Mathlib.Data.List.SplitBy
import TreeLint.Proofs.Editing
import TreeLint.Proofs.Independence

/-!
# Edits at one offset

Edits of a text in ascending order may touch, and several of them may begin at one offset: insertions,
and behind them at most one edit that replaces something. Edits are applied from behind, but those that
begin at one offset are applied as they are listed. The text of an insertion listed later comes in front
of those listed before, and the last edit of the group finds these texts where it expects the part that it
is to replace.

So the edits do what they do in one pass exactly if the texts of each group come out in the order in which
they are listed. They do if no two edits that say something begin at one offset.

## Main definitions

* `TreeLint.TextEdit.groups` — the edits that begin at one offset, together.
* `TreeLint.TextEdit.newTexts` — the new texts of edits, one behind the other.
* `TreeLint.TextEdit.stacked?` — what stands in the place of the replaced part after a group of edits.

## Main results

* `TreeLint.lastFirst_append` — groups are applied from the last to the first, each as it is listed.
* `TreeLint.foldlM_replaceRange?_group` — what a group of edits does.
* `TreeLint.applyTextEdits?_eq_substitution_iff` — when edits in ascending order do what they do in one
  pass.
-/

namespace TreeLint

namespace TextEdit

/-- The edits that begin at one offset, together, for edits in ascending order. -/
def groups (edits : List TextEdit) : List (List TextEdit) :=
  edits.splitBy fun e f => e.range.start == f.range.start

/-- The new texts of edits, one behind the other. -/
def newTexts (edits : List TextEdit) : List Char := edits.flatMap fun e => e.newText.toList

/-- What stands in the place of a part of a text after edits at its start, applied as they are listed:
the texts of the insertions are put in front of it one after the other, and the last edit replaces as many
bytes of all this as the part has. -/
def stackOn? (part : List Char) (insertions : List TextEdit) (last : TextEdit) : Option (List Char) :=
  (cutAt? last.range.length (newTexts insertions.reverse ++ part)).map fun (_, rest) =>
    last.newText.toList ++ rest

/-- What stands in the place of the part that a group of edits is about, after these edits have been
applied to a text as they are listed. -/
def stacked? (text : List Char) (group : List TextEdit) : Option (List Char) := do
  let last ← group.getLast?
  let part ← between? last.range.start last.range.stop text
  stackOn? part group.dropLast last

/-- Edits that begin at one offset, of which all but the last insert only. -/
structure IsGroup (start : Nat) (group insertions : List TextEdit) (last : TextEdit) : Prop where
  /-- The insertions come first. -/
  eq : group = insertions ++ [last]
  /-- All begin at the offset. -/
  start : ∀ e ∈ group, e.range.start = start
  /-- The insertions replace nothing. -/
  insertions : ∀ e ∈ insertions, e.range.length = 0

end TextEdit

open TextEdit

variable {e last : TextEdit} {edits group insertions rest : List TextEdit} {front : String} {start : Nat}

/-! ## The order of application -/

/-- **Groups are applied from the last to the first**, each as it is listed. -/
theorem lastFirst_append (hgroup : ∀ e ∈ group, e.range.start = start)
    (hrest : ∀ e ∈ rest, start < e.range.start) :
    lastFirst (group ++ rest) = lastFirst rest ++ group := by
  have htrans : ∀ e f g : TextEdit, decide (f.range.start ≤ e.range.start) = true →
      decide (g.range.start ≤ f.range.start) = true → decide (g.range.start ≤ e.range.start) = true :=
    fun e f g hef hfg =>
      decide_eq_true (Nat.le_trans (of_decide_eq_true hfg) (of_decide_eq_true hef))
  have htotal : ∀ e f : TextEdit,
      (decide (f.range.start ≤ e.range.start) || decide (e.range.start ≤ f.range.start)) = true :=
    fun e f => by simpa using Nat.le_total f.range.start e.range.start
  induction group with
  | nil => simp
  | cons e group ih =>
    obtain ⟨he, hgroup⟩ := List.forall_mem_cons.mp hgroup
    have ih := ih hgroup
    -- the first edit is sorted in behind all that begin behind it, in front of its group
    obtain ⟨ls, rs, hsort, hrestSort, hls⟩ := List.mergeSort_cons htrans htotal e (group ++ rest)
    have hrs : ∀ f ∈ rs, f.range.start ≤ start := by
      have hpair := List.pairwise_mergeSort htrans htotal (e :: (group ++ rest))
      rw [hsort, List.pairwise_append] at hpair
      exact fun f hf => he ▸ of_decide_eq_true ((List.pairwise_cons.mp hpair.2.1).1 f hf)
    have hcut : ls = lastFirst rest ∧ rs = group := by
      refine append_inj_of_forall (q := fun f => decide (start < f.range.start))
        (hrestSort.symm.trans ih) (fun f hf => ?_) (fun f hf => ?_) (fun f hf => ?_) fun f hf => ?_
      · have hlt := hls f hf
        rw [he] at hlt
        simpa using hlt
      · exact decide_eq_true (hrest f (List.mem_mergeSort.mp hf))
      · simpa using hrs f hf
      · simp [hgroup f hf]
    rw [hcut.1, hcut.2] at hsort
    exact hsort

/-! ## What a group does -/

/-- The new texts of edits one after the other stand one behind the other. -/
lemma newTexts_append (es fs : List TextEdit) : newTexts (es ++ fs) = newTexts es ++ newTexts fs :=
  List.flatMap_append

/-- One edit at the start of a part of a text. -/
lemma replaceRange?_at (hstart : e.range.start = front.utf8ByteSize) (cs : List Char) :
    replaceRange? (front.toList ++ cs) e =
      (cutAt? e.range.length cs).map fun p => front.toList ++ (e.newText.toList ++ p.2) := by
  rw [replaceRange?, hstart, cutAt?_append]
  show ((cutAt? e.range.length cs).bind fun p => some (_ ++ p.2)) = _
  cases cutAt? e.range.length cs <;> simp

/-- Insertions at one offset put the text of each in front of those before. -/
lemma foldlM_replaceRange?_insertions (hstart : ∀ e ∈ insertions, e.range.start = front.utf8ByteSize)
    (hempty : ∀ e ∈ insertions, e.range.length = 0) (cs : List Char) :
    insertions.foldlM replaceRange? (front.toList ++ cs) =
      some (front.toList ++ (newTexts insertions.reverse ++ cs)) := by
  induction insertions generalizing cs with
  | nil => simp [newTexts]
  | cons e es ih =>
    obtain ⟨he, hes⟩ := List.forall_mem_cons.mp hstart
    obtain ⟨hlen, hlens⟩ := List.forall_mem_cons.mp hempty
    rw [List.foldlM_cons, replaceRange?_at he, hlen, cutAt?]
    show es.foldlM replaceRange? (front.toList ++ (e.newText.toList ++ cs)) = _
    rw [ih hes hlens, List.reverse_cons, newTexts_append]
    simp [newTexts]

/-- A text is cut inside its first part. -/
lemma cutAt?_append_right {n : Nat} {cs : List Char} (hle : n ≤ (String.ofList cs).utf8ByteSize)
    (ds : List Char) :
    cutAt? n (cs ++ ds) = (cutAt? n cs).map fun p => (p.1, p.2 ++ ds) := by
  induction cs generalizing n with
  | nil =>
    obtain rfl : n = 0 := by simpa using hle
    simp [cutAt?]
  | cons c cs ih =>
    cases n with
    | zero => simp [cutAt?]
    | succ n =>
      rw [utf8ByteSize_ofList_cons] at hle
      simp only [List.cons_append, cutAt?]
      split
      · rw [ih (by omega)]
        cases cutAt? (n + 1 - c.utf8Size) cs <;> rfl
      · rfl

/-- **What a group of edits does** to a text: it puts its stack in the place of the part that it is
about. -/
theorem foldlM_replaceRange?_group (hgroup : IsGroup front.utf8ByteSize group insertions last)
    {part : String} (hpart : part.utf8ByteSize = last.range.length) (back : List Char) :
    group.foldlM replaceRange? (front.toList ++ (part.toList ++ back)) =
      (stackOn? part.toList insertions last).map fun put => front.toList ++ (put ++ back) := by
  obtain ⟨rfl, hstart, hempty⟩ := hgroup
  have hfirst := foldlM_replaceRange?_insertions (fun e he => hstart e (by simp [he])) hempty
    (part.toList ++ back)
  have hle : last.range.length ≤
      (String.ofList (newTexts insertions.reverse ++ part.toList)).utf8ByteSize := by
    rw [String.ofList_append, String.utf8ByteSize_append, String.ofList_toList, hpart]
    exact Nat.le_add_left ..
  rw [List.foldlM_append, hfirst]
  show [last].foldlM replaceRange? _ = _
  rw [List.foldlM_cons, replaceRange?_at (hstart last (by simp)), ← List.append_assoc,
    cutAt?_append_right hle, stackOn?]
  cases cutAt? last.range.length (newTexts insertions.reverse ++ part.toList) <;> simp

/-- The order of edits does not matter for how long their texts are. -/
lemma utf8ByteSize_newTexts_reverse (es : List TextEdit) :
    (String.ofList (newTexts es.reverse)).utf8ByteSize =
      (String.ofList (newTexts es)).utf8ByteSize := by
  induction es with
  | nil => rfl
  | cons e es ih =>
    rw [List.reverse_cons, newTexts_append, String.ofList_append, String.utf8ByteSize_append, ih]
    simp [newTexts, String.ofList_append, String.utf8ByteSize_append, Nat.add_comm]

/-- A stack of texts is as long as the texts are. -/
lemma utf8ByteSize_stackOn? {part put : List Char}
    (hpart : (String.ofList part).utf8ByteSize = last.range.length)
    (hput : stackOn? part insertions last = some put) :
    (String.ofList put).utf8ByteSize =
      (String.ofList (newTexts (insertions ++ [last]))).utf8ByteSize := by
  have hreverse := utf8ByteSize_newTexts_reverse insertions
  obtain ⟨⟨covered, left⟩, hcut, rfl⟩ := Option.map_eq_some_iff.mp hput
  obtain ⟨hsplit, hcovered⟩ := cutAt?_eq_some_iff.mp hcut
  have hsize := congrArg (fun cs => (String.ofList cs).utf8ByteSize) hsplit
  simp only [String.ofList_append, String.utf8ByteSize_append] at hsize
  rw [newTexts_append, String.ofList_append, String.ofList_append, String.utf8ByteSize_append,
    String.utf8ByteSize_append]
  simp only [newTexts, List.flatMap_cons, List.flatMap_nil, List.append_nil] at hreverse ⊢
  simp only [newTexts] at hsize
  omega

/-! ## Groups in one pass -/

/-- Two ways to cut a text behind equally many bytes are the same. -/
lemma append_inj_of_utf8ByteSize {as as' bs bs' : List Char} (h : as ++ bs = as' ++ bs')
    (hsize : (String.ofList as).utf8ByteSize = (String.ofList as').utf8ByteSize) :
    as = as' ∧ bs = bs' := by
  have hcut := cutAt?_append (String.ofList as) bs
  have hcut' := cutAt?_append (String.ofList as') bs'
  rw [String.toList_ofList] at hcut hcut'
  rw [h, hsize, hcut'] at hcut
  obtain ⟨rfl, rfl⟩ := Prod.mk.inj (Option.some.inj hcut)
  exact ⟨rfl, rfl⟩

/-- The part between two offsets, with what is in front of it and behind it. -/
lemma exists_of_between? {stop : Nat} {text part : List Char}
    (h : between? start stop text = some part) : ∃ front back : List Char,
      text = front ++ (part ++ back) ∧ (String.ofList front).utf8ByteSize = start ∧
        (String.ofList part).utf8ByteSize = stop - start := by
  rw [between?] at h
  split at h
  · obtain ⟨⟨front, behind⟩, hfront, hbehind⟩ := Option.bind_eq_some_iff.mp h
    obtain ⟨⟨part', back⟩, hpart, heq⟩ := Option.bind_eq_some_iff.mp hbehind
    cases heq
    obtain ⟨rfl, hfrontSize⟩ := cutAt?_eq_some_iff.mp hfront
    obtain ⟨rfl, hpartSize⟩ := cutAt?_eq_some_iff.mp hpart
    exact ⟨front, back, rfl, hfrontSize, hpartSize⟩
  · cases h

/-- A group in front of other edits puts its texts, as they are listed, in the place of the part that it
is about. -/
lemma substituteFrom?_group {offset : Nat} {text out : List Char}
    (hgroup : IsGroup start group insertions last)
    (hpass : substituteFrom? offset text (group ++ rest) = some out) :
    ∃ (gap part : String) (back out' : List Char), text = gap.toList ++ (part.toList ++ back) ∧
      gap.utf8ByteSize = start - offset ∧ part.utf8ByteSize = last.range.length ∧
        substituteFrom? last.range.stop back rest = some out' ∧
          out = gap.toList ++ (newTexts group ++ out') := by
  obtain ⟨rfl, hstart, hempty⟩ := hgroup
  induction insertions generalizing offset text out with
  | nil =>
    obtain ⟨gap, part, back, out', rfl, hgap, hpart, hback, rfl⟩ :=
      substituteFrom?_cons_eq_some.mp hpass
    rw [hstart last (by simp)] at hgap
    exact ⟨gap, part, back, out', rfl, hgap, hpart, hback, by simp [newTexts]⟩
  | cons e es ih =>
    obtain ⟨gap, part, behind, out₁, rfl, hgap, hpart, hbehind, rfl⟩ :=
      substituteFrom?_cons_eq_some.mp hpass
    obtain ⟨he, hes⟩ := List.forall_mem_cons.mp hstart
    obtain ⟨hlen, hlens⟩ := List.forall_mem_cons.mp hempty
    have hstop : e.range.stop = start := by
      have hle := e.range.start_le_stop
      rw [Range.length] at hlen
      omega
    obtain ⟨gap', part', back, out', rfl, hgap', hpart', hback, rfl⟩ := ih hlens hbehind hes
    rw [hlen, String.utf8ByteSize_eq_zero_iff] at hpart
    rw [hstop, Nat.sub_self, String.utf8ByteSize_eq_zero_iff] at hgap'
    subst hpart hgap'
    rw [he] at hgap
    exact ⟨gap, part', back, out', by simp, hgap, hpart', hback, by simp [newTexts]⟩

/-- What stands in the place of the part that a group is about, in a text split around this part. -/
lemma stacked?_append (hgroup : IsGroup front.utf8ByteSize group insertions last) {part : String}
    (hpart : part.utf8ByteSize = last.range.length) (back : List Char) :
    stacked? (front.toList ++ (part.toList ++ back)) group =
      stackOn? part.toList insertions last := by
  have hstart : last.range.start = front.utf8ByteSize := hgroup.start last (by simp [hgroup.eq])
  have hstop : last.range.stop = front.utf8ByteSize + part.utf8ByteSize := by
    have hle := last.range.start_le_stop
    rw [Range.length] at hpart
    omega
  have hbetween := between?_append front part back
  rw [← hstop, ← hstart] at hbetween
  simp [stacked?, hgroup.eq, hbetween]

/-- **A group of edits after later ones.** Let the later edits leave what is in front of them, and make the
rest of a text as long as they do in one pass. Then so do they together with the group. They do what they do
in one pass exactly if both the group and the later edits do. -/
theorem bind_foldlM_replaceRange? (hgroup : IsGroup front.utf8ByteSize group insertions last)
    {part : String} (hpart : part.utf8ByteSize = last.range.length) {later : Option (List Char)}
    {out : List Char} (hlater : ∀ r, later = some r → ∃ put, r = (front ++ part).toList ++ put ∧
      (String.ofList put).utf8ByteSize = (String.ofList out).utf8ByteSize) :
    (∀ r, later.bind (group.foldlM replaceRange?) = some r → ∃ put, r = front.toList ++ put ∧
      (String.ofList put).utf8ByteSize = (String.ofList (newTexts group ++ out)).utf8ByteSize) ∧
    (later.bind (group.foldlM replaceRange?) = some (front.toList ++ (newTexts group ++ out)) ↔
      stackOn? part.toList insertions last = some (newTexts group) ∧
        later = some ((front ++ part).toList ++ out)) := by
  cases later with
  | none => exact ⟨fun r hr => by simp at hr, by simp⟩
  | some r =>
    obtain ⟨put, rfl, hsize⟩ := hlater r rfl
    have hrun := foldlM_replaceRange?_group hgroup hpart put
    have htextSize : ∀ text, stackOn? part.toList insertions last = some text →
        (String.ofList text).utf8ByteSize = (String.ofList (newTexts group)).utf8ByteSize := by
      intro text htext
      rw [hgroup.eq]
      exact utf8ByteSize_stackOn? (by rw [String.ofList_toList]; exact hpart) htext
    rw [Option.bind_some, String.toList_append, List.append_assoc, hrun]
    constructor
    · intro r hr
      obtain ⟨text, htext, rfl⟩ := Option.map_eq_some_iff.mp hr
      refine ⟨text ++ put, rfl, ?_⟩
      simp only [String.ofList_append, String.utf8ByteSize_append, htextSize text htext, hsize]
    · constructor
      · intro hr
        obtain ⟨text, htext, heq⟩ := Option.map_eq_some_iff.mp hr
        obtain ⟨rfl, rfl⟩ := append_inj_of_utf8ByteSize (List.append_cancel_left heq)
          (htextSize text htext)
        exact ⟨htext, by simp⟩
      · rintro ⟨htext, hput⟩
        obtain rfl : put = out := by simpa using hput
        rw [htext]
        rfl

/-- **Groups of edits, applied from the last to the first**, do with the rest of a text what they do in
one pass exactly if each group puts its texts there as they are listed. In any case they leave what is in
front of the rest, and make the rest as long as they do in one pass.

**Proof sketch.** By induction on the groups. The groups behind the first leave its part alone, so the
first one puts its stack there; this is as long as its texts are, so that nothing that is put there can
make up for a difference further behind. -/
theorem foldlM_replaceRange?_groups {gs : List (List TextEdit)} (front : String) {text out : List Char}
    (hgroups : ∀ g ∈ gs, ∃ start insertions last, IsGroup start g insertions last)
    (horder : gs.Pairwise fun g h => ∀ e ∈ g, ∀ f ∈ h, e.range.stop ≤ f.range.start)
    (hstart : ∀ g ∈ gs, ∀ e ∈ g, front.utf8ByteSize ≤ e.range.start)
    (hpass : substituteFrom? front.utf8ByteSize text gs.flatten = some out) :
    (∀ r, gs.reverse.flatten.foldlM replaceRange? (front.toList ++ text) = some r →
      ∃ out', r = front.toList ++ out' ∧
        (String.ofList out').utf8ByteSize = (String.ofList out).utf8ByteSize) ∧
    (gs.reverse.flatten.foldlM replaceRange? (front.toList ++ text) = some (front.toList ++ out) ↔
      ∀ g ∈ gs, stacked? (front.toList ++ text) g = some (newTexts g)) := by
  induction gs generalizing front text out with
  | nil =>
    cases hpass
    exact ⟨fun r hr => ⟨text, (Option.some.inj hr).symm, rfl⟩, by simp⟩
  | cons g gs ih =>
    obtain ⟨start, insertions, last, hgroup⟩ := hgroups g List.mem_cons_self
    obtain ⟨hfirst, hlater⟩ := List.pairwise_cons.mp horder
    obtain ⟨gap, part, back, out', rfl, hgap, hpart, hback, rfl⟩ :=
      substituteFrom?_group hgroup hpass
    have hlast : last ∈ g := by simp [hgroup.eq]
    have hbegin : start = (front ++ gap).utf8ByteSize := by
      have hle := hstart g List.mem_cons_self last hlast
      rw [hgroup.start last hlast] at hle
      rw [String.utf8ByteSize_append]
      omega
    subst hbegin
    have hend : last.range.stop = (front ++ gap ++ part).utf8ByteSize := by
      have hle := last.range.start_le_stop
      rw [String.utf8ByteSize_append, ← hgroup.start last hlast, hpart, Range.length]
      omega
    have hwhole : front.toList ++ (gap.toList ++ (part.toList ++ back)) =
        (front ++ gap ++ part).toList ++ back := by simp
    obtain ⟨hlong, hiff⟩ := ih (front ++ gap ++ part)
      (fun h hh => hgroups h (List.mem_cons_of_mem g hh)) hlater
      (fun h hh f hf => hend ▸ hfirst h hh last hlast f hf) (hend ▸ hback)
    have hstacked : stacked? ((front ++ gap ++ part).toList ++ back) g =
        stackOn? part.toList insertions last := by
      rw [← stacked?_append hgroup hpart back, String.toList_append, List.append_assoc]
    have hrun : (g :: gs).reverse.flatten.foldlM replaceRange? ((front ++ gap ++ part).toList ++ back) =
        (gs.reverse.flatten.foldlM replaceRange? ((front ++ gap ++ part).toList ++ back)).bind
          (g.foldlM replaceRange?) := by
      rw [List.reverse_cons, List.flatten_append, List.foldlM_append, List.flatten_singleton]
      rfl
    obtain ⟨hsize, hpasses⟩ := bind_foldlM_replaceRange? hgroup hpart hlong
    rw [hwhole, hrun]
    constructor
    · intro r hr
      obtain ⟨put, rfl, hput⟩ := hsize r hr
      refine ⟨gap.toList ++ put, by simp, ?_⟩
      simp only [String.ofList_append, String.utf8ByteSize_append] at hput ⊢
      omega
    · rw [← List.append_assoc front.toList, ← String.toList_append, List.forall_mem_cons, hstacked,
        ← hiff]
      exact hpasses

/-! ## Edits in ascending order -/

/-- Edits of which each ends before the next one begins end before all further ones begin. -/
lemma pairwise_of_isChain (h : edits.IsChain fun e f => e.range.stop ≤ f.range.start) :
    edits.Pairwise fun e f => e.range.stop ≤ f.range.start := by
  have htrans : IsTrans TextEdit fun e f => e.range.stop ≤ f.range.start :=
    ⟨fun _ f _ hef hfg => by have := f.range.start_le_stop; omega⟩
  exact List.isChain_iff_pairwise.mp h

/-- The edits of one group begin at one offset, and all but the last of them insert only. -/
lemma exists_isGroup (h : edits.Pairwise fun e f => e.range.stop ≤ f.range.start) {g : List TextEdit}
    (hg : g ∈ groups edits) : ∃ start insertions last, IsGroup start g insertions last := by
  have hne := List.ne_nil_of_mem_splitBy hg
  have hequal : g.Pairwise fun e f => e.range.start = f.range.start := by
    have hchain := List.isChain_of_mem_splitBy hg
    simp only [beq_iff_eq] at hchain
    have htrans : IsTrans TextEdit fun e f => e.range.start = f.range.start :=
      ⟨fun _ _ _ hef hfg => hef.trans hfg⟩
    exact List.isChain_iff_pairwise.mp hchain
  have hflatten : (groups edits).flatten = edits := List.flatten_splitBy ..
  rw [← hflatten] at h
  have happart := (List.pairwise_flatten.mp h).1 g hg
  have heq : g = g.dropLast ++ [g.getLast hne] := (List.dropLast_append_getLast hne).symm
  have hlast : ∀ e ∈ g.dropLast, e.range.start = (g.getLast hne).range.start ∧
      e.range.stop ≤ (g.getLast hne).range.start := by
    intro e he
    rw [heq, List.pairwise_append] at hequal happart
    exact ⟨hequal.2.2 e he _ List.mem_cons_self, happart.2.2 e he _ List.mem_cons_self⟩
  refine ⟨(g.getLast hne).range.start, g.dropLast, g.getLast hne, heq, fun e he => ?_, fun e he => ?_⟩
  · rw [heq, List.mem_append, List.mem_singleton] at he
    rcases he with he | rfl
    · exact (hlast e he).1
    · rfl
  · obtain ⟨hstart, hstop⟩ := hlast e he
    rw [Range.length]
    omega

/-- The edits of a group begin in front of those of the groups behind it. -/
lemma pairwise_groups (h : edits.Pairwise fun e f => e.range.stop ≤ f.range.start) :
    (groups edits).Pairwise fun g h =>
      ∀ e ∈ g, ∀ f ∈ h, e.range.stop ≤ f.range.start ∧ e.range.start < f.range.start := by
  have hgroups := fun g (hg : g ∈ groups edits) => exists_isGroup h hg
  have hcut : (groups edits).IsChain _ := List.isChain_getLast_head_splitBy _ edits
  have hflatten : (groups edits).flatten = edits := List.flatten_splitBy ..
  rw [← hflatten] at h
  have happart := (List.pairwise_flatten.mp h).2
  generalize groups edits = gs at hgroups hcut happart
  clear h hflatten
  induction gs with
  | nil => exact .nil
  | cons g gs ih =>
    obtain ⟨hfirst, hlater⟩ := List.pairwise_cons.mp happart
    have ih := ih (fun h hh => hgroups h (List.mem_cons_of_mem g hh)) hcut.tail hlater
    refine List.pairwise_cons.mpr ⟨fun k hk e he f hf => ⟨hfirst k hk e he f hf, ?_⟩, ih⟩
    obtain ⟨start, _, _, hgroup⟩ := hgroups g List.mem_cons_self
    cases gs with
    | nil => cases hk
    | cons k' gs =>
      -- the next group begins at another offset, and no group behind it begins in front of it
      obtain ⟨hg, hk', hne⟩ := (List.isChain_cons_cons.mp hcut).1
      have hhead : (k'.head hk') ∈ k' := List.head_mem hk'
      have hle := hfirst k' List.mem_cons_self _ (List.getLast_mem hg) _ hhead
      have hlast := hgroup.start _ (List.getLast_mem hg)
      have hbegin := hgroup.start e he
      have hstop := (g.getLast hg).range.start_le_stop
      have hne : (g.getLast hg).range.start ≠ (k'.head hk').range.start := by simpa using hne
      rcases List.mem_cons.mp hk with rfl | hk
      · obtain ⟨start', _, _, hgroup'⟩ := hgroups k (List.mem_cons_of_mem g List.mem_cons_self)
        have := hgroup'.start _ hhead
        have := hgroup'.start f hf
        omega
      · have := ((List.pairwise_cons.mp ih).1 k hk _ hhead f hf).2
        omega

/-- Groups that begin one behind the other are applied from the last to the first. -/
lemma lastFirst_flatten {gs : List (List TextEdit)}
    (hgroups : ∀ g ∈ gs, ∃ start, ∀ e ∈ g, e.range.start = start)
    (horder : gs.Pairwise fun g h => ∀ e ∈ g, ∀ f ∈ h, e.range.start < f.range.start) :
    lastFirst gs.flatten = gs.reverse.flatten := by
  induction gs with
  | nil => simp [lastFirst]
  | cons g gs ih =>
    obtain ⟨hfirst, hlater⟩ := List.pairwise_cons.mp horder
    obtain ⟨start, hstart⟩ := hgroups g List.mem_cons_self
    have ih := ih (fun h hh => hgroups h (List.mem_cons_of_mem g hh)) hlater
    rw [List.flatten_cons, List.reverse_cons, List.flatten_append, List.flatten_singleton, ← ih]
    cases g with
    | nil => simp
    | cons e es =>
      refine lastFirst_append hstart fun f hf => ?_
      obtain ⟨h, hh, hf⟩ := List.mem_flatten.mp hf
      rw [← hstart e List.mem_cons_self]
      exact hfirst h hh e List.mem_cons_self f hf

/-- Edits without a text put nothing in. -/
lemma newTexts_eq_nil (h : ∀ e ∈ edits, e.newText = "") : newTexts edits = [] := by
  simp only [newTexts, List.flatMap_eq_nil_iff]
  exact fun e he => by simp [h e he]

/-- Edits in ascending order that lie in a text can be done in one pass. -/
lemma exists_substituteFrom? (front : String) (text : List Char)
    (horder : edits.Pairwise fun e f => e.range.stop ≤ f.range.start)
    (hstart : ∀ e ∈ edits, front.utf8ByteSize ≤ e.range.start)
    (hwithin : ∀ e ∈ edits,
      (between? e.range.start e.range.stop (front.toList ++ text)).isSome = true) :
    ∃ out, substituteFrom? front.utf8ByteSize text edits = some out := by
  induction edits generalizing front text with
  | nil => exact ⟨text, rfl⟩
  | cons e es ih =>
    obtain ⟨hfirst, hlater⟩ := List.pairwise_cons.mp horder
    obtain ⟨part, hpart⟩ := Option.isSome_iff_exists.mp (hwithin e List.mem_cons_self)
    obtain ⟨before, back, htext, hbefore, hlength⟩ := exists_of_between? hpart
    -- the edit begins behind what is in front of the text
    obtain ⟨gap, rfl, rfl⟩ : ∃ gap, before = front.toList ++ gap ∧ text = gap ++ (part ++ back) := by
      have hle := hstart e List.mem_cons_self
      rcases List.append_eq_append_iff.mp htext with ⟨gap, hgap, hrest⟩ | ⟨gap, hgap, hrest⟩
      · exact ⟨gap, hgap, hrest⟩
      · have hnil : gap = [] := by
          have hsize := congrArg (fun cs => (String.ofList cs).utf8ByteSize) hgap
          simp only [String.ofList_toList, String.ofList_append, String.utf8ByteSize_append] at hsize
          have hzero : (String.ofList gap).utf8ByteSize = 0 := by omega
          simpa using String.utf8ByteSize_eq_zero_iff.mp hzero
        subst hnil
        exact ⟨[], by simpa using hgap.symm, by simpa using hrest.symm⟩
    have hfront : (front ++ String.ofList gap).utf8ByteSize = e.range.start := by
      rw [← hbefore, String.ofList_append, String.ofList_toList]
    have hend : (front ++ String.ofList gap ++ String.ofList part).utf8ByteSize = e.range.stop := by
      have hle := e.range.start_le_stop
      rw [String.utf8ByteSize_append, hfront, hlength]
      omega
    obtain ⟨out, hout⟩ := ih (front ++ String.ofList gap ++ String.ofList part) back hlater
      (fun f hf => hend ▸ hfirst f hf) fun f hf => by
        have := hwithin f (List.mem_cons_of_mem e hf)
        simpa using this
    refine ⟨gap ++ e.newText.toList ++ out, substituteFrom?_cons_eq_some.mpr
      ⟨String.ofList gap, String.ofList part, back, out, by simp, ?_, hlength, hend ▸ hout, by simp⟩⟩
    rw [String.utf8ByteSize_append] at hfront
    omega

/-- **Edits in ascending order** that lie in a text, touching ones and several at one offset included, do
what they do in one pass exactly if in each group of edits at one offset, the texts come out as they are
listed: the last edit replaces as many bytes of what the insertions have put in front of its part as the
part has, and what it puts there and leaves behind has to be the texts of the group in their order. In
particular they do if no edit of a group but the last has a text.

**Proof sketch.** The edits are applied group by group from the last to the first, because the order is
stable (`lastFirst_flatten`), and then it is the run of groups (`foldlM_replaceRange?_groups`). -/
theorem applyTextEdits?_eq_substitution_iff {text : String} {edits : List TextEdit}
    (horder : edits.IsChain fun e f => e.range.stop ≤ f.range.start)
    (hwithin : ∀ e ∈ edits, (between? e.range.start e.range.stop text.toList).isSome = true) :
    (∃ out, substituteFrom? 0 text.toList edits = some out ∧
      (applyTextEdits? text edits = some (String.ofList out) ↔
        ∀ g ∈ groups edits, stacked? text.toList g = some (newTexts g))) ∧
    ∀ g ∈ groups edits, (∀ e ∈ g.dropLast, e.newText = "") →
      stacked? text.toList g = some (newTexts g) := by
  have hpair := pairwise_of_isChain horder
  have hgroups := fun g (hg : g ∈ groups edits) => exists_isGroup hpair hg
  have hbehind := pairwise_groups hpair
  have hflatten : (groups edits).flatten = edits := List.flatten_splitBy ..
  have hsorted : lastFirst edits = (groups edits).reverse.flatten := by
    rw [← lastFirst_flatten (fun g hg => ?_) (hbehind.imp fun hgh e he f hf => (hgh e he f hf).2),
      hflatten]
    obtain ⟨start, _, _, hgroup⟩ := hgroups g hg
    exact ⟨start, hgroup.start⟩
  obtain ⟨out, hout⟩ := exists_substituteFrom? "" text.toList hpair
    (fun _ _ => Nat.zero_le _) hwithin
  refine ⟨⟨out, hout, ?_⟩, fun g hg hsilent => ?_⟩
  · have hrun := (foldlM_replaceRange?_groups "" hgroups
      (hbehind.imp fun hgh e he f hf => (hgh e he f hf).1) (fun _ _ _ _ => Nat.zero_le _)
      (by rw [hflatten]; exact hout)).2
    rw [applyTextEdits?, hsorted]
    constructor
    · intro h
      obtain ⟨cs, hcs, heq⟩ := Option.map_eq_some_iff.mp h
      refine hrun.mp ?_
      rw [String.ofList_injective heq] at hcs
      exact hcs
    · intro h
      have hcs := hrun.mpr h
      rw [show "".toList ++ text.toList = text.toList from rfl] at hcs
      rw [hcs]
      rfl
  · obtain ⟨start, insertions, last, hgroup⟩ := hgroups g hg
    have hedits : last ∈ edits := by
      rw [← hflatten]
      exact List.mem_flatten.mpr ⟨g, hg, by simp [hgroup.eq]⟩
    obtain ⟨part, hpart⟩ := Option.isSome_iff_exists.mp (hwithin last hedits)
    obtain ⟨-, -, -, -, hlength⟩ := exists_of_between? hpart
    have hinsertions : ∀ e ∈ insertions, e.newText = "" := by simpa [hgroup.eq] using hsilent
    have hnone : newTexts insertions = [] := newTexts_eq_nil hinsertions
    have hnone' : newTexts insertions.reverse = [] := newTexts_eq_nil (by simpa using hinsertions)
    have hcut := cutAt?_append (String.ofList part) []
    rw [hlength, String.toList_ofList, List.append_nil] at hcut
    have hcut : cutAt? last.range.length part = some (part, []) := hcut
    have hstacked : stacked? text.toList (insertions ++ [last]) =
        stackOn? part insertions last := by simp [stacked?, hpart]
    rw [hgroup.eq, hstacked, stackOn?, hnone', List.nil_append, hcut, newTexts_append, hnone]
    simp [newTexts]

/-- Edits that touch, one of them an insertion at the end of a replacement and one a deletion, do what they
do in one pass. -/
theorem applyTextEdits?_touching : ∃ edits : List TextEdit,
    (edits.IsChain fun e f => e.range.stop ≤ f.range.start) ∧
    (∀ e ∈ edits, (between? e.range.start e.range.stop "abcdef".toList).isSome = true) ∧
    edits.map (fun e => (e.range.start, e.range.stop, e.newText)) =
      [(0, 1, "X"), (1, 3, ""), (3, 3, "é"), (4, 5, "YZ"), (5, 6, "")] ∧
    applyTextEdits? "abcdef" edits = some "XédYZ" := by
  let edits : List TextEdit :=
    [⟨⟨0, 1, by decide⟩, "X"⟩, ⟨⟨1, 3, by decide⟩, ""⟩, ⟨⟨3, 3, by decide⟩, "é"⟩,
      ⟨⟨4, 5, by decide⟩, "YZ"⟩, ⟨⟨5, 6, by decide⟩, ""⟩]
  have horder : edits.IsChain fun e f => e.range.stop ≤ f.range.start := by decide
  have hwithin : ∀ e ∈ edits,
      (between? e.range.start e.range.stop "abcdef".toList).isSome = true := by decide
  obtain ⟨⟨out, hout, hiff⟩, hsilent⟩ := applyTextEdits?_eq_substitution_iff horder hwithin
  have hpass : substituteFrom? 0 "abcdef".toList edits = some "XédYZ".toList := by decide
  obtain rfl : out = "XédYZ".toList := Option.some.inj (hout.symm.trans hpass)
  refine ⟨edits, horder, hwithin, rfl, ?_⟩
  have happlied := hiff.mpr fun g hg => hsilent g hg (by revert g; decide)
  simpa using happlied

/-- An insertion in front of a replacement at the same offset is lost: the replacement replaces what has
been inserted. -/
theorem applyTextEdits?_insertion_lost : ∃ edits : List TextEdit,
    (edits.IsChain fun e f => e.range.stop ≤ f.range.start) ∧
    (∀ e ∈ edits, (between? e.range.start e.range.stop "ab".toList).isSome = true) ∧
    edits.map (fun e => (e.range.start, e.range.stop, e.newText)) = [(0, 0, "x"), (0, 1, "y")] ∧
    substituteFrom? 0 "ab".toList edits = some "xyb".toList ∧
    applyTextEdits? "ab" edits = some "yab" := by
  let edits : List TextEdit := [⟨⟨0, 0, by decide⟩, "x"⟩, ⟨⟨0, 1, by decide⟩, "y"⟩]
  refine ⟨edits, by decide, by decide, rfl, by decide, ?_⟩
  have hlisted : lastFirst edits = edits := by simp [lastFirst, edits, List.mergeSort]
  rw [applyTextEdits?, hlisted]
  decide

end TreeLint
