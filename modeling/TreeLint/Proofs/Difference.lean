import Mathlib.Data.List.Basic
import TreeLint.Analysis.Analyzer
import TreeLint.Proofs.Editing
import TreeLint.Proofs.Groups

/-!
# Edits that lead from one text to another

Edits are derived from a comparison of two texts line by line. Whatever algorithm compares the texts, as
long as its operations lead from the old lines to the new ones, the edits stand apart from each other,
each of them changes something, and applied to the old text they yield the new one.

The operations are put together to changes first, for which a pending change is kept until equal lines
follow. What the operations say is carried over to the changes (`LineScript.ChangesFrom`), and from them
to the edits.

## Main definitions

* `TreeLint.textBetween` — the text of the lines between two positions.
* `TreeLint.LineScript.LeadsFrom` — a comparison leads from one text to another.
* `TreeLint.LineScript.ChangesFrom` — changes lead from two lines to the ends of both texts.
* `TreeLint.LineScript.edit` — the edit that makes a change.

## Main results

* `TreeLint.LineScript.changesFrom_lineChanges` — from operations to changes.
* `TreeLint.LineScript.toEdit?_eq_some`, `TreeLint.LineScript.ChangesFrom.substituteFrom?_edits` — from
  changes to edits, and what the edits do.
* `TreeLint.deriveTextEditsBy?_sound` — derived edits lead from the old text to the new one.
-/

namespace TreeLint

/-! ## Texts of lines -/

/-- The text of the lines between two positions. -/
def textBetween (lines : List String) (a b : Nat) : String := String.join ((lines.take b).drop a)

section TextBetween

variable {lines : List String} {a b c : Nat}

/-- The text of the first lines. -/
lemma textBetween_zero (lines : List String) (b : Nat) :
    textBetween lines 0 b = String.join (lines.take b) := rfl

/-- There is no text between a position and itself. -/
lemma textBetween_self (lines : List String) (a : Nat) : textBetween lines a a = "" := by
  simp [textBetween]

/-- Lines that follow each other. -/
lemma textBetween_append (lines : List String) (hab : a ≤ b) (hbc : b ≤ c) :
    textBetween lines a b ++ textBetween lines b c = textBetween lines a c := by
  rw [textBetween, textBetween, textBetween, ← String.join_append, List.drop_take, List.drop_take,
    List.drop_take]
  congr 1
  have hsplit : (lines.drop a).drop (b - a) = lines.drop b := by
    rw [List.drop_drop, Nat.add_sub_cancel' hab]
  have hlength : c - a = (b - a) + (c - b) := by omega
  rw [hlength, List.take_add, hsplit]

/-- The text of all lines is the whole text. -/
lemma textBetween_length (lines : List String) :
    textBetween lines 0 lines.length = String.join lines := by
  rw [textBetween_zero, List.take_length]

/-- Three parts of the lines behind a position. -/
lemma toList_textBetween {d : Nat} (lines : List String) (hab : a ≤ b) (hbc : b ≤ c) (hcd : c ≤ d) :
    (textBetween lines a d).toList = (textBetween lines a b).toList ++
      ((textBetween lines b c).toList ++ (textBetween lines c d).toList) := by
  rw [← textBetween_append lines (Nat.le_trans hab hbc) hcd, ← textBetween_append lines hab hbc,
    String.toList_append, String.toList_append, List.append_assoc]

/-- The lines of a text are not empty, so that the text between two of them is empty only if there are no
lines between them. -/
lemma textBetween_splitLines_eq_empty_iff (text : String) :
    textBetween (splitLines text) a b = "" ↔ ((splitLines text).take b).drop a = [] := by
  rw [textBetween, ← String.toList_inj, String.toList_join]
  refine ⟨fun h => List.eq_nil_iff_forall_not_mem.mpr fun line hline => ?_, fun h => by simp [h]⟩
  have hmem := List.mem_of_mem_take (List.mem_of_mem_drop hline)
  have hempty := List.flatMap_eq_nil_iff.mp h line hline
  exact ne_empty_of_mem_splitLines hmem (String.toList_inj.mp hempty)

end TextBetween

/-! ## Scripts -/

namespace LineScript

variable (s : LineScript)

/-- What an operation of a script must be like. Equal lines are the same lines of both texts, and not
empty. Other lines are not empty in both texts. Lines count as empty if there is no text in them; for
the lines of a text this means that there are none (`textBetween_splitLines_eq_empty_iff`). -/
def Allows (op : LineOp) : Prop :=
  if op.isEqual then
    (s.oldLines.take op.oldStop).drop op.oldStart = (s.newLines.take op.newStop).drop op.newStart ∧
      textBetween s.oldLines op.oldStart op.oldStop ≠ ""
  else
    ¬ (textBetween s.oldLines op.oldStart op.oldStop = "" ∧
      textBetween s.newLines op.newStart op.newStop = "")

instance (op : LineOp) : Decidable (s.Allows op) := by
  unfold Allows
  infer_instance

/-- Operations lead from two lines to the ends of both texts: each begins where the one before it ends. -/
def Follows : Nat → Nat → List LineOp → Prop
  | a, b, [] => a = s.oldLines.length ∧ b = s.newLines.length
  | a, b, op :: ops => (op.oldStart = a ∧ op.newStart = b) ∧ (a ≤ op.oldStop ∧ b ≤ op.newStop) ∧
      s.Allows op ∧ Follows op.oldStop op.newStop ops

instance decidableFollows : ∀ (a b : Nat) (ops : List LineOp), Decidable (s.Follows a b ops)
  | _, _, [] => inferInstanceAs (Decidable (_ ∧ _))
  | _, _, op :: ops =>
    have := decidableFollows op.oldStop op.newStop ops
    inferInstanceAs (Decidable (_ ∧ _ ∧ _ ∧ _))

/-- A script leads from one text to another: its lines spell the texts, and its operations lead from the
first lines to the ends. -/
structure LeadsFrom (old new : String) : Prop where
  /-- The old lines spell the old text. -/
  old : String.join s.oldLines = old
  /-- The new lines spell the new text. -/
  new : String.join s.newLines = new
  /-- The operations lead from the first lines to the ends. -/
  ops : s.Follows 0 0 s.ops

/-- A change of lines that are there, of which some are not empty. -/
structure IsChange (c : LineChange) : Prop where
  /-- The old lines are in order. -/
  old_le : c.oldStart ≤ c.oldStop
  /-- The old lines are there. -/
  old_length : c.oldStop ≤ s.oldLines.length
  /-- The new lines are in order. -/
  new_le : c.newStart ≤ c.newStop
  /-- The new lines are there. -/
  new_length : c.newStop ≤ s.newLines.length
  /-- Some lines are not empty. -/
  nonempty : ¬ (textBetween s.oldLines c.oldStart c.oldStop = "" ∧
    textBetween s.newLines c.newStart c.newStop = "")

/-- Changes lead from two lines to the ends of both texts: what is between them is the same in both
texts, and not empty. -/
inductive ChangesFrom : Nat → Nat → List LineChange → Prop
  /-- The rests of the texts are the same. -/
  | done {a b : Nat} (rest : textBetween s.oldLines a s.oldLines.length =
      textBetween s.newLines b s.newLines.length) : ChangesFrom a b []
  /-- The same lines are in front of a change in both texts. -/
  | change {a b : Nat} {c : LineChange} {cs : List LineChange} (old : a ≤ c.oldStart)
      (new : b ≤ c.newStart)
      (gap : textBetween s.oldLines a c.oldStart = textBetween s.newLines b c.newStart)
      (isChange : s.IsChange c)
      (apart : ∀ d ∈ cs, textBetween s.oldLines c.oldStop d.oldStart ≠ "")
      (rest : ChangesFrom c.oldStop c.newStop cs) : ChangesFrom a b (c :: cs)

variable {s} {a b a' b' : Nat} {op : LineOp} {ops : List LineOp} {c : LineChange}
  {cs : List LineChange}

/-! ## From operations to changes -/

/-- Operations begin within both texts. -/
lemma Follows.le_length (h : s.Follows a b ops) :
    a ≤ s.oldLines.length ∧ b ≤ s.newLines.length := by
  induction ops generalizing a b with
  | nil => exact ⟨Nat.le_of_eq h.1, Nat.le_of_eq h.2⟩
  | cons op ops ih =>
    obtain ⟨-, ⟨hold, hnew⟩, -, hrest⟩ := h
    exact ⟨Nat.le_trans hold (ih hrest).1, Nat.le_trans hnew (ih hrest).2⟩

/-- Changes that lead from two lines begin behind them. -/
lemma ChangesFrom.le_oldStart (h : s.ChangesFrom a b cs) : ∀ d ∈ cs, a ≤ d.oldStart := by
  induction h with
  | done => simp
  | change old _ _ isChange _ _ ih =>
    refine List.forall_mem_cons.mpr ⟨old, fun d hd => ?_⟩
    exact Nat.le_trans old (Nat.le_trans isChange.old_le (ih d hd))

/-- Equal lines in front of changes. -/
lemma ChangesFrom.prepend (h : s.ChangesFrom a' b' cs) (ha : a ≤ a') (hb : b ≤ b')
    (ha' : a' ≤ s.oldLines.length) (hb' : b' ≤ s.newLines.length)
    (heq : textBetween s.oldLines a a' = textBetween s.newLines b b') : s.ChangesFrom a b cs := by
  cases h with
  | done rest =>
    apply ChangesFrom.done
    rw [← textBetween_append _ ha ha', heq, rest, textBetween_append _ hb hb']
  | change old new gap isChange apart rest =>
    refine .change (Nat.le_trans ha old) (Nat.le_trans hb new) ?_ isChange apart rest
    rw [← textBetween_append _ ha old, heq, gap, textBetween_append _ hb new]

/-- One operation that is not about equal lines is a change. -/
lemma isChange_ofOp (hop : s.Follows a b (op :: ops)) (hne : op.isEqual = false) :
    s.IsChange (.ofOp op) := by
  obtain ⟨⟨rfl, rfl⟩, ⟨hold, hnew⟩, hallows, hrest⟩ := hop
  rw [Allows, hne, if_neg Bool.false_ne_true] at hallows
  exact ⟨hold, hrest.le_length.1, hnew, hrest.le_length.2, hallows⟩

/-- A change can be extended by an operation that begins where it ends. -/
lemma IsChange.extend (hc : s.IsChange c) (hop : s.Follows c.oldStop c.newStop (op :: ops)) :
    s.IsChange (c.extend op) := by
  obtain ⟨-, ⟨hold, hnew⟩, -, hrest⟩ := hop
  refine ⟨Nat.le_trans hc.old_le hold, hrest.le_length.1, Nat.le_trans hc.new_le hnew,
    hrest.le_length.2, ?_⟩
  rintro ⟨hemptyOld, hemptyNew⟩
  refine hc.nonempty ⟨?_, ?_⟩
  · rw [LineChange.extend, ← textBetween_append _ hc.old_le hold] at hemptyOld
    exact (String.append_eq_empty_iff.mp hemptyOld).1
  · rw [LineChange.extend, ← textBetween_append _ hc.new_le hnew] at hemptyNew
    exact (String.append_eq_empty_iff.mp hemptyNew).1

/-- **From operations to changes**: the changes that operations are put together to lead from where the
operations begin, or from where the pending change begins, to the ends of both texts.

**Proof sketch.** Induction on the operations. Equal lines end the pending change, and since they are not
empty, all further changes are apart from it. Any other operation extends the pending change, or becomes
it. -/
theorem changesFrom_lineChanges (h : s.Follows a b ops) :
    s.ChangesFrom a b (lineChanges none ops) ∧
      ∀ c, s.IsChange c → c.oldStop = a → c.newStop = b →
        s.ChangesFrom c.oldStart c.newStart (lineChanges (some c) ops) := by
  induction ops generalizing a b with
  | nil =>
    obtain ⟨rfl, rfl⟩ := h
    have hdone : s.ChangesFrom s.oldLines.length s.newLines.length [] :=
      .done (by rw [textBetween_self, textBetween_self])
    refine ⟨hdone, fun c hc hold hnew => ?_⟩
    exact .change (Nat.le_refl _) (Nat.le_refl _) (by rw [textBetween_self, textBetween_self]) hc
      (by simp) (hold ▸ hnew ▸ hdone)
  | cons op ops ih =>
    have hop := h
    obtain ⟨⟨hstart, hstart'⟩, ⟨hold, hnew⟩, hallows, hrest⟩ := h
    obtain ⟨hnone, hsome⟩ := ih hrest
    cases heq : op.isEqual with
    | true =>
      rw [Allows, heq, if_pos rfl, hstart, hstart'] at hallows
      obtain ⟨hsame, hnonempty⟩ := hallows
      have hprepend : s.ChangesFrom a b (lineChanges none ops) :=
        hnone.prepend hold hnew hrest.le_length.1 hrest.le_length.2 (congrArg String.join hsame)
      rw [lineChanges, heq, if_pos rfl]
      refine ⟨hprepend, fun c hc hcold hcnew => ?_⟩
      rw [lineChanges, heq, if_pos rfl]
      refine .change (Nat.le_refl _) (Nat.le_refl _) (by rw [textBetween_self, textBetween_self]) hc
        (fun d hd hempty => ?_) (hcold ▸ hcnew ▸ hprepend)
      rw [hcold, ← textBetween_append _ hold (hnone.le_oldStart d hd)] at hempty
      exact hnonempty (String.append_eq_empty_iff.mp hempty).1
    | false =>
      rw [lineChanges, heq, if_neg Bool.false_ne_true]
      refine ⟨hstart ▸ hstart' ▸ hsome _ (isChange_ofOp hop heq) rfl rfl, ?_⟩
      rintro c hc rfl rfl
      rw [lineChanges, heq, if_neg Bool.false_ne_true]
      exact hsome _ (hc.extend hop) rfl rfl

/-! ## From changes to edits -/

/-- The edit that makes a change. -/
def edit (s : LineScript) (c : LineChange) : TextEdit where
  range := .ofLength (textBetween s.oldLines 0 c.oldStart).utf8ByteSize
    (textBetween s.oldLines c.oldStart c.oldStop).utf8ByteSize
  newText := textBetween s.newLines c.newStart c.newStop

/-- The edit that makes a change ends where the old lines of the change end. -/
lemma stop_edit (hc : s.IsChange c) :
    (s.edit c).range.stop = (textBetween s.oldLines 0 c.oldStop).utf8ByteSize := by
  rw [← textBetween_append _ (Nat.zero_le _) hc.old_le, String.utf8ByteSize_append]
  rfl

/-- The edit of a change is found from the offsets of the lines, if these fit into 32 bits. -/
lemma toEdit?_eq_some (hc : s.IsChange c)
    (hsize : (String.join s.oldLines).utf8ByteSize ≤ maxOffset) :
    c.toEdit? (lineOffsets 0 s.oldLines) (lineOffsets 0 s.newLines)
      (String.join s.newLines).toList = some (s.edit c) := by
  have hoffset : ∀ {lines : List String} {n : Nat}, n ≤ lines.length →
      (lineOffsets 0 lines)[n]? = some (textBetween lines 0 n).utf8ByteSize := by
    intro lines n hn
    rw [getElem?_lineOffsets hn, Nat.zero_add, textBetween_zero]
  have hrange : Range.ofWrapped? (textBetween s.oldLines 0 c.oldStart).utf8ByteSize
      (textBetween s.oldLines 0 c.oldStop).utf8ByteSize = some (s.edit c).range := by
    rw [← stop_edit hc]
    refine Range.ofWrapped?_eq_some (s.edit c).range.start_le_stop (Nat.le_trans ?_ hsize)
    rw [stop_edit hc, ← textBetween_length, ← textBetween_append _ (Nat.zero_le _) hc.old_length,
      String.utf8ByteSize_append]
    exact Nat.le_add_right ..
  have hnew : between? (textBetween s.newLines 0 c.newStart).utf8ByteSize
      (textBetween s.newLines 0 c.newStop).utf8ByteSize (String.join s.newLines).toList =
        some (s.edit c).newText.toList := by
    rw [← textBetween_length, toList_textBetween _ (Nat.zero_le _) hc.new_le hc.new_length,
      ← textBetween_append _ (Nat.zero_le _) hc.new_le, String.utf8ByteSize_append]
    exact between?_append ..
  rw [LineChange.toEdit?, hoffset (Nat.le_trans hc.old_le hc.old_length), hoffset hc.old_length,
    hoffset (Nat.le_trans hc.new_le hc.new_length), hoffset hc.new_length]
  show (Range.ofWrapped? _ _).bind (fun range => (between? _ _ _).bind fun newText =>
    some (TextEdit.mk range (String.ofList newText))) = _
  rw [hrange, Option.bind_some, hnew, Option.bind_some, String.ofList_toList]

/-- **What the edits do**: they turn the rest of the old text into the rest of the new one. -/
theorem ChangesFrom.substituteFrom?_edits (h : s.ChangesFrom a b cs) :
    substituteFrom? (textBetween s.oldLines 0 a).utf8ByteSize
      (textBetween s.oldLines a s.oldLines.length).toList (cs.map s.edit) =
        some (textBetween s.newLines b s.newLines.length).toList := by
  induction h with
  | done rest => rw [List.map_nil, substituteFrom?, rest]
  | @change a b c cs old new gap isChange apart rest ih =>
    rw [List.map_cons, substituteFrom?_cons_eq_some]
    refine ⟨textBetween s.oldLines a c.oldStart, textBetween s.oldLines c.oldStart c.oldStop, _, _,
      ?cut, ?front, ?middle, (stop_edit isChange).symm ▸ ih, ?result⟩
    case cut => exact toList_textBetween _ old isChange.old_le isChange.old_length
    case front =>
      show _ = (textBetween s.oldLines 0 c.oldStart).utf8ByteSize - _
      rw [← textBetween_append _ (Nat.zero_le a) old, String.utf8ByteSize_append,
        Nat.add_sub_cancel_left]
    case middle => exact (Range.length_ofLength _ _).symm
    case result =>
      rw [gap, toList_textBetween _ new isChange.new_le isChange.new_length, List.append_assoc]
      rfl

/-- The edits stand apart. -/
lemma ChangesFrom.pairwise_edits (h : s.ChangesFrom a b cs) :
    (cs.map s.edit).Pairwise fun e f => e.range.stop < f.range.start := by
  induction h with
  | done => exact .nil
  | @change a b c cs old new gap isChange apart rest ih =>
    refine List.pairwise_cons.mpr ⟨List.forall_mem_map.mpr fun d hd => ?_, ih⟩
    have hpos : 0 < (textBetween s.oldLines c.oldStop d.oldStart).utf8ByteSize :=
      Nat.pos_of_ne_zero fun hzero => apart d hd (String.utf8ByteSize_eq_zero_iff.mp hzero)
    show _ < (textBetween s.oldLines 0 d.oldStart).utf8ByteSize
    rw [stop_edit isChange, ← textBetween_append _ (Nat.zero_le _) (rest.le_oldStart d hd),
      String.utf8ByteSize_append]
    omega

/-- Every change is of lines that are there. -/
lemma ChangesFrom.isChange (h : s.ChangesFrom a b cs) : ∀ c ∈ cs, s.IsChange c := by
  induction h with
  | done => simp
  | change _ _ _ isChange _ _ ih => exact List.forall_mem_cons.mpr ⟨isChange, ih⟩

/-- An edit changes something. -/
lemma IsChange.edit_ne (hc : s.IsChange c) :
    ¬ ((s.edit c).range.isEmpty = true ∧ (s.edit c).newText.isEmpty = true) := by
  rintro ⟨hrange, hnew⟩
  have hlength : (textBetween s.oldLines c.oldStart c.oldStop).utf8ByteSize = 0 := by
    have hstop : (s.edit c).range.start = (s.edit c).range.stop := by
      simpa [Range.isEmpty] using hrange
    simpa [edit, Range.ofLength] using hstop
  exact hc.nonempty ⟨String.utf8ByteSize_eq_zero_iff.mp hlength, String.isEmpty_iff.mp hnew⟩

end LineScript

/-! ## Derived edits -/

open LineScript in
/-- **Derived edits lead from the old text to the new one**, for any comparison of the texts whose lines
spell them and whose operations lead from the first lines to the ends, if the offsets of the old text fit
into 32 bits.

The edits are in the order of the text, no two of them touch, each of them changes something, and applied
to the old text they yield the new one. The same edits lead from the text of a tree to that of its fixed
tree.

**Proof sketch.** The operations are put together to changes with lines between them that are the same in
both texts and not empty (`changesFrom_lineChanges`). In one pass the edits of the changes turn the old
text into the new one (`ChangesFrom.substituteFrom?_edits`), and since they stand apart, they do the same
if they are applied from behind (`applyTextEdits?_eq_some`). -/
theorem deriveTextEditsBy?_sound (compare : String → String → LineScript) {old new : String}
    (hsize : old.utf8ByteSize ≤ maxOffset) (hscript : (compare old new).LeadsFrom old new) :
    ∃ edits, deriveTextEditsBy? compare old new = some edits ∧
      edits.Pairwise (fun e f => e.range.stop < f.range.start) ∧
      (∀ e ∈ edits, ¬ (e.range.isEmpty = true ∧ e.newText.isEmpty = true)) ∧
      applyTextEdits? old edits = some new ∧
      ∀ original fixed reformat, original.text = old → fixed.text = new →
        (FixOutcome.applied fixed reformat).textEditsBy? compare original = some (some edits) := by
  generalize hs : compare old new = s at hscript
  obtain ⟨hold, hnew, hops⟩ := hscript
  obtain ⟨hchanges, -⟩ := changesFrom_lineChanges hops
  have hderive : deriveTextEditsBy? compare old new =
      some ((lineChanges none s.ops).map s.edit) := by
    rw [deriveTextEditsBy?, hs, ← hnew]
    exact mapM_eq fun c hc => toEdit?_eq_some (hchanges.isChange c hc) (hold ▸ hsize)
  have hpairwise := hchanges.pairwise_edits
  refine ⟨_, hderive, hpairwise, ?_, ?_, ?_⟩
  · exact List.forall_mem_map.mpr fun c hc => (hchanges.isChange c hc).edit_ne
  · have horder : TextEdit.InOrder ((lineChanges none s.ops).map s.edit) :=
      hpairwise.imp fun {e f} hef =>
        ⟨Nat.le_of_lt hef, Nat.lt_of_le_of_lt e.range.start_le_stop hef⟩
    have hpass := hchanges.substituteFrom?_edits
    rw [textBetween_self, textBetween_length, textBetween_length, hold, hnew] at hpass
    rw [applyTextEdits?_eq_some horder hpass, String.ofList_toList]
  · rintro original fixed reformat rfl rfl
    show (deriveTextEditsBy? compare original.text fixed.text).map some = _
    rw [hderive, Option.map_some]

/-- A change at the start, in the middle and at the end, where neither text ends with a line end. -/
theorem deriveTextEditsBy?_sound_three : ∃ old new edits, old = "1\n2\n3\n4\n5" ∧
    new = "0\n1\n3\n4\n6\n7" ∧ old.utf8ByteSize ≤ maxOffset ∧
    (compareLines old new).LeadsFrom old new ∧ deriveTextEdits old new = edits ∧
    edits.map (fun e => (e.range.start, e.range.stop, e.newText)) =
      [(0, 0, "0\n"), (2, 4, ""), (8, 9, "6\n7")] ∧
    edits.Pairwise (fun e f => e.range.stop < f.range.start) ∧
    applyTextEdits? old edits = some new := by
  obtain ⟨old, hold⟩ : ∃ old : String, old = "1\n2\n3\n4\n5" := ⟨_, rfl⟩
  obtain ⟨new, hnew⟩ : ∃ new : String, new = "0\n1\n3\n4\n6\n7" := ⟨_, rfl⟩
  have hsize : old.utf8ByteSize ≤ maxOffset := by
    rw [hold]
    decide +kernel
  have hscript : (compareLines old new).LeadsFrom old new := by
    refine ⟨join_splitLines old, join_splitLines new, ?_⟩
    rw [hold, hnew]
    decide +kernel
  obtain ⟨edits, hderive, hpairwise, -, happly, -⟩ :=
    deriveTextEditsBy?_sound compareLines hsize hscript
  have hedits : deriveTextEdits old new = edits := by
    rw [deriveTextEdits, hderive, Option.getD_some]
  refine ⟨old, new, edits, hold, hnew, hsize, hscript, hedits, ?_, hpairwise, happly⟩
  rw [← hedits, hold, hnew]
  decide +kernel

end TreeLint
