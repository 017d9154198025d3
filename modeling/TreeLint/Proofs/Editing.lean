import Mathlib.Data.List.Nodup
import TreeLint.Text.Edit

/-!
# Several edits of a text

Edits of a text are applied from behind, so that an edit does not move what those before it are about.
If they stand one behind the other, they can as well be applied at once: what is between them stays,
and the new texts come in the order of the edits.

## Main definitions

* `TreeLint.substituteFrom?` — a text changed by several edits in one pass.
* `TreeLint.TextEdit.InOrder` — edits that stand one behind the other.

## Main results

* `TreeLint.replaceRange?_append` — what one edit does.
* `TreeLint.applyTextEdits?_eq_some` — edits that stand one behind the other, applied from behind, do
  what they do in one pass.
-/

namespace TreeLint

/-- What one pass makes of a text that begins at an offset. What is between the edits stays, and the
edits put their new texts where they stand. -/
def substituteFrom? (offset : Nat) (text : List Char) : List TextEdit → Option (List Char)
  | [] => some text
  | e :: es => do
    let (gap, rest) ← cutAt? (e.range.start - offset) text
    let (_, rest) ← cutAt? e.range.length rest
    return gap ++ e.newText.toList ++ (← substituteFrom? e.range.stop rest es)

/-- The edits stand one behind the other: each begins behind the start of those before it, and not
before their end. -/
def TextEdit.InOrder (edits : List TextEdit) : Prop :=
  edits.Pairwise fun e f => e.range.stop ≤ f.range.start ∧ e.range.start < f.range.start

variable {e : TextEdit} {edits : List TextEdit} {front part : String} {text out : List Char}

/-- One edit puts its new text in the place of the part that it is about. -/
theorem replaceRange?_append (hstart : e.range.start = front.utf8ByteSize)
    (hlength : e.range.length = part.utf8ByteSize) (rest : List Char) :
    replaceRange? (front.toList ++ (part.toList ++ rest)) e =
      some (front.toList ++ e.newText.toList ++ rest) := by
  rw [replaceRange?, hstart, cutAt?_append]
  show ((cutAt? e.range.length (part.toList ++ rest)).bind fun p => some (_ ++ p.2)) = _
  rw [hlength, cutAt?_append]
  rfl

/-- An edit in front of others is done in one pass with them. -/
lemma substituteFrom?_cons_eq_some {offset : Nat} :
    substituteFrom? offset text (e :: edits) = some out ↔
      ∃ (gap part : String) (rest out' : List Char),
        text = gap.toList ++ (part.toList ++ rest) ∧ gap.utf8ByteSize = e.range.start - offset ∧
          part.utf8ByteSize = e.range.length ∧ substituteFrom? e.range.stop rest edits = some out' ∧
            out = gap.toList ++ e.newText.toList ++ out' := by
  constructor
  · intro h
    obtain ⟨⟨gap, behind⟩, hgap, hbehind⟩ := Option.bind_eq_some_iff.mp h
    obtain ⟨⟨part, rest⟩, hpart, hout⟩ := Option.bind_eq_some_iff.mp hbehind
    obtain ⟨out', hrest, heq⟩ := Option.bind_eq_some_iff.mp hout
    cases heq
    obtain ⟨rfl, hgapSize⟩ := cutAt?_eq_some_iff.mp hgap
    obtain ⟨rfl, hpartSize⟩ := cutAt?_eq_some_iff.mp hpart
    exact ⟨String.ofList gap, String.ofList part, rest, out', by simp, hgapSize, hpartSize, hrest,
      by simp⟩
  · rintro ⟨gap, part, rest, out', rfl, hgap, hpart, hrest, rfl⟩
    refine Option.bind_eq_some_iff.mpr ⟨_, hgap ▸ cutAt?_append gap _, ?_⟩
    refine Option.bind_eq_some_iff.mpr ⟨_, hpart ▸ cutAt?_append part rest, ?_⟩
    exact Option.bind_eq_some_iff.mpr ⟨out', hrest, rfl⟩

/-- Edits that stand one behind the other are applied from the last to the first. -/
lemma lastFirst_eq_reverse (h : TextEdit.InOrder edits) : lastFirst edits = edits.reverse := by
  have hstarts : (edits.map fun e => e.range.start).Nodup :=
    List.pairwise_map.mpr (h.imp fun hef => Nat.ne_of_lt hef.2)
  have hreverse : edits.reverse.Pairwise fun e f => f.range.start ≤ e.range.start :=
    List.pairwise_reverse.mpr (h.imp fun hef => Nat.le_of_lt hef.2)
  have hsorted : (lastFirst edits).Pairwise fun e f => f.range.start ≤ e.range.start := by
    refine (List.pairwise_mergeSort (fun e f g hef hfg => ?_) (fun e f => ?_) edits).imp
      of_decide_eq_true
    · exact decide_eq_true (Nat.le_trans (of_decide_eq_true hfg) (of_decide_eq_true hef))
    · simpa using Nat.le_total f.range.start e.range.start
  refine List.Perm.eq_of_pairwise (fun e f he hf hfe hef => ?_) hsorted hreverse
    ((List.mergeSort_perm edits _).trans edits.reverse_perm.symm)
  exact List.inj_on_of_nodup_map hstarts (List.mem_mergeSort.mp he) (List.mem_reverse.mp hf)
    (Nat.le_antisymm hef hfe)

/-- The edits of the rest of a text, applied from behind to the whole text, do with the rest what they
do in one pass, and leave what is in front of it. -/
lemma foldlM_replaceRange?_reverse (front : String) (h : TextEdit.InOrder edits)
    (hstart : ∀ e ∈ edits, front.utf8ByteSize ≤ e.range.start)
    (hpass : substituteFrom? front.utf8ByteSize text edits = some out) :
    edits.reverse.foldlM replaceRange? (front.toList ++ text) = some (front.toList ++ out) := by
  induction edits generalizing front text out with
  | nil =>
    cases hpass
    rfl
  | cons e es ih =>
    obtain ⟨gap, part, rest, out', rfl, hgap, hpart, hrest, rfl⟩ :=
      substituteFrom?_cons_eq_some.mp hpass
    obtain ⟨hhead, htail⟩ := List.pairwise_cons.mp h
    have hbegin : e.range.start = (front ++ gap).utf8ByteSize := by
      have := hstart e List.mem_cons_self
      rw [String.utf8ByteSize_append]
      omega
    have hend : e.range.stop = (front ++ gap ++ part).utf8ByteSize := by
      have := e.range.start_le_stop
      rw [String.utf8ByteSize_append, ← hbegin, hpart, Range.length]
      omega
    have hes := ih (front ++ gap ++ part) htail (fun f hf => hend ▸ (hhead f hf).1)
      (hend ▸ hrest)
    have hassoc : front.toList ++ (gap.toList ++ (part.toList ++ rest)) =
        (front ++ gap ++ part).toList ++ rest := by simp
    rw [List.reverse_cons, List.foldlM_append, hassoc, hes]
    show (replaceRange? ((front ++ gap ++ part).toList ++ out') e).bind some = _
    rw [String.toList_append, List.append_assoc, replaceRange?_append hbegin hpart.symm]
    simp

/-- **Edits that stand one behind the other**, applied from behind, do what they do in one pass. -/
theorem applyTextEdits?_eq_some {text : String} (h : TextEdit.InOrder edits)
    (hpass : substituteFrom? 0 text.toList edits = some out) :
    applyTextEdits? text edits = some (String.ofList out) := by
  have hfold := foldlM_replaceRange?_reverse "" h (fun _ _ => Nat.zero_le _) hpass
  rw [applyTextEdits?, lastFirst_eq_reverse h]
  simpa using congrArg (Option.map String.ofList) hfold

end TreeLint
