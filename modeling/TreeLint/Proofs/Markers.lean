import TreeLint.Proofs.Editing
import TreeLint.Text.Marker

/-!
# Markers read back

Markers are written into a text by inserting them at the ends of ranges. If there is no bar in the text,
reading strips them again and answers the ranges. There is one exception: where a marked range that is not
empty ends behind an opening bracket, this bracket and the bar of the closing marker read as an opening
marker inside of the range.

## Main definitions

* `TreeLint.markers`, `TreeLint.mark?` — the insertions that mark ranges, and a text with its markers.
* `TreeLint.charBefore?` — the character in front of an offset.

## Main results

* `TreeLint.extractFrom_append` — reading passes over a text without bars.
* `TreeLint.extractFrom_marked`, `TreeLint.extractFrom_bracket` — reading a marked range, and one that ends
  behind an opening bracket.
* `TreeLint.extractRanges_mark_iff` — when what has been marked is read back.
-/

namespace TreeLint

/-! ## Writing markers -/

/-- The insertions that mark ranges: a marker at the start and a marker at the end of each. -/
def markers (ranges : List Range) : List TextEdit :=
  ranges.flatMap fun r => [⟨.ofLength r.start 0, "[|"⟩, ⟨.ofLength r.stop 0, "|]"⟩]

/-- A text with markers around some of its ranges, which are given in ascending order. -/
def mark? (text : String) (ranges : List Range) : Option String :=
  (substituteFrom? 0 text.toList (markers ranges)).map String.ofList

/-- The character in front of an offset. -/
def charBefore? (text : List Char) (offset : Nat) : Option Char :=
  (cutAt? offset text).bind fun p => p.1.getLast?

variable {r : Range} {ranges : List Range} {offset : Nat} {opened : Option Nat}
  {front gap part : String} {rest text out : List Char}

/-- The first of some ranges is marked in front of the others. -/
lemma substituteFrom?_markers_cons (hgap : gap.utf8ByteSize = r.start - offset)
    (hpart : part.utf8ByteSize = r.length)
    (hrest : substituteFrom? r.stop rest (markers ranges) = some out) :
    substituteFrom? offset (gap.toList ++ (part.toList ++ rest)) (markers (r :: ranges)) =
      some (gap.toList ++ '[' :: '|' :: (part.toList ++ '|' :: ']' :: out)) := by
  have hclose : substituteFrom? r.start (part.toList ++ rest)
      (⟨.ofLength r.stop 0, "|]"⟩ :: markers ranges) = some (part.toList ++ '|' :: ']' :: out) :=
    substituteFrom?_cons_eq_some.mpr ⟨part, "", rest, out, rfl, hpart, by simp, hrest, by simp⟩
  exact substituteFrom?_cons_eq_some.mpr
    ⟨gap, "", part.toList ++ rest, _, rfl, hgap, by simp, hclose, by simp⟩

/-- Behind the front part of a text, a cut is one of the rest. -/
lemma exists_of_cutAt?_append (hle : front.utf8ByteSize ≤ offset)
    (hcut : (cutAt? offset (front.toList ++ rest)).isSome = true) :
    ∃ (gap : String) (back : List Char), rest = gap.toList ++ back ∧
      front.utf8ByteSize + gap.utf8ByteSize = offset := by
  obtain ⟨⟨before, back⟩, hcut⟩ := Option.isSome_iff_exists.mp hcut
  obtain ⟨heq, hsize⟩ := cutAt?_eq_some_iff.mp hcut
  rcases List.append_eq_append_iff.mp heq with ⟨gap, rfl, rfl⟩ | ⟨gap, hfront, rfl⟩
  · exact ⟨String.ofList gap, back, by simp, by simpa [String.ofList_append] using hsize⟩
  · have hsum := congrArg (fun cs => (String.ofList cs).utf8ByteSize) hfront
    simp only [String.ofList_toList, String.ofList_append, String.utf8ByteSize_append, hsize] at hsum
    obtain rfl : gap = [] := by
      have hzero : (String.ofList gap).utf8ByteSize = 0 := by omega
      simpa using String.utf8ByteSize_eq_zero_iff.mp hzero
    exact ⟨"", rest, by simp, by simpa using Nat.le_antisymm hle (by omega)⟩

/-! ## Reading markers -/

/-- A character that belongs to no marker. -/
lemma extractFrom_cons {c : Char} (hc : c ≠ '|') (hrest : c = '[' → rest.head? ≠ some '|') :
    extractFrom offset opened (c :: rest) =
      (extractFrom (offset + c.utf8Size) opened rest).map fun p => (c :: p.1, p.2) := by
  rw [extractFrom]
  · rfl
  · rintro cs rfl rfl
    exact hrest rfl rfl
  · rintro cs rfl
    exact absurd rfl hc

/-- Reading passes over a text without bars, if its last character does not begin a marker. -/
theorem extractFrom_append (hbar : '|' ∉ front.toList)
    (hlast : front.toList.getLast? = some '[' → rest.head? ≠ some '|') :
    extractFrom offset opened (front.toList ++ rest) =
      (extractFrom (offset + front.utf8ByteSize) opened rest).map fun p =>
        (front.toList ++ p.1, p.2) := by
  suffices h : ∀ (cs : List Char) (offset : Nat), '|' ∉ cs →
      (cs.getLast? = some '[' → rest.head? ≠ some '|') →
      extractFrom offset opened (cs ++ rest) =
        (extractFrom (offset + (String.ofList cs).utf8ByteSize) opened rest).map fun p =>
          (cs ++ p.1, p.2) by
    simpa using h front.toList offset hbar hlast
  intro cs
  induction cs with
  | nil =>
    intro offset _ _
    cases h : extractFrom offset opened rest <;> simp [h, Except.map]
  | cons c cs ih =>
    intro offset hbar hlast
    obtain ⟨hc, hcs⟩ := List.ne_and_not_mem_of_not_mem_cons hbar
    have hhead : c = '[' → (cs ++ rest).head? ≠ some '|' := by
      rintro rfl
      cases cs with
      | nil => exact hlast rfl
      | cons d cs => simpa using (List.ne_and_not_mem_of_not_mem_cons hcs).1.symm
    have hrest := ih (offset + c.utf8Size) hcs fun h => hlast (by
      cases cs with
      | nil => cases h
      | cons d cs => simpa using h)
    rw [List.cons_append, extractFrom_cons (Ne.symm hc) hhead, hrest, utf8ByteSize_ofList_cons,
      Nat.add_assoc]
    cases extractFrom (offset + (c.utf8Size + (String.ofList cs).utf8ByteSize)) opened rest <;> rfl

/-- Reading up to the start of a marked range. -/
lemma extractFrom_open (hgap : '|' ∉ gap.toList) :
    extractFrom offset none (gap.toList ++ '[' :: '|' :: rest) =
      (extractFrom (offset + gap.utf8ByteSize) (some (offset + gap.utf8ByteSize)) rest).map fun p =>
        (gap.toList ++ p.1, p.2) := by
  rw [extractFrom_append hgap fun _ => by simp, extractFrom]
  rfl

/-- **A marked range** is read if it does not end behind an opening bracket. -/
theorem extractFrom_marked (hgap : '|' ∉ gap.toList) (hpart : '|' ∉ part.toList)
    (hlast : part.toList.getLast? ≠ some '[') (hstart : r.start = offset + gap.utf8ByteSize)
    (hstop : r.stop = r.start + part.utf8ByteSize) :
    extractFrom offset none (gap.toList ++ '[' :: '|' :: (part.toList ++ '|' :: ']' :: rest)) =
      match Range.ofWrapped? r.start r.stop with
      | none => .error .wrapped
      | some range => (extractFrom r.stop none rest).map fun p =>
          (gap.toList ++ (part.toList ++ p.1), range :: p.2) := by
  rw [extractFrom_open hgap, extractFrom_append hpart fun h => absurd h hlast, ← hstart, ← hstop,
    extractFrom]
  cases Range.ofWrapped? r.start r.stop with
  | none => rfl
  | some range => cases extractFrom r.stop none rest <;> rfl

/-- **A marked range that ends behind an opening bracket** cannot be read: its end looks like another
start. -/
theorem extractFrom_bracket (hgap : '|' ∉ gap.toList) (hpart : '|' ∉ part.toList)
    (hlast : part.toList.getLast? = some '[') :
    extractFrom offset none (gap.toList ++ '[' :: '|' :: (part.toList ++ '|' :: ']' :: rest)) =
      .error .nested := by
  obtain ⟨front, hfront⟩ := List.getLast?_eq_some_iff.mp hlast
  have hbar : '|' ∉ (String.ofList front).toList := by
    rw [hfront] at hpart
    simpa using fun h => hpart (List.mem_append_left _ h)
  have hsplit : part.toList ++ '|' :: ']' :: rest =
      (String.ofList front).toList ++ '[' :: '|' :: ']' :: rest := by simp [hfront]
  rw [extractFrom_open hgap, hsplit, extractFrom_append hbar fun _ => by simp, extractFrom]
  rfl

example : extractRanges "[|[|]" = .error .nested := by decide +kernel

/-! ## Marking and reading -/

/-- The range between two offsets is itself if 32 bits are enough for them, and no other range ends where
it does otherwise. -/
lemma ofWrapped?_eq_some_self_iff : Range.ofWrapped? r.start r.stop = some r ↔ r.stop ≤ maxOffset := by
  refine ⟨fun h => ?_, fun h => Range.ofWrapped?_eq_some r.start_le_stop h⟩
  rw [(Range.ofBounds?_eq_some_iff.mp h).2]
  exact Nat.le_of_lt_succ (Nat.mod_lt _ (Nat.succ_pos _))

/-- A marked range is read back together with what follows it exactly if both are read back. -/
lemma extractFrom_marked_eq_ok_iff (hgap : '|' ∉ gap.toList) (hpart : '|' ∉ part.toList)
    (hstart : r.start = offset + gap.utf8ByteSize) (hstop : r.stop = r.start + part.utf8ByteSize) :
    extractFrom offset none (gap.toList ++ '[' :: '|' :: (part.toList ++ '|' :: ']' :: out)) =
        .ok (gap.toList ++ (part.toList ++ rest), r :: ranges) ↔
      (r.stop ≤ maxOffset ∧ part.toList.getLast? ≠ some '[') ∧
        extractFrom r.stop none out = .ok (rest, ranges) := by
  by_cases hlast : part.toList.getLast? = some '['
  · simp [extractFrom_bracket hgap hpart hlast, hlast]
  · rw [extractFrom_marked hgap hpart hlast hstart hstop, ← ofWrapped?_eq_some_self_iff]
    cases Range.ofWrapped? r.start r.stop with
    | none => simp
    | some range =>
      cases extractFrom r.stop none out with
      | error e => simp [Except.map]
      | ok p =>
        obtain ⟨text, found⟩ := p
        simp [Except.map, hlast]
        tauto

/-- The last character of a range stands in front of its end. -/
lemma getLast?_ne_some_iff {c : Char} (rest : List Char) (hstart : front.utf8ByteSize + gap.utf8ByteSize = r.start)
    (hstop : r.start + part.utf8ByteSize = r.stop) : part.toList.getLast? ≠ some c ↔
      r.isEmpty = true ∨
        charBefore? (front.toList ++ (gap.toList ++ (part.toList ++ rest))) r.stop ≠ some c := by
  have hcut := cutAt?_append (front ++ gap ++ part) rest
  simp only [String.utf8ByteSize_append, String.toList_append, List.append_assoc, hstart, hstop] at hcut
  rw [charBefore?, hcut, Option.bind_some]
  cases hlast : part.toList.getLast? with
  | none =>
    obtain rfl : part = "" := by simpa using hlast
    have hempty : r.isEmpty = true := by
      rw [String.utf8ByteSize_empty] at hstop
      simpa [Range.isEmpty] using hstop
    simp [hempty]
  | some d =>
    have hpos : part.utf8ByteSize ≠ 0 := by
      rw [ne_eq, String.utf8ByteSize_eq_zero_iff]
      rintro rfl
      cases hlast
    have hempty : r.isEmpty = false := by
      simp only [Range.isEmpty, beq_eq_false_iff_ne]
      omega
    simp [hempty, hlast]

/-- The rest of a text is marked, and it is read back exactly if none of the ranges is too far behind or
ends behind an opening bracket.

**Proof sketch.** By induction on the ranges. Each is cut out of what is left of the text; reading passes
over the gap in front of it and over its part, so what is behind it is read as if it stood alone. -/
theorem exists_markers (front : String) (hbar : '|' ∉ text)
    (horder : ranges.Pairwise fun r q => r.stop ≤ q.start)
    (hfront : ∀ r ∈ ranges, front.utf8ByteSize ≤ r.start)
    (hcut : ∀ r ∈ ranges, (cutAt? r.start (front.toList ++ text)).isSome = true ∧
      (cutAt? r.stop (front.toList ++ text)).isSome = true) :
    ∃ out, substituteFrom? front.utf8ByteSize text (markers ranges) = some out ∧
      (extractFrom front.utf8ByteSize none out = .ok (text, ranges) ↔ ∀ r ∈ ranges, r.stop ≤ maxOffset ∧
        (r.isEmpty = true ∨ charBefore? (front.toList ++ text) r.stop ≠ some '[')) := by
  induction ranges generalizing front text with
  | nil =>
    have hread : extractFrom front.utf8ByteSize none ((String.ofList text).toList ++ []) = _ :=
      extractFrom_append (by simpa using hbar) fun _ => by simp
    refine ⟨text, rfl, iff_of_true ?_ (by simp)⟩
    simpa [extractFrom, Except.map] using hread
  | cons r rs ih =>
    obtain ⟨hr, hrs⟩ := List.pairwise_cons.mp horder
    obtain ⟨hstartCut, hstopCut⟩ := hcut r List.mem_cons_self
    obtain ⟨gap, back, rfl, hstart⟩ := exists_of_cutAt?_append (hfront r List.mem_cons_self) hstartCut
    have hsplit : front.toList ++ (gap.toList ++ back) = (front ++ gap).toList ++ back := by simp
    have hle : (front ++ gap).utf8ByteSize ≤ r.stop := by
      have := r.start_le_stop
      rw [String.utf8ByteSize_append]
      omega
    rw [hsplit] at hstopCut
    obtain ⟨part, rest, rfl, hstop⟩ := exists_of_cutAt?_append hle hstopCut
    rw [String.utf8ByteSize_append, hstart] at hstop
    have hwhole : front.toList ++ (gap.toList ++ (part.toList ++ rest)) =
        (front ++ gap ++ part).toList ++ rest := by simp
    have hsize : (front ++ gap ++ part).utf8ByteSize = r.stop := by
      rw [String.utf8ByteSize_append, String.utf8ByteSize_append, hstart, hstop]
    simp only [List.mem_append, not_or] at hbar
    obtain ⟨out, hout, hread⟩ := ih (front ++ gap ++ part) hbar.2.2 hrs
      (fun q hq => hsize ▸ hr q hq)
      fun q hq => hwhole ▸ hcut q (List.mem_cons_of_mem r hq)
    rw [hsize] at hout hread
    refine ⟨_, substituteFrom?_markers_cons (by omega) (by rw [Range.length]; omega) hout, ?_⟩
    rw [extractFrom_marked_eq_ok_iff hbar.1 hbar.2.1 hstart.symm hstop.symm, hread,
      List.forall_mem_cons, getLast?_ne_some_iff rest hstart hstop, hwhole]

/-- **What has been marked is read back.** Let there be no bar in a text, and let some ranges of it end
between characters, each no later than the next one starts. Then the text can be marked, and reading the
marks answers the text and these ranges exactly if the offsets have 32 bits and no range, unless it is
empty, ends behind an opening bracket. -/
theorem extractRanges_mark_iff {text : String} (hbar : '|' ∉ text.toList)
    (horder : ranges.Pairwise fun r q => r.stop ≤ q.start)
    (hcut : ∀ r ∈ ranges, (cutAt? r.start text.toList).isSome = true ∧
      (cutAt? r.stop text.toList).isSome = true) :
    ∃ marked, mark? text ranges = some marked ∧
      (extractRanges marked = .ok (text, ranges) ↔ ∀ r ∈ ranges, r.stop ≤ maxOffset ∧
        (r.isEmpty = true ∨ charBefore? text.toList r.stop ≠ some '[')) := by
  obtain ⟨out, hout, hread⟩ := exists_markers "" hbar horder (fun _ _ => Nat.zero_le _) hcut
  refine ⟨String.ofList out, congrArg (Option.map String.ofList) hout, Iff.trans ?_ hread⟩
  rw [extractRanges, String.toList_ofList, String.utf8ByteSize_empty]
  cases extractFrom 0 none out with
  | error e => exact ⟨fun h => (by cases h), fun h => (by cases h)⟩
  | ok p =>
    obtain ⟨cs, found⟩ := p
    simp [bind, Except.bind, pure, Except.pure, ← String.toList_inj]

/-- Ranges that touch, of which two are empty, are read back between brackets of the text. -/
theorem extractRanges_mark_touching : ∃ text ranges marked, text = "x[é]y" ∧
    ranges = [⟨0, 1, by decide⟩, ⟨1, 1, by decide⟩, ⟨1, 4, by decide⟩, ⟨4, 5, by decide⟩,
      ⟨6, 6, by decide⟩] ∧
    mark? text ranges = some marked ∧ extractRanges marked = .ok (text, ranges) := by
  obtain ⟨text, htext⟩ : ∃ text, text = "x[é]y" := ⟨_, rfl⟩
  obtain ⟨ranges, hranges⟩ : ∃ ranges : List Range, ranges = [⟨0, 1, by decide⟩, ⟨1, 1, by decide⟩,
    ⟨1, 4, by decide⟩, ⟨4, 5, by decide⟩, ⟨6, 6, by decide⟩] := ⟨_, rfl⟩
  have hbar : '|' ∉ text.toList := by
    rw [htext]
    decide +kernel
  have horder : ranges.Pairwise fun r q => r.stop ≤ q.start := by
    rw [hranges]
    decide
  have hcut : ∀ r ∈ ranges, (cutAt? r.start text.toList).isSome = true ∧
      (cutAt? r.stop text.toList).isSome = true := by
    rw [htext, hranges]
    decide +kernel
  have hfree : ∀ r ∈ ranges, r.stop ≤ maxOffset ∧
      (r.isEmpty = true ∨ charBefore? text.toList r.stop ≠ some '[') := by
    rw [htext, hranges]
    decide +kernel
  obtain ⟨marked, hmark, hread⟩ := extractRanges_mark_iff hbar horder hcut
  exact ⟨text, ranges, marked, htext, hranges, hmark, hread.mpr hfree⟩

end TreeLint
