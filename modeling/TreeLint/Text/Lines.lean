/-!
# Lines and bytes

A text as a list of lines, each with the line end that closes it, and as a sequence of characters
that is cut at byte offsets.

## Main definitions

* `TreeLint.splitLines` — the lines of a text.
* `TreeLint.lineOffsets` — the offsets at which lines begin.
* `TreeLint.cutAt?` — a text cut at a byte offset, if that lies between two characters.
* `TreeLint.between?` — the part of a text between two byte offsets.

## Main results

* `TreeLint.flatten_splitLines`, `TreeLint.join_splitLines` — the lines of a text spell the text.
* `TreeLint.getElem?_lineOffsets` — the offset of a line is the size of all lines before it.
* `TreeLint.cutAt?_append`, `TreeLint.between?_append` — cuts between the parts of a text.
-/

namespace TreeLint

/-- The lines of a text, as characters, given the characters of the current line in reverse. A line
ends behind a line feed, a carriage return, or one behind the other; the last line need not end. -/
def linesFrom (current : List Char) : List Char → List (List Char)
  | [] => if current.isEmpty then [] else [current.reverse]
  | '\r' :: '\n' :: cs => ('\n' :: '\r' :: current).reverse :: linesFrom [] cs
  | c :: cs =>
    if c = '\n' ∨ c = '\r' then (c :: current).reverse :: linesFrom [] cs
    else linesFrom (c :: current) cs

/-- The lines of a text, each with its end. -/
def splitLines (text : String) : List String := (linesFrom [] text.toList).map String.ofList

/-- The characters of the current line and of the rest of the text are those of the lines. -/
theorem flatten_linesFrom (current cs : List Char) :
    (linesFrom current cs).flatten = current.reverse ++ cs := by
  fun_induction linesFrom current cs <;> simp_all

/-- The lines of a text spell the text. -/
theorem flatten_splitLines (text : String) :
    ((splitLines text).map String.toList).flatten = text.toList := by
  simp [splitLines, Function.comp_def, flatten_linesFrom]

/-- The lines of a text, one behind the other, are the text. -/
theorem join_splitLines (text : String) : String.join (splitLines text) = text := by
  rw [← String.toList_inj, String.toList_join, List.flatMap_def, flatten_splitLines]

/-- No line is empty, except that there may be a current line without characters. -/
theorem ne_nil_of_mem_linesFrom (current cs : List Char) : ∀ line ∈ linesFrom current cs, line ≠ [] := by
  fun_induction linesFrom current cs <;> simp_all

/-- No line of a text is empty. -/
theorem ne_empty_of_mem_splitLines {text line : String} (h : line ∈ splitLines text) : line ≠ "" := by
  obtain ⟨cs, hcs, rfl⟩ := List.mem_map.mp h
  simpa using ne_nil_of_mem_linesFrom [] text.toList cs hcs

/-- The offset at which each of some lines begins, and that behind the last of them. -/
def lineOffsets (start : Nat) : List String → List Nat
  | [] => [start]
  | line :: lines => start :: lineOffsets (start + line.utf8ByteSize) lines

/-- A line begins behind all lines before it. -/
theorem getElem?_lineOffsets {start n : Nat} {lines : List String} (h : n ≤ lines.length) :
    (lineOffsets start lines)[n]? = some (start + (String.join (lines.take n)).utf8ByteSize) := by
  induction lines generalizing start n with
  | nil =>
    obtain rfl := Nat.le_zero.mp h
    simp [lineOffsets]
  | cons line lines ih =>
    cases n with
    | zero => simp [lineOffsets]
    | succ n =>
      rw [lineOffsets, List.getElem?_cons_succ, ih (Nat.le_of_succ_le_succ h), List.take_succ_cons,
        String.join_cons, String.utf8ByteSize_append, Nat.add_assoc]

/-- The characters before and behind a byte offset. There is no cut inside a character or behind the
end. -/
def cutAt? : Nat → List Char → Option (List Char × List Char)
  | 0, cs => some ([], cs)
  | _ + 1, [] => none
  | n + 1, c :: cs =>
    if c.utf8Size ≤ n + 1 then
      (cutAt? (n + 1 - c.utf8Size) cs).map fun (front, rest) => (c :: front, rest)
    else none

/-- A text of characters has the bytes of the first one and of the others. -/
theorem utf8ByteSize_ofList_cons (c : Char) (cs : List Char) :
    (String.ofList (c :: cs)).utf8ByteSize = c.utf8Size + (String.ofList cs).utf8ByteSize := by
  rw [← String.utf8ByteSize_singleton, ← String.utf8ByteSize_append]
  simp

/-- A text is cut behind its first part. -/
theorem cutAt?_append (front : String) (rest : List Char) :
    cutAt? front.utf8ByteSize (front.toList ++ rest) = some (front.toList, rest) := by
  suffices h : ∀ cs : List Char,
      cutAt? (String.ofList cs).utf8ByteSize (cs ++ rest) = some (cs, rest) by
    simpa using h front.toList
  intro cs
  induction cs with
  | nil => simp [cutAt?]
  | cons c cs ih =>
    obtain ⟨n, hn⟩ := Nat.exists_eq_succ_of_ne_zero (Nat.ne_of_gt c.utf8Size_pos)
    rw [utf8ByteSize_ofList_cons, hn, Nat.succ_add, List.cons_append, cutAt?, hn, if_pos (by omega)]
    have hrest : n + (String.ofList cs).utf8ByteSize + 1 - (n + 1) =
        (String.ofList cs).utf8ByteSize := by omega
    rw [hrest, ih]
    rfl

/-- A text is cut into parts of which the first has as many bytes as the offset says. -/
theorem cutAt?_eq_some_iff {n : Nat} {text front rest : List Char} : cutAt? n text = some (front, rest) ↔
    text = front ++ rest ∧ (String.ofList front).utf8ByteSize = n := by
  constructor
  · intro h
    fun_induction cutAt? n text generalizing front with
    | case1 cs =>
      cases h
      exact ⟨rfl, by simp⟩
    | case2 => cases h
    | case3 n c cs hle ih =>
      obtain ⟨⟨front, rest'⟩, hcut, heq⟩ := Option.map_eq_some_iff.mp h
      obtain ⟨rfl, rfl⟩ := Prod.mk.inj heq
      obtain ⟨rfl, hsize⟩ := ih hcut
      refine ⟨rfl, ?_⟩
      rw [utf8ByteSize_ofList_cons, hsize]
      omega
    | case4 => cases h
  · rintro ⟨rfl, rfl⟩
    simpa using cutAt?_append (String.ofList front) rest

/-- The characters between two byte offsets. There are none if the offsets are out of order or if the
text cannot be cut at them. -/
def between? (start stop : Nat) (text : List Char) : Option (List Char) :=
  if start ≤ stop then do
    let (_, rest) ← cutAt? start text
    let (part, _) ← cutAt? (stop - start) rest
    return part
  else none

/-- The middle of three parts stands between the offsets of its ends. -/
theorem between?_append (front part : String) (rest : List Char) :
    between? front.utf8ByteSize (front.utf8ByteSize + part.utf8ByteSize)
      (front.toList ++ (part.toList ++ rest)) = some part.toList := by
  rw [between?, if_pos (Nat.le_add_right ..), cutAt?_append, Nat.add_sub_cancel_left]
  show ((cutAt? part.utf8ByteSize (part.toList ++ rest)).bind fun p => some p.1) = some part.toList
  rw [cutAt?_append]
  rfl

end TreeLint
