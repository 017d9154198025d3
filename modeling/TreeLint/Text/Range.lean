/-!
# Ranges of text

A range is a half-open interval of UTF-8 byte offsets. Every part of the library that speaks about
a place in a text, a tree or a file speaks of it as a `Range`; the invariant that a range does not
end before it starts is part of the type.

## Main definitions

* `TreeLint.Range` — a half-open interval of byte offsets.
* `TreeLint.Range.ofBounds?` — the range between two offsets, if they are in order.
* `TreeLint.Range.ofWrapped?` — the same, for offsets of which only 32 bits are kept.
* `TreeLint.Range.contains`, `TreeLint.Range.overlaps`, `TreeLint.Range.cover` — inclusion, strict
  overlap and the smallest range around two others.
* `TreeLint.Range.relation` — the three-way position of one range against another, by which the
  children of a node are searched.
-/

namespace TreeLint

/-- The largest offset that a range or a span can name: offsets are 32-bit numbers. -/
def maxOffset : Nat := 4294967295

/-- A half-open interval of byte offsets. -/
structure Range where
  /-- The offset of the first byte. -/
  start : Nat
  /-- The offset just behind the last byte. -/
  stop : Nat
  /-- A range does not end before it starts. -/
  start_le_stop : start ≤ stop := by omega
deriving DecidableEq, Repr

namespace Range

/-- The range between two offsets; there is none if they are out of order. -/
def ofBounds? (start stop : Nat) : Option Range :=
  if h : start ≤ stop then some ⟨start, stop, h⟩ else none

/-- The range between two offsets of which 32 bits are kept; there is none if these are out of
order. -/
def ofWrapped? (start stop : Nat) : Option Range :=
  ofBounds? (start % (maxOffset + 1)) (stop % (maxOffset + 1))

/-- The range of a given length that begins at `start`. -/
def ofLength (start length : Nat) : Range := ⟨start, start + length, Nat.le_add_right ..⟩

/-- The number of bytes in the range. -/
def length (r : Range) : Nat := r.stop - r.start

/-- A range is empty if it holds no byte. -/
def isEmpty (r : Range) : Bool := r.start == r.stop

/-- Every byte of `s` lies in `r`, and so do its two ends. -/
def contains (r s : Range) : Bool := r.start ≤ s.start && s.stop ≤ r.stop

/-- Two ranges overlap strictly if each starts before the other ends; ranges that only touch do
not overlap. -/
def overlaps (r s : Range) : Bool := r.start < s.stop && s.start < r.stop

/-- The smallest range that contains both. -/
def cover (r s : Range) : Range where
  start := min r.start s.start
  stop := max r.stop s.stop
  start_le_stop := by have := r.start_le_stop; omega

/-- The range widened to the left so that it begins no later than `offset`. -/
def extendLeft (r : Range) (offset : Nat) : Range where
  start := min offset r.start
  stop := r.stop
  start_le_stop := by have := r.start_le_stop; omega

/-- The range moved to the right. -/
def shiftRight (r : Range) (distance : Nat) : Range where
  start := r.start + distance
  stop := r.stop + distance
  start_le_stop := by have := r.start_le_stop; omega

/-- The range moved to the left, at most to offset zero. -/
def shiftLeft (r : Range) (distance : Nat) : Range where
  start := r.start - distance
  stop := r.stop - distance
  start_le_stop := by have := r.start_le_stop; omega

/-- Where a range lies, seen from another: `lt` if it ends no later than the other starts, `gt` if
it starts no earlier than the other ends, and `eq` if neither holds. -/
def relation (r s : Range) : Ordering :=
  if r.stop ≤ s.start then .lt else if s.stop ≤ r.start then .gt else .eq

/-- The order of ranges by start and then by end, as a decision procedure for sorting. -/
def le (r s : Range) : Bool := r.start < s.start || (r.start == s.start && r.stop ≤ s.stop)

@[simp] theorem length_ofLength (start length : Nat) : (ofLength start length).length = length := by
  simp [ofLength, Range.length]

/-- Offsets in order, and only those, bound a range, which has exactly these bounds. -/
theorem ofBounds?_eq_some_iff {start stop : Nat} {r : Range} :
    ofBounds? start stop = some r ↔ r.start = start ∧ r.stop = stop := by
  unfold ofBounds?
  constructor
  · intro h
    split at h
    · cases h; exact ⟨rfl, rfl⟩
    · cases h
  · rintro ⟨rfl, rfl⟩
    rw [dif_pos r.start_le_stop]

/-- Offsets that fit into 32 bits are kept as they are. -/
theorem ofWrapped?_eq_some {start stop : Nat} (h : start ≤ stop) (hstop : stop ≤ maxOffset) :
    ofWrapped? start stop = some ⟨start, stop, h⟩ := by
  have hlt : stop < maxOffset + 1 := Nat.lt_succ_of_le hstop
  rw [ofWrapped?, Nat.mod_eq_of_lt (Nat.lt_of_le_of_lt h hlt), Nat.mod_eq_of_lt hlt]
  exact ofBounds?_eq_some_iff.mpr ⟨rfl, rfl⟩

/-- Strict overlap does not depend on the order of the two ranges. -/
theorem overlaps_comm (r s : Range) : r.overlaps s = s.overlaps r := by
  simp [overlaps, Bool.and_comm]

/-- A covering range contains its first part. -/
theorem contains_cover_left (r s : Range) : (r.cover s).contains r = true := by
  simp only [contains, cover, Bool.and_eq_true]
  exact ⟨decide_eq_true (by omega), decide_eq_true (by omega)⟩

/-- A covering range contains its second part. -/
theorem contains_cover_right (r s : Range) : (r.cover s).contains s = true := by
  simp only [contains, cover, Bool.and_eq_true]
  exact ⟨decide_eq_true (by omega), decide_eq_true (by omega)⟩

end Range

end TreeLint
