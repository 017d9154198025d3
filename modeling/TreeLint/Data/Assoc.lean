/-!
# Ordered maps

Maps whose entries keep the order in which their keys were first inserted, and lists sorted into
groups in the order in which the groups first appear. They are small, so both are plain lists.

## Main definitions

* `TreeLint.Assoc` — maps from texts, in order of insertion.
* `TreeLint.Assoc.find?`, `TreeLint.Assoc.insert` — looking up and inserting.
* `TreeLint.groupBy` — the groups of a list by a key.

## Main results

* `TreeLint.Assoc.find?_insert` — what is found after an insertion.
* `TreeLint.Assoc.insert_of_find?_eq_none` — a new key is inserted at the end.
-/

namespace TreeLint

/-- A map from texts, in order of insertion. -/
abbrev Assoc (α : Type) := List (String × α)

namespace Assoc

variable {α : Type}

/-- The value of a key. -/
def find? : Assoc α → String → Option α
  | [], _ => none
  | (k, v) :: rest, key => if k = key then some v else find? rest key

/-- The map with a value for a key. A key that is present keeps its place. -/
def insert : Assoc α → String → α → Assoc α
  | [], key, value => [(key, value)]
  | (k, v) :: rest, key, value =>
    if k = key then (k, value) :: rest else (k, v) :: insert rest key value

/-- An insertion changes what is found under its own key only. -/
theorem find?_insert (m : Assoc α) (key k : String) (value : α) :
    (m.insert key value).find? k = if k = key then some value else m.find? k := by
  induction m with
  | nil => simp [insert, find?, eq_comm]
  | cons entry rest ih =>
    obtain ⟨j, v⟩ := entry
    by_cases hj : j = key
    · subst hj
      by_cases h : k = j <;> simp [insert, find?, h, eq_comm]
    · by_cases h : j = k
      · subst h
        simp [insert, find?, hj]
      · simp [insert, find?, hj, h, ih]

/-- A new key is inserted at the end. -/
theorem insert_of_find?_eq_none {m : Assoc α} {key : String} (value : α)
    (h : m.find? key = none) : m.insert key value = m ++ [(key, value)] := by
  induction m with
  | nil => rfl
  | cons entry rest ih =>
    obtain ⟨k, v⟩ := entry
    by_cases hk : k = key
    · simp [find?, hk] at h
    · simp only [find?, hk, if_false] at h
      simp [insert, hk, ih h]

end Assoc

section Groups

variable {κ α : Type} [DecidableEq κ]

/-- Groups with one more member, which joins the group of its key or starts a new one at the end. -/
def addToGroup (key : κ) (a : α) : List (κ × List α) → List (κ × List α)
  | [] => [(key, [a])]
  | (k, members) :: rest =>
    if k = key then (k, members ++ [a]) :: rest else (k, members) :: addToGroup key a rest

/-- The members of a list by key: groups in the order in which they first appear, each with its
members in order. -/
def groupBy (key : α → κ) (members : List α) : List (κ × List α) :=
  members.foldl (fun groups a => addToGroup (key a) a groups) []

end Groups

end TreeLint
