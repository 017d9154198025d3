/-!
# Data

Structured data as they come from texts in several formats or from a host. A table keeps its entries
in order, and more than one of them may have the same key: what that means is decided when the data
are read as something. So is what it means that a part of the data is well-formed but stands for
nothing, such as a number that does not fit its type: where nobody asks for that part, it may not
matter.

## Main definitions

* `TreeLint.Datum` — a piece of data.
* `TreeLint.Datum.isSound` — every part of a piece of data stands for something.
* `TreeLint.Dialect` — what differs between the origins of data.
* `TreeLint.Datum.fields?` — the fields of a record.
* `TreeLint.Datum.text?`, `TreeLint.Datum.bool?`, `TreeLint.Datum.natural?`,
  `TreeLint.Datum.choice?` — plain data.
-/

namespace TreeLint

/-- A piece of data. -/
inductive Datum where
  /-- Nothing. -/
  | null
  /-- A truth value. -/
  | bool (b : Bool)
  /-- A whole number. -/
  | integer (n : Int)
  /-- A number that is not written as a whole number, or is none at all. -/
  | fraction
  /-- A text. -/
  | text (s : String)
  /-- The written form of a text or a number, but of none that there is. -/
  | unsound
  /-- A list. -/
  | list (items : List Datum)
  /-- A table, as a list of keys with values. A key is missing if its written form is that of no
  text. -/
  | table (entries : List (Option String × Datum))
deriving Inhabited

/-- What may stand beside a choice that is given as the key of a table. -/
inductive Beside where
  /-- Nothing. -/
  | nothing
  /-- An empty table or list. -/
  | emptiness
  /-- Anything, and any further entries as well. -/
  | anything
deriving DecidableEq

/-- A value and further entries may stand beside a choice. -/
def Beside.allows : Beside → Datum → List (Option String × Datum) → Bool
  | anything, _, _ => true
  | nothing, .null, [] => true
  | emptiness, .table [], [] => true
  | emptiness, .list [], [] => true
  | _, _, _ => false

/-- What differs between the origins of data. -/
structure Dialect where
  /-- A record may be given as a list with more items than it has fields. -/
  longRecords : Bool
  /-- What may stand beside a choice that is given as the key of a table. -/
  beside : Beside
  /-- The entries of a record that are passed over are sound nevertheless. -/
  soundEntries : Bool

namespace Datum

mutual

/-- Every part of a piece of data stands for something. -/
def isSound : Datum → Bool
  | unsound => false
  | list items => areSound items
  | table entries => areEntriesSound entries
  | _ => true

/-- Several pieces of data are sound. -/
def areSound : List Datum → Bool
  | [] => true
  | d :: ds => d.isSound && areSound ds

/-- The keys and values of entries are sound. -/
def areEntriesSound : List (Option String × Datum) → Bool
  | [] => true
  | (key, d) :: rest => key.isSome && d.isSound && areEntriesSound rest

end

/-- The table with certain texts as keys. -/
def record (entries : List (String × Datum)) : Datum :=
  table (entries.map fun (key, d) => (some key, d))

/-- The text that a datum is. -/
def text? : Datum → Option String
  | text s => some s
  | _ => none

/-- The truth value that a datum is. -/
def bool? : Datum → Option Bool
  | bool b => some b
  | _ => none

/-- The natural number up to a bound that a datum is. -/
def natural? (bound : Nat) : Datum → Option Nat
  | integer (.ofNat n) => if n ≤ bound then some n else none
  | _ => none

/-- The items of a list, each read as something. -/
def list? {α : Type} (item : Datum → Option α) : Datum → Option (List α)
  | list items => items.mapM item
  | _ => none

/-- What a field that may be missing is read as. -/
def optional? {α : Type} (value : Datum → Option α) : Option Datum → Option (Option α)
  | none | some null => some none
  | some d => (value d).map some

/-- What a field is read as that has a default. -/
def default? {α : Type} (value : Datum → Option α) (default : α) : Option Datum → Option α
  | none => some default
  | some d => value d

/-- A choice among names: the name as a text, or as the first key of a table with nothing to the
purpose beside it. -/
def choice? {α : Type} (dialect : Dialect) (read : String → Option α) : Datum → Option α
  | text s => read s
  | table ((key, value) :: rest) =>
    if dialect.beside.allows value rest then key.bind read else none
  | _ => none

/-- The field of a table with a name; more than one is too many. -/
def field? (entries : List (Option String × Datum)) (name : String) : Option (Option Datum) :=
  match entries.filter (·.1 = some name) with
  | [] => some none
  | [(_, value)] => some (some value)
  | _ => none

/-- The entries of a table other than the fields of a record may be passed over. -/
def mayPass (dialect : Dialect) (names : List String) (entries : List (Option String × Datum)) :
    Bool :=
  entries.all fun (key, d) =>
    match key with
    | some key => names.contains key || !dialect.soundEntries || d.isSound
    | none => false

/-- The fields of a record, by name from a table or in order from a list. A complete list has all
of them. Other entries of a table are passed over, but their keys are read. -/
def fields? (dialect : Dialect) (complete : Bool) (names : List String) :
    Datum → Option (List (Option Datum))
  | table entries => if mayPass dialect names entries then names.mapM (field? entries) else none
  | list items =>
    if (items.length > names.length ∧ ¬dialect.longRecords)
        ∨ (items.length < names.length ∧ complete) then none
    else some ((List.range names.length).map fun i => items[i]?)
  | _ => none

end Datum

end TreeLint
