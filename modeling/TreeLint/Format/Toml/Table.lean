import TreeLint.Data.Assoc
import TreeLint.Data.Datum

/-!
# Tables of TOML under construction

The tables of a text in TOML are put together from lines that may come in almost any order. Which
table may still be added to, and in which way, depends on how it came about: through a heading of
its own, on the way to another heading, or on the way of a key with points.

## Main definitions

* `TreeLint.Toml.Origin`, `TreeLint.Toml.Node`, `TreeLint.Toml.Table` — tables that may still grow.
* `TreeLint.Toml.Table.assign?` — a table with one value more.
* `TreeLint.Toml.Table.addTable?`, `TreeLint.Toml.Table.addItem?` — a table with the contents of a
  heading.
* `TreeLint.Toml.Table.datum` — the finished table.
-/

namespace TreeLint.Toml

/-- How a table came about. -/
inductive Origin where
  /-- It has a heading. -/
  | headed
  /-- It lies on the way to a heading. -/
  | passed
  /-- It lies on the way of a key with points. -/
  | dotted
deriving DecidableEq

/-- What stands under a key. -/
inductive Node where
  /-- A value, which does not grow. -/
  | value (d : Datum)
  /-- A table. -/
  | table (origin : Origin) (entries : List (String × Node))
  /-- A list of tables with headings, of which only the last one grows. -/
  | series (earlier : List Datum) (last : List (String × Node))

/-- A table. -/
structure Table where
  /-- How it came about. -/
  origin : Origin := .headed
  /-- Its entries. -/
  entries : Assoc Node := []

mutual

/-- What stands under a key, finished. -/
def Node.datum : Node → Datum
  | .value d => d
  | .table _ entries => .table (entryData entries)
  | .series earlier last => .list (earlier ++ [.table (entryData last)])

/-- Entries, finished. -/
def entryData : List (String × Node) → List (Option String × Datum)
  | [] => []
  | (key, n) :: rest => (some key, n.datum) :: entryData rest

end

namespace Table

/-- The finished table. -/
def datum (t : Table) : Datum := .table (entryData t.entries)

/-- The table with something else under a key. -/
def set (t : Table) (key : String) (n : Node) : Table :=
  { t with entries := t.entries.insert key n }

/-- The table with the table at the end of a way replaced. Tables that are missing on the way come
about in the way said. A key with points goes through no table that has a heading; through a list
of tables, every way goes by its last item. -/
def along? (origin : Origin) (change : Table → Option Table) : List String → Table → Option Table
  | [], t => change t
  | key :: path, t =>
    match t.entries.find? key with
    | none =>
      (along? origin change path ⟨origin, []⟩).map fun u => t.set key (.table u.origin u.entries)
    | some (.table o entries) =>
      if origin = .dotted ∧ o = .headed then none
      else
        (along? origin change path ⟨o, entries⟩).map fun u => t.set key (.table u.origin u.entries)
    | some (.series earlier last) =>
      (along? origin change path ⟨.headed, last⟩).map fun u => t.set key (.series earlier u.entries)
    | some (.value _) => none

/-- The table with a value under a key that is free. -/
def put? (t : Table) (key : String) (d : Datum) : Option Table :=
  if (t.entries.find? key).isSome then none else some (t.set key (.value d))

/-- The table with a value at the end of a way. Behind a key with points, only a table that came
about in this way is added to. -/
def assign? (t : Table) (path : List String) (key : String) (d : Datum) : Option Table :=
  -- without points the key goes into the table of the heading, which has not come about that way
  along? .dotted (fun u => if u.origin = .dotted ↔ path ≠ [] then u.put? key d else none) path t

/-- The table with several values. -/
def assignAll? (t : Table) (values : List ((List String × String) × Datum)) : Option Table :=
  values.foldlM (fun t v => t.assign? v.1.1 v.1.2 v.2) t

/-- The table with the contents of a heading at the end of a way. A table that has been passed may
still get a heading. -/
def addTable? (t : Table) (path : List String) (key : String)
    (fill : Table → Option Table) : Option Table :=
  along? .passed (fun u =>
    match u.entries.find? key with
    | none => (fill {}).map fun v => u.set key (.table v.origin v.entries)
    | some (.table .passed entries) =>
      (fill ⟨.headed, entries⟩).map fun v => u.set key (.table v.origin v.entries)
    | some _ => none) path t

/-- The table with the contents of a heading as one item more of a list of tables. -/
def addItem? (t : Table) (path : List String) (key : String)
    (fill : Table → Option Table) : Option Table :=
  along? .passed (fun u =>
    match u.entries.find? key with
    | none => (fill {}).map fun v => u.set key (.series [] v.entries)
    | some (.series earlier last) =>
      (fill {}).map fun v =>
        u.set key (.series (earlier ++ [.table (entryData last)]) v.entries)
    | some _ => none) path t

end Table

end TreeLint.Toml
