import TreeLint.Unicode.Age
import TreeLint.Unicode.Boundary

/-!
# Sets of characters by name

Properties of characters are asked for by name: a binary property, a general category or group of
categories, or a script; or a property together with one of its values. Names are loose: case,
blanks, underscores, hyphens, a leading `is` and characters beyond ASCII do not matter.

## Main definitions

* `TreeLint.Unicode.looseName` — what matters of a name.
* `TreeLint.Unicode.named?` — the set that a name describes.
* `TreeLint.Unicode.valued?` — the set that a property and a value of it describe.
-/

namespace TreeLint.Unicode

/-- What matters of a character of a name: nothing of separators and characters beyond ASCII. -/
def looseChar? (c : Char) : Option Char :=
  if c = ' ' ∨ c = '_' ∨ c = '-' ∨ c.val ≥ 128 then none else some c.toLower

/-- What follows a leading `is`, in any case. -/
def behindIs? : List Char → Option (List Char)
  | i :: s :: cs => if i.toLower = 'i' ∧ s.toLower = 's' then some cs else none
  | _ => none

/-- What matters of a name. One name that begins with `is` is a word of its own. -/
def looseName (name : List Char) : String :=
  match behindIs? name with
  | none => .ofList (name.filterMap looseChar?)
  | some rest =>
    let loose := rest.filterMap looseChar?
    if loose = ['c'] then "isc" else .ofList loose

/-- Groups of categories, and other sets that are asked for like categories, by loose name. -/
def categoryGroups : List (List String × CodeSet) := [
  (["c", "other"], others),
  (["l", "letter"], letters),
  (["lc", "casedletter"], casedLetters),
  (["m", "mark", "combiningmark"], marks),
  (["n", "number"], numbers),
  (["p", "punctuation", "punct"], punctuation),
  (["s", "symbol"], symbols),
  (["z", "separator"], separators),
  (["any"], .all),
  (["assigned"], Category.unassignedSet.compl),
  (["ascii"], .ofRange 0 0x7f)]

/-- The set of a category or group of categories with a loose name. -/
def category? (name : String) : Option CodeSet :=
  match categoryGroups.find? fun g => g.1.contains name with
  | some g => some g.2
  | none => (Category.all.find? fun c => c.names.contains name).map Category.set

/-- The set that a name describes: a binary property, else a category, else a script. -/
def named? (name : List Char) : Option CodeSet :=
  let loose := looseName name
  (Property.find? loose).map Property.set <|> category? loose
    <|> (Script.find? loose).map Script.set

/-- The set that a property and a value of it describe. -/
def valued? (property value : List Char) : Option CodeSet :=
  let loose := looseName value
  match looseName property with
  | "gc" | "generalcategory" => category? loose
  | "sc" | "script" => (Script.find? loose).map Script.set
  | "scx" | "scriptextensions" => (Script.find? loose).map Script.uses
  | "age" => assignedBy? loose
  | "gcb" | "graphemeclusterbreak" => (BreakClass.find? clusterClasses loose).map BreakClass.set
  | "wb" | "wordbreak" => (BreakClass.find? wordClasses loose).map BreakClass.set
  | "sb" | "sentencebreak" => (BreakClass.find? sentenceClasses loose).map BreakClass.set
  | _ => none

end TreeLint.Unicode
