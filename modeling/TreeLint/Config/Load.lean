import TreeLint.Config.Text
import TreeLint.Data.FileStore

/-!
# Configuration files

Where a configuration comes from: a file that the user names, or the first file with one of several
names in the directory of the user or around it, or nowhere, in which case everything is left open.

## Main definitions

* `TreeLint.Config.fileNames` — the names of configuration files.
* `TreeLint.Config.discover` — the configuration file that is found from a path on.
* `TreeLint.Config.loadFile`, `TreeLint.Config.load` — the configuration of a file, and the
  configuration that applies.
-/

namespace TreeLint

/-- The format of a file, by the ending of its name. -/
def ConfigFormat.ofPath? (path : String) : Option ConfigFormat :=
  match extension? path with
  | some "toml" => some toml
  | some "json" => some json
  | some "jsonc" => some jsonc
  | _ => none

namespace Config

/-- The names of configuration files. In one directory, earlier names come first. -/
def fileNames : List String := ["sable.toml", ".sablerc.json", ".sablerc.jsonc"]

/-- The configuration file in a directory. -/
def fileIn? (s : FileStore) (directory : Place) : Option Place :=
  (fileNames.map fun name => directory ++ [name]).find? s.isFile

/-- The configuration file in the nearest directory that has one, from a path upwards. -/
def discover (s : FileStore) (start : String) : Except Error (Option Place) :=
  match s.resolve? start with
  | some p => .ok (p.upwards.findSome? (fileIn? s))
  | none => .error (.config (.unresolvablePath "no such file or directory"))

/-- The text of a file. -/
def readText (s : FileStore) (path : String) : Except Error String :=
  match (s.resolve? path).bind s.read? with
  | none => .error (.io path "no such file")
  | some contents =>
    match String.fromUTF8? contents with
    | some text => .ok text
    | none => .error (.io path "no text")

/-- The configuration that the text of a file writes, in the format that the path tells. -/
def ofFile (path text : String) : Except Error Config :=
  match ConfigFormat.ofPath? path with
  | some format => ofText format text
  | none => .error (.config (.unsupportedExtension path))

/-- A fault of a configuration is reported together with the file. -/
def inFile (path : String) : Error → Error
  | .config fault => .config (.unloadable path fault)
  | e => e

/-- The configuration of a file, checked. -/
def loadFile (s : FileStore) (path : String) : Except Error Config := do
  let text ← readText s path
  let c ← (ofFile path text).mapError (inFile path)
  c.validate
  return c

/-- The configuration that applies: that of the file that the user names, or of the file that is
found from a path on, the working directory if none is given. -/
def load (s : FileStore) (path start : Option String) : Except Error Config :=
  match path with
  | some path =>
    if (s.resolve? path).isSome then loadFile s path else .error (.config (.missingFile path))
  | none => do
    match ← discover s (start.getD ".") with
    | some found => loadFile s found.path
    | none => return {}

end Config

end TreeLint
