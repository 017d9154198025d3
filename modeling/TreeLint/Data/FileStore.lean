/-!
# File stores

Files and directories as a value, and how paths lead to them. A place is the names of directories
from the root on; a path is a text that is followed from the working directory, or from the root if
it begins with a slash.

## Main definitions

* `TreeLint.Place`, `TreeLint.FileStore` — places, and files with their contents.
* `TreeLint.FileStore.addDirectory`, `TreeLint.FileStore.addFile` — a store with more in it.
* `TreeLint.FileStore.resolve?` — the place to which a path leads.
* `TreeLint.extension?` — the ending of the name to which a path leads.

## Main results

* `TreeLint.FileStore.read?_addFile` — what is read after a file has been written.
-/

namespace TreeLint

/-- The names on the way from the root to a file or directory. -/
abbrev Place := List String

/-- The path of a place from the root on. -/
def Place.path (p : Place) : String := String.join (p.map ("/" ++ ·))

/-- A place and the directories around it, the nearest first. -/
def Place.upwards (p : Place) : List Place :=
  (List.range (p.length + 1)).map fun i => p.take (p.length - i)

/-- Files with their contents, and directories. -/
structure FileStore where
  /-- Directories. Those around a directory or a file need not be listed. -/
  directories : List Place := []
  /-- Files with their contents. -/
  files : List (Place × ByteArray) := []
  /-- The directory from which paths are followed. -/
  working : Place := []

namespace FileStore

/-- The contents of the file at a place. -/
def read? (s : FileStore) (p : Place) : Option ByteArray := s.files.lookup p

/-- There is a file at a place. -/
def isFile (s : FileStore) (p : Place) : Bool := (s.read? p).isSome

/-- There is a directory at a place. -/
def isDirectory (s : FileStore) (p : Place) : Bool :=
  p.isPrefixOf s.working || s.directories.any p.isPrefixOf
    || s.files.any fun f => p.isPrefixOf f.1.dropLast

/-- The store with a directory more. -/
def addDirectory (s : FileStore) (p : Place) : FileStore :=
  { s with directories := p :: s.directories }

/-- The store with a file written. -/
def addFile (s : FileStore) (p : Place) (contents : ByteArray) : FileStore :=
  { s with files := (p, contents) :: s.files }

/-- After a file has been written, it is read back, and others are unchanged. -/
@[simp] theorem read?_addFile (s : FileStore) (p q : Place) (contents : ByteArray) :
    (s.addFile p contents).read? q = if q = p then some contents else s.read? q := by
  simp only [read?, addFile, List.lookup_cons]
  by_cases h : q = p
  · simp [h]
  · rw [beq_false_of_ne h, if_neg h]

/-- The place to which one part of a path leads from a directory: a name leads into it, two points
lead out of it, and one point or nothing stays there. -/
def step? (s : FileStore) (p : Place) (part : String) : Option Place :=
  if s.isDirectory p then
    if part = "" ∨ part = "." then some p
    else if part = ".." then some p.dropLast
    else
      let q := p ++ [part]
      if s.isFile q ∨ s.isDirectory q then some q else none
  else none

/-- The place to which a path leads. -/
def resolve? (s : FileStore) (path : String) : Option Place :=
  if path = "" then none
  else (path.splitOn "/").foldlM s.step? (if path.startsWith "/" then [] else s.working)

end FileStore

/-- The part of a path behind its last slash. -/
def lastName (path : List Char) : List Char := (path.reverse.takeWhile (· ≠ '/')).reverse

/-- The ending of the name to which a path leads: what follows its last point, unless nothing
precedes it. -/
def extension? (path : String) : Option String :=
  let name := (lastName path.toList).reverse
  let front := (name.dropWhile (· ≠ '.')).drop 1
  if front.isEmpty then none else some (.ofList (name.takeWhile (· ≠ '.')).reverse)

end TreeLint
