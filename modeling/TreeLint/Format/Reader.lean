/-!
# Readers

A reader takes items, such as characters or tokens, from the front of a list: it answers what they
stand for and the items that are left, or it fails. The loops here end because each round has to
take something; a round that takes nothing is a failure.

## Main definitions

* `TreeLint.Reader` — readers.
* `TreeLint.readAll?` — a reader used until nothing is left.
* `TreeLint.readUntil?` — a reader used until something else comes.
* `TreeLint.Separated`, `TreeLint.Separated.read?` — items with commas between them.
-/

namespace TreeLint

/-- Takes items from the front of a list, and answers what they stand for and the items left. -/
abbrev Reader (σ α : Type) := List σ → Option (α × List σ)

/-- Takes a character from the front. -/
def behind? (c : Char) : List Char → Option (List Char)
  | [] => none
  | d :: ds => if d = c then some ds else none

/-- Takes several characters from the front. -/
def behindAll? : List Char → List Char → Option (List Char)
  | [], ds => some ds
  | c :: cs, ds => (behind? c ds).bind (behindAll? cs)

/-- What a reader answers when it is used until nothing is left. -/
def readAll? {σ α : Type} (read : Reader σ (Option α)) (ss : List σ) : Option (List α) :=
  if ss.isEmpty then some []
  else
    match read ss with
    | none => none
    | some (a, rest) =>
      if rest.length < ss.length then (readAll? read rest).map (a.toList ++ ·) else none
termination_by ss.length

/-- What a reader answers when it is used until the end comes, and the items behind the end. -/
def readUntil? {σ α : Type} (close : List σ → Option (List σ)) (read : Reader σ (List α))
    (ss : List σ) : Option (List α × List σ) :=
  match close ss with
  | some rest => some ([], rest)
  | none =>
    match read ss with
    | none => none
    | some (front, rest) =>
      if rest.length < ss.length then
        (readUntil? close read rest).map fun (back, rest) => (front ++ back, rest)
      else none
termination_by ss.length

/-- How items with commas between them are written. -/
structure Separated (σ : Type) where
  /-- Passes over what may stand anywhere between items and commas. -/
  skip : List σ → List σ
  /-- The mark that an item of the list is. -/
  mark? : σ → Option Char
  /-- A comma may follow the last item. -/
  trailing : Bool

namespace Separated

variable {σ α : Type}

/-- What follows a mark, if it comes next. -/
def behind? (f : Separated σ) (mark : Char) (ss : List σ) : Option (List σ) :=
  match f.skip ss with
  | [] => none
  | s :: rest => if f.mark? s = some mark then some rest else none

/-- Items, of which there is at least one, and what follows the closing mark. -/
def items? (f : Separated σ) (close : Char) (item : Reader σ α) (ss : List σ) :
    Option (List α × List σ) :=
  match item (f.skip ss) with
  | none => none
  | some (a, rest) =>
    match f.behind? close rest with
    | some rest => some ([a], rest)
    | none =>
      match f.behind? ',' rest with
      | none => none
      | some rest =>
        match if f.trailing then f.behind? close rest else none with
        | some rest => some ([a], rest)
        | none =>
          if rest.length < ss.length then
            (f.items? close item rest).map fun (as, rest) => (a :: as, rest)
          else none
termination_by ss.length

/-- Items, of which there may be none, and what follows the closing mark. -/
def read? (f : Separated σ) (close : Char) (item : Reader σ α) (ss : List σ) :
    Option (List α × List σ) :=
  match f.behind? close ss with
  | some rest => some ([], rest)
  | none => f.items? close item ss

end Separated

end TreeLint
