import Std.Data.HashMap
import TreeLint.Regex.Basic
import TreeLint.Unicode.Utf8

/-!
# The size of automata

An expression is matched by an automaton that reads a text byte by byte, from its start or from its
end. Repetitions that count make automata large, and an expression whose automata do not fit into
the room for them is refused. So here the states of an automaton are counted, with the links that
they hold; the automaton itself is not needed.

Every part of an expression becomes states with one first and one last state, and the last state of
a part is linked to the first one of the next. Most last states hold a single link in place; a fork
holds any number of links, each of which takes room.

## Main definitions

* `TreeLint.Regex.Room` — the room that states take.
* `TreeLint.Regex.Building` — the building of states within a limit.
* `TreeLint.Regex.build` — the states for an expression.
* `TreeLint.Regex.fits` — both automata for an expression fit into the room for them.
-/

namespace TreeLint.Regex

open Unicode (ByteRange CodeSet utf8Bytes)

/-! ## Room -/

/-- The room that states take. -/
structure Room where
  /-- The number of states. -/
  states : Nat := 0
  /-- The number of bytes for links that are kept apart from their states. -/
  links : Nat := 0

namespace Room

/-- The bytes of a state without such links. -/
def stateSize : Nat := 32

/-- The bytes of a link of a fork. -/
def forkSize : Nat := 4

/-- The bytes of a link that belongs to certain bytes of the text. -/
def byteSize : Nat := 8

/-- The room for an automaton: ten mebibytes. -/
def limit : Nat := 10 * 1024 * 1024

/-- The number of bytes. -/
def size (r : Room) : Nat := r.states * stateSize + r.links

/-- The room of two automata. -/
def add (r s : Room) : Room := ⟨r.states + s.states, r.links + s.links⟩

end Room

/-- The building of states: what has been built and a result, unless it exceeds the limit. -/
abbrev Building := StateT Room Option

namespace Building

/-- Adds states. The result is the number of the first of them. -/
def claim (more : Room) : Building Nat := fun room =>
  let total := room.add more
  if total.size ≤ Room.limit then some (room.states, total) else none

/-- Adds one state with a number of bytes for its links. -/
def state (links : Nat) : Building Nat := claim ⟨1, links⟩

/-- Links the last state of a part, which may be a fork, to another state. -/
def link (fork : Bool) : Building Unit := do
  if fork then discard <| claim ⟨0, Room.forkSize⟩

/-- A state for a place. -/
def place : Building Bool := do
  discard <| state 0
  return false

/-! ## Parts

Each of the following builds a part of an automaton; the result tells whether its last state is a
fork. -/

/-- One part behind the other; of no part, a state for a place. -/
def sequence : List (Building Bool) → Building Bool
  | [] => place
  | [part] => part
  | part :: parts => do
    link (← part)
    sequence parts

/-- A part several times, one behind the other. -/
def copies (part : Building Bool) : Nat → Building Bool
  | 0 => place
  | 1 => part
  | n + 2 => do
    link (← part)
    copies part (n + 1)

/-- A part again and again, `more` times, each time behind a fork that can pass it by. The state
before has to be linked to the first fork. -/
def optional (part : Building Bool) (before : Bool) : Nat → Building Bool
  | 0 => return before
  | more + 1 => do
    discard <| state (2 * Room.forkSize)
    let last ← part
    link before
    optional part last more

/-- A part repeated at least and at most so often. `consumes` tells that it takes up characters, so
that one fork is enough for any number of times. -/
def times (part : Building Bool) (consumes : Bool) : Nat → Option Nat → Building Bool
  | 0, none => do
    if consumes then
      discard <| state Room.forkSize
      link (← part)
      return true
    else
      -- what may match nothing is repeated at least once, and a second fork passes it all by
      link (← part)
      discard <| state (2 * Room.forkSize)
      discard <| state (2 * Room.forkSize)
      place
  | 1, none => do
    link (← part)
    discard <| state Room.forkSize
    return true
  | least + 2, none => do
    link (← copies part (least + 1))
    link (← part)
    discard <| state Room.forkSize
    return true
  | 0, some 1 => do
    discard <| state (2 * Room.forkSize)
    link (← part)
    place
  | least, some most => do
    let last ← copies part least
    if most ≤ least then return last
    else
      discard place
      link (← optional part last (most - least))
      return false

/-- Either of several parts. The fork that leads to them is built behind the second one. -/
def either : List (Building Bool) → Building Bool
  | [] => place
  | [part] => part
  | first :: second :: parts => do
    link (← first)
    link (← second)
    discard <| state ((parts.length + 2) * Room.forkSize)
    discard place
    parts.forM fun part => do link (← part)
    return false

/-- A part between the two states that note where a group starts and ends. -/
def noted (part : Building Bool) : Building Bool := do
  discard place
  link (← part)
  place

end Building

/-! ## Sets -/

/-- A table of states that have been built. It has a fixed number of places, and a state that falls
on the place of another takes it over. -/
structure Memory (α : Type) where
  /-- The number of places. -/
  size : Nat
  /-- What is kept in the places that are taken, with its state. -/
  kept : Std.HashMap Nat (α × Nat) := {}

/-- The place for a state, by the numbers that describe it: the scrambled numbers are multiplied up
one after the other, with a factor that spreads them over all 64 bits. -/
def placeFor (size : Nat) (numbers : List Nat) : Nat :=
  let scrambled := numbers.foldl (fun h n => (h ^^^ n.toUInt64) * 1099511628211)
    (14695981039346656037 : UInt64)
  scrambled.toNat % size

/-- The state for a description, if it is still kept, or else a new state. -/
def Memory.recall [DecidableEq α] (numbers : α → List Nat) (links : Nat) (key : α) :
    StateT (Memory α) Building Nat := fun memory => do
  let slot := placeFor memory.size (numbers key)
  let found := memory.kept[slot]?.bind fun (other, state) =>
    if other = key then some state else none
  match found with
  | some state => return (state, memory)
  | none =>
    let state ← Building.state links
    return (state, { memory with kept := memory.kept.insert slot (key, state) })

/-- The links of a state, by ranges of bytes. -/
abbrev Links := List (ByteRange × Nat)

/-- The numbers that describe links. -/
def Links.numbers (links : Links) : List Nat :=
  links.flatMap fun (range, state) => [range.first, range.last, state]

/-- The state behind which given sequences of ranges of bytes lead to a target. The sequences
ascend, so that those with the same first range stand side by side. States with the same links are
built once, as far as the memory goes. -/
def treeState (target : Nat) : Nat → List (List ByteRange) → StateT (Memory Links) Building Nat
  | 0, _ => return target
  | depth + 1, sequences => do
    let groups := sequences.splitBy fun r s => r.head? == s.head?
    let links ← groups.filterMapM fun group =>
      match group.head?.bind List.head? with
      | none => return none
      | some range => do
        let rest := group.map List.tail
        if rest.all List.isEmpty then return some (range, target)
        else return some (range, ← treeState target depth rest)
    Memory.recall Links.numbers (links.length * Room.byteSize) links

/-- A link to a state, by a range of bytes. -/
abbrev Entry := ByteRange × Nat

/-- The numbers that describe a link. -/
def Entry.numbers (entry : Entry) : List Nat := [entry.2, entry.1.first, entry.1.last]

/-- The states for a sequence of ranges of bytes that is read backwards, towards a target. -/
def chainStates (target : Nat) (ranges : List ByteRange) : StateT (Memory Entry) Building Nat :=
  ranges.foldlM (fun state range => Memory.recall Entry.numbers 0 (range, state)) target

/-- The states for a character of a set. Read forwards, its bytes form a tree with shared branches;
read backwards, a fork leads to a chain for each sequence of bytes, and chains share their ends. -/
def buildSet (forward : Bool) (set : CodeSet) : Building Bool := do
  if set.isAscii then
    discard Building.place
    discard <| Building.state (set.ranges.length * Room.byteSize)
  else if forward then
    let target ← Building.state 0
    discard <| (treeState target 4 set.byteSequences).run { size := 10000 }
  else
    let sequences := set.byteSequences
    discard <| Building.state (sequences.length * Room.forkSize)
    let target ← Building.state 0
    discard <| (sequences.forM fun ranges => discard <| chainStates target ranges).run
      { size := 1000 }
  return false

/-! ## Literals -/

/-- The bytes of characters, in the order in which they are read. -/
def bytesOf (forward : Bool) (chars : List Char) : List Nat :=
  chars.flatMap fun c =>
    if forward then utf8Bytes c.toNat else (utf8Bytes c.toNat).reverse

/-- Splits what is left of literals wherever one is complete. One that is complete for the second
time, without any continuation so far, makes no difference. -/
def chunks (branched complete : Bool) : List (List Nat) → List (List (List Nat))
  | [] => [[]]
  | [] :: rest =>
    if complete && !branched then chunks branched complete rest
    else [] :: chunks branched true rest
  | bytes :: rest =>
    match chunks true complete rest with
    | [] => [[bytes]]
    | chunk :: more => (bytes :: chunk) :: more

/-- The room of a tree of literals: in each chunk, those that go on with the same byte share a link,
and a fork leads to the chunks. A complete literal is a link to the common last state. -/
def treeRoom : Nat → List (List Nat) → Room
  | 0, _ => {}
  | depth + 1, rests =>
    let parts := chunks false false rests
    let rooms := parts.map fun chunk =>
      let bytes := (chunk.filterMap List.head?).eraseDups
      let below := bytes.map fun byte =>
        let behind := (chunk.filter fun rest => rest.head? == some byte).map List.tail
        if behind.all List.isEmpty then {} else treeRoom depth behind
      let own : Room := match bytes.length with
        | 0 => {}
        | 1 => ⟨1, 0⟩
        | n => ⟨1, n * Room.byteSize⟩
      below.foldl Room.add own
    let forks := (parts.filter fun chunk => !chunk.isEmpty).length + (parts.length - 1)
    rooms.foldl Room.add ⟨1, forks * Room.forkSize⟩

/-- The characters of a literal. -/
def literal? : Regex → Option (List Char)
  | literal chars => some chars
  | _ => none

/-- The states for one of several literals. -/
def buildLiterals (forward : Bool) (literals : List (List Char)) : Building Bool := do
  let bytes := literals.map (bytesOf forward)
  discard Building.place
  discard <| Building.claim (treeRoom ((bytes.map List.length).foldl max 0 + 1) bytes)
  return false

/-! ## Expressions -/

mutual

/-- The states for an expression, or for its backward form if the text is read backwards. Only where
it is read forwards, it is noted where groups start and end. -/
def build (forward : Bool) : Regex → Building Bool
  | empty | look _ => Building.place
  | literal chars => do
    discard <| Building.claim ⟨(bytesOf forward chars).length, 0⟩
    return false
  | oneOf set => buildSet forward set
  | times body least most _ =>
    (build forward body).times (body.fewest?.any (0 < ·)) least most
  | group _ body => if forward then (build forward body).noted else build forward body
  | seq parts => Building.sequence (buildAll forward parts)
  | alt branches =>
    match branches.mapM literal? with
    | some literals => buildLiterals forward literals
    | none => Building.either (buildAll forward branches)

/-- The states for each of several expressions. -/
def buildAll (forward : Bool) : List Regex → List (Building Bool)
  | [] => []
  | r :: rs => build forward r :: buildAll forward rs

end

/-- The automaton for an expression. A loop in front of it passes over any bytes, unless a match has
to begin at the first byte that is read; `anchor` is the condition for that. -/
def buildAutomaton (forward : Bool) (anchor : Look) (r : Regex) : Building Unit := do
  let anchored := r.startsWith anchor
  -- the loop is a fork and the two states for a set with a single range of bytes
  if anchored then discard Building.place
  else discard <| Building.claim ⟨3, 2 * Room.forkSize + Room.byteSize⟩
  let body := build forward r
  Building.link (← if forward then body.noted else body)
  discard <| Building.state 0

/-- Both automata for an expression, from the start and from the end, fit into the room. -/
def fits (r : Regex) : Bool :=
  ((buildAutomaton true .start r).run {}).isSome
    && ((buildAutomaton false .stop r.backwards).run {}).isSome

end TreeLint.Regex
