import TreeLint.Data.Assoc
import TreeLint.Rule.Registry

/-!
# Shared registries

A registry that several clients use at the same time. Its rules are kept in a map by identifier, and
a map that has once been current is never changed. Whoever takes a snapshot keeps a handle of the map
that is current. A registration looks for the identifier in the current map, inserts the rule into a
copy of it, and makes the copy the current map.

Registrations exclude each other and those who take snapshots, so each is a single step. A catalog is
registered entry by entry, and other clients may have their turns in between.

## Main definitions

* `TreeLint.RegistryCall`, `TreeLint.RegistryEvent` — what clients ask, and what a step comes to.
* `TreeLint.SharedRegistry` — the maps, the current one among them, and what clients still ask.
* `TreeLint.SharedRegistry.attempt` — one registration.
* `TreeLint.SharedRegistry.step`, `TreeLint.SharedRegistry.run` — the turn of one client, and of many
  clients one after the other.
-/

namespace TreeLint

/-- What a client asks of a registry. -/
inductive RegistryCall where
  /-- To register a rule. -/
  | register (d : Descriptor)
  /-- To register the rule that an entry of a catalog declares. -/
  | registerConfig (entry : RuleConfig)
  /-- To register the entries of a catalog up to the first failure. -/
  | registerCatalog (entries : List RuleConfig)
  /-- To take a snapshot. -/
  | snapshot

/-- What one step of a client comes to. -/
inductive RegistryEvent where
  /-- A rule is registered. -/
  | registered (d : Descriptor)
  /-- A registration fails. -/
  | refused (reason : Error)
  /-- Nothing is left of a catalog. -/
  | finished
  /-- The client gets the handle of a map. -/
  | handed (handle : Nat)
deriving DecidableEq

/-- The rule that has been registered, if one has. -/
def RegistryEvent.rule? : RegistryEvent → Option Descriptor
  | registered d => some d
  | _ => none

/-- The rules of a registry by identifier. -/
def Registry.toAssoc (r : Registry) : Assoc Descriptor := r.rules.map fun d => (d.id, d)

/-- A registry that clients share. -/
structure SharedRegistry (ι : Type) where
  /-- All maps that have been current, the earliest first. -/
  maps : List (Assoc Descriptor)
  /-- The handle of the current map. -/
  current : Nat
  /-- There is a current map. -/
  current_lt : current < maps.length
  /-- What each client still asks. -/
  pending : ι → List RegistryCall

namespace SharedRegistry

variable {ι : Type}

/-- The shared registry that begins with some rules. -/
def start (r : Registry) (pending : ι → List RegistryCall) : SharedRegistry ι where
  maps := [r.toAssoc]
  current := 0
  current_lt := by simp
  pending := pending

/-- The current map. -/
def map (s : SharedRegistry ι) : Assoc Descriptor := s.maps.get ⟨s.current, s.current_lt⟩

/-- The rules in the order of the current map. -/
def rules (s : SharedRegistry ι) : List Descriptor := s.map.map Prod.snd

/-- The rule with an identifier, or the failure to find it. -/
def lookup (s : SharedRegistry ι) (id : String) : Except Error Descriptor :=
  match s.map.find? id with
  | some d => .ok d
  | none => .error (.unknownRule id)

/-- The shared registry with a new map as the current one. -/
def publish (s : SharedRegistry ι) (m : Assoc Descriptor) : SharedRegistry ι where
  maps := s.maps ++ [m]
  current := s.maps.length
  current_lt := by simp
  pending := s.pending

/-- One registration: the rule, unless it could not be described, is inserted into a copy of the
current map, unless its identifier is found there. -/
def attempt (s : SharedRegistry ι) (rule : Except Error Descriptor) :
    SharedRegistry ι × RegistryEvent :=
  match rule with
  | .error e => (s, .refused e)
  | .ok d =>
    match s.map.find? d.id with
    | some _ => (s, .refused (.duplicateRule d.id))
    | none => (s.publish (s.map.insert d.id d), .registered d)

variable [DecidableEq ι]

/-- The shared registry when a client has other things to ask. -/
def proceed (s : SharedRegistry ι) (i : ι) (calls : List RegistryCall) : SharedRegistry ι :=
  { s with pending := fun j => if j = i then calls else s.pending j }

/-- The turn of a client, who does the next step of what it asks. A client that has nothing left to
ask passes. -/
def step (s : SharedRegistry ι) (i : ι) : SharedRegistry ι × Option RegistryEvent :=
  match s.pending i with
  | [] => (s, none)
  | .register d :: calls =>
    let (t, e) := s.attempt (.ok d)
    (t.proceed i calls, some e)
  | .registerConfig entry :: calls =>
    let (t, e) := s.attempt (Descriptor.ofConfig entry)
    (t.proceed i calls, some e)
  | .registerCatalog [] :: calls => (s.proceed i calls, some .finished)
  | .registerCatalog (entry :: entries) :: calls =>
    let (t, e) := s.attempt (Descriptor.ofConfig entry)
    -- the first failure ends the catalog
    (t.proceed i (if e.rule?.isSome then .registerCatalog entries :: calls else calls), some e)
  | .snapshot :: calls => (s.proceed i calls, some (.handed s.current))

/-- The turns of clients one after the other, with what they come to. -/
def run (s : SharedRegistry ι) : List ι → SharedRegistry ι × List (ι × RegistryEvent)
  | [] => (s, [])
  | i :: is =>
    let (t, e) := s.step i
    let (u, es) := t.run is
    (u, (e.map fun e => (i, e)).toList ++ es)

/-- The rules that have been registered, in the order of success. -/
def registered (events : List (ι × RegistryEvent)) : List Descriptor :=
  events.filterMap fun e => e.2.rule?

end SharedRegistry

end TreeLint
