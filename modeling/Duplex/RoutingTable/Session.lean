import Duplex.RoutingTable

/-!
# A routing table in scripted use

A session keeps a table and names for some of its entries. Several names may stand for one
entry: what a lookup answers lists every name of the entry it found.
-/

namespace Duplex.RoutingTable

/-- A table with named entries. -/
structure Session where
  table : RoutingTable Nat := {}
  names : List (String × Entry Nat) := []
  /-- The identity of the next entry. -/
  fresh : Nat := 0

/-- What a script does to a table. -/
inductive Action where
  /-- Makes an entry that is not in the table. -/
  | make (name : String) (value : Nat)
  /-- Looks an id up, or inserts a new entry. -/
  | insert (key : ConnectionId) (value : Nat) (name : Option String)
  /-- Looks an id up, or inserts a named entry. -/
  | insertNamed (key : ConnectionId) (name : String)
  /-- Looks an id up, or fails to make an entry. -/
  | insertFailing (key : ConnectionId)
  | get (key : ConnectionId)
  | remove (key : ConnectionId) (name : String)
  | snapshot

/-- What an action answers. -/
inductive Reply where
  | done
  /-- The entry of the id, whether it is new, and the names it had before. -/
  | inserted (created : Bool) (value : Nat) (names : List String)
  | failed
  | found (entry : Option (Nat × List String))
  | removed (done : Bool)
  | values (values : List Nat)
  /-- The name stands for no entry. -/
  | unnamed

namespace Session

/-- The names of an entry. -/
def namesOf (s : Session) (entry : Entry Nat) : List String :=
  (s.names.filter fun p => p.2.identity == entry.identity).map (·.1)

/-- Gives an entry a name, in place of the entry that had it. -/
def bind (s : Session) (name : String) (entry : Entry Nat) : Session :=
  { s with names := s.names.filter (·.1 != name) ++ [(name, entry)] }

/-- The entry of a name. -/
def named? (s : Session) (name : String) : Option (Entry Nat) :=
  (s.names.find? (·.1 == name)).map (·.2)

/-- Looks an id up or inserts what `create` makes, and reports the entry. -/
def findOrInsert (s : Session) (key : ConnectionId)
    (create : Nat → Option (Entry Nat) × Nat) : Reply × Option (Entry Nat) × Session :=
  let (outcome, table, fresh) := s.table.findOrInsert key create s.fresh
  let s := { s with table, fresh }
  match outcome with
  | .existing entry => (.inserted false entry.value (s.namesOf entry), some entry, s)
  | .created entry => (.inserted true entry.value (s.namesOf entry), some entry, s)
  | .failed => (.failed, none, s)

/-- Performs an action. -/
def perform (s : Session) : Action → Reply × Session
  | .make name value =>
    (.done, { s with fresh := s.fresh + 1 }.bind name ⟨s.fresh, value⟩)
  | .insert key value name =>
    let (reply, entry, s) := s.findOrInsert key fun fresh => (some ⟨fresh, value⟩, fresh + 1)
    match name, entry with
    | some name, some entry => (reply, s.bind name entry)
    | _, _ => (reply, s)
  | .insertNamed key name =>
    match s.named? name with
    | some entry =>
      let (reply, _, s) := s.findOrInsert key fun fresh => (some entry, fresh)
      (reply, s)
    | none => (.unnamed, s)
  | .insertFailing key =>
    let (reply, _, s) := s.findOrInsert key fun fresh => (none, fresh)
    (reply, s)
  | .get key => (.found ((s.table.get? key).map fun entry => (entry.value, s.namesOf entry)), s)
  | .remove key name =>
    match s.named? name with
    | some entry =>
      let (removed, table) := s.table.removeIfSame key entry.identity
      (.removed removed, { s with table })
    | none => (.unnamed, s)
  | .snapshot => (.values (s.table.snapshot.map (·.value)), s)

end Session

end Duplex.RoutingTable
