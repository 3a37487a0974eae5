import Duplex.ConnectionId

/-!
# Routing table

A finite map from connection ids to entries. An entry has an identity besides its value: two
entries with equal values are different entries, and `RoutingTable.removeIfSame` takes out an
entry only if it is still the one that the caller knows.

`findOrInsert` looks twice, once before it asks for a new entry and once, in `claim`, at the
instant at which it inserts, so that callers that arrive together agree on one entry.
-/

namespace Duplex

/-- A shared value, told apart from others by its identity. -/
structure Entry (α : Type) where
  identity : Nat
  value : α

/-- A finite map from connection ids to entries; no id occurs twice. -/
structure RoutingTable (α : Type) where
  entries : List (ConnectionId × Entry α) := []

/-- What `findOrInsert` came to. -/
inductive Lookup (α : Type) where
  /-- The id had an entry. -/
  | existing (entry : Entry α)
  /-- The id has a new entry. -/
  | created (entry : Entry α)
  /-- The id had no entry, and making one failed. -/
  | failed

namespace RoutingTable

/-- The entry of an id. -/
def get? (table : RoutingTable α) (key : ConnectionId) : Option (Entry α) :=
  (table.entries.find? fun p => p.1 == key).map (·.2)

/-- The number of entries. -/
def size (table : RoutingTable α) : Nat := table.entries.length

def isEmpty (table : RoutingTable α) : Bool := table.entries.isEmpty

/-- Every entry. -/
def snapshot (table : RoutingTable α) : List (Entry α) := table.entries.map (·.2)

/-- Looks an id up and, if it has no entry, inserts the one that `create` makes. `create` may
change a state of its own and may fail; it does not run if the id has an entry. -/
def claim (table : RoutingTable α) (key : ConnectionId)
    (create : σ → Option (Entry α) × σ) (s : σ) : Lookup α × RoutingTable α × σ :=
  match table.get? key with
  | some entry => (.existing entry, table, s)
  | none =>
    match create s with
    | (some entry, s) => (.created entry, { entries := table.entries ++ [(key, entry)] }, s)
    | (none, s) => (.failed, table, s)

/-- The entry of an id, made by `create` if there is none. -/
def findOrInsert (table : RoutingTable α) (key : ConnectionId)
    (create : σ → Option (Entry α) × σ) (s : σ) : Lookup α × RoutingTable α × σ :=
  match table.get? key with
  | some entry => (.existing entry, table, s)
  | none => table.claim key create s

/-- Takes an id out. -/
def erase (table : RoutingTable α) (key : ConnectionId) : RoutingTable α where
  entries := table.entries.filter fun p => p.1 != key

/-- Takes an id out if its entry has that identity. -/
def removeIfSame (table : RoutingTable α) (key : ConnectionId) (identity : Nat) :
    Bool × RoutingTable α :=
  match table.get? key with
  | some entry => if entry.identity = identity then (true, table.erase key) else (false, table)
  | none => (false, table)

/-- Changes the value of every entry of an identity. -/
def modify (table : RoutingTable α) (identity : Nat) (f : α → α) : RoutingTable α where
  entries := table.entries.map fun p =>
    if p.2.identity = identity then (p.1, { p.2 with value := f p.2.value }) else p

end RoutingTable

end Duplex
