import Duplex.RoutingTable

/-!
# A routing table with many callers

Any number of calls work on one table at once. Each access of a call to the table is made under a
lock, so that it is one step; between the two accesses of a call that finds or inserts, and before
and after the one access of any other, all other calls may do theirs.

A constructor runs under the lock. If it panics, the lock is poisoned, and the table behind it is
entered all the same (`Lock.enter`).
-/

namespace Duplex.RoutingTable

/-- A lock with a table behind it. -/
structure Lock (α : Type) where
  table : RoutingTable α := {}
  /-- Whether someone has panicked while holding the lock. -/
  poisoned : Bool := false

/-- What whoever takes the lock is given; an error tells that the lock is poisoned, and holds the
table as well. -/
def Lock.acquire (l : Lock α) : Except (RoutingTable α) (RoutingTable α) :=
  if l.poisoned then .error l.table else .ok l.table

/-- The table behind the lock, whether poisoned or not. -/
def Lock.enter (l : Lock α) : RoutingTable α :=
  match l.acquire with
  | .ok table => table
  | .error table => table

/-- What is asked of a table. Constructors make an entry, or panic, and may change a state that
they share. -/
inductive Request (σ α : Type) where
  | get (key : ConnectionId)
  | findOrInsert (key : ConnectionId) (create : σ → Option (Entry α) × σ)
  | removeIfSame (key : ConnectionId) (identity : Nat)
  | size
  | snapshot

/-- What a call comes to. -/
inductive Response (α : Type) where
  | found (entry : Option (Entry α))
  | looked (outcome : Lookup α)
  | removed (done : Bool)
  | counted (size : Nat)
  | listed (entries : List (Entry α))

/-- Where a call stands. -/
inductive Stage (α : Type) where
  /-- It has not looked at the table. -/
  | begun
  /-- It has not found the id; about to look once more and to insert. -/
  | claiming
  /-- About to return. -/
  | done (response : Response α)
  | returned (response : Response α)

structure Call (σ α : Type) where
  request : Request σ α
  stage : Stage α := .begun

/-- A table and everyone who calls it. -/
structure Shared (σ α : Type) where
  lock : Lock α := {}
  /-- The state of the constructors. -/
  world : σ
  /-- The calls whose constructors have run, in order. -/
  ran : List Nat := []
  /-- Every call so far. A call is named by its place. -/
  calls : List (Call σ α) := []

namespace Shared

/-- The constructor of a call, which notes that it has run. -/
def noting (call : Nat) (create : σ → Option (Entry α) × σ) (s : List Nat × σ) :
    Option (Entry α) × List Nat × σ :=
  let (made, world) := create s.2
  (made, s.1 ++ [call], world)

/-- The next call begins. -/
def start (s : Shared σ α) (request : Request σ α) : Shared σ α :=
  { s with calls := s.calls ++ [{ request }] }

/-- A call goes to a stage. -/
def goTo (s : Shared σ α) (call : Nat) (stage : Stage α) : Shared σ α :=
  { s with calls := s.calls.modify call fun c => { c with stage } }

/-- The first access of a call to the table. -/
def look (s : Shared σ α) (call : Nat) : Request σ α → Shared σ α
  | .get key => s.goTo call (.done (.found (s.lock.enter.get? key)))
  | .findOrInsert key _ =>
    match s.lock.enter.get? key with
    | some entry => s.goTo call (.done (.looked (.existing entry)))
    | none => s.goTo call .claiming
  | .removeIfSame key identity =>
    let (done, table) := s.lock.enter.removeIfSame key identity
    { s with lock := { s.lock with table } }.goTo call (.done (.removed done))
  | .size => s.goTo call (.done (.counted s.lock.enter.size))
  | .snapshot => s.goTo call (.done (.listed s.lock.enter.snapshot))

/-- The second access of a call that finds or inserts. -/
def claim (s : Shared σ α) (call : Nat) (key : ConnectionId)
    (create : σ → Option (Entry α) × σ) : Shared σ α :=
  let (outcome, table, ran, world) := s.lock.enter.claim key (noting call create) (s.ran, s.world)
  let panicked := match outcome with
    | .failed => true
    | _ => false
  { s with
    lock := { table, poisoned := s.lock.poisoned || panicked }
    ran
    world }.goTo call (.done (.looked outcome))

/-- The next access of a call, if it has one to make. -/
def access (s : Shared σ α) (call : Nat) : Option (Shared σ α) :=
  match s.calls[call]? with
  | some { request, stage := .begun } => some (s.look call request)
  | some { request := .findOrInsert key create, stage := .claiming } =>
    some (s.claim call key create)
  | _ => none

/-- A call returns what it has come to. -/
def finish (s : Shared σ α) (call : Nat) : Option (Response α × Shared σ α) :=
  match s.calls[call]? with
  | some { stage := .done response, .. } => some (response, s.goTo call (.returned response))
  | _ => none

end Shared

end Duplex.RoutingTable
