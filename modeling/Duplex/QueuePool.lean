/-!
# Queue pool

A fixed number of queues that run the tasks of connections. Connections are assigned to them
round-robin (`QueuePool.assign`). A queue is inline, running its tasks on the caller's threads,
or has a thread of its own.
-/

namespace Duplex

/-- How a queue runs its tasks. -/
inductive QueueKind where
  | inline
  | dedicated
deriving DecidableEq

/-- The name of a kind of queue. -/
def QueueKind.name : QueueKind → String
  | inline => "Inline"
  | dedicated => "Dedicated"

/-- A fixed set of queues, and how many assignments were made, modulo 2^64. -/
structure QueuePool where
  size : Nat
  size_pos : 0 < size
  kind : QueueKind
  assignments : UInt64 := 0

namespace QueuePool

/-- A pool of `count` queues; a count of 0 means a single inline queue. -/
def create (count : Nat) (inline : Bool) : QueuePool where
  size := max count 1
  size_pos := by omega
  kind := if inline ∨ count = 0 then .inline else .dedicated

/-- The queue of the next connection. -/
def assign (pool : QueuePool) : Nat × QueuePool :=
  (pool.assignments.toNat % pool.size, { pool with assignments := pool.assignments + 1 })

/-- The queue that an index stands for. -/
def resolve (pool : QueuePool) (index : Nat) : Nat := index % pool.size

/-- The name of the thread that tasks on a queue run on, unless it is the caller's. -/
def threadName? (pool : QueuePool) (index : Nat) : Option String :=
  match pool.kind with
  | .inline => none
  | .dedicated => some s!"quic-io-{pool.resolve index}"

end QueuePool

end Duplex
