import Duplex.Transport.Bind

/-!
# All tasks of a transport

`Transport.step` is one step of one task, `Transport.tick` picks a task that can move, and
`Transport.Settled` says that none can. `Transport.unbind` and `Transport.stop` run the tasks
until the call has returned.
-/

namespace Duplex.Transport

/-- The tasks of a transport and of its connections. -/
inductive Task where
  | acceptor
  | supervisor
  | unbinder
  | removal (route : Nat)
  | connection (route : Nat) (task : Connection.Task)
deriving DecidableEq

/-- One step of a task of a connection. The start of a connection is part of the accept loop. -/
def stepConnection (t : Transport C) (route : Nat) (task : Connection.Task) :
    Option (Transport C) :=
  if task = .starter then none
  else
    match t.routes[route]? with
    | none => none
    | some r => (r.connection.step t.pool task).map fun c => t.onConnection route fun _ => c

/-- One step of one task, if it can move. -/
def step (t : Transport C) : Task → Option (Transport C)
  | .acceptor => t.stepAcceptor
  | .supervisor => t.stepSupervisor
  | .unbinder => t.stepUnbinder
  | .removal route => t.stepRemoval route
  | .connection route task => t.stepConnection route task

/-- The tasks of one route. -/
def routeTasks (route : Nat) : List Task :=
  [.connection route .receiver, .connection route .sender, .connection route .driver,
    .connection route .closer, .removal route]

/-- Every task there is. The call that unbinds goes on as far as it can before the others move. -/
def tasks (t : Transport C) : List Task :=
  [.unbinder, .acceptor, .supervisor] ++ (List.range t.routes.length).flatMap routeTasks

/-- One step of the first task that can move. -/
def tick (t : Transport C) : Option (Transport C) := t.tasks.findSome? t.step

/-- No task can move. -/
def Settled (t : Transport C) : Prop := ∀ task, t.step task = none

/-- Runs the tasks until none can move, for at most `steps` steps. -/
def settle : (steps : Nat) → Transport C → Transport C
  | 0, t => t
  | steps + 1, t =>
    match t.tick with
    | some t => settle steps t
    | none => t

/-- The failure with which the call that unbinds has returned. -/
def failure? (t : Transport C) : Option TransportError :=
  match t.unbinder with
  | .returned failure => failure
  | _ => none

/-- Unbinds, with at most `steps` steps of all tasks. -/
def unbind (steps : Nat) (t : Transport C) : Option TransportError × Transport C :=
  let t := settle steps (t.beginUnbind false)
  (t.failure?, t)

/-- Stops, with at most `steps` steps of all tasks. -/
def stop (steps : Nat) (t : Transport C) : Option TransportError × Transport C :=
  let t := settle steps (t.beginUnbind true)
  (t.failure?, t)

end Duplex.Transport
