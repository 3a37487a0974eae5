import Duplex.Connection.Receive
import Duplex.Connection.Send
import Duplex.Connection.Start

/-!
# The driver, and all tasks of a connection

The driver spawns both loops. When the first of them has ended it disposes of the socket and
cancels the read of the send loop, and when both have ended it completes the outbound pipe with
the error of the send loop, lets go of the socket and has the closed signal fired.

`Connection.step` is one step of one task where there is memory for what it asks for, and
`Connection.stepOrStarve` one in any case. `Connection.tick` picks a task that can move, and
`Connection.Settled` says that none can.
-/

namespace Duplex.Connection

/-- One step of the driver, if it can move. -/
def stepDriver (c : Connection S) : Option (Connection S) :=
  match c.driver with
  | .unborn | .done => none
  | .launching =>
    if c.socketHeld then
      some { c with receiver := .staging, sender := .reading .checking, driver := .watching }
    else some { c.dropLoopEnds with driver := .done }
  | .watching =>
    match c.receiver, c.sender with
    | .finished, _ | _, .finished _ => some { c with phase := .draining, driver := .disposing }
    | _, _ => none
  | .disposing => some { c with socket := S.dispose c.socket, driver := .canceling }
  | .canceling => some { c.cancelOutput with driver := .joining }
  | .joining =>
    match c.receiver, c.sender with
    | .finished, .finished error => some { c with driver := .completing error }
    | _, _ => none
  | .completing error =>
    some { c with outbound := c.outbound.completeReader error, driver := .releasing }
  | .releasing => some { c with socketHeld := false, driver := .closing }
  | .closing => some { c with phase := .closed, driver := .announcing }
  | .announcing => some { c with closer := .armed, driver := .done }

/-- The step of the task that fires the closed signal. -/
def stepCloser (c : Connection S) : Option (Connection S) :=
  match c.closer with
  | .armed => some { c with closed := true, closer := .done }
  | .unborn | .done => none

/-- The tasks of a connection. -/
inductive Task where
  | starter
  | receiver
  | sender
  | driver
  | closer
deriving DecidableEq

/-- One step of one task, if it can move. -/
def step (pool : BufferPool) (c : Connection S) : Task → Option (Connection S)
  | .starter => c.stepStarter
  | .receiver => c.stepReceiver pool
  | .sender => c.stepSender
  | .driver => c.stepDriver
  | .closer => c.stepCloser

/-- One step of one task, if it can move: a step, or a panic of a receive loop that has no
memory. -/
def stepOrStarve (pool : BufferPool) (c : Connection S) (task : Task) : Option (Connection S) :=
  if task = .receiver ∧ c.starves pool then some c.starve else c.step pool task

/-- One step of the first task that can move. -/
def tick (pool : BufferPool) (c : Connection S) : Option (Connection S) :=
  [Task.starter, .receiver, .sender, .driver, .closer].findSome? (c.stepOrStarve pool)

/-- No task can move. -/
def Settled (pool : BufferPool) (c : Connection S) : Prop :=
  ∀ task, c.step pool task = none

/-- Runs the tasks until none can move, for at most `steps` steps. -/
def settle (pool : BufferPool) : (steps : Nat) → Connection S → Connection S
  | 0, c => c
  | steps + 1, c =>
    match c.tick pool with
    | some c => settle pool steps c
    | none => c

/-- A receive loop that panics was about to move. -/
theorem stepOrStarve_eq_none {pool : BufferPool} {c : Connection S} {task : Task} :
    c.stepOrStarve pool task = none ↔ c.step pool task = none := by
  simp only [stepOrStarve]
  split
  · rename_i h
    obtain ⟨rfl, hs⟩ := h
    have hr : c.receiver = .staging := by
      simp only [starves] at hs
      split at hs
      · assumption
      · cases hs
    simp only [step, stepReceiver, hr, reduceCtorEq]
  · exact Iff.rfl

/-- Where `tick` stops, no task can move. -/
theorem tick_eq_none {pool : BufferPool} {c : Connection S} :
    c.tick pool = none ↔ c.Settled pool := by
  simp only [tick, List.findSome?_eq_none_iff, stepOrStarve_eq_none]
  constructor
  · intro h task
    exact h task (by cases task <;> simp)
  · intro h task _
    exact h task

end Duplex.Connection
