/-!
# Signal

A signal fires once, and any number of waiters may wait for it. Firing is two steps: `raise`
sets the flag, and the caller that set it then tells every registered waiter (`announce`).
Waiting is three: `register`, then `check` the flag, then `wake`. A waiter that registers before
it checks cannot miss a firing: either it is told, or it finds the flag set.
-/

namespace Duplex

/-- Where a waiter stands. -/
inductive Signal.Place where
  /-- About to look at the flag. -/
  | checking
  /-- Asleep until it is told. -/
  | asleep
  /-- The wait is over. -/
  | finished
deriving DecidableEq

/-- A wait for a signal: it is registered from its start. -/
structure Signal.Waiter where
  name : String
  place : Signal.Place := .checking
  /-- Whether the waiter was told since it registered. -/
  told : Bool := false
deriving DecidableEq

/-- A one-shot notification. -/
structure Signal where
  fired : Bool := false
  /-- Whether the caller that set the flag has yet to tell the waiters. -/
  announcing : Bool := false
  waiters : List Signal.Waiter := []

namespace Signal

/-- Sets the flag. The result says whether this call did. -/
def raise (s : Signal) : Bool × Signal :=
  if s.fired then (false, s) else (true, { s with fired := true, announcing := true })

/-- Tells every registered waiter. -/
def announce (s : Signal) : Signal :=
  { s with announcing := false, waiters := s.waiters.map fun w => { w with told := true } }

/-- Fires the signal. The result says whether this call was the first. -/
def fire (s : Signal) : Bool × Signal :=
  let (first, s) := s.raise
  (first, if first then s.announce else s)

/-- Registers a new waiter. -/
def register (s : Signal) (name : String) : Signal :=
  { s with waiters := s.waiters ++ [{ name }] }

/-- One step of a waiter, if it can move. -/
def Waiter.step (fired : Bool) (w : Waiter) : Option Waiter :=
  match w.place with
  | .checking => some { w with place := if fired then .finished else .asleep }
  | .asleep => if w.told then some { w with place := .finished } else none
  | .finished => none

/-- Runs a waiter until it cannot move. -/
def Waiter.settle (fired : Bool) (w : Waiter) : Waiter :=
  let once := (w.step fired).getD w
  (once.step fired).getD once

/-- Runs every waiter until none can move. -/
def settle (s : Signal) : Signal :=
  { s with waiters := s.waiters.map (·.settle s.fired) }

/-- Takes out the waits that are over; the result names them. -/
def collect (s : Signal) : List String × Signal :=
  ((s.waiters.filter (·.place = .finished)).map (·.name),
    { s with waiters := s.waiters.filter (·.place ≠ .finished) })

/-- Gives up the waits of a name. The result says whether there was one. -/
def cancel (s : Signal) (name : String) : Bool × Signal :=
  (s.waiters.any (·.name = name), { s with waiters := s.waiters.filter (·.name ≠ name) })

/-! ## Scripted use -/

/-- What a script does to a signal. -/
inductive Action where
  | fire
  | wait (name : String)
  | drop (name : String)

/-- What an action answers. -/
inductive Reply where
  | fired (first : Bool)
  | waiting
  | dropped (existed : Bool)

/-- Performs an action. A new wait takes the place of the one of its name. -/
def perform (s : Signal) : Action → Reply × Signal
  | .fire =>
    let (first, s) := s.fire
    (.fired first, s)
  | .wait name => (.waiting, (s.cancel name).2.register name)
  | .drop name =>
    let (existed, s) := s.cancel name
    (.dropped existed, s)

/-- Performs an action and runs every waiter until none can move. The names are those of the
waits that this ended. -/
def advance (s : Signal) (action : Action) : Reply × List String × Signal :=
  let (reply, s) := s.perform action
  let (ended, s) := s.settle.collect
  (reply, ended, s)

end Signal

end Duplex
