/-!
# Wake-ups

A `Notify` lets one caller sleep until another wakes it. A wake-up that finds nobody asleep is
kept as a permit, of which there is at most one, and the next caller that wants to sleep takes
the permit instead. A caller that was woken and gives up before it runs passes its wake-up on.
-/

namespace Duplex

/-- The caller of a `Notify`, if there is one. -/
inductive Notify.Sleeper where
  | absent
  | asleep
  /-- Woken, but not yet running. -/
  | woken
deriving DecidableEq

/-- A place to sleep for one caller. -/
structure Notify where
  permit : Bool := false
  sleeper : Notify.Sleeper := .absent
deriving DecidableEq

namespace Notify

/-- Wakes the sleeper, or leaves a permit. -/
def notifyOne (n : Notify) : Notify :=
  match n.sleeper with
  | .asleep => { n with sleeper := .woken }
  | .absent | .woken => { n with permit := true }

/-- Takes the permit, or falls asleep. The result says whether there was a permit. -/
def enter (n : Notify) : Bool × Notify :=
  if n.permit then (true, { n with permit := false }) else (false, { n with sleeper := .asleep })

/-- Lets a woken caller run. -/
def resume? (n : Notify) : Option Notify :=
  match n.sleeper with
  | .woken => some { n with sleeper := .absent }
  | .absent | .asleep => none

/-- Takes out a caller that gives up. -/
def abandon (n : Notify) : Notify :=
  match n.sleeper with
  | .woken => { n with sleeper := .absent }.notifyOne
  | .absent | .asleep => { n with sleeper := .absent }

end Notify

end Duplex
