/-!
# Calls that take several looks

An asynchronous call is a value that says where the call stands. One look at it
(`Progress`) finds that it cannot move, moves it to its next place, or ends it. Each look is
one atomic step, and whatever else is going on may happen between two of them.
-/

namespace Duplex

/-- What one look at an unfinished call gives. -/
inductive Progress (κ α : Type) where
  /-- The call cannot move. -/
  | pending
  /-- The call has moved. -/
  | again (call : κ)
  /-- The call has ended. -/
  | done (result : α)

namespace Progress

/-- The same progress, with its call and its result seen as others. -/
def map (f : κ → κ') (g : α → β) : Progress κ α → Progress κ' β
  | pending => pending
  | again call => again (f call)
  | done result => done (g result)

/-- The result, if the call has ended. -/
def results : Progress κ α → List α
  | done result => [result]
  | _ => []

/-- Looks at a call until it cannot move or has ended, at most `looks` times. -/
def poll (look : κ → σ → Progress κ α × σ) : (looks : Nat) → κ → σ → (κ ⊕ α) × σ
  | 0, call, s => (.inl call, s)
  | looks + 1, call, s =>
    match look call s with
    | (pending, s) => (.inl call, s)
    | (again call, s) => poll look looks call s
    | (done result, s) => (.inr result, s)

end Progress

end Duplex
