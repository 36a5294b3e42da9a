import ChainedMultimap.Log

/-!
# Outcomes of operations

Operations are functions of the state they act on. What the outside world contributes, such as
whether memory can be reserved, is an argument; what an operation reports is part of its outcome.
-/

namespace ChainedMultimap

/-- What an operation on a state comes to: an answer, the state it leaves behind, and the records it
logged, oldest first. -/
structure Outcome (State Answer : Type) where
  /-- What the caller is told. -/
  answer : Answer
  /-- The state left behind. -/
  state : State
  /-- The records logged. -/
  log : List LogRecord

/-- Changes what an outcome leaves behind and what it answers; what it logs stays. -/
def Outcome.map {State State' Answer Answer' : Type} (state : State → State')
    (answer : Answer → Answer') (outcome : Outcome State Answer) : Outcome State' Answer' :=
  ⟨answer outcome.answer, state outcome.state, outcome.log⟩

/-- Which arrays can be reserved, as a test of the number of slots. -/
abbrev Allocator := Nat → Bool

end ChainedMultimap
