import CounterWatch.Arena
import CounterWatch.Attribute
import CounterWatch.Mailbox
import CounterWatch.Scope
import CounterWatch.SystemError

/-!
# Pmu — how counters behave

A monitor knows counters only by what they answer.  A `Pmu` is any such behaviour: a reaction to
each call that may depend on everything that happened before, kept in a state of its own.  A read
takes time, in which the surroundings may take steps.
-/

namespace CounterWatch

/-- What a counter is opened with. -/
structure OpenRequest where
  attr : Attribute
  scope : Scope
  /-- The leader of the group it joins. -/
  leader : Option CounterId
  deriving DecidableEq

/-- The outcome of a read: what was written into the buffer from its start on, and the number of
bytes the read claims, or its error. -/
structure ReadOutcome where
  written : Bytes
  result : Except SystemError Nat

/-- A behaviour of counters. -/
structure Pmu (σ : Type) where
  openCounter : OpenRequest → σ → Except SystemError Unit × σ
  /-- Maps the ring of a counter, metadata page included, at a length. -/
  map : CounterId → (length : Nat) → σ → Except SystemError Arena × σ
  /-- Enables the group of a leader. -/
  enable : CounterId → σ → Except SystemError Unit × σ
  /-- Resets the counts of the group of a leader. -/
  reset : CounterId → σ → Except SystemError Unit × σ
  /-- Reads the report of a group into a buffer. -/
  read : CounterId → Bytes → σ → ReadOutcome × σ
  /-- What the surroundings do while a read is going on. -/
  meanwhile : CounterId → σ → List OutsideStep

end CounterWatch
