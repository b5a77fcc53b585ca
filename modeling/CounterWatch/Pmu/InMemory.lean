import CounterWatch.Pmu

/-!
# Pmu/InMemory — counters that only keep accounts

These counters report 10, 20, 30 and so on over fixed times, fail when told to, and account for
every call that succeeded.
-/

namespace CounterWatch

/-- What the counters are told, and their accounts. -/
structure InMemory where
  /-- The number of the attempt to open a counter that fails. -/
  failingOpen : Option Nat := none
  mapsFail : Bool := false
  readsFail : Bool := false
  resetsFail : Bool := false
  /-- Whether reads claim eight bytes less than there are. -/
  readsAreShort : Bool := false
  timeEnabled : UInt64 := 1000
  timeRunning : UInt64 := 1000
  /-- How often a counter was to be opened. -/
  attempts : Nat := 0
  enables : Nat := 0
  resets : Nat := 0
  /-- What counters were opened with, in order. -/
  opened : List OpenRequest := []

namespace InMemory

/-- The words of a report of so many counters. -/
def words (s : InMemory) (counters : Nat) : List UInt64 :=
  UInt64.ofNat counters :: s.timeEnabled :: s.timeRunning ::
    (List.range counters).map fun i => UInt64.ofNat (10 * (i + 1))

/-- Opens a counter. -/
def openCounter (request : OpenRequest) (s : InMemory) : Except SystemError Unit × InMemory :=
  let counted := { s with attempts := s.attempts + 1 }
  if s.failingOpen = some s.attempts then (.error .tooManyOpenFiles, counted)
  else (.ok (), { counted with opened := s.opened ++ [request] })

/-- Resets a group. -/
def reset (s : InMemory) : Except SystemError Unit × InMemory :=
  if s.resetsFail then (.error .badDescriptor, s) else (.ok (), { s with resets := s.resets + 1 })

/-- Reads a report. -/
def read (buffer : Bytes) (s : InMemory) : ReadOutcome :=
  if s.readsFail then ⟨[], .error .inputOutput⟩
  else if buffer.length < 24 then ⟨[], .error (.bare .invalidInput)⟩
  else ⟨Bytes.ofWords (s.words ((buffer.length - 24) / 8)),
    .ok (if s.readsAreShort then buffer.length - 8 else buffer.length)⟩

/-- The behaviour of these counters. -/
def pmu : Pmu InMemory where
  openCounter := openCounter
  map _ length s := (if s.mapsFail then .error .outOfMemory else Arena.anonymous length, s)
  enable _ s := (.ok (), { s with enables := s.enables + 1 })
  reset _ s := s.reset
  read _ buffer s := (s.read buffer, s)
  meanwhile _ _ := []

end InMemory
end CounterWatch
