import CounterWatch.Pmu

/-!
# Pmu/Scripted — counters that follow a script

A script says which calls fail and with what, what each read reports, and what the surroundings do
during a read.  Calls are counted by kind over all counters, from zero.  Where the script says
nothing, calls succeed and a report counts 10, 20, 30 and so on.
-/

namespace CounterWatch

/-- What one read does. -/
inductive ScriptedRead where
  | fail (error : SystemError)
  /-- Writes words, as far as whole ones fit, and claims a number of bytes; where nothing is given,
  the default words, or the whole buffer. -/
  | report (words : Option (List UInt64)) (claimed : Option Nat)

/-- A script for counters. -/
structure Script where
  openErrors : List (Nat × SystemError) := []
  mapErrors : List (Nat × SystemError) := []
  resetErrors : List (Nat × SystemError) := []
  enableErrors : List (Nat × SystemError) := []
  /-- The number of data bytes of every ring, whatever length is asked for. -/
  dataSize : Option Nat := none
  /-- The reads, in order; `none` and everything behind them is the default. -/
  reads : List (Option ScriptedRead) := []
  /-- The steps of the surroundings, each with the number of the read it happens in. -/
  outside : List (Nat × OutsideStep) := []

/-- How often each kind of call was made. -/
structure ScriptProgress where
  opens : Nat := 0
  maps : Nat := 0
  resets : Nat := 0
  enables : Nat := 0
  reads : Nat := 0
  deriving Inhabited

namespace Script

/-- The outcome of a call by its number. -/
def outcome (errors : List (Nat × SystemError)) (n : Nat) : Except SystemError Unit :=
  match errors.lookup n with
  | some e => .error e
  | none => .ok ()

/-- The words of a report nobody wrote a script for. -/
def defaultWords (bufferSize : Nat) : List UInt64 :=
  let counters := (bufferSize - 24) / 8
  UInt64.ofNat counters :: 1000 :: 1000 ::
    (List.range counters).map fun i => UInt64.ofNat (10 * (i + 1))

/-- What a read writes and claims. -/
def readOutcome (buffer : Bytes) : Option ScriptedRead → ReadOutcome
  | some (.fail e) => ⟨[], .error e⟩
  | some (.report words claimed) =>
      ⟨Bytes.ofWords ((words.getD (defaultWords buffer.length)).take (buffer.length / 8)),
        .ok (claimed.getD buffer.length)⟩
  | none => ⟨Bytes.ofWords ((defaultWords buffer.length).take (buffer.length / 8)),
      .ok buffer.length⟩

/-- The mapping of a ring.  Nothing but a lack of addresses stops it: a script promises memory to
nobody. -/
def mapping (s : Script) (length : Nat) : Except SystemError Arena :=
  Arena.map (match s.dataSize with
    | some size => pageSize + size
    | none => length) []

/-- The counters that follow the script. -/
def pmu (s : Script) : Pmu ScriptProgress where
  openCounter _ p := (outcome s.openErrors p.opens, { p with opens := p.opens + 1 })
  map _ length p :=
    ((outcome s.mapErrors p.maps).bind fun () => s.mapping length, { p with maps := p.maps + 1 })
  enable _ p := (outcome s.enableErrors p.enables, { p with enables := p.enables + 1 })
  reset _ p := (outcome s.resetErrors p.resets, { p with resets := p.resets + 1 })
  read _ buffer p :=
    (readOutcome buffer (s.reads[p.reads]?).join, { p with reads := p.reads + 1 })
  meanwhile _ p := (s.outside.filter (·.1 = p.reads)).map (·.2)

end Script
end CounterWatch
