import CounterWatch.Cgroup
import CounterWatch.Notice
import CounterWatch.Pmu
import CounterWatch.ProcessMaps

/-!
# Machine — the counters of one run, and what is seen of them

A `Machine` is the state a monitor works on: the state of the counters' behaviour, the counters that
are open, the rings mapped for them and the monitor's channels.  It also keeps the record of the
run, in order: the calls made, the counters closed and the lines logged.  Every effect of a monitor
is one of the functions below.
-/

namespace CounterWatch

/-- An open counter and the leader of its group, if it is not a leader itself. -/
structure Counter where
  id : CounterId
  leader : Option CounterId
  deriving DecidableEq

/-- A call made during a run, or a step of the surroundings that somebody learns the outcome of. -/
inductive Call where
  | openPath (path : Path)
  | readFile (path : Path)
  | attach (pid : UInt32)
  | opened (id : CounterId) (request : OpenRequest)
  /-- An attempt to open a counter, by its number, that failed. -/
  | openFailed (attempt : Nat)
  | map (id : CounterId) (length : Nat)
  | enable (id : CounterId)
  | reset (id : CounterId)
  | read (id : CounterId) (size : Nat)
  | sent (text : String) (accepted : Bool)
  | ticked (time : UInt64) (accepted : Bool)
  deriving DecidableEq

/-- The state of a run. -/
structure Machine (σ : Type) where
  /-- The state of the counters' behaviour. -/
  state : σ
  files : Files := Files.none
  /-- How often a counter was to be opened. -/
  attempts : Nat := 0
  /-- The number of the next counter. -/
  nextId : CounterId := 0
  /-- The open counters, in the order they were opened. -/
  live : List Counter := []
  /-- The counters closed, in the order they were closed. -/
  closed : List Counter := []
  /-- The mapped rings. -/
  rings : OrderedMap CounterId Ring := ∅
  mailbox : Mailbox := {}
  trace : List Call := []
  log : List Notice := []

namespace Machine

variable {σ : Type}

/-! ## The record -/

/-- The machine with a line logged. -/
def note (m : Machine σ) (n : Notice) : Machine σ := { m with log := m.log ++ [n] }

/-- The machine with lines logged. -/
def notes (m : Machine σ) (ns : List Notice) : Machine σ := { m with log := m.log ++ ns }

/-- The machine with a call recorded. -/
def call (m : Machine σ) (c : Call) : Machine σ := { m with trace := m.trace ++ [c] }

/-- Whether every sibling among counters closed in this order was closed before its leader. -/
def siblingsFirst : List Counter → Bool
  | [] => true
  | c :: rest => rest.all (fun d => d.leader ≠ some c.id) && siblingsFirst rest

/-! ## The surroundings -/

/-- The machine after bytes were appended to a ring. -/
def produce (m : Machine σ) (id : CounterId) (b : Bytes) : Machine σ :=
  match m.rings.get? id with
  | some ring => { m with rings := m.rings.insert id (ring.append b) }
  | none => m

/-- The machine after a step of the surroundings. -/
def outside (m : Machine σ) : OutsideStep → Machine σ
  | .command text =>
      let (accepted, control) := m.mailbox.control.send text
      { m.call (.sent text accepted) with mailbox := { m.mailbox with control } }
  | .tick time =>
      let (accepted, ticks) := m.mailbox.ticks.send time
      { m.call (.ticked time accepted) with mailbox := { m.mailbox with ticks } }
  | .dropControl =>
      { m with mailbox := { m.mailbox with control := m.mailbox.control.dropSender } }
  | .dropTicker => { m with mailbox := { m.mailbox with ticks := m.mailbox.ticks.dropSender } }
  | .dropSink => { m with mailbox := { m.mailbox with sink := m.mailbox.sink.close } }
  | .produce id b => m.produce id b

/-! ## Files and symbols -/

/-- Opens a path. -/
def openPath (path : Path) (m : Machine σ) : Except SystemError Unit × Machine σ :=
  (m.files.openPath path, m.call (.openPath path))

/-- Reads the process list of a control group. -/
def readProcesses (directory : Path) (m : Machine σ) :
    Except SystemError (List Cgroup.Entry) × Machine σ :=
  (Cgroup.readEntries m.files directory, m.call (.readFile (Cgroup.procsFile directory)))

/-- Asks a backend for the symbols of a process. -/
def attach (backend : Backend) (pid : UInt32) (m : Machine σ) :
    Except SystemError Symbols × Machine σ :=
  (backend pid, m.call (.attach pid))

/-! ## Counters -/

/-- Opens a counter. -/
def openCounter (pmu : Pmu σ) (request : OpenRequest) (m : Machine σ) :
    Except SystemError CounterId × Machine σ :=
  match pmu.openCounter request m.state with
  | (.ok (), state) =>
      (.ok m.nextId,
        { m.call (.opened m.nextId request) with
          state
          attempts := m.attempts + 1
          nextId := m.nextId + 1
          live := m.live ++ [⟨m.nextId, request.leader⟩] })
  | (.error e, state) =>
      (.error e, { m.call (.openFailed m.attempts) with state, attempts := m.attempts + 1 })

/-- Closes a counter. -/
def closeCounter (m : Machine σ) (c : Counter) : Machine σ :=
  { m with live := m.live.erase c, closed := m.closed ++ [c] }

/-- Maps memory of a counter. -/
def map (pmu : Pmu σ) (id : CounterId) (length : Nat) (m : Machine σ) :
    Except SystemError Arena × Machine σ :=
  let (result, state) := pmu.map id length m.state
  (result, { m.call (.map id length) with state })

/-- Maps the ring of a counter. -/
def mapRing (pmu : Pmu σ) (id : CounterId) (length : Nat) (m : Machine σ) :
    Except SystemError Unit × Machine σ :=
  match m.map pmu id length with
  | (.ok arena, m) => (.ok (), { m with rings := m.rings.insert id (Ring.ofArena arena) })
  | (.error e, m) => (.error e, m)

/-- Unmaps the ring of a counter. -/
def unmapRing (m : Machine σ) (id : CounterId) : Machine σ :=
  { m with rings := m.rings.erase id }

/-- Enables the group of a leader. -/
def enable (pmu : Pmu σ) (id : CounterId) (m : Machine σ) : Except SystemError Unit × Machine σ :=
  let (result, state) := pmu.enable id m.state
  (result, { m.call (.enable id) with state })

/-- Resets the counts of the group of a leader. -/
def reset (pmu : Pmu σ) (id : CounterId) (m : Machine σ) : Except SystemError Unit × Machine σ :=
  let (result, state) := pmu.reset id m.state
  (result, { m.call (.reset id) with state })

/-- Reads a report into a buffer: the claimed number of bytes, and the buffer afterwards.  The
surroundings take their steps before the report is written. -/
def read (pmu : Pmu σ) (id : CounterId) (buffer : Bytes) (m : Machine σ) :
    Except SystemError Nat × Bytes × Machine σ :=
  let m := (pmu.meanwhile id m.state).foldl outside (m.call (.read id buffer.length))
  let (outcome, state) := pmu.read id buffer m.state
  (outcome.result, Bytes.overwrite buffer outcome.written, { m with state })

end Machine
end CounterWatch
