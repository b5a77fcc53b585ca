import CounterWatch.Callchain
import CounterWatch.Failure
import CounterWatch.Report
import CounterWatch.Ring

/-!
# Notice — what is logged

Everything worth a line in the log is a cause here; its level, its wording and its fields follow
from the cause.
-/

namespace CounterWatch

/-- How serious a notice is. -/
inductive Level where
  | info
  | warn
  | error
  deriving DecidableEq

/-- The name of a level. -/
def Level.name : Level → String
  | .info => "INFO"
  | .warn => "WARN"
  | .error => "ERROR"

/-- A value shown with a notice. -/
inductive FieldValue where
  | number (n : Nat)
  | flag (b : Bool)
  | text (s : String)
  | ratio (x : Float)

/-- What a line of the log is about. -/
inductive Notice where
  /-- The bytes left in a ring are no records. -/
  | ring (fault : Ring.Fault)
  /-- A sample has too many addresses. -/
  | sampleTooDeep (addresses limit : UInt64)
  /-- A sample announces more addresses than it holds. -/
  | sampleTruncated (addresses : UInt64) (size : Nat)
  /-- A line of the process list is no process id. -/
  | strayProcessLine (line : String)
  | severalProcesses (path : Path) (count : Nat) (chosen : UInt32)
  | noSymbols (pid : UInt32) (error : SystemError)
  | resetFailed (leaf : Leaf) (error : SystemError)
  | enableFailed (leaf : Leaf) (error : SystemError)
  /-- A group was counting less than it was enabled. -/
  | multiplexed (leaf : Leaf) (timeEnabled timeRunning : UInt64)
  | noTargetName (failure : Failure)
  | notStarted (failure : Failure)
  | started (groups : Nat) (cgroup : Bool)
  | terminated
  | controlClosed
  | tickerClosed
  | unknownCommand (command : String)
  /-- Nobody takes the payload of a tick. -/
  | payloadDropped (time : UInt64)
  | tickFailed (time : UInt64) (failure : Failure)
  deriving DecidableEq

namespace Notice

/-- How serious it is. -/
def level : Notice → Level
  | .started _ _ | .terminated | .controlClosed | .tickerClosed => .info
  | .ring _ | .sampleTooDeep _ _ | .sampleTruncated _ _ | .strayProcessLine _
  | .severalProcesses _ _ _ | .noSymbols _ _ | .multiplexed _ _ _ => .warn
  | .resetFailed _ _ | .enableFailed _ _ | .noTargetName _ | .notStarted _ | .unknownCommand _
  | .payloadDropped _ | .tickFailed _ _ => .error

/-- The notice in words. -/
def message : Notice → String
  | .ring (.truncatedHeader _ _) => "truncated record header in ring buffer"
  | .ring (.malformedSize _ _ _) => "malformed record size in ring buffer"
  | .sampleTooDeep _ _ => "callchain too deep, sample dropped"
  | .sampleTruncated _ _ => "truncated callchain sample"
  | .strayProcessLine _ => "non-numeric line in cgroup.procs"
  | .severalProcesses _ _ _ => "more than one pid in cgroup, using the first"
  | .noSymbols _ _ => "failed to attach symbol backend, using raw addresses"
  | .resetFailed _ _ => "cannot reset events"
  | .enableFailed _ _ => "cannot enable events"
  | .multiplexed _ _ _ => "perf multiplexing"
  | .noTargetName _ => "cannot create perf context"
  | .notStarted _ => "cannot initialize perf monitoring"
  | .started _ _ => "monitoring started"
  | .terminated => "bye!"
  | .controlClosed => "control channel closed"
  | .tickerClosed => "ticker closed"
  | .unknownCommand _ => "invalid control command"
  | .payloadDropped _ => "reporting sink closed, payload dropped"
  | .tickFailed _ _ => "failed to populate payload"

/-- The fields that locate a leaf. -/
def leafFields (l : Leaf) : List (String × FieldValue) :=
  [("group", .text l.group), ("pkg", .number l.package.toNat), ("cpu", .number l.cpu.toNat)]

/-- What is shown beside the wording. -/
def fields : Notice → List (String × FieldValue)
  | .ring (.truncatedHeader tail head) =>
      [("tail", .number tail.toNat), ("head", .number head.toNat)]
  | .ring (.malformedSize tail head size) =>
      [("tail", .number tail.toNat), ("head", .number head.toNat), ("len", .number size)]
  | .sampleTooDeep addresses limit =>
      [("nr", .number addresses.toNat), ("max", .number limit.toNat)]
  | .sampleTruncated addresses size => [("nr", .number addresses.toNat), ("len", .number size)]
  | .strayProcessLine line => [("line", .text line)]
  | .severalProcesses path count chosen =>
      [("path", .text path.display), ("pids", .number count), ("pid", .number chosen.toNat)]
  | .noSymbols pid error => [("pid", .number pid.toNat), ("error", .text error.message)]
  | .resetFailed leaf error | .enableFailed leaf error =>
      leafFields leaf ++ [("error", .text error.message)]
  | .multiplexed leaf timeEnabled timeRunning =>
      leafFields leaf ++ [("ratio", .ratio (Report.share timeEnabled timeRunning))]
  | .noTargetName failure | .notStarted failure => [("error", .text failure.chain)]
  | .started groups cgroup => [("groups", .number groups), ("cgroup", .flag cgroup)]
  | .terminated | .controlClosed | .tickerClosed => []
  | .unknownCommand command => [("command", .text command)]
  | .payloadDropped time => [("timestamp", .number time.toNat)]
  | .tickFailed time failure =>
      [("timestamp", .number time.toNat), ("error", .text failure.chain)]

/-- The notice a refused record is worth; records that are no samples are passed over in silence. -/
def ofRefusal? : Callchain.Refusal → Option Notice
  | .tooDeep addresses limit => some (.sampleTooDeep addresses limit)
  | .truncated addresses size => some (.sampleTruncated addresses size)
  | .short | .notSample _ => none

end Notice
end CounterWatch
