import CounterWatch.SystemError

/-!
# Probe — why counters cannot be opened at all

Opening one counter tells whether the system has counters and lets them be used.  The number of the
error decides which of the two is missing.
-/

namespace CounterWatch

/-- Why the probe failed; the system's restriction level is known only sometimes. -/
inductive ProbeFailure where
  | unsupported (source : SystemError)
  | permissionDenied (paranoid : Option Int32) (source : SystemError)
  | other (source : SystemError)
  deriving DecidableEq

namespace ProbeFailure

/-- Sorts the error of opening a counter. -/
def classify (e : SystemError) (paranoid : Option Int32) : ProbeFailure :=
  match e.number? with
  | some 2 | some 19 | some 95 | some 38 => .unsupported e
  | some 13 | some 1 => .permissionDenied paranoid e
  | _ => .other e

/-- The failure in words, without its source. -/
def message : ProbeFailure → String
  | .unsupported _ => "kernel does not support performance counters"
  | .permissionDenied paranoid _ =>
      "not allowed to open performance counters (perf_event_paranoid=" ++
        (paranoid.map fun level => toString level.toInt).getD "?" ++ ")"
  | .other _ => "failed to open performance counter"

/-- The error behind the failure. -/
def source : ProbeFailure → SystemError
  | .unsupported source | .permissionDenied _ source | .other source => source

/-- The failure and its source, one behind the other. -/
def chain (f : ProbeFailure) : String := f.message ++ ": " ++ f.source.message

end ProbeFailure
end CounterWatch
