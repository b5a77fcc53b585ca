/-!
# Metric — the values reported for one CPU

Every CPU reports its counts under the names of the events, the two times of its group, and the call
chains sampled there.  The names of the times and of the call chains are reserved.
-/

namespace CounterWatch

/-- A reported value: a count, or rendered call chains. -/
inductive Metric where
  | counter (n : UInt64)
  | callchain (text : String)
  deriving DecidableEq

namespace Metric

/-- The name of the time the group was enabled. -/
def timeEnabled : String := "time_enabled"

/-- The name of the time the group was actually counting. -/
def timeRunning : String := "time_running"

/-- The name of the rendered call chains. -/
def callchainName : String := "callchain"

/-- The names no event may have. -/
def reserved : List String := [timeEnabled, timeRunning, callchainName]

end Metric
end CounterWatch
