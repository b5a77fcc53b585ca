import CounterWatch.Metric
import CounterWatch.OrderedMap
import CounterWatch.Report

/-!
# Payload — what one tick reports

A payload holds the metrics of every CPU, under its package and its events group, together with the
time of the tick and the name of the target.
-/

namespace CounterWatch

/-- The metrics of one CPU, by name. -/
structure CpuData where
  metrics : OrderedMap String Metric
  deriving DecidableEq, Inhabited

/-- The CPUs of one package. -/
structure PackageData where
  cpus : OrderedMap UInt32 CpuData
  deriving DecidableEq, Inhabited

/-- The packages of one events group. -/
structure GroupData where
  packages : OrderedMap UInt32 PackageData
  deriving DecidableEq, Inhabited

/-- The report of one tick. -/
structure Payload where
  timestamp : UInt64
  /-- The name of the target. -/
  target : String
  groups : OrderedMap String GroupData
  deriving DecidableEq, Inhabited

namespace CpuData

/-- The count under a name, if the metric there is a count. -/
def counter? (d : CpuData) (name : String) : Option UInt64 :=
  match d.metrics.get? name with
  | some (.counter n) => some n
  | _ => none

/-- The rendered call chains. -/
def callchain? (d : CpuData) : Option String :=
  match d.metrics.get? Metric.callchainName with
  | some (.callchain text) => some text
  | _ => none

/-- The metrics of a report: both times, and the counts under the names of their events. -/
def ofReport (events : List String) (r : Report) : CpuData :=
  let times := (OrderedMap.empty.insert Metric.timeEnabled (.counter r.timeEnabled)).insert
    Metric.timeRunning (.counter r.timeRunning)
  ⟨(events.zip r.counts).foldl (fun m p => m.insert p.1 (.counter p.2)) times⟩

/-- The metrics with call chains, if there are any to report. -/
def withCallchains (d : CpuData) : Option String → CpuData
  | none => d
  | some text =>
      if text.isEmpty then d else ⟨d.metrics.insert Metric.callchainName (.callchain text)⟩

end CpuData

/-- The metrics of a CPU in a payload. -/
def Payload.cpu? (p : Payload) (group : String) (package cpu : UInt32) : Option CpuData := do
  let g ← p.groups.get? group
  let k ← g.packages.get? package
  k.cpus.get? cpu

end CounterWatch
