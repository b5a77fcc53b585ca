import CounterWatch.Event
import CounterWatch.Metric
import CounterWatch.Target
import CounterWatch.Topology

/-!
# Config — what one monitor is asked to do

A configuration names the CPUs, the events groups by key, the target and how call chains are
sampled.  The events of a group are counted together and reported by name, so a group needs at least
one event, and its names have to differ from each other and from the reserved ones
(`EventsGroup.members`).
-/

namespace CounterWatch

/-- Which CPUs of a package an events group is counted on. -/
inductive MonitoringMode where
  /-- Every CPU. -/
  | allCpus
  /-- The lowest CPU, for events that count the whole package. -/
  | oneCpuPerPackage
  deriving DecidableEq, Inhabited

/-- The CPUs of a package that the mode selects, in ascending order. -/
def MonitoringMode.select : MonitoringMode → OrderedSet UInt32 → OrderedSet UInt32
  | .allCpus, cpus => cpus
  | .oneCpuPerPackage, cpus => ⟨cpus.toList.take 1, cpus.ascending.sublist (List.take_sublist _ _)⟩

/-- An event and the name its counts are reported under. -/
structure EventDescriptor where
  name : String
  event : Event
  deriving DecidableEq, Inhabited

/-- Events that are counted together; the first one leads the group. -/
structure EventsGroup where
  name : String
  mode : MonitoringMode
  events : List EventDescriptor
  deriving DecidableEq, Inhabited

namespace EventsGroup

/-- What is wrong with a group. -/
inductive Fault where
  | noEvents
  /-- The name of an event is reserved, or that of an earlier event. -/
  | repeatedName (name : String)
  deriving DecidableEq

/-- The event name that a fault is reported with. -/
def Fault.event : Fault → String
  | .noEvents => ""
  | .repeatedName name => name

/-- The wording of each fault. -/
def Fault.message : Fault → String
  | .noEvents => "events group has no events"
  | .repeatedName _ => "duplicate event name"

/-- The first name that is among those seen before it. -/
def firstRepeat? : (seen : List String) → List EventDescriptor → Option String
  | _, [] => none
  | seen, e :: rest => if e.name ∈ seen then some e.name else firstRepeat? (e.name :: seen) rest

/-- The leading event and the others, if the group can be counted and reported. -/
def members (g : EventsGroup) : Except Fault (EventDescriptor × List EventDescriptor) :=
  match g.events with
  | [] => .error .noEvents
  | first :: rest =>
      match firstRepeat? Metric.reserved g.events with
      | some name => .error (.repeatedName name)
      | none => .ok (first, rest)

end EventsGroup

/-- How call chains are sampled when the target is a control group. -/
structure SamplingOptions where
  /-- Samples per second. -/
  frequency : UInt64 := 1000
  /-- The ring has two to this power data pages. -/
  pagesExponent : UInt8 := 6
  /-- Samples with more addresses are dropped. -/
  maxDepth : UInt64 := 50
  deriving DecidableEq, Inhabited

/-- Everything a monitor needs to know. -/
structure MonitoringConfig where
  topology : Topology
  groups : OrderedMap String EventsGroup
  target : Target
  sampling : SamplingOptions
  deriving Inhabited

end CounterWatch
