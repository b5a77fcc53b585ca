import CounterWatch.Config
import CounterWatch.Text.Quoted

/-!
# Config/Description — a configuration on one line

The description spells out every part of a configuration by name, with braces around fields and map
entries and brackets around lists, for logs and error reports.
-/

namespace CounterWatch.Description

/-- A list in brackets. -/
def list (items : List String) : String := "[" ++ ", ".intercalate items ++ "]"

/-- Keys with their values, in braces. -/
def map (items : List (String × String)) : String :=
  "\x7b" ++ ", ".intercalate (items.map fun p => p.1 ++ ": " ++ p.2) ++ "\x7d"

/-- A name with its fields, in braces. -/
def record (name : String) (fields : List (String × String)) : String :=
  name ++ " \x7b " ++ ", ".intercalate (fields.map fun p => p.1 ++ ": " ++ p.2) ++ " \x7d"

/-- A value that may be missing. -/
def option : Option String → String
  | none => "None"
  | some text => "Some(" ++ text ++ ")"

/-- The packages with their CPUs. -/
def topology (t : Topology) : String :=
  record "Topology" [("pkgs", map (t.packages.entries.map fun p =>
    (toString p.1, list (p.2.toList.map toString))))]

/-- The words of an event. -/
def event (e : Event) : String :=
  record "Event" [("ty", toString e.type), ("config", toString e.config),
    ("config1", toString e.config1), ("config2", toString e.config2)]

/-- An event with its name. -/
def descriptor (d : EventDescriptor) : String :=
  record "EventDescriptor" [("name", Quoted.text d.name), ("event", event d.event)]

/-- The name of a mode. -/
def mode : MonitoringMode → String
  | .allCpus => "AllCpus"
  | .oneCpuPerPackage => "OneCpuPerPackage"

/-- A group with its events. -/
def group (g : EventsGroup) : String :=
  record "EventsGroup" [("name", Quoted.text g.name), ("mode", mode g.mode),
    ("events", list (g.events.map descriptor))]

/-- How call chains are sampled. -/
def sampling (s : SamplingOptions) : String :=
  record "SamplingOpts" [("frequency", toString s.frequency),
    ("pages_exp", toString s.pagesExponent), ("max_depth", toString s.maxDepth)]

/-- The whole configuration. -/
def config (c : MonitoringConfig) : String :=
  record "MonitoringConfig" [("topology", topology c.topology),
    ("groups", map (c.groups.entries.map fun p => (Quoted.text p.1, group p.2))),
    ("cgroup", option (c.target.cgroupPath?.map Quoted.path)),
    ("sampling", sampling c.sampling)]

end CounterWatch.Description
