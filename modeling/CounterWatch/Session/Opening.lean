import CounterWatch.Session

/-!
# Session/Opening — opening all counters of a target, or none

Before any counter is opened, the control group is opened and its first process looked up, and a
backend is asked for the symbols of that process.  Then the leaves are opened in order: the leader,
its ring, the siblings.  The first thing that fails ends it, and everything opened until then is
closed again: what belongs to the CPU that failed, then the CPUs of its package, then the packages
of its group, then the groups, each in ascending order.
-/

namespace CounterWatch

variable {σ : Type}

/-! ## One CPU -/

namespace CpuSession

/-- The attribute of a group's leader: sampling if the group is sampled. -/
def leaderAttribute (e : Event) : Option SamplingOptions → Attribute
  | none => .counting e
  | some options => (Attribute.counting e).sampling options.frequency

/-- Maps the ring of a leader, if the group is sampled. -/
def startSampler (pmu : Pmu σ) (leader : CounterId) (sampling : Option SamplingOptions)
    (m : Machine σ) : Except SystemError Unit × Machine σ :=
  match sampling with
  | none => (.ok (), m)
  | some options => Sampler.start pmu leader options.pagesExponent m

/-- Opens the siblings of a group one after the other.  When one fails, the group has those opened
before it. -/
def addSiblings (pmu : Pmu σ) (scope : Scope) (leaf : Leaf) :
    List EventDescriptor → CounterGroup → Machine σ → Except Failure Unit × CounterGroup × Machine σ
  | [], g, m => (.ok (), g, m)
  | e :: rest, g, m =>
      match g.add pmu (.counting e.event) scope m with
      | (.error error, g, m) => (.error (.openEvent leaf e.name error), g, m)
      | (.ok _, g, m) => addSiblings pmu scope leaf rest g m

/-- **Opens the counters of one CPU**, or none: what was opened before a failure is closed. -/
def start (pmu : Pmu σ) (group : EventsGroup) (scope : Scope) (sampling : Option SamplingOptions)
    (leaf : Leaf) (m : Machine σ) : Except Failure CpuSession × Machine σ :=
  match group.members with
  | .error fault =>
      (.error (.openEvent leaf fault.event (.custom .invalidInput fault.message)), m)
  | .ok (first, rest) =>
      match m.openCounter pmu
        { attr := leaderAttribute first.event sampling, scope, leader := none } with
      | (.error e, m) => (.error (.openEvent leaf first.name e), m)
      | (.ok leader, m) =>
          let g := CounterGroup.ofLeader leader
          match startSampler pmu leader sampling m with
          | (.error e, m) => (.error (.mapRing leaf e), g.close m)
          | (.ok (), m) =>
              match addSiblings pmu scope leaf rest g m with
              | (.ok (), g, m) => (.ok ⟨g, sampling.isSome⟩, m)
              | (.error e, g, m) => (.error e, (CpuSession.mk g sampling.isSome).close m)

end CpuSession

/-! ## The levels of the tree -/

/-- Opens the selected CPUs of a package. -/
def PackageSession.start (pmu : Pmu σ) (config : EventsGroup) (key : String)
    (sampling : Option SamplingOptions) (scope : UInt32 → Scope) (package : UInt32)
    (cpus : OrderedSet UInt32) (m : Machine σ) : Except Failure PackageSession × Machine σ :=
  let (result, m) := (OrderedMap.ofSet (config.mode.select cpus) ()).assemble
    (fun cpu () m => CpuSession.start pmu config (scope cpu) sampling ⟨key, package, cpu⟩ m)
    CpuSession.close m
  (result.map .mk, m)

/-- Opens an events group on every package. -/
def GroupSession.start (pmu : Pmu σ) (topology : Topology) (config : EventsGroup) (key : String)
    (sampling : Option SamplingOptions) (scope : UInt32 → Scope) (m : Machine σ) :
    Except Failure GroupSession × Machine σ :=
  let (result, m) := topology.packages.assemble
    (fun package cpus m => PackageSession.start pmu config key sampling scope package cpus m)
    PackageSession.close m
  (result.map (.mk config), m)

/-! ## The control group -/

/-- What is logged of a process list: its lines that are no process ids. -/
def strayLines (entries : List Cgroup.Entry) : List Notice :=
  entries.filterMap fun
    | .pid _ => none
    | .other line => some (.strayProcessLine line)

/-- The process a control group's call chains are symbolized for: the first one listed. -/
def firstProcess (directory : Path) (m : Machine σ) : Except Failure UInt32 × Machine σ :=
  match m.openPath directory with
  | (.error e, m) => (.error (.cgroup directory e), m)
  | (.ok (), m) =>
      match m.readProcesses directory with
      | (.error e, m) => (.error (.cgroup directory e), m)
      | (.ok entries, m) =>
          let m := m.notes (strayLines entries)
          match Cgroup.pids entries with
          | [] => (.error (.noPid directory), m)
          | [pid] => (.ok pid, m)
          | pid :: others =>
              (.ok pid, m.note (.severalProcesses directory (others.length + 1) pid))

/-- The symbols of a process: none without a backend, and none if the backend fails. -/
def attachSymbols (backend : Option Backend) (pid : UInt32) (m : Machine σ) :
    Symbols × Machine σ :=
  match backend with
  | none => (.none, m)
  | some backend =>
      match m.attach backend pid with
      | (.ok symbols, m) => (symbols, m)
      | (.error e, m) => (.none, m.note (.noSymbols pid e))

/-- What has to be known of a target before its counters are opened: the process, if it is a control
group, and the symbols. -/
def prepareTarget (target : Target) (backend : Option Backend) (m : Machine σ) :
    Except Failure (Option UInt32 × Symbols) × Machine σ :=
  match target.cgroupPath? with
  | none => (.ok (none, .none), m)
  | some directory =>
      match firstProcess directory m with
      | (.error e, m) => (.error e, m)
      | (.ok pid, m) =>
          let (symbols, m) := attachSymbols backend pid m
          (.ok (some pid, symbols), m)

/-! ## The tree -/

namespace SessionTree

/-- Where the counters of a target count. -/
def scopeOf (target : Target) (cpu : UInt32) : Scope :=
  if target.cgroupPath?.isSome then .cgroupOnCpu cpu else .onCpu cpu

/-- How an events group is sampled: only the first group of a control group is. -/
def samplingOf (config : MonitoringConfig) (key : String) : Option SamplingOptions :=
  if config.target.cgroupPath?.isSome ∧ config.groups.keys.head? = some key then
    some config.sampling
  else none

/-- **Opens every counter of a configuration**, or leaves none open. -/
def start (pmu : Pmu σ) (config : MonitoringConfig) (backend : Option Backend) (m : Machine σ) :
    Except Failure SessionTree × Machine σ :=
  match prepareTarget config.target backend m with
  | (.error e, m) => (.error e, m)
  | (.ok (pid, symbols), m) =>
      let (result, m) := config.groups.assemble
        (fun key group m => GroupSession.start pmu config.topology group key
          (samplingOf config key) (scopeOf config.target) m)
        GroupSession.close m
      (result.map fun groups =>
        { groups, pid, callchain := ⟨symbols, config.sampling.maxDepth⟩,
          inCgroup := config.target.cgroupPath?.isSome }, m)

end SessionTree
end CounterWatch
