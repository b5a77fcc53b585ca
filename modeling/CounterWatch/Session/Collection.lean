import CounterWatch.Payload
import CounterWatch.Session

/-!
# Session/Collection — enabling the counters and taking their counts

Enabling goes to every leaf, whatever fails on the way.  Taking the counts reads and resets the
leaves in order and stops at the first one that fails: then there is no payload, and the leaves
behind it are as they were.
-/

namespace CounterWatch

variable {σ : Type}

/-! ## Enabling -/

/-- Resets and enables the group of a leaf: what failed. -/
def CpuSession.enable (pmu : Pmu σ) (leaf : Leaf) (s : CpuSession) (m : Machine σ) :
    List Failure × Machine σ :=
  let (cleared, m) := s.counters.clear pmu m
  let (failures, m) : List Failure × Machine σ := match cleared with
    | .ok () => ([], m)
    | .error e => ([.resetCounts leaf e], m.note (.resetFailed leaf e))
  let (enabled, m) := s.counters.enable pmu m
  match enabled with
  | .ok () => (failures, m)
  | .error e => (failures ++ [.enableCounts leaf e], m.note (.enableFailed leaf e))

/-- Enables leaves one after the other: everything that failed, in order. -/
def enableLeaves (pmu : Pmu σ) : List (Leaf × CpuSession) → Machine σ → List Failure × Machine σ
  | [], m => ([], m)
  | (leaf, s) :: rest, m =>
      let (first, m) := s.enable pmu leaf m
      let (others, m) := enableLeaves pmu rest m
      (first ++ others, m)

/-- **Enables every counter**: everything that failed, in order. -/
def SessionTree.enable (pmu : Pmu σ) (t : SessionTree) (m : Machine σ) :
    List Failure × Machine σ :=
  enableLeaves pmu t.leaves m

/-! ## Collecting -/

/-- Takes the call chains of a leaf, if it is sampled. -/
def CpuSession.callchains (c : Callchain) (s : CpuSession) (m : Machine σ) :
    Option String × Machine σ :=
  if s.sampled then Sampler.callchains c s.counters.leader m else (none, m)

/-- Logs that a group was counting less than it was enabled. -/
def noteMultiplexing (leaf : Leaf) (r : Report) (m : Machine σ) : Machine σ :=
  if r.ratio < 1.0 then m.note (.multiplexed leaf r.timeEnabled r.timeRunning) else m

/-- Reads and resets the counts of a leaf and takes its call chains. -/
def CpuSession.collect (pmu : Pmu σ) (c : Callchain) (events : List String) (leaf : Leaf)
    (s : CpuSession) (m : Machine σ) : Except Failure CpuData × CpuSession × Machine σ :=
  let (stat, counters, m) := s.counters.stat pmu m
  let s := { s with counters }
  match stat with
  | .error e => (.error (.readCounts leaf e), s, m)
  | .ok report =>
      match s.counters.clear pmu m with
      | (.error e, m) => (.error (.resetCounts leaf e), s, m)
      | (.ok (), m) =>
          let (chains, m) := s.callchains c (noteMultiplexing leaf report m)
          (.ok ((CpuData.ofReport events report).withCallchains chains), s, m)

/-- Collects the CPUs of a package. -/
def PackageSession.collect (pmu : Pmu σ) (c : Callchain) (events : List String) (group : String)
    (package : UInt32) (s : PackageSession) (m : Machine σ) :
    Except Failure PackageData × PackageSession × Machine σ :=
  let (result, cpus, m) := s.cpus.visit
    (fun cpu session m => session.collect pmu c events ⟨group, package, cpu⟩ m) m
  (result.map .mk, ⟨cpus⟩, m)

/-- Collects the packages of an events group. -/
def GroupSession.collect (pmu : Pmu σ) (c : Callchain) (group : String) (s : GroupSession)
    (m : Machine σ) : Except Failure GroupData × GroupSession × Machine σ :=
  let events := s.config.events.map (·.name)
  let (result, packages, m) := s.packages.visit
    (fun package session m => session.collect pmu c events group package m) m
  (result.map .mk, { s with packages }, m)

/-- **Collects every leaf into a payload**, or stops at the first one that fails. -/
def SessionTree.collect (pmu : Pmu σ) (timestamp : UInt64) (target : String) (t : SessionTree)
    (m : Machine σ) : Except Failure Payload × SessionTree × Machine σ :=
  let (result, groups, m) := t.groups.visit
    (fun group session m => session.collect pmu t.callchain group m) m
  (result.map fun groups => { timestamp, target, groups }, { t with groups }, m)

end CounterWatch
