import CounterWatch.Config
import CounterWatch.CounterGroup
import CounterWatch.Sampler

/-!
# Session — the open counters of one target

The sessions of a target form a tree: events group, package, CPU.  Each CPU has one counter group,
which the CPU's events are read through, and some have a ring of samples besides.  The leaves of the
tree are its CPUs in the order of group key, package and CPU; whatever is done to the whole tree is
done in this order.
-/

namespace CounterWatch

/-- The counters of one CPU in one events group. -/
structure CpuSession where
  counters : CounterGroup
  /-- Whether the leader samples call chains into a ring. -/
  sampled : Bool
  deriving DecidableEq

/-- The CPUs of a package. -/
structure PackageSession where
  cpus : OrderedMap UInt32 CpuSession
  deriving DecidableEq, Inhabited

/-- The packages an events group is counted on. -/
structure GroupSession where
  config : EventsGroup
  packages : OrderedMap UInt32 PackageSession
  deriving DecidableEq, Inhabited

/-- All sessions of a target. -/
structure SessionTree where
  groups : OrderedMap String GroupSession
  callchain : Callchain
  /-- The process that call chains are symbolized for. -/
  pid : Option UInt32
  /-- Whether the target is a control group. -/
  inCgroup : Bool

variable {σ : Type}

/-- Unmaps the ring and closes the counters. -/
def CpuSession.close (s : CpuSession) (m : Machine σ) : Machine σ :=
  s.counters.close (if s.sampled then m.unmapRing s.counters.leader else m)

/-- Closes every CPU. -/
def PackageSession.close (s : PackageSession) (m : Machine σ) : Machine σ :=
  s.cpus.values.foldl (fun m c => c.close m) m

/-- Closes every package. -/
def GroupSession.close (s : GroupSession) (m : Machine σ) : Machine σ :=
  s.packages.values.foldl (fun m p => p.close m) m

namespace SessionTree

/-- Closes every events group. -/
def close (t : SessionTree) (m : Machine σ) : Machine σ :=
  t.groups.values.foldl (fun m g => g.close m) m

/-- The CPUs of the tree, in order. -/
def leaves (t : SessionTree) : List (Leaf × CpuSession) :=
  t.groups.entries.flatMap fun (group, g) =>
    g.packages.entries.flatMap fun (package, p) =>
      p.cpus.entries.map fun (cpu, c) => (⟨group, package, cpu⟩, c)

/-- The session of a leaf. -/
def session? (t : SessionTree) (l : Leaf) : Option CpuSession := do
  let g ← t.groups.get? l.group
  let p ← g.packages.get? l.package
  p.cpus.get? l.cpu

end SessionTree
end CounterWatch
