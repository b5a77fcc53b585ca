import CounterWatch.OrderedMap
import CounterWatch.OrderedSet

/-!
# Topology — packages and their CPUs

A topology says which CPUs sit in which package.  It is a map of sets: neither the order in which
packages and CPUs were added, nor adding something twice, can be told from the result.
-/

namespace CounterWatch

/-- The CPUs of every package. -/
structure Topology where
  packages : OrderedMap UInt32 (OrderedSet UInt32)
  deriving DecidableEq, Inhabited

namespace Topology

/-- No packages. -/
def empty : Topology := ⟨∅⟩

/-- The topology with CPUs added to a package; the package is there even if there are none. -/
def addPackage (t : Topology) (package : UInt32) (cpus : List UInt32) : Topology :=
  ⟨t.packages.alter package fun known => (known.getD ∅).insertMany cpus⟩

/-- The topology of a list of additions. -/
def ofAdditions (additions : List (UInt32 × List UInt32)) : Topology :=
  additions.foldl (fun t a => t.addPackage a.1 a.2) empty

end Topology
end CounterWatch
