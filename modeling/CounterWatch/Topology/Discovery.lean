import CounterWatch.Topology
import CounterWatch.Files
import CounterWatch.Text.Blank
import CounterWatch.Text.Numeral

/-!
# Topology/Discovery — reading the topology off the file system

Below the root there is a directory `cpu<N>` for every CPU, and in it the file
`topology/physical_package_id`.  Other entries are no CPUs; a CPU without a readable file is
offline.  Both are left out.  A file that can be read has to hold a number.
-/

namespace CounterWatch.Topology

/-- The CPU number in the name of an entry. -/
def cpuNumber? (name : Bytes) : Option UInt32 :=
  match (Utf8.decode? name).map String.toList with
  | some ('c' :: 'p' :: 'u' :: digits) => (Text.readUInt32 digits).toOption
  | _ => none

/-- Adds the CPUs among the entries of a directory; `packageId` is the text of an entry's package
file, if it can be read. -/
def addEntries (packageId : Bytes → Option String) :
    List Bytes → Topology → Except Text.NumeralError Topology
  | [], t => .ok t
  | name :: rest, t =>
      match cpuNumber? name, packageId name with
      | some cpu, some text =>
          match Text.readUInt32 (Text.trim text.toList) with
          | .ok package => addEntries packageId rest (t.addPackage package [cpu])
          | .error e => .error e
      | _, _ => addEntries packageId rest t

/-- The file that holds the package of an entry of the root. -/
def packageFile (root : Path) (name : Bytes) : Path :=
  (root.join ⟨name⟩).join (.ofString "topology/physical_package_id")

/-- The topology found below a root. -/
def discover (files : Files) (root : Path) : Except SystemError Topology :=
  match files.list root with
  | .error e => .error e
  | .ok names =>
      let packageId (name : Bytes) := (files.readText (packageFile root name)).toOption
      match addEntries packageId names empty with
      | .ok t => .ok t
      | .error e => .error (.custom .other e.message)

end CounterWatch.Topology
