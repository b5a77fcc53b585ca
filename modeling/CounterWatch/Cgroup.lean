import CounterWatch.Files
import CounterWatch.Text.Blank
import CounterWatch.Text.Lines
import CounterWatch.Text.Numeral

/-!
# Cgroup — the processes of a control group

The file `cgroup.procs` of a control group lists one process id a line.  Blanks around an id and
blank lines do not matter; a line that is no id is reported and skipped.
-/

namespace CounterWatch.Cgroup

/-- A line of the list that is not blank: a process id, or something else. -/
inductive Entry where
  | pid (id : UInt32)
  | other (line : String)
  deriving DecidableEq

/-- What a line says; nothing if it is blank. -/
def entry? (line : List Char) : Option Entry :=
  match Text.trim line with
  | [] => none
  | text =>
      match Text.readUInt32 text with
      | .ok id => some (.pid id)
      | .error _ => some (.other (String.ofList text))

/-- The entries of the list, in order. -/
def entries (content : String) : List Entry := (Text.lines content.toList).filterMap entry?

/-- The process ids among the entries. -/
def pids (entries : List Entry) : List UInt32 :=
  entries.filterMap fun
    | .pid id => some id
    | .other _ => none

/-- The file that lists the processes of a control group. -/
def procsFile (directory : Path) : Path := directory.join (.ofString "cgroup.procs")

/-- The entries of the list of a control group. -/
def readEntries (files : Files) (directory : Path) : Except SystemError (List Entry) :=
  (files.readText (procsFile directory)).map entries

end CounterWatch.Cgroup
