import CounterWatch.Path
import CounterWatch.SystemError

/-!
# Target — what is monitored, and under which name

The target is the whole system or the processes of one control group.  A control group is named
after the last step of its directory, unless it was given a name.
-/

namespace CounterWatch

/-- What is monitored. -/
inductive Target where
  | system
  | cgroup (path : Path) (name : Option String)
  deriving DecidableEq, Inhabited

namespace Target

/-- The name that payloads are labelled with. -/
def name : Target → Except SystemError String
  | .system => .ok "all"
  | .cgroup _ (some name) => .ok name
  | .cgroup path none =>
      match path.fileName?.bind Utf8.decode? with
      | some name => .ok name
      | none => .error (.custom .invalidInput ("no name for cgroup path: " ++ path.display))

/-- The directory of the control group. -/
def cgroupPath? : Target → Option Path
  | .system => none
  | .cgroup path _ => some path

end Target
end CounterWatch
