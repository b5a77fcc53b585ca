/-!
# Scope — which tasks a counter follows, and where

A counter follows either every task or the tasks of one control group, and it does so on one CPU.
The CPU is the 32-bit id read as a signed number, as the interface takes it.
-/

namespace CounterWatch

/-- Where a counter counts. -/
structure Scope where
  /-- Whether it only counts the tasks of the monitored control group. -/
  inCgroup : Bool
  cpu : Int32
  deriving DecidableEq, Inhabited

namespace Scope

/-- Every task on a CPU. -/
def onCpu (cpu : UInt32) : Scope := ⟨false, cpu.toInt32⟩

/-- The tasks of the control group on a CPU. -/
def cgroupOnCpu (cpu : UInt32) : Scope := ⟨true, cpu.toInt32⟩

/-- The flag that says the process argument is a control group. -/
def cgroupFlag : UInt64 := 4

/-- The flags a counter of this scope is opened with. -/
def flags (s : Scope) : UInt64 := if s.inCgroup then cgroupFlag else 0

end Scope
end CounterWatch
