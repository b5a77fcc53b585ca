/-!
# Event — what a counter counts

An event is a type and up to three configuration words, the way the kernel wants them.  The
generalized hardware events and the kernel's own software events have names; anything else is given
raw, as the vendor's manuals list it.
-/

namespace CounterWatch

/-- The description of a counter that goes into its attribute. -/
structure Event where
  type : UInt32
  config : UInt64
  config1 : UInt64 := 0
  config2 : UInt64 := 0
  deriving DecidableEq, Inhabited

/-- Generalized hardware events. -/
inductive Hardware where
  | cpuCycle
  | busCycle
  | refCpuCycle
  | cacheMiss
  | cacheAccess
  | branchMiss
  | branchInstr
  | backendStalledCycle
  | frontendStalledCycle
  | instr
  deriving DecidableEq

/-- The kernel's number of a hardware event. -/
def Hardware.config : Hardware → UInt64
  | .cpuCycle => 0
  | .instr => 1
  | .cacheAccess => 2
  | .cacheMiss => 3
  | .branchInstr => 4
  | .branchMiss => 5
  | .busCycle => 6
  | .frontendStalledCycle => 7
  | .backendStalledCycle => 8
  | .refCpuCycle => 9

/-- The name a hardware event is configured by. -/
def Hardware.name : Hardware → String
  | .cpuCycle => "CpuCycle"
  | .busCycle => "BusCycle"
  | .refCpuCycle => "RefCpuCycle"
  | .cacheMiss => "CacheMiss"
  | .cacheAccess => "CacheAccess"
  | .branchMiss => "BranchMiss"
  | .branchInstr => "BranchInstr"
  | .backendStalledCycle => "BackendStalledCycle"
  | .frontendStalledCycle => "FrontendStalledCycle"
  | .instr => "Instr"

/-- Every hardware event. -/
def Hardware.all : List Hardware :=
  [.cpuCycle, .busCycle, .refCpuCycle, .cacheMiss, .cacheAccess, .branchMiss, .branchInstr,
    .backendStalledCycle, .frontendStalledCycle, .instr]

theorem Hardware.mem_all (h : Hardware) : h ∈ all := by cases h <;> decide

/-- The hardware event with a name. -/
def Hardware.ofName? (text : String) : Option Hardware := all.find? (·.name == text)

/-- Software events, provided by the kernel itself. -/
inductive Software where
  | cpuClock
  | taskClock
  | pageFault
  | minorPageFault
  | majorPageFault
  | emuFault
  | alignFault
  | ctxSwitch
  | cpuMigration
  | dummy
  deriving DecidableEq

/-- The kernel's number of a software event. -/
def Software.config : Software → UInt64
  | .cpuClock => 0
  | .taskClock => 1
  | .pageFault => 2
  | .ctxSwitch => 3
  | .cpuMigration => 4
  | .minorPageFault => 5
  | .majorPageFault => 6
  | .alignFault => 7
  | .emuFault => 8
  | .dummy => 9

/-- The name a software event is configured by. -/
def Software.name : Software → String
  | .cpuClock => "CpuClock"
  | .taskClock => "TaskClock"
  | .pageFault => "PageFault"
  | .minorPageFault => "MinorPageFault"
  | .majorPageFault => "MajorPageFault"
  | .emuFault => "EmuFault"
  | .alignFault => "AlignFault"
  | .ctxSwitch => "CtxSwitch"
  | .cpuMigration => "CpuMigration"
  | .dummy => "Dummy"

/-- Every software event. -/
def Software.all : List Software :=
  [.cpuClock, .taskClock, .pageFault, .minorPageFault, .majorPageFault, .emuFault, .alignFault,
    .ctxSwitch, .cpuMigration, .dummy]

theorem Software.mem_all (s : Software) : s ∈ all := by cases s <;> decide

/-- The software event with a name. -/
def Software.ofName? (text : String) : Option Software := all.find? (·.name == text)

/-- The event of type 0 for a hardware event. -/
def Hardware.event (h : Hardware) : Event := { type := 0, config := h.config }

/-- The event of type 1 for a software event. -/
def Software.event (s : Software) : Event := { type := 1, config := s.config }

/-- The event of type 4 for vendor-specific configuration words. -/
def Event.raw (config config1 config2 : UInt64) : Event := { type := 4, config, config1, config2 }

end CounterWatch
