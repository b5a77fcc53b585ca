import CounterWatch.Bytes
import CounterWatch.Event

/-!
# Attribute — how a counter is asked for

The attribute is the structure that the kernel takes when a counter is opened.  A counting attribute
starts disabled and reports its whole group with both times; a sampling one writes call chains at a
frequency besides.  Named flags are single bits of one word, and setting one leaves the others.
-/

namespace CounterWatch

/-- The attribute of a counter, field by field as it lies in memory.  What is not asked for is
zero. -/
structure Attribute where
  type : UInt32 := 0
  size : UInt32 := 0
  config : UInt64 := 0
  /-- A period, or a frequency when the flag `freq` is set. -/
  samplePeriod : UInt64 := 0
  sampleType : UInt64 := 0
  readFormat : UInt64 := 0
  flags : UInt64 := 0
  wakeupEvents : UInt32 := 0
  breakpointType : UInt32 := 0
  config1 : UInt64 := 0
  config2 : UInt64 := 0
  branchSampleType : UInt64 := 0
  sampleRegsUser : UInt64 := 0
  sampleStackUser : UInt32 := 0
  clockId : Int32 := 0
  sampleRegsIntr : UInt64 := 0
  auxWatermark : UInt32 := 0
  sampleMaxStack : UInt16 := 0
  reserved2 : UInt16 := 0
  auxSampleSize : UInt32 := 0
  reserved3 : UInt32 := 0
  sigData : UInt64 := 0
  config3 : UInt64 := 0
  deriving DecidableEq, Inhabited

/-- The named flags. -/
inductive AttributeFlag where
  | disabled
  | inherit
  | pinned
  | exclusive
  | excludeUser
  | excludeKernel
  | excludeHv
  | excludeIdle
  | mmap
  | comm
  | freq
  deriving DecidableEq

/-- The place of a flag in the flag word. -/
def AttributeFlag.bit : AttributeFlag → UInt64
  | .disabled => 0
  | .inherit => 1
  | .pinned => 2
  | .exclusive => 3
  | .excludeUser => 4
  | .excludeKernel => 5
  | .excludeHv => 6
  | .excludeIdle => 7
  | .mmap => 8
  | .comm => 9
  | .freq => 10

/-- The name of a flag. -/
def AttributeFlag.name : AttributeFlag → String
  | .disabled => "disabled"
  | .inherit => "inherit"
  | .pinned => "pinned"
  | .exclusive => "exclusive"
  | .excludeUser => "exclude_user"
  | .excludeKernel => "exclude_kernel"
  | .excludeHv => "exclude_hv"
  | .excludeIdle => "exclude_idle"
  | .mmap => "mmap"
  | .comm => "comm"
  | .freq => "freq"

/-- Every flag, by its place. -/
def AttributeFlag.all : List AttributeFlag :=
  [.disabled, .inherit, .pinned, .exclusive, .excludeUser, .excludeKernel, .excludeHv, .excludeIdle,
    .mmap, .comm, .freq]

theorem AttributeFlag.mem_all (f : AttributeFlag) : f ∈ all := by cases f <;> decide

/-- The flag with a name. -/
def AttributeFlag.ofName? (text : String) : Option AttributeFlag := all.find? (·.name == text)

namespace Attribute

/-- The value of a flag, 0 or 1. -/
def get (a : Attribute) (f : AttributeFlag) : UInt64 := (a.flags >>> f.bit) &&& 1

/-- The attribute with a flag set to the lowest bit of a value. -/
def set (a : Attribute) (f : AttributeFlag) (value : UInt64) : Attribute :=
  { a with flags := (a.flags &&& ~~~((1 : UInt64) <<< f.bit)) ||| ((value &&& 1) <<< f.bit) }

/-- The number of bytes of the structure. -/
def structSize : Nat := 136

/-- A report lists the whole group (8) with the time it was enabled (1) and running (2). -/
def groupReport : UInt64 := 8 ||| 1 ||| 2

/-- Samples carry their call chain and nothing else. -/
def callchainSample : UInt64 := 32

/-- The attribute of a counting member of a group.  It starts disabled: the whole group is enabled
at once, through its leader. -/
def counting (e : Event) : Attribute :=
  ({ type := e.type, size := UInt32.ofNat structSize, config := e.config, config1 := e.config1,
     config2 := e.config2, readFormat := groupReport } : Attribute).set .disabled 1

/-- The attribute that also samples call chains `frequency` times a second. -/
def sampling (a : Attribute) (frequency : UInt64) : Attribute :=
  { a.set .freq 1 with samplePeriod := frequency, sampleType := callchainSample }

/-- The structure as it lies in memory. -/
def bytes (a : Attribute) : Bytes :=
  Bytes.ofNat 4 a.type.toNat ++ Bytes.ofNat 4 a.size.toNat ++
    Bytes.ofWords [a.config, a.samplePeriod, a.sampleType, a.readFormat, a.flags] ++
    Bytes.ofNat 4 a.wakeupEvents.toNat ++ Bytes.ofNat 4 a.breakpointType.toNat ++
    Bytes.ofWords [a.config1, a.config2, a.branchSampleType, a.sampleRegsUser] ++
    Bytes.ofNat 4 a.sampleStackUser.toNat ++ Bytes.ofNat 4 a.clockId.toUInt32.toNat ++
    Bytes.ofWords [a.sampleRegsIntr] ++ Bytes.ofNat 4 a.auxWatermark.toNat ++
    Bytes.ofNat 2 a.sampleMaxStack.toNat ++ Bytes.ofNat 2 a.reserved2.toNat ++
    Bytes.ofNat 4 a.auxSampleSize.toNat ++ Bytes.ofNat 4 a.reserved3.toNat ++
    Bytes.ofWords [a.sigData, a.config3]

end Attribute
end CounterWatch
