import CounterWatch.Bytes
import CounterWatch.SystemError

/-!
# Arena — mapped memory

A mapping has a length and mostly zeros in it: only the bytes it starts with are written down, the
rest of them is zero.
-/

namespace CounterWatch

/-- The size of a page of memory. -/
def pageSize : Nat := 4096

/-- A mapping of memory. -/
structure Arena where
  length : Nat
  /-- The bytes it starts with; all later ones are zero. -/
  contents : Bytes
  deriving DecidableEq, Inhabited

namespace Arena

/-- The number of bytes in as many whole pages as it takes. -/
def wholePages (length : Nat) : Nat := (length + (pageSize - 1)) / pageSize * pageSize

/-- The longest stretch of addresses that is free: of the half of the 48-bit addresses a program
has, the lower two thirds, below where it is loaded itself. -/
def freeAddresses : Nat := 0x560000000000

/-- A mapping with these contents, if there are addresses for all of its pages. -/
def map (length : Nat) (contents : Bytes) : Except SystemError Arena :=
  if length = 0 then .error .invalidArgument
  else if freeAddresses < wholePages length then .error .outOfMemory
  else .ok ⟨length, contents.take length⟩

/-- The memory of the machine: pages with no file behind them are promised only if they could all be
kept in it. -/
def memory : Nat := 0x800000000

/-- Zeroed memory behind no file. -/
def anonymous (length : Nat) : Except SystemError Arena :=
  if wholePages length ≤ memory then map length [] else .error .outOfMemory

/-- The size no file can have. -/
def fileLimit : Nat := 0x8000000000000000

/-- The contents of a file from an offset on, which has to be at the start of a page.  The pages may
reach beyond the end of the file, but not beyond the end of the largest file there could be. -/
def ofFile (contents : Bytes) (length offset : Nat) : Except SystemError Arena :=
  if offset % pageSize = 0 then do
    let arena ← map length (contents.drop offset)
    if offset + wholePages length < fileLimit then .ok arena else .error .valueTooLarge
  else .error .invalidArgument

/-- The byte at an offset. -/
def byte (a : Arena) (offset : Nat) : UInt8 := a.contents.getD offset 0

/-- The bytes up to the last one that is not zero. -/
def filled (a : Arena) : Bytes := (a.contents.reverse.dropWhile (· = 0)).reverse

/-- Whether every byte is zero. -/
def isZero (a : Arena) : Bool := a.filled.isEmpty

end Arena
end CounterWatch
