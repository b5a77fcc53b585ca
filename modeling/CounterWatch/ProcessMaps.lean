import CounterWatch.Callchain
import CounterWatch.Files
import CounterWatch.Text.Blank
import CounterWatch.Text.Lines

/-!
# ProcessMaps — the executable mappings of a process

A process lists its mappings one a line: range, permissions, offset, device, inode and path.  Only
executable mappings with a path are kept.  An address in a mapping is named after the mapped file
and the offset of the address in it.
-/

namespace CounterWatch

/-- An executable mapping. -/
structure Mapping where
  start : UInt64
  /-- The first address behind it. -/
  stop : UInt64
  /-- Where in the file it starts. -/
  offset : UInt64
  /-- The last component of the file's path. -/
  module : String
  deriving DecidableEq

namespace Mapping

/-- The parts before and after the first separator. -/
def splitOnce (separator : Char) : List Char → Option (List Char × List Char)
  | [] => none
  | c :: rest =>
      if c = separator then some ([], rest)
      else (splitOnce separator rest).map fun p => (c :: p.1, p.2)

/-- The mapping that a line describes, if it is to be kept. -/
def ofLine? (line : List Char) : Option Mapping :=
  match Text.fields line with
  | range :: permissions :: offset :: _device :: _inode :: path :: _ => do
      let (start, stop) ← splitOnce '-' range
      guard ('x' ∈ permissions)
      let module ← Steps.lastName? '/' '.' path
      return {
        start := ← (Text.readHex64 start).toOption
        stop := ← (Text.readHex64 stop).toOption
        offset := ← (Text.readHex64 offset).toOption
        module := String.ofList module }
  | _ => none

/-- Whether an address lies in the mapping. -/
def contains (m : Mapping) (address : UInt64) : Bool := m.start ≤ address && address < m.stop

/-- The name of an address in the mapping. -/
def nameOf (m : Mapping) (address : UInt64) : String :=
  m.module ++ "+0x" ++ Text.hex (address - m.start + m.offset).toNat

end Mapping

/-- The executable mappings of a process, in the order of their lines. -/
structure ProcessMaps where
  mappings : List Mapping
  deriving DecidableEq

namespace ProcessMaps

/-- Reads the lines of a maps file. -/
def parse (text : String) : ProcessMaps := ⟨(Text.lines text.toList).filterMap Mapping.ofLine?⟩

/-- Reads a maps file. -/
def ofFile (files : Files) (path : Path) : Except SystemError ProcessMaps :=
  (files.readText path).map parse

/-- The maps file of a process. -/
def fileOf (pid : UInt32) : Path := .ofString ("/proc/" ++ toString pid ++ "/maps")

/-- Names an address after the first mapping that contains it. -/
def resolve (maps : ProcessMaps) : Symbols := fun address =>
  (maps.mappings.find? (·.contains address)).map (·.nameOf address)

end ProcessMaps

/-- Names the addresses in a list and no others; of two names of an address the later one counts. -/
def Symbols.ofList (names : List (UInt64 × String)) : Symbols := fun address =>
  names.reverse.lookup address

/-- A source of symbols for processes, or the error of not finding any. -/
abbrev Backend := UInt32 → Except SystemError Symbols

namespace Backend

/-- The symbols in the maps file of the process. -/
def processMaps (files : Files) : Backend := fun pid =>
  (ProcessMaps.ofFile files (ProcessMaps.fileOf pid)).map ProcessMaps.resolve

end Backend
end CounterWatch
