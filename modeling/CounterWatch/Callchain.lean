import CounterWatch.Bytes
import CounterWatch.Text.Numeral

/-!
# Callchain — call chains as text

A sample record carries the addresses of one call chain.  It becomes its frames joined by semicolons
and closed by a bar; a frame is the symbol of its address, or the address itself in sixteen
hexadecimal digits.

* `addresses` — takes a record apart: which addresses it carries, or why it is dropped.
* `chain` — writes addresses down.
* `render` — appends the chain of a record to a text.
-/

namespace CounterWatch

/-- The names of instruction addresses, as far as they are known. -/
abbrev Symbols := UInt64 → Option String

/-- Knows no name at all. -/
def Symbols.none : Symbols := fun _ => Option.none

/-- How call chains are written. -/
structure Callchain where
  symbols : Symbols
  /-- Samples with more addresses are dropped. -/
  maxDepth : UInt64

namespace Callchain

/-- The record type of samples. -/
def sampleType : UInt32 := 9

/-- Why a record yields no call chain. -/
inductive Refusal where
  /-- There is no room for the number of addresses. -/
  | short
  | notSample (type : UInt32)
  | tooDeep (addresses limit : UInt64)
  /-- More addresses are announced than there is room for. -/
  | truncated (addresses : UInt64) (size : Nat)
  deriving DecidableEq

/-- The addresses of a sample record: the header word, the number of addresses, the addresses. -/
def addresses (maxDepth : UInt64) (record : Bytes) : Except Refusal (List UInt64) :=
  match Bytes.words record with
  | header :: announced :: rest =>
      if header.toUInt32 ≠ sampleType then .error (.notSample header.toUInt32)
      else if maxDepth < announced then .error (.tooDeep announced maxDepth)
      else if rest.length < announced.toNat then .error (.truncated announced record.length)
      else .ok (rest.take announced.toNat)
  | _ => .error .short

/-- An address in sixteen hexadecimal digits. -/
def rawFrame (address : UInt64) : String :=
  "0x" ++ String.ofList (Text.hexPlaces 16 address.toNat)

/-- An address as it is written in a chain. -/
def frame (c : Callchain) (address : UInt64) : String :=
  (c.symbols address).getD (rawFrame address)

/-- Addresses as one chain. -/
def chain (c : Callchain) (addresses : List UInt64) : String :=
  ";".intercalate (addresses.map c.frame) ++ "|"

/-- The text with the chain of a record behind it. -/
def render (c : Callchain) (record : Bytes) (out : String) : Except Refusal String :=
  (addresses c.maxDepth record).map fun a => out ++ c.chain a

end Callchain
end CounterWatch
