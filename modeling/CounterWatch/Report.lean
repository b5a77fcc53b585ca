import CounterWatch.Bytes
import CounterWatch.SystemError

/-!
# Report — the counts of a whole group

A group is read through its leader.  The report is a row of little-endian words: the number of
counters, the time the group was enabled, the time it was counting, and one count per counter.
Bytes behind the last announced count are left alone.
-/

namespace CounterWatch

/-- The decoded report of a group, counts in group order. -/
structure Report where
  timeEnabled : UInt64
  timeRunning : UInt64
  counts : List UInt64
  deriving DecidableEq

namespace Report

/-- The number of bytes of the report of a group with so many counters. -/
def byteSize (counters : Nat) : Nat := (3 + counters) * 8

/-- Why bytes are no report. -/
inductive Fault where
  /-- The first three words are not all there. -/
  | truncated
  /-- More counters are announced than there are words for. -/
  | tooMany (announced : UInt64) (size : Nat)
  deriving DecidableEq

/-- The wording of each fault. -/
def Fault.message : Fault → String
  | .truncated => "truncated read format"
  | .tooMany announced size =>
      "read format reports " ++ toString announced ++ " counters, too many for " ++
        toString size ++ " bytes"

/-- The error that stands for a fault. -/
def Fault.error (fault : Fault) : SystemError := .custom .invalidData fault.message

/-- Reads a report. -/
def decode (b : Bytes) : Except Fault Report :=
  match Bytes.words b with
  | announced :: timeEnabled :: timeRunning :: rest =>
      if announced.toNat ≤ rest.length then
        .ok { timeEnabled, timeRunning, counts := rest.take announced.toNat }
      else .error (.tooMany announced b.length)
  | _ => .error .truncated

/-- Writes a report. -/
def encode (r : Report) : Bytes :=
  Bytes.ofWords (UInt64.ofNat r.counts.length :: r.timeEnabled :: r.timeRunning :: r.counts)

/-- The share of its enabled time that a group was counting: less than one if it had to take turns
with others, and one if it was never enabled. -/
def share (timeEnabled timeRunning : UInt64) : Float :=
  if timeEnabled = 0 then 1.0
  else
    let quotient := timeRunning.toFloat / timeEnabled.toFloat
    if quotient < 1.0 then quotient else 1.0

/-- The share of a report. -/
def ratio (r : Report) : Float := share r.timeEnabled r.timeRunning

end Report
end CounterWatch
